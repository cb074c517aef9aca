import P2pDdns.Announcements
import P2pDdns.Emissions
import P2pDdns.MessageFormats
import P2pDdns.Provenance
import P2pDdns.SyncJoin

/-!
How a newcomer becomes part of a network. It is trusted by the daemon whose ticket it was given
once its join is heard, and knows whoever that daemon knows once its request is answered. What
either of them does in between may be anything but the removal of the other.
-/

set_option autoImplicit false

namespace P2pDdns
open Std FiniteMaps Relation NewestWins

variable {codecs : Codecs}

/-! Trust lasts. -/

section Trust
variable {id : EndpointId}

def LoopEvent.Removes (platform : Platform) (p : Process) (id : EndpointId) : LoopEvent → Prop
  | .command client cmd env _ _ => (Event.command client cmd env).Removes platform.codecs p.daemon id
  | _ => False

variable {platform : Platform} {p : Process} {e : LoopEvent}

theorem Process.step_keeps_trust (hkept : ¬ e.Removes platform p id)
    (h : id ∈ p.daemon.ctx.trustedNodes) :
    id ∈ (p.step platform e).1.daemon.ctx.trustedNodes := by
  have hother : ∀ (u : Daemon) (ev : Event), (∀ client cmd env, ev ≠ .command client cmd env) →
      id ∈ u.ctx.trustedNodes → id ∈ (u.step platform.codecs ev).ctx.trustedNodes := by
    intro u ev hev hu
    refine P2pDdns.step_keeps_trust ?_ hu
    cases ev with
    | command client cmd env => exact absurd rfl (hev client cmd env)
    | _ => simp [Event.Removes]
  cases e with
  | command client cmd env responded shutdown =>
    have hcommand := P2pDdns.step_keeps_trust hkept h
    unfold Process.step
    split
    · exact h
    · simp only [Process.turn]
      split
      · -- The shutdown after the response only saves.
        refine moves_induct (I := fun u : Daemon => id ∈ u.ctx.trustedNodes)
          (e := .sigterm shutdown) (gracefulShutdown_moves List.mem_cons_self) hcommand ?_
          fun _ _ hu => hu
        intro u ev hev
        obtain rfl := List.mem_singleton.mp hev
        exact hother u _ (by simp)
      · exact hcommand
  | _ =>
    refine moves_induct (I := fun u : Daemon => id ∈ u.ctx.trustedNodes) (step_moves platform p _) h
      ?_ fun _ _ hu => hu
    intro u ev hev
    refine hother u ev ?_
    rintro client cmd env rfl
    obtain ⟨_, _, heq⟩ := LoopEvent.command_of_mem hev
    contradiction

def Process.Spares (platform : Platform) (id : EndpointId) : Process → List LoopEvent → Prop
  | _, [] => True
  | p, e :: es => ¬ e.Removes platform p id ∧ Spares platform id (p.step platform e).1 es

theorem Process.run_keeps_trust {es : List LoopEvent} (hspares : p.Spares platform id es)
    (h : id ∈ p.daemon.ctx.trustedNodes) :
    id ∈ (p.run platform es).1.daemon.ctx.trustedNodes := by
  induction es generalizing p with
  | nil => exact h
  | cons e es ih => exact ih hspares.2 (p.step_keeps_trust hspares.1 h)

end Trust
/-! The two messages that are heard. -/

section Heard
variable {ctx : Context} {signed : SignedMessage} {env : Readings}

/-- An announced daemon is trusted, unless its id is taken for a client. -/
theorem accepted_trusted (ht : TrustTable ctx) {ann : Announcement}
    (haccepts : Accepts ctx signed env ann) (hother : signed.sender ≠ ctx.me.nodeId)
    (hmark : SERVICE_MARKER_CLIENT ∉ ann.services)
    (hclient : ∀ old : Node, ctx.nodes[signed.sender]? = some old → isDaemonNode old = true) :
    signed.sender ∈ (ctx.receive signed env).1.trustedNodes := by
  by_cases htrusted : signed.sender ∈ ctx.trustedNodes
  · exact receive_keeps_trust signed env htrusted
  · have hstranger : ctx.refreshed signed env = ctx := by
      unfold Context.refreshed
      rw [if_neg fun hpassed => htrusted (status_passed.mp hpassed).1]
    rw [receive_accepted haccepts, hstranger, Context.admitNode,
      Context.upsertActiveNode_trustedNodes]
    have hid := ht.merged_nodeId signed.sender (rfl : (ann.incoming signed.sender env).nodeId = _)
    have hd : isDaemonNode
        (mergeNode ctx.nodes[signed.sender]? (ann.incoming signed.sender env)).1 = true := by
      refine mergeNode_induct (P := fun node => isDaemonNode node = true) ?_ hclient ?_
      · exact fun node addr h => h
      · exact isDaemonNode_iff.mpr hmark
    have hmem := ht.mem_trustDaemonNode (by rwa [hid]) hd
    rwa [hid] at hmem

/-- After a passed sync message every daemon of the list is held at least as new, and trusted. -/
theorem listed_known (ht : TrustTable ctx) {nodes : List Node} (hpassed : Passed ctx signed env)
    (hsync : Syncs signed nodes) {node : Node} (hnode : node ∈ nodes)
    (hd : isDaemonNode node = true) (hme : node.nodeId ≠ ctx.me.nodeId) :
    ∃ new : Node, (ctx.receive signed env).1.nodes[node.nodeId]? = some new ∧
      node.lastHeartbeat ≤ new.lastHeartbeat ∧
      (isDaemonNode new = true → node.nodeId ∈ (ctx.receive signed env).1.trustedNodes) := by
  have hreceive : (ctx.receive signed env).1 =
      Context.syncNodes signed.sender env.observed 0 nodes (ctx.refreshed signed env) := by
    have heq := passed_sync ctx (m := (signed, env)) ⟨hpassed, nodes, hsync⟩
    rcases hsync with hmsg | hmsg <;> rwa [hmsg] at heq
  have hcovers : Covers Node.lastHeartbeat (ctx.receive signed env).1.nodes[node.nodeId]?
      node.lastHeartbeat := by
    rw [hreceive]
    exact syncNodes_covers_listed 0 hnode (by rwa [refreshed_me]) hd
  obtain ⟨new, hnew, hle⟩ := hcovers
  refine ⟨new, hnew, hle, fun hd' => ?_⟩
  have hme' := (receive_frame ctx signed env).1
  exact (ht.receive signed env).daemonsTrusted node.nodeId new hnew (by rwa [hme']) hd'

end Heard
/-! The processes. -/

section Processes
variable {platform : Platform} {p : Process} {e : LoopEvent} {signed : SignedMessage}
  {env : Readings} {reply : SendReadings}

theorem LoopEvent.Receives.ctx_eq (h : e.Receives signed env reply) (platform : Platform)
    (hactive : p.stopped = false) :
    (p.step platform e).1.daemon.ctx = (p.daemon.ctx.receive signed env).1 := by
  unfold Process.step
  rw [if_neg (by simp [hactive])]
  rcases h with rfl | rfl <;> rfl

theorem LoopEvent.Receives.emitted (h : e.Receives signed env reply) {em : Emission}
    (hem : em ∈ (p.step platform e).2) :
    AsksDaemon p.daemon.ctx signed ∧ em.message =
      .syncResponse ((p.daemon.ctx.receive signed env).1.knownDaemons env) := by
  have hreceive : em ∈ (p.receive platform (some signed) env reply).2 := by
    unfold Process.step at hem
    split at hem
    · contradiction
    · rcases h with rfl | rfl <;> exact hem
  obtain ⟨_, target, heq, hasks, rfl⟩ := mem_receive hreceive
  obtain rfl := Option.some.inj heq
  exact ⟨hasks, rfl⟩

end Processes
section Given
variable {args : DaemonArgs} {storage : Storage} {env : StartReadings} {ctx : Context}
  {text : String} {ticket : Ticket}

theorem initNetwork_given (h : initNetwork codecs args storage env = .ok ctx)
    (hsecondary : args.primary = false) (htext : args.ticket = some text)
    (hparse : Ticket.fromStr codecs text = .ok ticket) :
    ctx.ticket = ticket ∧ ctx.me.services = ∅ ∧
      (isDaemonNode ticket.invitor = true → ticket.invitor.nodeId ≠ ctx.me.nodeId →
        ticket.invitor.nodeId ∈ ctx.trustedNodes) := by
  have hticket : parseArgTicket codecs args = .ok (some ticket) := by
    simp [parseArgTicket, htext, hparse, Except.map]
  simp only [initNetwork, hticket, networkTicket, hsecondary, bind, Except.bind] at h
  obtain ⟨rfl⟩ := h
  exact ⟨rfl, rfl, fun hd hne => mem_startTrustedNodes hd hne (.inr rfl)⟩

end Given
/-! The newcomer and the daemon whose ticket it was given. -/

/-- A newcomer starts, its join is heard, its request is answered, and it hears the answer. -/
structure Exchange (platform host : Platform) where
  start : Start platform.codecs
  hostsFile : List UInt8
  env : LaunchReadings
  hostStart : Start host.codecs
  hostHostsFile : List UInt8
  hostEnv : LaunchReadings
  before : List LoopEvent
  heard : LoopEvent
  between : List LoopEvent
  asked : LoopEvent
  meanwhile : List LoopEvent
  answered : LoopEvent

namespace Exchange
variable {platform host : Platform} (x : Exchange platform host)

def newcomerId : EndpointId := x.start.ctx.me.nodeId
def hostId : EndpointId := x.hostStart.ctx.me.nodeId

def waiting : Process × List Emission :=
  let launched := x.start.launch platform x.hostsFile x.env
  let (p, emitted) := launched.1.run platform x.meanwhile
  (p, launched.2 ++ emitted)

def joined : Process := (x.waiting.1.step platform x.answered).1

def hearing : Process :=
  ((x.hostStart.launch host x.hostHostsFile x.hostEnv).1.run host x.before).1

def heardJoin : Process := (x.hearing.step host x.heard).1

def beingAsked : Process := (x.heardJoin.run host x.between).1

def answer : Process × List Emission := x.beingAsked.step host x.asked

structure Invited : Prop where
  daemon : x.start.args.daemon = true
  secondary : x.start.args.primary = false
  hostDaemon : x.hostStart.args.daemon = true
  others : x.hostId ≠ x.newcomerId
  ticket : ∃ text ticket, x.start.args.ticket = some text ∧
    Ticket.fromStr platform.codecs text = .ok ticket ∧
    ticket.topic = x.hostStart.ctx.ticket.topic ∧ ticket.rnum = x.hostStart.ctx.ticket.rnum ∧
    ticket.invitor.nodeId = x.hostId ∧ isDaemonNode ticket.invitor = true

/-- The messages arrive, addresses as they may, and while they are under way neither removes the
other. -/
structure Completed : Prop where
  hearing : x.hearing.stopped = false
  heard : ∃ em ∈ x.waiting.2, em.invites = true ∧ ∃ message env reply,
    message.withoutAddrs = em.message.withoutAddrs ∧
      x.heard.Receives ⟨x.newcomerId, message, em.timestamp⟩ env reply ∧
      (⟨x.newcomerId, message, em.timestamp⟩ : SignedMessage).isFresh env.verifyNow = true
  noClient : ∀ old : Node, x.hearing.daemon.ctx.nodes[x.newcomerId]? = some old →
    isDaemonNode old = true
  hostSpares : x.heardJoin.Spares host x.newcomerId x.between
  beingAsked : x.beingAsked.stopped = false
  asked : ∃ nodes timestamp env reply,
    x.asked.Receives ⟨x.newcomerId, .syncRequest nodes, timestamp⟩ env reply
  waiting : x.waiting.1.stopped = false
  answered : ∃ em ∈ x.answer.2, ∃ message env reply, message.withoutAddrs = em.message.withoutAddrs ∧
    x.answered.Receives ⟨x.hostId, message, em.timestamp⟩ env reply ∧
      (⟨x.hostId, message, em.timestamp⟩ : SignedMessage).isFresh env.verifyNow = true
  spares : (x.start.launch platform x.hostsFile x.env).1.Spares platform x.hostId x.meanwhile

variable {x}

theorem heardJoin_trusts (hinvited : x.Invited) (h : x.Completed) :
    x.newcomerId ∈ x.heardJoin.daemon.ctx.trustedNodes := by
  obtain ⟨em, hem, hinvites, message, env, reply, hsent, hreceives, hfresh⟩ := h.heard
  obtain ⟨text, ticket, htext, hparse, htopic, hrnum, -, -⟩ := hinvited.ticket
  obtain ⟨hgiven, hservices, -⟩ :=
    initNetwork_given x.start.started hinvited.secondary htext hparse
  obtain ⟨-, -, addr, hmsg⟩ := launched_run_invites hem hinvites
  rw [hmsg] at hsent
  obtain ⟨addr', hheard⟩ := Message.withoutAddrs_eq_invited hsent
  obtain ⟨hme, -, hticket⟩ :=
    @launched_run_frame host x.hostStart x.hostHostsFile x.hostEnv x.before
  have haccepts : Accepts x.hearing.daemon.ctx ⟨x.newcomerId, message, em.timestamp⟩ env
      ⟨addr', x.start.ctx.me.domain, x.start.ctx.me.services, x.start.ctx.me.invitor⟩ := by
    refine .inr ⟨?_, hfresh⟩
    rw [hheard, hgiven, htopic, hrnum]
    exact hticket ▸ rfl
  rw [heardJoin, hreceives.ctx_eq host h.hearing]
  refine accepted_trusted ?_ haccepts ?_ ?_ h.noClient
  · exact Process.run_trustTable host x.before
      (launch_trustTable x.hostStart x.hostHostsFile x.hostEnv)
  · rw [hearing, hme]
    exact hinvited.others.symm
  · simp [hservices]

theorem waiting_trusts (hinvited : x.Invited) (h : x.Completed) :
    x.hostId ∈ x.waiting.1.daemon.ctx.trustedNodes := by
  obtain ⟨text, ticket, htext, hparse, -, -, hid, hd⟩ := hinvited.ticket
  obtain ⟨-, -, htrusts⟩ := initNetwork_given x.start.started hinvited.secondary htext hparse
  have hstart : x.hostId ∈ x.start.daemon.ctx.trustedNodes := by
    rw [hid] at htrusts
    exact htrusts hd hinvited.others
  have hlaunched := moves_induct (I := fun d : Daemon => x.hostId ∈ d.ctx.trustedNodes)
    (e := .exited) (launch_moves x.hostsFile x.env) hstart (by simp [LoopEvent.events])
    fun _ _ hu => hu
  exact Process.run_keeps_trust h.spares hlaunched

/-- A newcomer whose join and request are heard, and who hears the answer, is trusted by the host
and trusts it, and knows every daemon the host knows, at least as new. -/
theorem newcomer_knows_all (hinvited : x.Invited) (h : x.Completed) :
    x.newcomerId ∈ x.answer.1.daemon.ctx.trustedNodes ∧
    x.hostId ∈ x.joined.daemon.ctx.trustedNodes ∧
    ∀ (id : EndpointId) (node : Node), x.answer.1.daemon.ctx.nodes[id]? = some node →
      isDaemonNode node = true → id ≠ x.newcomerId →
      ∃ new : Node, x.joined.daemon.ctx.nodes[id]? = some new ∧
        node.lastHeartbeat ≤ new.lastHeartbeat ∧
        (isDaemonNode new = true → id ∈ x.joined.daemon.ctx.trustedNodes) := by
  obtain ⟨nodes, timestamp, askedEnv, askedReply, hasked⟩ := h.asked
  obtain ⟨em, hem, message, env, reply, hsent, hanswered, hfresh⟩ := h.answered
  have hanswer := hasked.ctx_eq host h.beingAsked
  have hjoined := hanswered.ctx_eq platform h.waiting
  have htrusts := waiting_trusts hinvited h
  have htable : TrustTable x.waiting.1.daemon.ctx :=
    Process.run_trustTable platform x.meanwhile (launch_trustTable x.start x.hostsFile x.env)
  have hhosttable : TrustTable x.beingAsked.daemon.ctx :=
    Process.run_trustTable host x.between (Process.step_trustTable host x.heard
      (Process.run_trustTable host x.before
        (launch_trustTable x.hostStart x.hostHostsFile x.hostEnv)))
  obtain ⟨-, hmsg⟩ := hasked.emitted hem
  rw [hmsg] at hsent
  obtain ⟨listed, rfl, hlisted⟩ := Message.withoutAddrs_eq_syncResponse hsent
  refine ⟨?_, ?_, ?_⟩
  · rw [answer, hanswer]
    exact receive_keeps_trust _ _
      (Process.run_keeps_trust h.hostSpares (heardJoin_trusts hinvited h))
  · rw [joined, hjoined]
    exact receive_keeps_trust _ _ htrusts
  · intro id node hnode hd hid
    rw [answer, hanswer] at hnode
    have hkey := (hhosttable.receive _ _).nodesKeyed id node hnode
    obtain ⟨node', hnode', hsame, hdaemon, hheartbeat⟩ :=
      mem_of_withoutAddr hlisted (mem_knownDaemons hnode hd)
    rw [hkey] at hsame
    have hknown := listed_known htable ⟨htrusts, hfresh⟩ (.inr rfl) hnode' (hdaemon.trans hd) ?_
    · rw [hsame, hheartbeat] at hknown
      rw [joined, hjoined]
      exact hknown
    · obtain ⟨hme, -, -⟩ := @launched_run_frame platform x.start x.hostsFile x.env x.meanwhile
      rw [hsame]
      exact hme ▸ hid

end Exchange

namespace Sample

/-! Alice starts a network, and bob joins it with the text of her ticket. -/

def onTerminal : Platform :=
  { codecs := onWire, interactive := true, windows := false, hostsSuffix := none,
    errorText := fun _ => "No such file or directory (os error 2)" }

def alicesReadings : StartReadings := { startReadings with generatedKey := alice }

def alicesTicket : Ticket := ⟨6, [5], record alice "alice" [1] 1000⟩

def firstContext (id : EndpointId) (args : DaemonArgs) (me : Node) (invitor : Option Node) :
    Context :=
  let storage : Storage := { secret := some id, topic := some 6, ticketRnum := some [5], nodes := ∅ }
  { storage := storage
    staticProvider := startStaticProvider id storage.loadNodes invitor .byId
    ticket := alicesTicket
    nodes := startBootstrapNodes id storage.loadNodes invitor
    trustedNodes := startTrustedNodes id storage.loadNodes invitor
    me := me
    args := args
    startedAt := 1000
    paused := false
    hostsSync :=
      { enabled := false, path := none, cleanupOnShutdown := false, lastSuccess := none,
        lastCleanup := none, lastError := none } }

def alicesStart : Start onWire where
  args := args
  storage := .clear
  env := alicesReadings
  ctx := firstContext alice args (record alice "alice" [1] 1000) none
  started := rfl

def bobsArgs (text : String) : DaemonArgs :=
  { args with primary := false, domain := some "bob", ticket := some text }

def bobsReadings : StartReadings :=
  { startReadings with
    generatedKey := bob, advertisedAddr := .fromParts bob [.ip (sock 2)], now := 1005 }

theorem alicesTicket_parses :
    Ticket.fromStr onWire (alicesTicket.toString onWire) = .ok alicesTicket := by
  refine (fromStr_toString_iff _ _ _ alicesTicket).mpr ⟨by decide, ?_⟩
  intro socket h
  simp only [alicesTicket, record, EndpointAddr.mem_fromParts, List.map_cons, List.map_nil,
    List.mem_cons, TransportAddr.ip.injEq, List.not_mem_nil, or_false] at h
  subst h
  trivial

def startOn (text : String) (htext : Ticket.fromStr onWire text = .ok alicesTicket) :
    Start onWire where
  args := bobsArgs text
  storage := .clear
  env := bobsReadings
  ctx := firstContext bob (bobsArgs text) (record bob "bob" [2] 1005) (some alicesTicket.invitor)
  started := by
    have hticket : parseArgTicket onWire (bobsArgs text) = .ok (some alicesTicket) := by
      simp only [parseArgTicket, bobsArgs, htext, Except.map]
    simp only [initNetwork, hticket]
    rfl

def bobsStart : Start onWire := startOn (alicesTicket.toString onWire) alicesTicket_parses

def launchReadings (id : EndpointId) (host : BitVec 8) (now : Nat) : LaunchReadings :=
  let send : SendReadings := ⟨.fromParts id [.ip (sock host)], now, now, true⟩
  { announce := send
    hosts := ⟨etcHosts, swapped, send.ownAddr, send.ownAddr, now, now, .byId⟩
    sync := send }

def bobsJoin : Message :=
  .invited 6 [5] (.fromParts bob [.ip (sock 2)]) "bob" ∅ alice

example : (bobsStart.launch onTerminal [] (launchReadings bob 2 1005)).2 =
    [⟨.gossip, bobsJoin, 1005, true⟩, ⟨.neighbors, .syncRequest [], 1005, true⟩] := by decide

def replies (id : EndpointId) (host : BitVec 8) (now : Nat) : SendReadings :=
  ⟨.fromParts id [.ip (sock host)], now, now, true⟩

def joinHeard : LoopEvent :=
  .gosRecv (.received (some ⟨bob, bobsJoin, 1005⟩) (readings 1006) (replies alice 1 1006))

def requestHeard : LoopEvent :=
  .spRecv (some ⟨bob, .syncRequest [], 1005⟩) (readings 1006) (replies alice 1 1006)

def alicesAnswer : Message :=
  .syncResponse [record bob "bob" [2] 1006, record alice "alice" [1] 1006]

def answerHeard : LoopEvent :=
  .spRecv (some ⟨alice, alicesAnswer.carried, 1006⟩) (readings 1007) (replies bob 2 1007)

def bobsExchange : Exchange onTerminal onTerminal where
  start := bobsStart
  hostsFile := []
  env := launchReadings bob 2 1005
  hostStart := alicesStart
  hostHostsFile := []
  hostEnv := launchReadings alice 1 1000
  before := []
  heard := joinHeard
  between := []
  asked := requestHeard
  meanwhile := []
  answered := answerHeard

theorem bobsExchange_invited : bobsExchange.Invited where
  daemon := rfl
  secondary := rfl
  hostDaemon := rfl
  others := by decide
  ticket := ⟨_, alicesTicket, rfl, alicesTicket_parses, rfl, rfl, rfl, by decide⟩

theorem bobsExchange_completed : bobsExchange.Completed where
  hearing := by decide
  heard := ⟨⟨.gossip, bobsJoin, 1005, true⟩, by decide, rfl, _, _, _, rfl, .inr rfl, by decide⟩
  noClient old hold := by
    have hnone : bobsExchange.hearing.daemon.ctx.nodes[bobsExchange.newcomerId]? = none := by decide
    rw [hnone] at hold
    contradiction
  hostSpares := trivial
  beingAsked := by decide
  asked := ⟨[], 1005, _, _, .inl rfl⟩
  waiting := by decide
  answered := ⟨⟨.direct (.fromParts bob [.ip (sock 2)]), alicesAnswer, 1006, true⟩, by decide,
    _, _, _, Message.withoutAddrs_carried (by decide), .inl rfl, by decide⟩
  spares := trivial

theorem bobsExchange_known :
    let alice := bobsExchange.answer.1.daemon.ctx
    let joined := bobsExchange.joined.daemon.ctx
    bobsExchange.newcomerId ∈ alice.trustedNodes ∧ bobsExchange.hostId ∈ joined.trustedNodes ∧
    ∀ (id : EndpointId) (node : Node), alice.nodes[id]? = some node →
      isDaemonNode node = true → id ≠ bobsExchange.newcomerId →
      ∃ new : Node, joined.nodes[id]? = some new ∧ node.lastHeartbeat ≤ new.lastHeartbeat ∧
        (isDaemonNode new = true → id ∈ joined.trustedNodes) :=
  Exchange.newcomer_knows_all bobsExchange_invited bobsExchange_completed

end Sample
end P2pDdns
