import P2pDdns.Joining

/-!
Two daemons that answer each other's sync requests agree on everybody else: each holds whoever the
other lists as a daemon, as new as the other does.
-/

set_option autoImplicit false

namespace P2pDdns
open Std FiniteMaps NewestWins

/-- Whoever one of them lists as a daemon the other holds, as new if it lists it as a daemon. -/
def HoldsSame (ctx ctx' : Context) (id : EndpointId) : Prop :=
  ∀ node : Node, ctx.nodes[id]? = some node → isDaemonNode node = true →
    ∃ held : Node, ctx'.nodes[id]? = some held ∧
      (isDaemonNode held = true → held.lastHeartbeat = node.lastHeartbeat)

section Lists
variable {ctx other : Context} {signed : SignedMessage} {env readings : Readings} {id : EndpointId}

theorem of_mem_knownDaemons (hkeyed : NodesKeyed ctx) (hid : id ≠ ctx.me.nodeId) {node : Node}
    (hnode : node ∈ ctx.knownDaemons env) (hnodeId : node.nodeId = id) :
    ctx.nodes[id]? = some node ∧ isDaemonNode node = true := by
  rcases List.mem_append.mp hnode with hlisted | hown
  · obtain ⟨hmem, hd⟩ := List.mem_filter.mp hlisted
    obtain ⟨⟨key, _⟩, hwalk, rfl⟩ := List.mem_map.mp hmem
    rw [IterOrder.mem_walk] at hwalk
    have hkey := hkeyed key _ hwalk
    rw [hnodeId] at hkey
    exact ⟨hkey ▸ hwalk, hd⟩
  · obtain rfl := List.mem_singleton.mp hown
    exact absurd hnodeId.symm hid

variable {nodes : List Node} (hmsg : signed.message = .syncResponse nodes)
  (hlisted : nodes.map withoutAddr = (other.knownDaemons readings).map withoutAddr)
include hmsg hlisted

/-- A passed answer leaves every daemon it lists held at least as new. -/
theorem answer_covers (ht : TrustTable ctx) (hother : TrustTable other)
    (hpassed : Passed ctx signed env) (hid : id ≠ ctx.me.nodeId) {node : Node}
    (hnode : other.nodes[id]? = some node) (hd : isDaemonNode node = true) :
    ∃ held : Node, (ctx.receive signed env).1.nodes[id]? = some held ∧
      node.lastHeartbeat ≤ held.lastHeartbeat := by
  have hkey := hother.nodesKeyed id node hnode
  obtain ⟨node', hnode', hsame, hdaemon, hheartbeat⟩ :=
    mem_of_withoutAddr hlisted (mem_knownDaemons hnode hd)
  rw [hkey] at hsame
  obtain ⟨held, hheld, hle, -⟩ := listed_known ht hpassed (.inr hmsg) hnode' (hdaemon.trans hd)
    (by rw [hsame]; exact hid)
  exact ⟨held, hsame ▸ hheld, hheartbeat ▸ hle⟩

/-- A record held after a passed answer was held before, or is as new as the answer's. -/
theorem answer_origin (ht : TrustTable ctx) (hother : TrustTable other)
    (hpassed : Passed ctx signed env) (hsender : id ≠ signed.sender) (hid : id ≠ other.me.nodeId)
    {held : Node} (hheld : (ctx.receive signed env).1.nodes[id]? = some held) :
    ctx.nodes[id]? = some held ∨ ∃ node, other.nodes[id]? = some node ∧
      isDaemonNode node = true ∧ held.lastHeartbeat = node.lastHeartbeat := by
  have hone := passed_sync ctx (m := (signed, env)) ⟨hpassed, _, .inr hmsg⟩
  rw [Context.deliverOne, hmsg] at hone
  dsimp only at hone
  rw [hone, getElem?_syncNodes hsender, refreshed_nodes_ne ht.nodesKeyed hsender] at hheld
  rcases absorbAll_stamp replaceNode_lastHeartbeat hheld with hold | ⟨node, hnode, hstamp⟩
  · exact .inl hold
  · obtain ⟨hmem, hcons⟩ := List.mem_filter.mp hnode
    simp only [considered, Bool.and_eq_true, decide_eq_true_eq] at hcons
    obtain ⟨node', hnode', hsame, -, hheartbeat⟩ := mem_of_withoutAddr hlisted.symm hmem
    obtain ⟨hfound, hd⟩ := of_mem_knownDaemons hother.nodesKeyed hid hnode' (hsame.trans hcons.1.1)
    exact .inr ⟨node', hfound, hd, hstamp.trans hheartbeat.symm⟩

omit hmsg hlisted

theorem request_nodes (ht : TrustTable ctx) (hmsg : signed.message = .syncRequest [])
    (hsender : id ≠ signed.sender) :
    (ctx.receive signed env).1.nodes[id]? = ctx.nodes[id]? := by
  rw [receive_eq, hmsg, syncRequest_ctx]
  split
  · exact refreshed_nodes_ne ht.nodesKeyed hsender
  · exact refreshed_nodes_ne ht.nodesKeyed hsender

end Lists

/-! Two daemons, each of which asks the other. -/

theorem LoopEvent.Receives.stopped_eq {platform : Platform} {p : Process} {e : LoopEvent}
    {signed : SignedMessage} {env : Readings} {reply : SendReadings}
    (h : e.Receives signed env reply) : (p.step platform e).1.stopped = p.stopped := by
  unfold Process.step
  split
  · rfl
  · rcases h with rfl | rfl <;> rfl

/-- A daemon asks a host for its records and hears the answer; then the host asks it. -/
structure MutualSync (platform host : Platform) where
  start : Start platform.codecs
  hostsFile : List UInt8
  env : LaunchReadings
  before : List LoopEvent
  hostStart : Start host.codecs
  hostHostsFile : List UInt8
  hostEnv : LaunchReadings
  hostBefore : List LoopEvent
  asked : LoopEvent
  answered : LoopEvent
  askedBack : LoopEvent
  answeredBack : LoopEvent

namespace MutualSync
variable {platform host : Platform} (x : MutualSync platform host)

def askerId : EndpointId := x.start.ctx.me.nodeId
def hostId : EndpointId := x.hostStart.ctx.me.nodeId

def asking : Process := ((x.start.launch platform x.hostsFile x.env).1.run platform x.before).1

def beingAsked : Process :=
  ((x.hostStart.launch host x.hostHostsFile x.hostEnv).1.run host x.hostBefore).1

def answer : Process × List Emission := x.beingAsked.step host x.asked

def informed : Process := (x.asking.step platform x.answered).1

def answerBack : Process × List Emission := x.informed.step platform x.askedBack

def hostInformed : Process := (x.answer.1.step host x.answeredBack).1

/-- The answers arrive, addresses as they may, and pass. The requests list nobody, as those of the
timers. -/
structure Completed : Prop where
  asking : x.asking.stopped = false
  beingAsked : x.beingAsked.stopped = false
  asked : ∃ timestamp env reply,
    x.asked.Receives ⟨x.askerId, .syncRequest [], timestamp⟩ env reply
  answered : ∃ em ∈ x.answer.2, ∃ message env reply, message.withoutAddrs = em.message.withoutAddrs ∧
    x.answered.Receives ⟨x.hostId, message, em.timestamp⟩ env reply ∧
      Passed x.asking.daemon.ctx ⟨x.hostId, message, em.timestamp⟩ env
  askedBack : ∃ timestamp env reply,
    x.askedBack.Receives ⟨x.hostId, .syncRequest [], timestamp⟩ env reply
  answeredBack : ∃ em ∈ x.answerBack.2, ∃ message env reply,
    message.withoutAddrs = em.message.withoutAddrs ∧
    x.answeredBack.Receives ⟨x.askerId, message, em.timestamp⟩ env reply ∧
      Passed x.answer.1.daemon.ctx ⟨x.askerId, message, em.timestamp⟩ env

variable {x}

theorem asking_trustTable (x : MutualSync platform host) : TrustTable x.asking.daemon.ctx :=
  Process.run_trustTable platform x.before (launch_trustTable x.start x.hostsFile x.env)

theorem answer_trustTable (x : MutualSync platform host) : TrustTable x.answer.1.daemon.ctx :=
  Process.step_trustTable host x.asked (Process.run_trustTable host x.hostBefore
    (launch_trustTable x.hostStart x.hostHostsFile x.hostEnv))

theorem informed_trustTable (x : MutualSync platform host) : TrustTable x.informed.daemon.ctx :=
  Process.step_trustTable platform x.answered x.asking_trustTable

theorem answerBack_trustTable (x : MutualSync platform host) :
    TrustTable x.answerBack.1.daemon.ctx :=
  Process.step_trustTable platform x.askedBack x.informed_trustTable

theorem asking_me (x : MutualSync platform host) : x.asking.daemon.ctx.me = x.start.ctx.me :=
  (launched_run_frame x.hostsFile x.env x.before).1

theorem answer_me (x : MutualSync platform host) :
    x.answer.1.daemon.ctx.me = x.hostStart.ctx.me :=
  (run_frame host x.beingAsked [x.asked]).1.trans
    (launched_run_frame x.hostHostsFile x.hostEnv x.hostBefore).1

theorem answerBack_me (x : MutualSync platform host) :
    x.answerBack.1.daemon.ctx.me = x.start.ctx.me :=
  (run_frame platform x.asking [x.answered, x.askedBack]).1.trans x.asking_me

theorem Completed.informed (h : x.Completed) {id : EndpointId} (hasker : id ≠ x.askerId) :
    ∀ node : Node, x.answer.1.daemon.ctx.nodes[id]? = some node → isDaemonNode node = true →
      ∃ held : Node, x.informed.daemon.ctx.nodes[id]? = some held ∧
        node.lastHeartbeat ≤ held.lastHeartbeat := by
  intro node hnode hd
  obtain ⟨timestamp, askedEnv, askedReply, hasked⟩ := h.asked
  obtain ⟨em, hem, message, env, reply, hsent, hanswered, hpassed⟩ := h.answered
  obtain ⟨-, hmsg⟩ := hasked.emitted hem
  rw [← hasked.ctx_eq host h.beingAsked] at hmsg
  rw [hmsg] at hsent
  obtain ⟨nodes, rfl, hlisted⟩ := Message.withoutAddrs_eq_syncResponse hsent
  rw [MutualSync.informed, hanswered.ctx_eq platform h.asking]
  refine answer_covers rfl hlisted x.asking_trustTable x.answer_trustTable hpassed ?_ hnode hd
  rw [x.asking_me]
  exact hasker

theorem Completed.informed_active (h : x.Completed) : x.informed.stopped = false := by
  obtain ⟨em, -, message, env, reply, -, hanswered, -⟩ := h.answered
  rw [MutualSync.informed, hanswered.stopped_eq]
  exact h.asking

theorem Completed.answer_active (h : x.Completed) : x.answer.1.stopped = false := by
  obtain ⟨timestamp, env, reply, hasked⟩ := h.asked
  rw [MutualSync.answer, hasked.stopped_eq]
  exact h.beingAsked

theorem Completed.answerBack_nodes (h : x.Completed) {id : EndpointId} (hhost : id ≠ x.hostId) :
    x.answerBack.1.daemon.ctx.nodes[id]? = x.informed.daemon.ctx.nodes[id]? := by
  obtain ⟨timestamp, env, reply, hasked⟩ := h.askedBack
  rw [MutualSync.answerBack, hasked.ctx_eq platform h.informed_active]
  exact request_nodes x.informed_trustTable rfl hhost

theorem Completed.hostInformed_eq (h : x.Completed) :
    ∃ (signed : SignedMessage) (nodes : List Node) (env readings : Readings),
      signed.sender = x.askerId ∧ signed.message = .syncResponse nodes ∧
      nodes.map withoutAddr =
        (x.answerBack.1.daemon.ctx.knownDaemons readings).map withoutAddr ∧
      Passed x.answer.1.daemon.ctx signed env ∧
      x.hostInformed.daemon.ctx = (x.answer.1.daemon.ctx.receive signed env).1 := by
  obtain ⟨timestamp, askedEnv, askedReply, hasked⟩ := h.askedBack
  obtain ⟨em, hem, message, env, reply, hsent, hanswered, hpassed⟩ := h.answeredBack
  obtain ⟨-, hmsg⟩ := hasked.emitted hem
  rw [← hasked.ctx_eq platform h.informed_active] at hmsg
  rw [hmsg] at hsent
  obtain ⟨nodes, rfl, hlisted⟩ := Message.withoutAddrs_eq_syncResponse hsent
  exact ⟨_, nodes, env, askedEnv, rfl, rfl, hlisted, hpassed,
    hanswered.ctx_eq host h.answer_active⟩

theorem Completed.told (h : x.Completed) {id : EndpointId} (hhost : id ≠ x.hostId) :
    ∀ node : Node, x.answerBack.1.daemon.ctx.nodes[id]? = some node → isDaemonNode node = true →
      ∃ held : Node, x.hostInformed.daemon.ctx.nodes[id]? = some held ∧
        node.lastHeartbeat ≤ held.lastHeartbeat := by
  intro node hnode hd
  obtain ⟨signed, nodes, env, readings, -, hmsg, hlisted, hpassed, hctx⟩ := h.hostInformed_eq
  rw [hctx]
  refine answer_covers hmsg hlisted x.answer_trustTable x.answerBack_trustTable hpassed ?_ hnode hd
  rw [x.answer_me]
  exact hhost

theorem Completed.knows (h : x.Completed) {id : EndpointId} (hasker : id ≠ x.askerId)
    (hhost : id ≠ x.hostId) :
    ∀ held : Node, x.hostInformed.daemon.ctx.nodes[id]? = some held → isDaemonNode held = true →
      ∃ node : Node, x.answerBack.1.daemon.ctx.nodes[id]? = some node ∧
        held.lastHeartbeat ≤ node.lastHeartbeat := by
  intro held hheld hd
  obtain ⟨signed, nodes, env, readings, hsender, hmsg, hlisted, hpassed, hctx⟩ := h.hostInformed_eq
  have hback : id ≠ x.answerBack.1.daemon.ctx.me.nodeId := by
    rw [x.answerBack_me]
    exact hasker
  rw [hctx] at hheld
  rcases answer_origin hmsg hlisted x.answer_trustTable x.answerBack_trustTable hpassed
    (by rw [hsender]; exact hasker) hback hheld with hold | ⟨node, hnode, -, hstamp⟩
  · -- Held before the asker's answer: the host's own answer listed it.
    rw [h.answerBack_nodes hhost]
    exact h.informed hasker held hold hd
  · exact ⟨node, hnode, hstamp.le⟩

/-- After both answers the two agree on everybody else. -/
theorem sync_agrees (h : x.Completed) {id : EndpointId} (hasker : id ≠ x.askerId)
    (hhost : id ≠ x.hostId) :
    HoldsSame x.answerBack.1.daemon.ctx x.hostInformed.daemon.ctx id ∧
      HoldsSame x.hostInformed.daemon.ctx x.answerBack.1.daemon.ctx id := by
  constructor
  · intro node hnode hd
    obtain ⟨held, hheld, hle⟩ := h.told hhost node hnode hd
    refine ⟨held, hheld, fun hd' => ?_⟩
    obtain ⟨node', hnode', hle'⟩ := h.knows hasker hhost held hheld hd'
    obtain rfl := Option.some.inj (hnode.symm.trans hnode')
    exact Nat.le_antisymm hle' hle
  · intro held hheld hd
    obtain ⟨node, hnode, hle⟩ := h.knows hasker hhost held hheld hd
    refine ⟨node, hnode, fun hd' => ?_⟩
    obtain ⟨held', hheld', hle'⟩ := h.told hhost node hnode hd'
    obtain rfl := Option.some.inj (hheld.symm.trans hheld')
    exact Nat.le_antisymm hle' hle

end MutualSync

namespace Sample

/-! Alice has heard the joins of carol and bob when bob asks her; then she asks bob. -/

def carolsJoinHeard : LoopEvent :=
  let join : Message := .invited 6 [5] (.fromParts carol [.ip (sock 3)]) "carol" ∅ alice
  .gosRecv (.received (some ⟨carol, join, 1004⟩) (readings 1005) (replies alice 1 1005))

def heardByBob (now : Nat) : Readings :=
  let own : EndpointAddr := .fromParts bob [.ip (sock 2)]
  { readings now with ownAddr := own, dialAddr := own }

def toldByAlice : Message :=
  .syncResponse
    [record bob "bob" [2] 1006, record carol "carol" [3] 1005, record alice "alice" [1] 1006]

def toldByBob : Message :=
  .syncResponse
    [record alice "alice" [1] 1009, record carol "carol" [3] 1005, record bob "bob" [2] 1009]

def bobAndAlice : MutualSync onTerminal onTerminal where
  start := bobsStart
  hostsFile := []
  env := launchReadings bob 2 1005
  before := []
  hostStart := alicesStart
  hostHostsFile := []
  hostEnv := launchReadings alice 1 1000
  hostBefore := [carolsJoinHeard, joinHeard]
  asked := requestHeard
  answered := .spRecv (some ⟨alice, toldByAlice, 1006⟩) (heardByBob 1007) (replies bob 2 1007)
  askedBack := .spRecv (some ⟨alice, .syncRequest [], 1008⟩) (heardByBob 1009) (replies bob 2 1009)
  answeredBack := .spRecv (some ⟨bob, toldByBob, 1009⟩) (readings 1010) (replies alice 1 1010)

theorem bobAndAlice_completed : bobAndAlice.Completed where
  asking := by decide
  beingAsked := by decide
  asked := ⟨1005, _, _, .inl rfl⟩
  answered := ⟨⟨.direct (.fromParts bob [.ip (sock 2)]), toldByAlice, 1006, true⟩, by decide,
    _, _, _, rfl, .inl rfl, ⟨by decide, by decide⟩⟩
  askedBack := ⟨1008, _, _, .inl rfl⟩
  answeredBack := ⟨⟨.direct (.fromParts alice [.ip (sock 1)]), toldByBob, 1009, true⟩, by decide,
    _, _, _, rfl, .inl rfl, ⟨by decide, by decide⟩⟩

theorem carol_agreed :
    HoldsSame bobAndAlice.answerBack.1.daemon.ctx bobAndAlice.hostInformed.daemon.ctx carol ∧
      HoldsSame bobAndAlice.hostInformed.daemon.ctx bobAndAlice.answerBack.1.daemon.ctx carol :=
  MutualSync.sync_agrees bobAndAlice_completed (by decide) (by decide)

end Sample
end P2pDdns
