import P2pDdns.Expiry
import P2pDdns.Joining
import P2pDdns.Network

/-!
Who is known in a network. Whatever the order in which machines start, stop and hear each other,
a daemon knows members only, each under its own name, and forgets those that fell silent.
-/

set_option autoImplicit false

namespace P2pDdns
open Std FiniteMaps Relation

/-- Every item comes from an outsider or from a member that tells the truth. -/
def Surroundings.Accounts (w : Surroundings) (sent : List Item) : Item → Prop
  | .booted me ticket =>
    me.services = ∅ ∧ ¬ w.outsider me.nodeId ∧ ¬ w.knows ticket.topic ticket.rnum ∧
      Genuine w.lag sent ticket.invitor
  | .signed signed =>
    w.Foreign signed ∨
      (Member sent signed.sender ∧ Truthful w.lag sent signed.sender signed.message)

/-- A daemon of the network, all of whose records are genuine. -/
structure Sound (lag : Nat) (sent : List Item) (ctx : Context) : Prop where
  booted : .booted ctx.me ctx.ticket ∈ sent
  daemon : ctx.args.daemon = true
  table : TrustTable ctx
  records : TablesHold (Genuine lag sent) ctx
  stored : StoredHold (Genuine lag sent) ctx.storage

structure Machine.Sound (lag : Nat) (sent : List Item) (m : Machine) : Prop where
  disk : StoredHold (Genuine lag sent) m.disk
  running : ∀ r, m.running = some r → P2pDdns.Sound lag sent r.ctx

section Mono
variable {lag : Nat} {sent : List Item} (more : List Item)

theorem StoredHold.genuine_mono {storage : Storage} (h : StoredHold (Genuine lag sent) storage) :
    StoredHold (Genuine lag (sent ++ more)) storage :=
  fun id node hn => (h id node hn).mono more

theorem Sound.mono {ctx : Context} (h : Sound lag sent ctx) : Sound lag (sent ++ more) ctx where
  booted := List.mem_append_left more h.booted
  daemon := h.daemon
  table := h.table
  records :=
    { active := fun id node hn hd => (h.records.active id node hn hd).mono more
      trusted := fun id node hn => (h.records.trusted id node hn).mono more }
  stored := h.stored.genuine_mono more

theorem Machine.Sound.mono {m : Machine} (h : m.Sound lag sent) : m.Sound lag (sent ++ more) :=
  ⟨h.disk.genuine_mono more, fun r hr => (h.running r hr).mono more⟩

theorem Member.mono {id : EndpointId} (h : Member sent id) : Member (sent ++ more) id := by
  obtain ⟨me, ticket, hmem, hid⟩ := h
  exact ⟨me, ticket, List.mem_append_left more hmem, hid⟩

theorem Surroundings.Accounts.mono {w : Surroundings} {item : Item} (h : w.Accounts sent item) :
    w.Accounts (sent ++ more) item := by
  cases item with
  | booted me ticket =>
    obtain ⟨hservices, hmember, hsecret, hinvitor⟩ := h
    exact ⟨hservices, hmember, hsecret, hinvitor.mono more⟩
  | signed signed =>
    exact h.imp_right fun ⟨hmember, htrue⟩ => ⟨hmember.mono more, htrue.mono more⟩

end Mono
section Facts
variable {w : Surroundings} {sent : List Item} {node : Node} {id : EndpointId}

theorem Genuine.member {lag : Nat} (h : Genuine lag sent node) : Member sent node.nodeId := by
  obtain ⟨⟨me, ticket, hmem, hsame⟩, -⟩ := h
  exact ⟨me, ticket, hmem, hsame.nodeId⟩

theorem Member.not_outsider (haccounts : ∀ item ∈ sent, w.Accounts sent item)
    (h : Member sent id) : ¬ w.outsider id := by
  obtain ⟨me, ticket, hmem, rfl⟩ := h
  exact (haccounts _ hmem).2.1

theorem genuine_me {lag : Nat} {me : Node} {ticket : Ticket} (h : .booted me ticket ∈ sent) :
    Genuine lag sent me :=
  ⟨⟨me, ticket, h, rfl, rfl, rfl, rfl⟩, .inl ⟨me, ticket, h, rfl, le_rfl⟩⟩

theorem Displayed.genuine (haccounts : ∀ item ∈ sent, w.Accounts sent item) {ticket : Ticket}
    (h : Displayed sent ticket) : Genuine w.lag sent ticket.invitor := by
  obtain ⟨me, shown, hmem, -, -, hinvitor⟩ := h
  obtain ⟨-, -, -, hgenuine⟩ := haccounts _ hmem
  rw [hinvitor]
  exact Genuine.addressBlind _ _ hgenuine

end Facts
/-! What a daemon takes in. -/

section Received
variable {w : Surroundings} {sent : List Item} {ctx : Context} {signed : SignedMessage}
  {env : Readings}

theorem Sound.truthful_of_passed (h : Sound w.lag sent ctx)
    (haccounts : ∀ item ∈ sent, w.Accounts sent item) (hsent : .signed signed ∈ sent)
    (hpassed : Passed ctx signed env) :
    Truthful w.lag sent signed.sender signed.message := by
  obtain ⟨node, hnode⟩ := Option.isSome_iff_exists.mp
    ((ExtTreeMap.isSome_getElem?_iff_mem).mpr hpassed.1)
  have hmember := (h.records.trusted _ node hnode).member
  rw [h.table.trustedKeyed _ node hnode] at hmember
  rcases haccounts _ hsent with hforeign | ⟨-, htrue⟩
  · exact absurd hforeign.outsider (hmember.not_outsider haccounts)
  · exact htrue

/-- The daemon's own ticket is known to members only. -/
theorem Sound.truthful_of_accepts (h : Sound w.lag sent ctx)
    (haccounts : ∀ item ∈ sent, w.Accounts sent item) (hsent : .signed signed ∈ sent)
    {ann : Announcement} (haccepts : Accepts ctx signed env ann) :
    Truthful w.lag sent signed.sender signed.message ∧ signed.isFresh env.verifyNow = true := by
  rcases haccepts with ⟨-, hpassed⟩ | ⟨hmsg, hfresh⟩
  · exact ⟨h.truthful_of_passed haccounts hsent hpassed, hpassed.2⟩
  · refine ⟨?_, hfresh⟩
    rcases haccounts _ hsent with hforeign | ⟨-, htrue⟩
    · obtain ⟨-, -, hsecret, -⟩ := haccounts _ h.booted
      exact absurd (hforeign.knows _ _ _ _ _ _ hmsg) hsecret
    · exact htrue

/-- A time within the lag of the check of a fresh message is one the sender vouches for. -/
theorem aliveAt_fresh {lag t : Nat} (hsent : .signed signed ∈ sent)
    (hfresh : signed.isFresh env.verifyNow = true) (ht : t ≤ env.verifyNow + lag) :
    AliveAt lag sent signed.sender t := by
  obtain ⟨-, hage⟩ := SignedMessage.isFresh_window hfresh
  exact .inr ⟨signed, hsent, rfl, by omega⟩

theorem Sound.admits (h : Sound w.lag sent ctx)
    (haccounts : ∀ item ∈ sent, w.Accounts sent item) (hsent : .signed signed ∈ sent)
    (hrefresh : env.refreshNow ≤ env.verifyNow + w.lag)
    (hincoming : env.incomingNow ≤ env.verifyNow + w.lag) :
    Admits (Genuine w.lag sent) ctx signed env where
  refreshed hpassed old hid hold := by
    obtain ⟨⟨me, ticket, hmem, hsame⟩, -⟩ := hold
    refine ⟨⟨me, ticket, hmem, hsame.nodeId, hsame.invitor, hsame.domain, hsame.services⟩, ?_⟩
    dsimp only
    rw [hid]
    exact aliveAt_fresh hsent hpassed.2 hrefresh
  announced ann haccepts _ := by
    obtain ⟨htrue, hfresh⟩ := h.truthful_of_accepts haccounts hsent haccepts
    refine ⟨?_, aliveAt_fresh hsent hfresh hincoming⟩
    have hmsg := haccepts.imp And.left And.left
    rcases hmsg with hmsg | hmsg
    all_goals
      rw [hmsg] at htrue
      obtain ⟨me, ticket, hmem, hid, hinvitor, hdomain, hservices⟩ := htrue
      exact ⟨me, ticket, hmem, hid, hinvitor, hdomain, hservices⟩
  listed hgate node hlists _ := by
    have hpassed : Passed ctx signed env := by
      refine hgate.resolve_left ?_
      rw [h.daemon]
      decide
    have htrue := h.truthful_of_passed haccounts hsent hpassed
    obtain ⟨nodes, hmsg | hmsg, hnode⟩ := hlists
    · rw [hmsg] at htrue
      exact htrue node hnode
    · rw [hmsg] at htrue
      exact htrue node hnode

end Received
/-! What a daemon does. -/

section Acts
variable {w : Surroundings} {sent : List Item} {r : Running} {e : LoopEvent}

theorem Sound.setHostsSync {ctx : Context} (h : Sound w.lag sent ctx) (status : HostsSyncStatus) :
    Sound w.lag sent (ctx.setHostsSync status) :=
  ⟨h.booted, h.daemon, h.table.setHostsSync status, ⟨h.records.active, h.records.trusted⟩, h.stored⟩

theorem Sound.event {codecs : Codecs} {d : Daemon} {ev : Event} (h : Sound w.lag sent d.ctx)
    (htakes : TakesIn (Genuine w.lag sent) codecs d ev) :
    Sound w.lag sent (d.step codecs ev).ctx := by
  obtain ⟨hme, hargs, hticket⟩ := changes_frame (step_changes codecs d ev)
  refine ⟨?_, ?_, TrustTable.step d ev h.table,
    h.records.step Genuine.addressBlind h.table htakes, h.stored.step h.records htakes⟩
  · rw [hme, hticket]
    exact h.booted
  · rw [hargs]
    exact h.daemon

theorem Emits.truthful {ctx : Context} {em : Emission} {lag : Nat} (h : Emits ctx e em)
    (hbooted : .booted ctx.me ctx.ticket ∈ sent)
    (hanswers : ∀ signed env reply target, e.Receives signed env reply →
      em = ⟨.direct target, .syncResponse ((ctx.receive signed env).1.knownDaemons env),
        reply.signNow, reply.accepted⟩ →
      ∀ node ∈ (ctx.receive signed env).1.knownDaemons env, Genuine lag sent node) :
    Truthful lag sent ctx.me.nodeId em.message := by
  cases h with
  | invited _ _ => exact ⟨ctx.me, ctx.ticket, hbooted, rfl, rfl, rfl, rfl⟩
  | aboutMe _ _ => exact ⟨ctx.me, ctx.ticket, hbooted, rfl, rfl, rfl, rfl⟩
  | syncRequest _ => simp [Truthful]
  | syncResponse hreceives _ => exact hanswers _ _ _ _ hreceives rfl
  | left _ => trivial

variable (haccounts : ∀ item ∈ sent, w.Accounts sent item) (hallows : w.AllowsLoop sent r e)
include haccounts hallows

theorem Sound.takesIn {d : Daemon} {ev : Event} (h : Sound w.lag sent d.ctx)
    (hticket : d.ctx.ticket = r.ctx.ticket) (hev : ev ∈ e.events) :
    TakesIn (Genuine w.lag sent) r.platform.codecs d ev where
  message signed env heq := by
    subst heq
    obtain ⟨reply, hreceives⟩ := LoopEvent.receives_of_mem hev
    obtain ⟨hsent, hprompt⟩ := hallows.1 signed env reply hreceives
    exact h.admits haccounts hsent hprompt.refresh hprompt.incoming
  ticket client text env heq node hadds := by
    subst heq
    obtain ⟨responded, shutdown, rfl⟩ := LoopEvent.command_of_mem hev
    obtain ⟨parsed, hparsed, htopic, rfl⟩ := hadds
    rw [hticket] at htopic
    exact (hallows.2 client text env responded shutdown rfl parsed hparsed htopic).genuine haccounts

theorem Sound.loop (h : Sound w.lag sent r.ctx) :
    Sound w.lag sent (r.process.step r.platform e).1.daemon.ctx := by
  have hboth := moves_induct
    (I := fun d : Daemon => d.ctx.ticket = r.ctx.ticket ∧ Sound w.lag sent d.ctx)
    (step_moves r.platform r.process e) ⟨rfl, h⟩ ?_ fun _ status hd => ⟨hd.1, hd.2.setHostsSync status⟩
  · exact hboth.2
  · intro d ev hev hd
    obtain ⟨-, -, hticket⟩ := changes_frame (step_changes r.platform.codecs d ev)
    exact ⟨hticket.trans hd.1, hd.2.event (hd.2.takesIn haccounts hallows hd.1 hev)⟩

theorem Sound.answers (h : Sound w.lag sent r.ctx) {signed : SignedMessage} {env : Readings}
    {reply : SendReadings} (hreceives : e.Receives signed env reply) {more : List Item}
    {message : Message} (hmore : .signed ⟨r.ctx.me.nodeId, message, reply.signNow⟩ ∈ more) :
    ∀ node ∈ (r.ctx.receive signed env).1.knownDaemons env, Genuine w.lag (sent ++ more) node := by
  obtain ⟨hsent, hprompt⟩ := hallows.1 signed env reply hreceives
  -- The answer lists the table the message leaves behind.
  have hafter : Sound w.lag sent (r.ctx.receive signed env).1 := by
    refine @Sound.event w sent r.platform.codecs r.process.daemon
      (.received (some signed) env) h ⟨?_, by simp⟩
    intro _ _ heq
    obtain ⟨hsigned, rfl⟩ := Event.received.inj heq
    obtain rfl := Option.some.inj hsigned
    exact h.admits haccounts hsent hprompt.refresh hprompt.incoming
  have hme := (receive_frame r.ctx signed env).1
  intro node hnode
  rcases List.mem_append.mp hnode with hnode | hnode
  · obtain ⟨hnode, hd⟩ := List.mem_filter.mp hnode
    obtain ⟨⟨id, _⟩, hwalk, rfl⟩ := List.mem_map.mp hnode
    exact (hafter.records.active id _ (env.iter.mem_walk.mp hwalk) hd).mono more
  · obtain rfl := List.mem_singleton.mp hnode
    rw [Context.currentNodeState_eq, Context.ownState, hme]
    have hanswer := hprompt.answer
    have hreplied : env.replyNow ≤ reply.signNow + MAX_AGE_SECS + w.lag := by omega
    exact ⟨⟨r.ctx.me, r.ctx.ticket, List.mem_append_left more h.booted, rfl, rfl, rfl, rfl⟩,
      .inr ⟨_, List.mem_append_right sent hmore, rfl, hreplied⟩⟩

theorem Sound.accounts_loop (h : Sound w.lag sent r.ctx) :
    let more := (r.process.step r.platform e).2.map (·.sealed r.ctx.me.nodeId)
    ∀ item ∈ more, w.Accounts (sent ++ more) item := by
  intro more item hitem
  obtain ⟨em, hem, rfl⟩ := List.mem_map.mp hitem
  have hmember : Member (sent ++ more) r.ctx.me.nodeId :=
    ⟨r.ctx.me, r.ctx.ticket, List.mem_append_left more h.booted, rfl⟩
  refine .inr ⟨hmember, .carried ((mem_step hem).truthful (List.mem_append_left more h.booted) ?_)⟩
  rintro signed env reply target hreceives rfl
  have htime := Nat.mod_eq_of_lt (hallows.1 signed env reply hreceives).2.representable
  rw [Emission.sealed, htime] at hitem
  exact h.answers haccounts hallows hreceives hitem

end Acts
section Boot
variable {w : Surroundings} {sent : List Item} {platform : Platform}
  {start : Start platform.codecs}

theorem parseArgTicket_some {codecs : Codecs} {args : DaemonArgs} {ticket : Ticket}
    (h : parseArgTicket codecs args = .ok (some ticket)) :
    ∃ text, args.ticket = some text ∧ Ticket.fromStr codecs text = .ok ticket := by
  unfold parseArgTicket at h
  split at h
  · rename_i text htext
    cases hparse : Ticket.fromStr codecs text with
    | error e => simp [hparse, Except.map] at h
    | ok parsed =>
      obtain rfl : parsed = ticket := by simpa [hparse, Except.map] using h
      exact ⟨text, htext, hparse⟩
  · simp at h

theorem networkTicket_origin {args : DaemonArgs} {argTicket : Option Ticket} {storage : Storage}
    {me : Node} {env : StartReadings} {ticket : Ticket} {writes : List ConfigWrite}
    (h : networkTicket args argTicket storage me env = .ok (ticket, writes)) :
    ticket.invitor = me ∨ argTicket = some ticket := by
  unfold networkTicket at h
  split at h
  · split at h
    · obtain ⟨rfl, -⟩ := Prod.mk.inj (Except.ok.inj h)
      exact .inl rfl
    · obtain ⟨rfl, -⟩ := Prod.mk.inj (Except.ok.inj h)
      exact .inl rfl
  · split at h
    · obtain ⟨rfl, -⟩ := Prod.mk.inj (Except.ok.inj h)
      exact .inr rfl
    · split at h
      · obtain ⟨rfl, -⟩ := Prod.mk.inj (Except.ok.inj h)
        exact .inl rfl
      · contradiction

theorem initNetwork_ticket {codecs : Codecs} {args : DaemonArgs} {storage : Storage}
    {env : StartReadings} {ctx : Context} (h : initNetwork codecs args storage env = .ok ctx) :
    ctx.me.services = ∅ ∧ (ctx.ticket.invitor = ctx.me ∨
      ∃ text, args.ticket = some text ∧ Ticket.fromStr codecs text = .ok ctx.ticket) := by
  unfold initNetwork at h
  cases hticket : parseArgTicket codecs args with
  | error e => simp [hticket, bind, Except.bind] at h
  | ok argTicket =>
    simp only [hticket, bind, Except.bind] at h
    split at h
    · contradiction
    · rename_i made hmade
      obtain ⟨ticket, writes⟩ := made
      obtain ⟨rfl⟩ := h
      refine ⟨rfl, (networkTicket_origin hmade).imp_right fun hgiven => ?_⟩
      exact parseArgTicket_some (hgiven ▸ hticket)

theorem sound_start (haccounts : ∀ item ∈ sent, w.Accounts sent item) {m : Machine}
    {hostsFile : List UInt8} {env : LaunchReadings} (hm : m.Sound w.lag sent)
    (hallows : w.Allows sent m (.boot platform start hostsFile env)) {more : List Item}
    (hmore : .booted start.ctx.me start.ctx.ticket ∈ more) :
    Sound w.lag (sent ++ more) start.ctx := by
  obtain ⟨hstorage, hdaemon, -, -, hdisplayed⟩ := hallows
  obtain ⟨-, -, hargs, hstored, -⟩ := initNetwork_ok start.started
  have hloads : ∀ node, start.Loads node → Genuine w.lag (sent ++ more) node := by
    rintro node (⟨-, hmem⟩ | ⟨text, ticket, htext, hparse, rfl⟩)
    · obtain ⟨hmem, -, -⟩ := mem_persistedDaemons.mp hmem
      obtain ⟨⟨id, _⟩, hid, rfl⟩ := List.mem_map.mp hmem
      rw [ExtTreeMap.mem_toList_iff_getElem?_eq_some, hstorage] at hid
      exact (hm.disk id _ hid).mono more
    · exact ((hdisplayed text ticket htext hparse).genuine haccounts).mono more
  refine ⟨List.mem_append_right sent hmore, by rwa [hargs], TrustTable.start start, ?_, ?_⟩
  · exact ⟨fun id node hn _ => hloads node (start_nodes start hn).2,
      fun id node hn => hloads node (start_trustedNodes start hn).2.2⟩
  · intro id node hn
    rw [hstored] at hn
    split at hn
    · simp at hn
    · rw [hstorage] at hn
      exact (hm.disk id node hn).mono more

theorem sound_launch (h : Sound w.lag sent start.ctx) (hostsFile : List UInt8)
    (env : LaunchReadings) :
    Sound w.lag sent (start.launch platform hostsFile env).1.daemon.ctx := by
  refine moves_induct (I := fun d : Daemon => Sound w.lag sent d.ctx) (e := .exited)
    (launch_moves hostsFile env) h ?_ fun _ status hd => hd.setHostsSync status
  intro d ev hev
  simp [LoopEvent.events] at hev

theorem accounts_launch (haccounts : ∀ item ∈ sent, w.Accounts sent item) {m : Machine}
    {hostsFile : List UInt8} {env : LaunchReadings}
    (hallows : w.Allows sent m (.boot platform start hostsFile env)) :
    let more := .booted start.ctx.me start.ctx.ticket ::
      (start.launch platform hostsFile env).2.map (·.sealed start.ctx.me.nodeId)
    ∀ item ∈ more, w.Accounts (sent ++ more) item := by
  intro more item hitem
  have hbooted : .booted start.ctx.me start.ctx.ticket ∈ sent ++ more :=
    List.mem_append_right sent List.mem_cons_self
  rcases List.mem_cons.mp hitem with rfl | hitem
  · obtain ⟨-, -, hmember, hsecret, hdisplayed⟩ := hallows
    obtain ⟨hservices, hinvitor⟩ := initNetwork_ticket start.started
    refine ⟨hservices, hmember, hsecret, ?_⟩
    rcases hinvitor with hinvitor | ⟨text, htext, hparse⟩
    · rw [hinvitor]
      exact genuine_me hbooted
    · obtain ⟨-, -, hargs, -⟩ := initNetwork_ok start.started
      exact ((hdisplayed text _ htext hparse).genuine haccounts).mono more
  · obtain ⟨em, hem, rfl⟩ := List.mem_map.mp hitem
    refine .inr ⟨⟨_, _, hbooted, rfl⟩, .carried ((mem_launch hem).truthful hbooted ?_)⟩
    rintro signed env' reply target (h | h)
    · contradiction
    · contradiction

end Boot
/-! Every run. -/

section Run
variable (w : Surroundings)

/-- Whatever a machine or an outsider does, machines stay sound and items accounted for. -/
theorem membership_guarantee :
    Networks.Guarantee Machine.act w.Allows w.Injects
      (fun sent (m : Machine) => m.Sound w.lag sent) w.Accounts where
  party_mono _ more _ h := h.mono more
  message_mono _ more _ h := h.mono more
  acts sent m e hm haccounts hallows := by
    cases e with
    | boot platform start hostsFile env =>
      have hstart : Sound w.lag (sent ++ .booted start.ctx.me start.ctx.ticket ::
          (start.launch platform hostsFile env).2.map (·.sealed start.ctx.me.nodeId)) start.ctx :=
        sound_start haccounts hm hallows List.mem_cons_self
      have hlaunched := sound_launch hstart hostsFile env
      refine ⟨⟨hlaunched.stored, ?_⟩, accounts_launch haccounts hallows⟩
      rintro r hr
      obtain rfl := Option.some.inj hr
      exact hlaunched
    | bootFailed disk =>
      refine ⟨⟨?_, by simp [Machine.act, Machine.off]⟩, by simp [Machine.act]⟩
      intro id node hn
      simp only [Machine.act, Machine.off, List.append_nil] at hn ⊢
      rcases hallows with heq | heq
      · rw [heq] at hn
        exact hm.disk id node hn
      · simp [heq] at hn
    | loop e =>
      cases hr : m.running with
      | none => simpa [Machine.act, hr] using hm
      | some r =>
        have hsound := hm.running r hr
        have hallowed := hallows r hr
        have hstepped := (hsound.loop haccounts hallowed).mono
          ((r.process.step r.platform e).2.map (·.sealed r.ctx.me.nodeId))
        rw [Machine.act_loop hr]
        refine ⟨⟨hstepped.stored, ?_⟩, hsound.accounts_loop haccounts hallowed⟩
        rintro _ heq
        obtain rfl := Option.some.inj heq
        exact hstepped
    | crash =>
      have hoff : (Machine.off m.disk).Sound w.lag sent := ⟨hm.disk, by simp [Machine.off]⟩
      simpa [Machine.act] using hoff
  injects sent item _ h := by
    obtain ⟨signed, rfl, hforeign⟩ := h
    exact .inl hforeign

variable {ι : Type} [DecidableEq ι] {turns : List (NetworkTurn ι)}

theorem Surroundings.Run.holds {w : Surroundings} (hrun : w.Run turns) :
    Networks.Holds (fun sent (m : Machine) => m.Sound w.lag sent) w.Accounts
      (Network.after turns) := by
  refine (membership_guarantee w).run ⟨fun _ => ⟨?_, ?_⟩, ?_⟩ hrun
  · intro id node hn
    simp [Network.blank, Machine.off, Storage.clear] at hn
  · simp [Network.blank, Machine.off]
  · simp [Network.blank]

def cleanupTurn (i : ι) (send : SendReadings) (now : Nat) (cleanupIter saveIter : IterOrder)
    (fault : Option String) : NetworkTurn ι :=
  .acts i (.loop (.stateBroadcast send now cleanupIter saveIter fault))

end Run

namespace Sample

/-! Alice and bob, and dave, who is not let in. -/

def surroundings : Surroundings := ⟨(· = dave), fun _ _ => False, 0⟩

def davesLie : SignedMessage := ⟨dave, .aboutMe (.new dave) "bank" ∅ dave, 1005⟩

def lieHeard : LoopEvent := .spRecv (some davesLie) (readings 1006) (replies alice 1 1006)

def networkTurns : List (NetworkTurn Bool) :=
  [.acts false (.boot onTerminal alicesStart [] (launchReadings alice 1 1000)),
    .acts true (.boot onTerminal bobsStart [] (launchReadings bob 2 1005)),
    .injects (.signed davesLie), .acts false (.loop joinHeard)]

def aliceCleansUp : NetworkTurn Bool :=
  cleanupTurn false (replies alice 1 1030) 1030 .byId .byId none

theorem allowsLoop_quiet {w : Surroundings} {sent : List Item} {r : Running} {e : LoopEvent}
    (hreceives : ∀ signed env reply, ¬ e.Receives signed env reply)
    (hcommand : ∀ client cmd env responded shutdown, e ≠ .command client cmd env responded shutdown) :
    w.AllowsLoop sent r e :=
  ⟨fun signed env reply h => absurd h (hreceives signed env reply),
    fun _ _ _ _ _ h => absurd h (hcommand _ _ _ _ _)⟩

theorem network_runs : surroundings.Run (networkTurns ++ [aliceCleansUp]) := by
  refine ⟨?_, ?_, ?_, ?_, ?_, trivial⟩
  · exact ⟨rfl, rfl, (by decide : alice ≠ dave), id, by simp [alicesStart, args]⟩
  · refine ⟨rfl, rfl, (by decide : bob ≠ dave), id, ?_⟩
    intro text ticket htext hparse
    obtain rfl := Option.some.inj htext
    obtain rfl := Except.ok.inj (alicesTicket_parses.symm.trans hparse)
    exact ⟨_, alicesTicket, List.mem_cons_self, rfl, rfl, rfl⟩
  · exact ⟨davesLie, rfl, rfl, by simp [davesLie]⟩
  · rintro r -
    refine ⟨?_, by simp [joinHeard]⟩
    rintro signed env reply (h | h)
    · contradiction
    · cases h
      refine ⟨?_, le_rfl, le_rfl, le_rfl, by decide⟩
      exact List.mem_append_left _ (List.mem_append_right _
        (List.mem_cons_of_mem _ List.mem_cons_self))
  · rintro r -
    exact allowsLoop_quiet (by simp [LoopEvent.Receives]) (by simp)

def alicesProcess : Running :=
  ⟨onTerminal, ((alicesStart.launch onTerminal [] (launchReadings alice 1 1000)).1.step onTerminal
    joinHeard).1⟩

theorem alicesProcess_runs :
    ((Network.after networkTurns).party false).running = some alicesProcess := rfl

theorem lie_allowed :
    surroundings.AllowsLoop (Network.after networkTurns).sent alicesProcess lieHeard := by
  refine ⟨?_, by simp [lieHeard]⟩
  rintro signed env reply (h | h)
  · cases h
    exact ⟨List.mem_append_left _ (List.mem_append_right _ List.mem_cons_self), le_rfl, le_rfl,
      le_rfl, by decide⟩
  · contradiction

end Sample

section Network
variable {w : Surroundings} {ι : Type} [DecidableEq ι] {turns : List (NetworkTurn ι)}

/-! What follows for the network. -/

/-- A record a machine keeps: in its database, of a trusted daemon, or of an active one. -/
def Machine.Keeps (m : Machine) (node : Node) : Prop :=
  (∃ id : EndpointId, m.disk.nodes[id]? = some node) ∨
  ∃ r, m.running = some r ∧ ∃ id : EndpointId, r.ctx.trustedNodes[id]? = some node ∨
    (r.ctx.nodes[id]? = some node ∧ isDaemonNode node = true)

theorem Machine.Sound.genuine {lag : Nat} {sent : List Item} {m : Machine} {node : Node}
    (h : m.Sound lag sent) (hkeeps : m.Keeps node) : Genuine lag sent node := by
  rcases hkeeps with ⟨id, hn⟩ | ⟨r, hr, id, hn | ⟨hn, hd⟩⟩
  · exact h.disk id node hn
  · exact (h.running r hr).records.trusted id node hn
  · exact (h.running r hr).records.active id node hn hd

section Holds
variable (h : Networks.Holds (fun sent (m : Machine) => m.Sound w.lag sent) w.Accounts
  (Network.after turns))
include h

theorem genuine_member {node : Node} (hnode : Genuine w.lag (Network.after turns).sent node) :
    Member (Network.after turns).sent node.nodeId ∧ ¬ w.outsider node.nodeId :=
  ⟨hnode.member, hnode.member.not_outsider h.messages⟩

theorem trusted_member {i : ι} {r : Running}
    (hr : ((Network.after turns).party i).running = some r) {id : EndpointId}
    (hid : id ∈ r.ctx.trustedNodes) :
    Member (Network.after turns).sent id ∧ ¬ w.outsider id := by
  have hsound := (h.parties i).running r hr
  obtain ⟨node, hnode⟩ := Option.isSome_iff_exists.mp
    ((ExtTreeMap.isSome_getElem?_iff_mem).mpr hid)
  rw [← hsound.table.trustedKeyed id node hnode]
  exact genuine_member h (hsound.records.trusted id node hnode)

theorem listed_genuine {signed : SignedMessage} {node : Node}
    (hsent : .signed signed ∈ (Network.after turns).sent)
    (hmember : Member (Network.after turns).sent signed.sender)
    (hnode : node ∈ signed.message.nodes) : Genuine w.lag (Network.after turns).sent node := by
  rcases h.messages _ hsent with hforeign | ⟨-, htrue⟩
  · exact absurd hforeign.outsider (hmember.not_outsider h.messages)
  · cases hmsg : signed.message with
    | syncRequest nodes | syncResponse nodes =>
      rw [hmsg] at htrue hnode
      exact htrue node hnode
    | _ => simp [hmsg, Message.nodes] at hnode

end Holds

/-- Whoever a machine keeps a record of, trusts or names to others is a member. -/
theorem members_know_members (hrun : w.Run turns) :
    let net := Network.after turns
    (∀ i node, (net.party i).Keeps node →
      Member net.sent node.nodeId ∧ ¬ w.outsider node.nodeId) ∧
    (∀ i r, (net.party i).running = some r → ∀ id ∈ r.ctx.trustedNodes,
      Member net.sent id ∧ ¬ w.outsider id) ∧
    ∀ signed, .signed signed ∈ net.sent → Member net.sent signed.sender →
      ∀ node ∈ signed.message.nodes, Member net.sent node.nodeId ∧ ¬ w.outsider node.nodeId := by
  intro net
  have h := hrun.holds
  refine ⟨fun i node hkeeps => genuine_member h ((h.parties i).genuine hkeeps), ?_, ?_⟩
  · exact fun i r hr id hid => trusted_member h hr hid
  · exact fun signed hsent hmember node hnode =>
      genuine_member h (listed_genuine h hsent hmember hnode)

theorem members_know_members_alice :
    let net := Network.after (Sample.networkTurns ++ [Sample.aliceCleansUp])
    (∀ i node, (net.party i).Keeps node →
      Member net.sent node.nodeId ∧ ¬ Sample.surroundings.outsider node.nodeId) ∧
    (∀ i r, (net.party i).running = some r → ∀ id ∈ r.ctx.trustedNodes,
      Member net.sent id ∧ ¬ Sample.surroundings.outsider id) ∧
    ∀ signed, .signed signed ∈ net.sent → Member net.sent signed.sender →
      ∀ node ∈ signed.message.nodes,
        Member net.sent node.nodeId ∧ ¬ Sample.surroundings.outsider node.nodeId :=
  members_know_members Sample.network_runs

/-- Every record a machine keeps, and every record in a member's message, has the name, the
services and the invitor of a process that was started under its id. -/
theorem identities_unforged (hrun : w.Run turns) :
    let net := Network.after turns
    (∀ i node, (net.party i).Keeps node →
      ∃ me ticket, .booted me ticket ∈ net.sent ∧ SameIdentity node me) ∧
    ∀ signed, .signed signed ∈ net.sent → Member net.sent signed.sender →
      ∀ node ∈ signed.message.nodes,
        ∃ me ticket, .booted me ticket ∈ net.sent ∧ SameIdentity node me := by
  intro net
  have h := hrun.holds
  exact ⟨fun i node hkeeps => ((h.parties i).genuine hkeeps).identity,
    fun signed hsent hmember node hnode => (listed_genuine h hsent hmember hnode).identity⟩

theorem identities_unforged_alice :
    let net := Network.after (Sample.networkTurns ++ [Sample.aliceCleansUp])
    (∀ i node, (net.party i).Keeps node →
      ∃ me ticket, .booted me ticket ∈ net.sent ∧ SameIdentity node me) ∧
    ∀ signed, .signed signed ∈ net.sent → Member net.sent signed.sender →
      ∀ node ∈ signed.message.nodes,
        ∃ me ticket, .booted me ticket ∈ net.sent ∧ SameIdentity node me :=
  identities_unforged Sample.network_runs

theorem LoopEvent.Receives.step_eq {platform : Platform} {p : Process} {e : LoopEvent}
    {signed : SignedMessage} {env : Readings} {reply : SendReadings}
    (h : e.Receives signed env reply) (hsame : (p.daemon.ctx.receive signed env).1 = p.daemon.ctx) :
    (p.step platform e).1 = p := by
  have hperform : p.perform platform (.received (some signed) env) = p := by
    rw [Process.perform, Daemon.step, hsame]
  rcases h with rfl | rfl
  all_goals
    unfold Process.step
    split
    · rfl
    · exact hperform

/-- A daemon is after an outsider's message what it was before. -/
theorem outsiders_change_nothing (hrun : w.Run turns) {i : ι} {r : Running}
    (hr : ((Network.after turns).party i).running = some r) {e : LoopEvent}
    {signed : SignedMessage} {env : Readings} {reply : SendReadings}
    (hreceives : e.Receives signed env reply)
    (hallows : w.AllowsLoop (Network.after turns).sent r e)
    (houtsider : w.outsider signed.sender) :
    (r.process.step r.platform e).1 = r.process := by
  have h := hrun.holds
  have hsound := (h.parties i).running r hr
  obtain ⟨hsent, -⟩ := hallows.1 signed env reply hreceives
  have hpassed : ¬ Passed r.ctx signed env :=
    fun hpassed => (trusted_member h hr hpassed.1).2 houtsider
  refine hreceives.step_eq (receive_ungated hsound.daemon hpassed ?_)
  rintro ⟨-, addr, aliasName, services, invitor, hmsg⟩
  rcases h.messages _ hsent with hforeign | ⟨hmember, -⟩
  · obtain ⟨-, -, hsecret, -⟩ := h.messages _ hsound.booted
    exact hsecret (hforeign.knows _ _ _ _ _ _ hmsg)
  · exact hmember.not_outsider h.messages houtsider

theorem outsiders_change_nothing_dave :
    (Sample.alicesProcess.process.step Sample.onTerminal Sample.lieHeard).1 =
      Sample.alicesProcess.process :=
  outsiders_change_nothing ((Runs.along_append _).mp Sample.network_runs).1 Sample.alicesProcess_runs
    (.inl rfl) Sample.lie_allowed rfl

theorem stateBroadcast_recent {platform : Platform} {p : Process} {send : SendReadings} {now : Nat}
    {cleanupIter saveIter : IterOrder} {fault : Option String} {id : EndpointId} {node : Node}
    (hactive : (p.step platform
      (.stateBroadcast send now cleanupIter saveIter fault)).1.stopped = false)
    (hn : (p.step platform (.stateBroadcast send now cleanupIter saveIter
      fault)).1.daemon.ctx.nodes[id]? = some node) (hd : isDaemonNode node = true) :
    now ≤ node.lastHeartbeat + STALE_NODE_TTL_SECS := by
  unfold Process.step at hactive hn
  split at hactive
  · rename_i hstopped
    simp [hstopped] at hactive
  · rename_i hstopped
    rw [if_neg hstopped] at hn
    have hcleaned : (p.daemon.ctx.cleanup now cleanupIter).nodes[id]? = some node :=
      @step_kept platform.codecs (p.daemon.step platform.codecs (.cleanup now cleanupIter))
        (.save saveIter fault) id node rfl hd hn
    exact (cleanup_survivor hcleaned).2 hd

/-- After the timer's turn a daemon lists nobody who has been silent for longer than the time to
live and the age a message may reach, whatever the others say. -/
theorem silent_members_forgotten {i : ι} {send : SendReadings} {now : Nat}
    {cleanupIter saveIter : IterOrder} {fault : Option String}
    (hrun : w.Run (turns ++ [cleanupTurn i send now cleanupIter saveIter fault])) :
    let net := Network.after (turns ++ [cleanupTurn i send now cleanupIter saveIter fault])
    ∀ r, (net.party i).running = some r → r.process.stopped = false →
      ∀ (id : EndpointId) (node : Node), r.ctx.nodes[id]? = some node →
        isDaemonNode node = true →
        AliveAt w.lag net.sent id (now - STALE_NODE_TTL_SECS) := by
  intro net r hr hactive id node hn hd
  have h := hrun.holds
  have hsound := (h.parties i).running r hr
  have hage : now ≤ node.lastHeartbeat + STALE_NODE_TTL_SECS := by
    have hafter : (net.party i) = (((Network.after turns).party i).act
        (.loop (.stateBroadcast send now cleanupIter saveIter fault))).1 := by
      simp [net, Network.after, cleanupTurn, Networks.Config.step]
    rw [hafter] at hr
    cases hbefore : ((Network.after turns).party i).running with
    | none => simp [Machine.act, hbefore] at hr
    | some before =>
      rw [Machine.act_loop hbefore] at hr
      obtain rfl := Option.some.inj hr
      exact stateBroadcast_recent hactive hn hd
  have halive := (hsound.records.active id node hn hd).alive
  rw [hsound.table.nodesKeyed id node hn] at halive
  exact halive.earlier (by omega)

theorem silent_members_forgotten_alice :
    let net := Network.after (Sample.networkTurns ++ [Sample.aliceCleansUp])
    ∀ r, (net.party false).running = some r → r.process.stopped = false →
      ∀ (id : EndpointId) (node : Node), r.ctx.nodes[id]? = some node →
        isDaemonNode node = true → AliveAt 0 net.sent id (1030 - STALE_NODE_TTL_SECS) :=
  silent_members_forgotten Sample.network_runs

end Network
end P2pDdns
