import P2pDdns.Disclosure
import P2pDdns.EventLoop

/-!
What a process hands to the network, turn by turn and over a run: every message speaks for the
daemon itself, and the join is announced at most once.
-/

set_option autoImplicit false

namespace P2pDdns
open Std Relation

def LoopEvent.Receives (e : LoopEvent) (signed : SignedMessage) (env : Readings)
    (reply : SendReadings) : Prop :=
  e = .spRecv (some signed) env reply ∨ e = .gosRecv (.received (some signed) env reply)

theorem LoopEvent.receives_of_mem {e : LoopEvent} {signed : SignedMessage} {env : Readings}
    (h : .received (some signed) env ∈ e.events) : ∃ reply, e.Receives signed env reply := by
  cases e with
  | spRecv signed' env' reply =>
    obtain ⟨rfl, rfl⟩ := Event.received.inj (List.mem_singleton.mp h)
    exact ⟨reply, .inl rfl⟩
  | gosRecv evt =>
    cases evt with
    | received signed' env' reply =>
      obtain ⟨rfl, rfl⟩ := Event.received.inj (List.mem_singleton.mp h)
      exact ⟨reply, .inr rfl⟩
    | neighborUp _ | neighborDown | lagged => contradiction
  | _ => simp [LoopEvent.events] at h

inductive Emits (ctx : Context) (e : LoopEvent) : Emission → Prop where
  | invited {env : SendReadings} :
      ctx.args.daemon = true → ctx.args.primary = false →
      Emits ctx e
        ⟨.gossip, .invited ctx.ticket.topic ctx.ticket.rnum env.ownAddr ctx.me.domain
          ctx.me.services ctx.me.invitor, env.signNow, env.accepted⟩
  | aboutMe {env : SendReadings} :
      ctx.args.daemon = true → ctx.paused = false →
      Emits ctx e
        ⟨.gossip, .aboutMe env.ownAddr ctx.me.domain ctx.me.services ctx.me.invitor, env.signNow,
          env.accepted⟩
  | syncRequest {env : SendReadings} :
      ctx.paused = false →
      Emits ctx e ⟨.neighbors, .syncRequest [], env.signNow, env.accepted⟩
  | syncResponse {signed : SignedMessage} {env : Readings} {reply : SendReadings}
      {target : EndpointAddr} :
      e.Receives signed env reply → AsksDaemon ctx signed →
      Emits ctx e
        ⟨.direct target, .syncResponse ((ctx.receive signed env).1.knownDaemons env),
          reply.signNow, reply.accepted⟩
  | left {env : SendReadings} :
      ctx.args.daemon = true →
      Emits ctx e ⟨.gossip, .left, env.signNow, env.accepted⟩

def Emission.invites (em : Emission) : Bool :=
  match em.message with
  | .invited .. => true
  | _ => false

def Emission.joins (em : Emission) : Bool := em.invites && em.accepted

section Turn
variable {platform : Platform} {p : Process} {e : LoopEvent} {em : Emission}

theorem mem_receive {signed : Option SignedMessage} {env : Readings} {reply : SendReadings}
    (h : em ∈ (p.receive platform signed env reply).2) :
    ∃ heard target, signed = some heard ∧ AsksDaemon p.daemon.ctx heard ∧
      em = ⟨.direct target,
        .syncResponse ((p.daemon.ctx.receive heard env).1.knownDaemons env), reply.signNow,
        reply.accepted⟩ := by
  cases signed with
  | none => simp [Process.receive] at h
  | some heard =>
    obtain ⟨out, hout, rfl⟩ := List.mem_map.mp h
    rcases receive_outgoing p.daemon.ctx heard env with ⟨hnone, -⟩ | ⟨hasks, target, hsome⟩
    · rw [hnone] at hout
      contradiction
    · rw [hsome] at hout
      obtain rfl := List.mem_singleton.mp hout
      exact ⟨heard, target, rfl, hasks, rfl⟩

theorem mem_gracefulShutdown {env : ShutdownReadings}
    (h : em ∈ (p.gracefulShutdown platform env).2) :
    p.daemon.ctx.args.daemon = true ∧
      em = ⟨.gossip, .left, env.send.signNow, env.send.accepted⟩ := by
  have hleft : em ∈
      if p.daemon.ctx.args.daemon then Process.broadcastMessage .left env.send else [] := by
    unfold Process.gracefulShutdown at h
    dsimp only at h
    split at h <;> exact h
  split at hleft
  · rename_i hdaemon
    exact ⟨hdaemon, List.mem_singleton.mp hleft⟩
  · contradiction

theorem perform_frame (ev : Event) :
    (p.perform platform ev).daemon.ctx.me = p.daemon.ctx.me ∧
      (p.perform platform ev).daemon.ctx.args = p.daemon.ctx.args :=
  let frame := changes_frame (step_changes platform.codecs p.daemon ev)
  ⟨frame.1, frame.2.1⟩

theorem announceJoin_cases (env : SendReadings) :
    p.announceJoin env = (p, []) ∧
        (p.joinAnnounced = true ∨ p.daemon.ctx.args.daemon = false ∨
          p.daemon.ctx.args.primary = true) ∨
      p.joinAnnounced = false ∧ p.daemon.ctx.args.daemon = true ∧
        p.daemon.ctx.args.primary = false ∧
        p.announceJoin env = ({ p with joinAnnounced := env.accepted },
          [⟨.gossip, .invited p.daemon.ctx.ticket.topic p.daemon.ctx.ticket.rnum env.ownAddr
            p.daemon.ctx.me.domain p.daemon.ctx.me.services p.daemon.ctx.me.invitor,
            env.signNow, env.accepted⟩]) := by
  unfold Process.announceJoin
  split
  · rename_i hjoined
    exact .inl ⟨rfl, .inl hjoined⟩
  · rename_i hjoined
    rw [Bool.not_eq_true] at hjoined
    split
    · rename_i hrole
      rw [Bool.or_eq_true, Bool.not_eq_true'] at hrole
      exact .inl ⟨rfl, .inr hrole⟩
    · rename_i hrole
      rw [Bool.or_eq_true, Bool.not_eq_true', not_or, Bool.not_eq_false, Bool.not_eq_true] at hrole
      exact .inr ⟨hjoined, hrole.1, hrole.2, rfl⟩

theorem mem_turn (h : em ∈ (p.turn platform e).2) : Emits p.daemon.ctx e em := by
  cases e with
  | ctrlc res env =>
    simp only [Process.turn] at h
    split at h
    · obtain ⟨hdaemon, rfl⟩ := mem_gracefulShutdown h
      exact .left hdaemon
    · contradiction
  | sigterm env =>
    obtain ⟨hdaemon, rfl⟩ := mem_gracefulShutdown h
    exact .left hdaemon
  | stateBroadcast send now cleanupIter saveIter fault =>
    simp only [Process.turn] at h
    split at h
    · rename_i hactive
      rw [Bool.and_eq_true, Bool.not_eq_true'] at hactive
      obtain rfl := List.mem_singleton.mp h
      exact .aboutMe hactive.1 hactive.2
    · contradiction
  | fullSync send =>
    simp only [Process.turn] at h
    split at h
    · rename_i hactive
      rw [Bool.and_eq_true, Bool.not_eq_true'] at hactive
      obtain rfl := List.mem_singleton.mp h
      exact .syncRequest hactive.2
    · contradiction
  | spRecv signed env reply =>
    obtain ⟨heard, target, rfl, hasks, rfl⟩ := mem_receive h
    exact .syncResponse (.inl rfl) hasks
  | gosRecv evt =>
    cases evt with
    | received signed env reply =>
      obtain ⟨heard, target, rfl, hasks, rfl⟩ := mem_receive h
      exact .syncResponse (.inr rfl) hasks
    | neighborUp env =>
      rcases announceJoin_cases (p := p) env with ⟨heq, -⟩ | ⟨-, hdaemon, hprimary, heq⟩
      · rw [Process.turn, Process.processGossip, heq] at h
        contradiction
      · rw [Process.turn, Process.processGossip, heq] at h
        obtain rfl := List.mem_singleton.mp h
        exact .invited hdaemon hprimary
    | neighborDown | lagged => contradiction
  | command client cmd env responded shutdown =>
    simp only [Process.turn] at h
    split at h
    · obtain ⟨hdaemon, rfl⟩ := mem_gracefulShutdown h
      rw [(perform_frame _).2] at hdaemon
      exact .left hdaemon
    · contradiction
  | spClosed | gosFailed | gosClosed | exited => contradiction
  | hostsTick _ => contradiction
  | authenticate _ _ _ => contradiction

theorem mem_step (h : em ∈ (p.step platform e).2) : Emits p.daemon.ctx e em := by
  unfold Process.step at h
  split at h
  · contradiction
  · exact mem_turn h

end Turn
/-! The join. -/

section Join
variable {platform : Platform} {p : Process} {e : LoopEvent} {em : Emission}

theorem reported_joinAnnounced (done : HostsSyncStatus → HostsSyncStatus)
    (result : Returned Bool × List UInt8) :
    (p.reported platform done result).joinAnnounced = p.joinAnnounced := by
  obtain ⟨returned, file⟩ := result
  cases returned <;> rfl

theorem syncHostsFile_joinAnnounced (env : HostsTurn) :
    (p.syncHostsFile platform env).joinAnnounced = p.joinAnnounced := by
  unfold Process.syncHostsFile
  split
  · exact reported_joinAnnounced _ _
  · rfl

theorem gracefulShutdown_joinAnnounced (env : ShutdownReadings) :
    (p.gracefulShutdown platform env).1.joinAnnounced = p.joinAnnounced := by
  have hclear : (p.clearHostsFile platform env.hosts).joinAnnounced = p.joinAnnounced := by
    unfold Process.clearHostsFile
    split
    · exact reported_joinAnnounced _ _
    · rfl
  unfold Process.gracefulShutdown
  dsimp only
  split <;> exact hclear

/-- A turn leaves the flag and attempts no join, or is the one attempt of a daemon that is no
primary and has not joined, and sets the flag to how it went. -/
theorem turn_join (platform : Platform) (p : Process) (e : LoopEvent) :
    (p.turn platform e).1.joinAnnounced = p.joinAnnounced ∧
        (∀ em ∈ (p.turn platform e).2, em.invites = false) ∨
      p.joinAnnounced = false ∧ ∃ em, (p.turn platform e).2 = [em] ∧ em.invites = true ∧
        (p.turn platform e).1.joinAnnounced = em.accepted := by
  have hleft : ∀ env, ∀ em ∈ (p.gracefulShutdown platform env).2, em.invites = false := by
    intro env em h
    obtain ⟨-, rfl⟩ := mem_gracefulShutdown h
    rfl
  have hreply : ∀ signed env reply, ∀ em ∈ (p.receive platform signed env reply).2,
      em.invites = false := by
    intro signed env reply em h
    obtain ⟨_, _, -, -, rfl⟩ := mem_receive h
    rfl
  cases e with
  | ctrlc res env =>
    left
    simp only [Process.turn]
    split
    · exact ⟨gracefulShutdown_joinAnnounced env, hleft env⟩
    · exact ⟨rfl, by simp⟩
  | sigterm env => exact .inl ⟨gracefulShutdown_joinAnnounced env, hleft env⟩
  | stateBroadcast send now cleanupIter saveIter fault =>
    refine .inl ⟨rfl, fun em h => ?_⟩
    simp only [Process.turn] at h
    split at h
    · obtain rfl := List.mem_singleton.mp h
      rfl
    · contradiction
  | fullSync send =>
    refine .inl ⟨rfl, fun em h => ?_⟩
    simp only [Process.turn] at h
    split at h
    · obtain rfl := List.mem_singleton.mp h
      rfl
    · contradiction
  | spRecv signed env reply => exact .inl ⟨rfl, hreply signed env reply⟩
  | gosRecv evt =>
    cases evt with
    | received signed env reply => exact .inl ⟨rfl, hreply signed env reply⟩
    | neighborUp env =>
      rw [Process.turn, Process.processGossip]
      rcases announceJoin_cases (p := p) env with ⟨heq, -⟩ | ⟨hjoined, -, -, heq⟩
      · rw [heq]
        exact .inl ⟨rfl, by simp⟩
      · rw [heq]
        exact .inr ⟨hjoined, _, rfl, rfl, rfl⟩
    | neighborDown | lagged => exact .inl ⟨rfl, by simp [Process.turn, Process.processGossip]⟩
  | hostsTick env => exact .inl ⟨syncHostsFile_joinAnnounced env, by simp [Process.turn]⟩
  | authenticate authReq mode env => exact .inl ⟨rfl, by simp [Process.turn]⟩
  | command client cmd env responded shutdown =>
    left
    simp only [Process.turn]
    split
    · refine ⟨gracefulShutdown_joinAnnounced shutdown, fun em h => ?_⟩
      obtain ⟨-, rfl⟩ := mem_gracefulShutdown h
      rfl
    · exact ⟨rfl, by simp⟩
  | spClosed | gosFailed | gosClosed | exited => exact .inl ⟨rfl, by simp [Process.turn]⟩

theorem step_join (platform : Platform) (p : Process) (e : LoopEvent) :
    (p.step platform e).1.joinAnnounced = p.joinAnnounced ∧
        (∀ em ∈ (p.step platform e).2, em.invites = false) ∨
      p.joinAnnounced = false ∧ ∃ em, (p.step platform e).2 = [em] ∧ em.invites = true ∧
        (p.step platform e).1.joinAnnounced = em.accepted := by
  unfold Process.step
  split
  · exact .inl ⟨rfl, by simp⟩
  · exact turn_join platform p e

/-- What is known of the joins among the messages handed over so far. -/
structure JoinLog (joinAnnounced : Bool) (emitted : List Emission) : Prop where
  counted : emitted.countP Emission.joins = joinAnnounced.toNat
  last : ∀ before em after, emitted = before ++ em :: after → em.joins = true →
    ∀ later ∈ after, later.invites = false

theorem countP_joins_quiet {emitted : List Emission} (h : ∀ em ∈ emitted, em.invites = false) :
    emitted.countP Emission.joins = 0 := by
  refine List.countP_eq_zero.mpr fun em hem => ?_
  simp [Emission.joins, h em hem]

theorem JoinLog.accepted {joined : Bool} {emitted : List Emission} (h : JoinLog joined emitted)
    (hem : em ∈ emitted) (hjoins : em.joins = true) : joined = true := by
  have hpos : 0 < emitted.countP Emission.joins := List.countP_pos_iff.mpr ⟨em, hem, hjoins⟩
  rw [h.counted] at hpos
  cases joined with
  | true => rfl
  | false => contradiction

theorem JoinLog.quiet {joined : Bool} {emitted more : List Emission} (h : JoinLog joined emitted)
    (hmore : ∀ em ∈ more, em.invites = false) : JoinLog joined (emitted ++ more) where
  counted := by rw [List.countP_append, h.counted, countP_joins_quiet hmore, Nat.add_zero]
  last before em after heq hjoins later hlater := by
    rcases List.append_eq_append_iff.mp heq with ⟨mid, hbefore, hrest⟩ | ⟨mid, hbefore, hrest⟩
    · -- The join stands among the later messages, none of which is one.
      have hem : em ∈ more := hrest ▸ List.mem_append_right mid List.mem_cons_self
      simp [Emission.joins, hmore em hem] at hjoins
    · cases mid with
      | nil =>
        have hem : em ∈ more := by
          rw [← List.nil_append more, ← hrest]
          exact List.mem_cons_self
        simp [Emission.joins, hmore em hem] at hjoins
      | cons found mid =>
        obtain ⟨rfl, rfl⟩ := List.cons.inj hrest
        rcases List.mem_append.mp hlater with hlater | hlater
        · exact h.last before em mid hbefore hjoins later hlater
        · exact hmore later hlater

theorem JoinLog.attempted {emitted : List Emission} (h : JoinLog false emitted)
    (hinvites : em.invites = true) : JoinLog em.accepted (emitted ++ [em]) where
  counted := by
    rw [List.countP_append, h.counted, List.countP_singleton]
    cases haccepted : em.accepted <;> simp [Emission.joins, hinvites, haccepted]
  last before found after heq hjoins later hlater := by
    rcases List.append_eq_append_iff.mp heq with ⟨mid, hbefore, hrest⟩ | ⟨mid, hbefore, hrest⟩
    · cases mid with
      | nil =>
        obtain ⟨-, rfl⟩ := List.cons.inj hrest
        contradiction
      | cons _ mid =>
        obtain ⟨-, hrest⟩ := List.cons.inj hrest
        simp at hrest
    · cases mid with
      | nil =>
        obtain ⟨-, rfl⟩ := List.cons.inj hrest
        contradiction
      | cons _ mid =>
        obtain ⟨rfl, -⟩ := List.cons.inj hrest
        have hfound : found ∈ emitted := hbefore ▸ List.mem_append_right before List.mem_cons_self
        have := h.accepted hfound hjoins
        contradiction

theorem JoinLog.step {emitted : List Emission} (h : JoinLog p.joinAnnounced emitted)
    (e : LoopEvent) :
    JoinLog (p.step platform e).1.joinAnnounced (emitted ++ (p.step platform e).2) := by
  rcases step_join platform p e with ⟨hjoined, hquiet⟩ | ⟨hjoined, em, hem, hinvites, haccepted⟩
  · rw [hjoined]
    exact h.quiet hquiet
  · rw [hem, haccepted]
    rw [hjoined] at h
    exact h.attempted hinvites

theorem JoinLog.run {emitted : List Emission} (h : JoinLog p.joinAnnounced emitted)
    (es : List LoopEvent) :
    JoinLog (p.run platform es).1.joinAnnounced (emitted ++ (p.run platform es).2) := by
  induction es generalizing p emitted with
  | nil => simpa [Process.run] using h
  | cons e es ih => simpa [Process.run] using ih (h.step e)

end Join
/-! A whole run, from the start on. -/

section Run
variable {platform : Platform} {start : Start platform.codecs} {em : Emission}

theorem step_frame (platform : Platform) (p : Process) (e : LoopEvent) :
    (p.step platform e).1.daemon.ctx.me = p.daemon.ctx.me ∧
      (p.step platform e).1.daemon.ctx.args = p.daemon.ctx.args ∧
      (p.step platform e).1.daemon.ctx.ticket = p.daemon.ctx.ticket :=
  moves_frame (step_moves platform p e)

theorem run_frame (platform : Platform) (p : Process) (es : List LoopEvent) :
    (p.run platform es).1.daemon.ctx.me = p.daemon.ctx.me ∧
      (p.run platform es).1.daemon.ctx.args = p.daemon.ctx.args ∧
      (p.run platform es).1.daemon.ctx.ticket = p.daemon.ctx.ticket := by
  induction es generalizing p with
  | nil => exact ⟨rfl, rfl, rfl⟩
  | cons e es ih =>
    obtain ⟨hme, hargs, hticket⟩ := step_frame platform p e
    obtain ⟨hme', hargs', hticket'⟩ := ih (p.step platform e).1
    exact ⟨hme'.trans hme, hargs'.trans hargs, hticket'.trans hticket⟩

theorem mem_run {p : Process} {es : List LoopEvent} (h : em ∈ (p.run platform es).2) :
    ∃ before e after, es = before ++ e :: after ∧
      em ∈ ((p.run platform before).1.step platform e).2 := by
  induction es generalizing p with
  | nil => contradiction
  | cons e es ih =>
    rcases List.mem_append.mp h with h | h
    · exact ⟨[], e, es, rfl, h⟩
    · obtain ⟨before, f, after, rfl, hem⟩ := ih h
      exact ⟨e :: before, f, after, rfl, hem⟩

/-- The process `init_network` starts, before anything is announced. -/
def Start.process (start : Start platform.codecs) (hostsFile : List UInt8) : Process :=
  { daemon := start.daemon, joinAnnounced := false, hostsFile := hostsFile, stopped := false }

theorem launch_emitted (hostsFile : List UInt8) (env : LaunchReadings) :
    (start.launch platform hostsFile env).1.joinAnnounced =
        ((start.process hostsFile).announceJoin env.announce).1.joinAnnounced ∧
      ∃ quiet, (start.launch platform hostsFile env).2 =
          ((start.process hostsFile).announceJoin env.announce).2 ++ quiet ∧
        ∀ em ∈ quiet, em = ⟨.neighbors, .syncRequest [], env.sync.signNow, env.sync.accepted⟩ := by
  unfold Start.launch Start.process
  dsimp only
  split
  · exact ⟨syncHostsFile_joinAnnounced env.hosts, [], by simp, by simp⟩
  · exact ⟨syncHostsFile_joinAnnounced env.hosts, _, rfl, fun em h => List.mem_singleton.mp h⟩

theorem launch_joinLog (hostsFile : List UInt8) (env : LaunchReadings) :
    JoinLog (start.launch platform hostsFile env).1.joinAnnounced
      (start.launch platform hostsFile env).2 := by
  obtain ⟨hjoined, quiet, hemitted, hquiet⟩ := @launch_emitted platform start hostsFile env
  rw [hjoined, hemitted]
  refine JoinLog.quiet ?_ fun em h => by rw [hquiet em h]; rfl
  have hnew : JoinLog false [] := ⟨rfl, by simp⟩
  rcases announceJoin_cases (p := start.process hostsFile) env.announce with
    ⟨heq, -⟩ | ⟨-, -, -, heq⟩
  · rw [heq]
    exact hnew
  · rw [heq]
    have hinvites : ∀ topic rnum addr aliasName services invitor,
        (⟨.gossip, .invited topic rnum addr aliasName services invitor, env.announce.signNow,
          env.announce.accepted⟩ : Emission).invites = true := fun _ _ _ _ _ _ => rfl
    exact hnew.attempted (hinvites _ _ _ _ _ _)

def Invites (ctx : Context) (em : Emission) : Prop :=
  em.invites = true → ctx.args.daemon = true ∧ ctx.args.primary = false ∧
    ∃ addr, em.message = .invited ctx.ticket.topic ctx.ticket.rnum addr ctx.me.domain
      ctx.me.services ctx.me.invitor

theorem Emits.invites {ctx : Context} {e : LoopEvent} (h : Emits ctx e em) : Invites ctx em := by
  intro hinvites
  cases h with
  | invited hdaemon hprimary => exact ⟨hdaemon, hprimary, _, rfl⟩
  | aboutMe _ _ => contradiction
  | syncRequest _ => contradiction
  | syncResponse _ _ => contradiction
  | left _ => contradiction

theorem Invites.congr {ctx ctx' : Context} (h : Invites ctx em)
    (hframe : ctx.me = ctx'.me ∧ ctx.args = ctx'.args ∧ ctx.ticket = ctx'.ticket) :
    Invites ctx' em := by
  obtain ⟨hme, hargs, hticket⟩ := hframe
  unfold Invites at h ⊢
  rwa [hme, hargs, hticket] at h

theorem launch_frame (hostsFile : List UInt8) (env : LaunchReadings) :
    (start.launch platform hostsFile env).1.daemon.ctx.me = start.ctx.me ∧
      (start.launch platform hostsFile env).1.daemon.ctx.args = start.ctx.args ∧
      (start.launch platform hostsFile env).1.daemon.ctx.ticket = start.ctx.ticket :=
  moves_frame (e := .exited) (@launch_moves platform .exited start hostsFile env)

theorem initNetwork_paused {codecs : Codecs} {args : DaemonArgs} {storage : Storage}
    {env : StartReadings} {ctx : Context} (h : initNetwork codecs args storage env = .ok ctx) :
    ctx.paused = false := by
  unfold initNetwork at h
  cases hticket : parseArgTicket codecs args with
  | error e => simp [hticket, bind, Except.bind] at h
  | ok argTicket =>
    simp only [hticket, bind, Except.bind] at h
    split at h
    · contradiction
    · obtain ⟨rfl⟩ := h
      rfl

theorem mem_launch {hostsFile : List UInt8} {env : LaunchReadings}
    (h : em ∈ (start.launch platform hostsFile env).2) : Emits start.ctx .exited em := by
  obtain ⟨-, quiet, hemitted, hquiet⟩ := @launch_emitted platform start hostsFile env
  rw [hemitted] at h
  rcases List.mem_append.mp h with h | h
  · rcases announceJoin_cases (p := start.process hostsFile) env.announce with
      ⟨heq, -⟩ | ⟨-, hdaemon, hprimary, heq⟩
    · rw [heq] at h
      contradiction
    · rw [heq] at h
      obtain rfl := List.mem_singleton.mp h
      exact .invited hdaemon hprimary
  · rw [hquiet em h]
    exact .syncRequest (initNetwork_paused start.started)

theorem launched_run_frame (hostsFile : List UInt8) (env : LaunchReadings)
    (events : List LoopEvent) :
    let ended := (start.launch platform hostsFile env).1.run platform events
    ended.1.daemon.ctx.me = start.ctx.me ∧ ended.1.daemon.ctx.args = start.ctx.args ∧
      ended.1.daemon.ctx.ticket = start.ctx.ticket := by
  obtain ⟨hme, hargs, hticket⟩ := @launch_frame platform start hostsFile env
  obtain ⟨hme', hargs', hticket'⟩ := run_frame platform (start.launch platform hostsFile env).1 events
  exact ⟨hme'.trans hme, hargs'.trans hargs, hticket'.trans hticket⟩

theorem launched_run_invites {hostsFile : List UInt8} {env : LaunchReadings}
    {events : List LoopEvent}
    (h : em ∈ (start.launch platform hostsFile env).2 ++
      ((start.launch platform hostsFile env).1.run platform events).2) :
    Invites start.ctx em := by
  rcases List.mem_append.mp h with h | h
  · exact (mem_launch h).invites
  · obtain ⟨before, e, after, -, hstep⟩ := mem_run h
    exact (mem_step hstep).invites.congr (launched_run_frame hostsFile env before)

/-- A run hands over at most one join without an error, and no other attempt after it. An
attempt comes from a daemon that is no primary, names it and carries its ticket; as long as none
has succeeded, every neighbour that comes up makes for another. -/
theorem join_announced_once (platform : Platform) (start : Start platform.codecs)
    (hostsFile : List UInt8) (env : LaunchReadings) (events : List LoopEvent) :
    let launched := start.launch platform hostsFile env
    let ended := launched.1.run platform events
    let emitted := launched.2 ++ ended.2
    emitted.countP Emission.joins = ended.1.joinAnnounced.toNat ∧
    (∀ before em after, emitted = before ++ em :: after → em.joins = true →
      ∀ later ∈ after, later.invites = false) ∧
    (∀ em ∈ emitted, em.invites = true →
      start.args.daemon = true ∧ start.args.primary = false ∧
        ∃ addr, em.message = .invited start.ctx.ticket.topic start.ctx.ticket.rnum addr
          start.ctx.me.domain start.ctx.me.services start.ctx.me.invitor) ∧
    ∀ up, ended.1.stopped = false → ended.1.joinAnnounced = false →
      start.args.daemon = true → start.args.primary = false →
      ∃ em ∈ (ended.1.step platform (.gosRecv (.neighborUp up))).2, em.invites = true := by
  intro launched ended emitted
  have hargs : start.ctx.args = start.args := by
    obtain ⟨-, -, h, -⟩ := initNetwork_ok start.started
    exact h
  have hended := @launched_run_frame platform start hostsFile env events
  have hlog : JoinLog ended.1.joinAnnounced emitted :=
    (launch_joinLog hostsFile env).run events
  refine ⟨hlog.counted, hlog.last, ?_, ?_⟩
  · intro em hem
    rw [← hargs]
    exact launched_run_invites hem
  · intro up hrunning hjoined hdaemon hprimary
    rw [Process.step, if_neg (by simp [hrunning]), Process.turn, Process.processGossip]
    rcases announceJoin_cases (p := ended.1) up with ⟨-, hrole⟩ | ⟨-, -, -, heq⟩
    · rw [hended.2.1, hargs, hjoined, hdaemon, hprimary] at hrole
      simp at hrole
    · rw [heq]
      exact ⟨_, List.mem_singleton_self _, rfl⟩

end Run
end P2pDdns
