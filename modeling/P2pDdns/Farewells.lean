import P2pDdns.Retention

/-!
How a daemon takes its leave. It says so when it shuts down. Whoever hears it forgets that daemon,
and nobody else, and gives it no name in the hosts file until somebody brings it back.
-/

set_option autoImplicit false

namespace P2pDdns
open Std FiniteMaps

section Parting
variable {platform : Platform} {p : Process}

theorem gracefulShutdown_emitted (hdaemon : p.daemon.ctx.args.daemon = true)
    (env : ShutdownReadings) :
    (p.gracefulShutdown platform env).2 =
      [⟨.gossip, .left, env.send.signNow, env.send.accepted⟩] := by
  unfold Process.gracefulShutdown
  dsimp only
  rw [if_pos hdaemon]
  split <;> rfl

theorem LoopEvent.ShutsDown.emitted {e : LoopEvent} {env : ShutdownReadings}
    (h : e.ShutsDown platform p env) (hactive : p.stopped = false)
    (hdaemon : p.daemon.ctx.args.daemon = true) :
    (p.step platform e).2 = [⟨.gossip, .left, env.send.signNow, env.send.accepted⟩] := by
  obtain ⟨q, hargs, -, -, hemitted⟩ := h.gracefully hactive
  rw [hemitted]
  exact gracefulShutdown_emitted (by rw [hargs]; exact hdaemon) env

end Parting

section Hearing
variable {ctx : Context} {id : EndpointId} {timestamp : Nat} {env : Readings}

theorem left_receive (hpassed : Passed ctx ⟨id, .left, timestamp⟩ env) :
    (ctx.receive ⟨id, .left, timestamp⟩ env).1 =
      { ctx.refreshed ⟨id, .left, timestamp⟩ env with
        nodes := (ctx.refreshed ⟨id, .left, timestamp⟩ env).nodes.erase id } := by
  rw [receive_eq, left_ctx, if_pos (status_passed.mpr hpassed)]

theorem left_heard (ht : TrustTable ctx) (hpassed : Passed ctx ⟨id, .left, timestamp⟩ env) :
    id ∉ (ctx.receive ⟨id, .left, timestamp⟩ env).1.nodes ∧
    ∀ other, other ≠ id → Untouched other ctx (ctx.receive ⟨id, .left, timestamp⟩ env).1 := by
  rw [left_receive hpassed]
  constructor
  · simp
  · intro other hother
    obtain ⟨hnodes, htrusted⟩ := @refreshed_untouched ctx ⟨id, .left, timestamp⟩ env ht.nodesKeyed
      other hother
    refine ⟨?_, htrusted⟩
    rw [getElem?_erase_eq, if_neg hother]
    exact hnodes

end Hearing

/-! Nobody comes back by itself. -/

/-- The turn makes the id active, as a peer or as a client. -/
def LoopEvent.BringsBack (platform : Platform) (p : Process) (id : EndpointId) (e : LoopEvent) :
    Prop :=
  ∃ ev, e.tableEvent? = some ev ∧
    (Brings platform.codecs p.daemon id ev ∨ RegistersAs platform.codecs p.daemon id ev)

section Absence
variable {platform : Platform} {p : Process} {id : EndpointId}

theorem Process.step_absent {e : LoopEvent} (ht : TrustTable p.daemon.ctx)
    (habsent : id ∉ p.daemon.ctx.nodes) (hback : ¬ e.BringsBack platform p id) :
    id ∉ (p.step platform e).1.daemon.ctx.nodes := by
  unfold Process.step
  split
  · exact habsent
  · rw [turn_nodes]
    cases hev : e.tableEvent? with
    | none => exact habsent
    | some ev =>
      intro hmem
      refine hback ⟨ev, hev, ?_⟩
      exact (step_brings ht habsent hmem).imp_left And.right

theorem Process.run_absent {events : List LoopEvent} (ht : TrustTable p.daemon.ctx)
    (habsent : id ∉ p.daemon.ctx.nodes)
    (hback : Runs.Along (fun p e => (p.step platform e).1)
      (fun p e => ¬ e.BringsBack platform p id) p events) :
    id ∉ (p.run platform events).1.daemon.ctx.nodes := by
  rw [Process.run_eq_exec]
  refine (Runs.invariant_along
    (I := fun p : Process => TrustTable p.daemon.ctx ∧ id ∉ p.daemon.ctx.nodes) ?_
    ⟨ht, habsent⟩ hback).2
  intro p e ⟨ht, habsent⟩ hback
  exact ⟨p.step_trustTable platform e ht, p.step_absent ht habsent hback⟩

theorem Process.hostsNodes_absent (ht : TrustTable p.daemon.ctx) (hme : p.daemon.ctx.me.nodeId ≠ id)
    (habsent : id ∉ p.daemon.ctx.nodes) (turn : HostsTurn) :
    ∀ node ∈ p.hostsNodes turn, node.nodeId ≠ id := by
  intro node hnode
  rcases List.mem_append.mp hnode with hactive | hown
  · obtain ⟨⟨key, _⟩, hwalk, rfl⟩ := List.mem_map.mp hactive
    rw [IterOrder.mem_walk] at hwalk
    rw [ht.nodesKeyed key _ hwalk]
    rintro rfl
    exact habsent (mem_of_getElem? hwalk)
  · obtain rfl := List.mem_singleton.mp hown
    exact hme

end Absence

/-! The daemon that leaves, and one that hears it. -/

/-- A daemon runs and shuts down, and another, in the middle of its run, hears the farewell. -/
structure Farewell (platform host : Platform) where
  start : Start platform.codecs
  hostsFile : List UInt8
  env : LaunchReadings
  events : List LoopEvent
  last : LoopEvent
  down : ShutdownReadings
  hostStart : Start host.codecs
  hostHostsFile : List UInt8
  hostEnv : LaunchReadings
  before : List LoopEvent
  heard : LoopEvent

namespace Farewell
variable {platform host : Platform} (x : Farewell platform host)

def leaverId : EndpointId := x.start.ctx.me.nodeId

def leaving : Process := ((x.start.launch platform x.hostsFile x.env).1.run platform x.events).1

def hearing : Process :=
  ((x.hostStart.launch host x.hostHostsFile x.hostEnv).1.run host x.before).1

def hasHeard : Process := (x.hearing.step host x.heard).1

structure Said : Prop where
  daemon : x.start.args.daemon = true
  active : x.leaving.stopped = false
  shutsDown : x.last.ShutsDown platform x.leaving x.down

/-- The farewell arrives in time at a daemon that trusts the sender. -/
structure Heard : Prop where
  listening : x.hearing.stopped = false
  other : x.hostStart.ctx.me.nodeId ≠ x.leaverId
  trusted : x.leaverId ∈ x.hearing.daemon.ctx.trustedNodes
  heard : ∃ em ∈ (x.leaving.step platform x.last).2, ∃ env reply,
    x.heard.Receives ⟨x.leaverId, em.message, em.timestamp⟩ env reply ∧
      (⟨x.leaverId, em.message, em.timestamp⟩ : SignedMessage).isFresh env.verifyNow = true

variable {x}

theorem Said.emitted (h : x.Said) :
    (x.leaving.step platform x.last).2 =
      [⟨.gossip, .left, x.down.send.signNow, x.down.send.accepted⟩] := by
  refine h.shutsDown.emitted h.active ?_
  obtain ⟨-, -, hargs, -⟩ := initNetwork_ok x.start.started
  rw [leaving, (launched_run_frame x.hostsFile x.env x.events).2.1, hargs]
  exact h.daemon

theorem Heard.received (hsaid : x.Said) (h : x.Heard) :
    ∃ env reply, x.heard.Receives ⟨x.leaverId, .left, x.down.send.signNow⟩ env reply ∧
      Passed x.hearing.daemon.ctx ⟨x.leaverId, .left, x.down.send.signNow⟩ env := by
  obtain ⟨em, hem, env, reply, hreceives, hfresh⟩ := h.heard
  rw [hsaid.emitted, List.mem_singleton] at hem
  subst hem
  exact ⟨env, reply, hreceives, h.trusted, hfresh⟩

theorem run_hasHeard_me (x : Farewell platform host) (later : List LoopEvent) :
    (x.hasHeard.run host later).1.daemon.ctx.me = x.hostStart.ctx.me := by
  have hlater := (run_frame host x.hasHeard later).1
  have hturn := (run_frame host x.hearing [x.heard]).1
  exact hlater.trans (hturn.trans (launched_run_frame x.hostHostsFile x.hostEnv x.before).1)

/-- A daemon that shuts down says so, once. Who hears it answers nothing, forgets that daemon and
touches no other record; and as long as nobody brings it back, it is not listed there again, and no
update of the hosts file is given its record. -/
theorem farewell_heard (hsaid : x.Said) (h : x.Heard) :
    (∃ em, (x.leaving.step platform x.last).2 = [em] ∧ em.message = .left ∧ em.channel = .gossip) ∧
    (x.hearing.step host x.heard).2 = [] ∧
    (∀ id, id ≠ x.leaverId → Untouched id x.hearing.daemon.ctx x.hasHeard.daemon.ctx) ∧
    ∀ later, Runs.Along (fun p e => (p.step host e).1)
        (fun p e => ¬ e.BringsBack host p x.leaverId) x.hasHeard later →
      x.leaverId ∉ (x.hasHeard.run host later).1.daemon.ctx.nodes ∧
      ∀ turn, ∀ node ∈ (x.hasHeard.run host later).1.hostsNodes turn, node.nodeId ≠ x.leaverId := by
  obtain ⟨env, reply, hreceives, hpassed⟩ := h.received hsaid
  have ht : TrustTable x.hearing.daemon.ctx :=
    Process.run_trustTable host x.before (launch_trustTable x.hostStart x.hostHostsFile x.hostEnv)
  have hctx : x.hasHeard.daemon.ctx =
      (x.hearing.daemon.ctx.receive ⟨x.leaverId, .left, x.down.send.signNow⟩ env).1 :=
    hreceives.ctx_eq host h.listening
  obtain ⟨habsent, hothers⟩ := left_heard ht hpassed
  rw [← hctx] at habsent hothers
  refine ⟨⟨_, hsaid.emitted, rfl, rfl⟩, ?_, hothers, fun later hlater => ?_⟩
  · refine List.eq_nil_iff_forall_not_mem.mpr fun answer hanswer => ?_
    obtain ⟨⟨-, ⟨nodes, hrequest⟩, -⟩, -⟩ := hreceives.emitted hanswer
    contradiction
  · have ht' : TrustTable x.hasHeard.daemon.ctx := Process.step_trustTable host x.heard ht
    have hgone := Process.run_absent ht' habsent hlater
    have hme : (x.hasHeard.run host later).1.daemon.ctx.me.nodeId ≠ x.leaverId := by
      rw [run_hasHeard_me]
      exact h.other
    exact ⟨hgone, Process.hostsNodes_absent (Process.run_trustTable host later ht') hme hgone⟩

end Farewell

namespace Sample

def alicesFarewell : Farewell onTerminal onTerminal where
  start := alicesStart
  hostsFile := []
  env := launchReadings alice 1 1000
  events := [joinHeard, requestHeard]
  last := .sigterm alicesShutdown
  down := alicesShutdown
  hostStart := bobsStart
  hostHostsFile := []
  hostEnv := launchReadings bob 2 1005
  before := [answerHeard]
  heard := .gosRecv (.received (some ⟨alice, .left, 1060⟩) (readings 1061) (replies bob 2 1061))

theorem alicesFarewell_said : alicesFarewell.Said where
  daemon := rfl
  active := by decide
  shutsDown := .sigterm

theorem alicesFarewell_heard : alicesFarewell.Heard where
  listening := by decide
  other := by decide
  trusted := by decide
  heard := ⟨⟨.gossip, .left, 1060, true⟩, by decide, _, _, .inr rfl, by decide⟩

def bobsTimers : List LoopEvent :=
  [.fullSync (replies bob 2 1100), .stateBroadcast (replies bob 2 1110) 1110 .byId .byId none]

theorem farewell_heard_bob :
    alice ∉ (alicesFarewell.hasHeard.run onTerminal bobsTimers).1.daemon.ctx.nodes := by
  have hquiet : Runs.Along (fun p e => (p.step onTerminal e).1)
      (fun p e => ¬ e.BringsBack onTerminal p alice) alicesFarewell.hasHeard bobsTimers := by
    refine ⟨?_, ?_, trivial⟩
    · rintro ⟨ev, hev, -⟩
      contradiction
    · rintro ⟨ev, hev, hback⟩
      obtain rfl := Option.some.inj hev
      rcases hback with (hback | hback | hback | hback) | hback <;> exact hback
  exact ((Farewell.farewell_heard alicesFarewell_said alicesFarewell_heard).2.2.2 _ hquiet).1

end Sample
end P2pDdns
