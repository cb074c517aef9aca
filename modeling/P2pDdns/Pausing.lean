import P2pDdns.Emissions

/-!
Pausing a daemon. The flag silences the timers' messages; nothing else of a process depends on
it, so a run with pauses is the same run without them, less some of those messages.
-/

set_option autoImplicit false

namespace P2pDdns
open Std

def Context.setPaused (ctx : Context) (b : Bool) : Context := { ctx with paused := b }

def Daemon.setPaused (d : Daemon) (b : Bool) : Daemon := { d with ctx := d.ctx.setPaused b }

def Process.setPaused (p : Process) (b : Bool) : Process :=
  { p with daemon := p.daemon.setPaused b }

/-! No operation on the tables reads the flag or changes it. -/

section Tables
variable (ctx : Context) (b : Bool) (node : Node) (sender : EndpointId)

theorem setPaused_trustDaemonNode :
    (ctx.setPaused b).trustDaemonNode node = (ctx.trustDaemonNode node).setPaused b := by
  rcases Context.trustDaemonNode_cases ctx node with ⟨h, heq⟩ | ⟨hme, hd, heq⟩
  · rw [heq]
    exact if_pos h
  · rw [heq]
    exact if_neg (not_or.mpr ⟨hme, by simp [hd]⟩)

theorem setPaused_upsertActiveNode :
    (ctx.setPaused b).upsertActiveNode node = (ctx.upsertActiveNode node).setPaused b := by
  rcases Context.upsertActiveNode_cases ctx node with ⟨h, heq⟩ | ⟨h, heq⟩
  · rw [heq]
    exact if_pos h
  · rw [heq]
    exact if_neg h

theorem setPaused_admitNode :
    (ctx.setPaused b).admitNode node = (ctx.admitNode node).setPaused b := by
  rw [Context.admitNode, setPaused_trustDaemonNode, setPaused_upsertActiveNode, Context.admitNode]

theorem setPaused_refreshTrustedNode :
    (ctx.setPaused b).refreshTrustedNode sender node =
      (ctx.refreshTrustedNode sender node).setPaused b := by
  by_cases h : (ctx.isNodeTrusted sender && isDaemonNode node) = true
  · rw [show ctx.refreshTrustedNode sender node = _ from if_pos h]
    exact if_pos h
  · rw [show ctx.refreshTrustedNode sender node = _ from if_neg h]
    exact if_neg h

theorem setPaused_refreshSender (env : Readings) :
    (ctx.setPaused b).refreshSender sender env = (ctx.refreshSender sender env).setPaused b := by
  have hnodes : (ctx.setPaused b).nodes = ctx.nodes := rfl
  rw [refreshSender_eq, refreshSender_eq, hnodes]
  cases ctx.nodes[sender]? with
  | none => rfl
  | some old =>
    cases env.refreshObserved with
    | none => rfl
    | some sock =>
      dsimp only
      rw [setPaused_refreshTrustedNode, setPaused_upsertActiveNode]

theorem setPaused_syncNode (observed : Option SocketAddr) :
    (ctx.setPaused b).syncNode sender observed node =
      (ctx.syncNode sender observed node).setPaused b := by
  by_cases hskip : node.nodeId = ctx.me.nodeId ∨ isDaemonNode node = false
  · rw [show ctx.syncNode sender observed node = _ from if_pos hskip]
    exact if_pos hskip
  · rw [show ctx.syncNode sender observed node = _ from if_neg hskip]
    refine (if_neg hskip).trans ?_
    have hnodes : (ctx.setPaused b).nodes = ctx.nodes := rfl
    dsimp only
    rw [hnodes, setPaused_trustDaemonNode, setPaused_upsertActiveNode]
    exact (apply_ite (Context.setPaused · b) _ _ _).symm

theorem setPaused_syncNodes (observed : Nat → Option SocketAddr) (k : Nat) (nodes : List Node) :
    Context.syncNodes sender observed k nodes (ctx.setPaused b) =
      (Context.syncNodes sender observed k nodes ctx).setPaused b := by
  induction nodes generalizing k ctx with
  | nil => rfl
  | cons node nodes ih => rw [Context.syncNodes, setPaused_syncNode, ih, Context.syncNodes]

theorem setPaused_refreshed (signed : SignedMessage) (env : Readings) :
    (ctx.setPaused b).refreshed signed env = (ctx.refreshed signed env).setPaused b := by
  have hstatus : (ctx.setPaused b).status signed env = ctx.status signed env := rfl
  unfold Context.refreshed
  rw [hstatus, setPaused_refreshSender]
  split <;> rfl

theorem setPaused_dispatchMessage (message : Message) (status : VerifyStatus) (env : Readings) :
    (ctx.setPaused b).dispatchMessage sender message status env =
      ((ctx.dispatchMessage sender message status env).1.setPaused b,
        (ctx.dispatchMessage sender message status env).2) := by
  have hannounce : ∀ addr aliasName services invitor,
      (ctx.setPaused b).announceNode sender addr aliasName services invitor env =
        (ctx.announceNode sender addr aliasName services invitor env).setPaused b :=
    fun _ _ _ _ => setPaused_admitNode ctx b _
  have hticket : (ctx.setPaused b).ticket = ctx.ticket := rfl
  have hargs : ∀ c : Context, (c.setPaused b).args = c.args := fun _ => rfl
  cases message with
  | invited topic rnum addr aliasName services invitor =>
    simp only [Context.dispatchMessage, hticket, hannounce]
    split
    · rfl
    · split <;> rfl
  | aboutMe addr aliasName services invitor =>
    simp only [Context.dispatchMessage, hannounce]
    split <;> rfl
  | introduce invited => rfl
  | heartbeat => rfl
  | left =>
    simp only [Context.dispatchMessage]
    split <;> rfl
  | syncRequest nodes =>
    have hmerged : (if (!(ctx.setPaused b).args.daemon || status.passed) = true then
        Context.syncNodes sender env.observed 0 nodes (ctx.setPaused b) else ctx.setPaused b) =
        (if (!ctx.args.daemon || status.passed) = true then
          Context.syncNodes sender env.observed 0 nodes ctx else ctx).setPaused b := by
      rw [hargs, setPaused_syncNodes]
      split <;> rfl
    simp only [Context.dispatchMessage]
    rw [hmerged]
    generalize (if (!ctx.args.daemon || status.passed) = true then
      Context.syncNodes sender env.observed 0 nodes ctx else ctx) = merged
    rw [hargs]
    split <;> rfl
  | syncResponse nodes =>
    simp only [Context.dispatchMessage, hargs, setPaused_syncNodes]
    split <;> rfl

theorem setPaused_receive (signed : SignedMessage) (env : Readings) :
    (ctx.setPaused b).receive signed env =
      ((ctx.receive signed env).1.setPaused b, (ctx.receive signed env).2) := by
  have hstatus : (ctx.setPaused b).status signed env = ctx.status signed env := rfl
  rw [receive_eq, hstatus, setPaused_refreshed, setPaused_dispatchMessage, receive_eq]

end Tables
def ClientCommand.switches : ClientCommand → Bool
  | .pause | .resume => true
  | _ => false

def Event.switches : Event → Bool
  | .command _ cmd _ => cmd.switches
  | _ => false

section Daemon
variable (codecs : Codecs) (d : Daemon) (b : Bool)

theorem setPaused_save (ctx : Context) (iter : IterOrder) (fault : Option String) :
    (ctx.setPaused b).save iter fault = (ctx.save iter fault).map (·.setPaused b) := by
  have hsave : ∀ written : Except String Storage,
      (written.map fun storage => { ctx.setPaused b with storage := storage }) =
        (written.map fun storage => { ctx with storage := storage }).map (·.setPaused b) := by
    intro written
    cases written <;> rfl
  exact hsave _

theorem setPaused_authenticateAndRegister (authReq : AuthRequest) (mode : AuthMode)
    (env : AuthReadings) :
    (authenticateAndRegister codecs (d.setPaused b) authReq mode env).1 =
      (authenticateAndRegister codecs d authReq mode env).1.setPaused b := by
  have hallowed : authAllowed codecs (d.setPaused b).ctx authReq mode =
      authAllowed codecs d.ctx authReq mode := rfl
  have hclients : (d.setPaused b).clients = d.clients := rfl
  unfold authenticateAndRegister
  rw [hallowed, hclients]
  split
  · rfl
  · dsimp only
    split
    · split <;> rfl
    · rfl

theorem setPaused_handleAddNode (ticket : String) (env : CommandReadings) :
    handleAddNode codecs (d.setPaused b) ticket env =
      ((handleAddNode codecs d ticket env).1, (handleAddNode codecs d ticket env).2.setPaused b) := by
  have hticket : (d.setPaused b).ctx.ticket = d.ctx.ticket := rfl
  unfold handleAddNode
  cases Ticket.fromStr codecs ticket with
  | error e => rfl
  | ok parsed =>
    dsimp only
    rw [hticket]
    split
    · rfl
    · have hstored : ((d.setPaused b).ctx.trustDaemonNode parsed.invitor).upsertActiveNode
          parsed.invitor =
          ((d.ctx.trustDaemonNode parsed.invitor).upsertActiveNode parsed.invitor).setPaused b :=
        setPaused_admitNode d.ctx b parsed.invitor
      rw [hstored]
      generalize (d.ctx.trustDaemonNode parsed.invitor).upsertActiveNode parsed.invitor = ctx
      have hstorage : (ctx.setPaused b).storage = ctx.storage := rfl
      rw [hstorage]
      cases ctx.storage.saveNode parsed.invitor env.fault <;> rfl

theorem setPaused_handleRemoveNode (id : String) (env : CommandReadings) :
    handleRemoveNode codecs (d.setPaused b) id env =
      ((handleRemoveNode codecs d id env).1, (handleRemoveNode codecs d id env).2.setPaused b) := by
  have hresolve : resolveNodeId codecs (d.setPaused b) id env.iter =
      resolveNodeId codecs d id env.iter := rfl
  have hme : (d.setPaused b).ctx.me = d.ctx.me := rfl
  unfold handleRemoveNode
  rw [hresolve]
  cases resolveNodeId codecs d id env.iter with
  | error e => rfl
  | ok nodeId =>
    dsimp only
    rw [hme]
    split
    · rfl
    · simp only [Storage.removeNode, Storage.transact]
      cases env.fault <;> rfl

theorem setPaused_runCommand (client : EndpointId) {cmd : ClientCommand} (env : CommandReadings)
    (hswitch : cmd.switches = false) :
    (runCommand codecs (d.setPaused b) client cmd env).1.action =
        (runCommand codecs d client cmd env).1.action ∧
      (runCommand codecs (d.setPaused b) client cmd env).2 =
        (runCommand codecs d client cmd env).2.setPaused b := by
  have hclients : (d.setPaused b).clients = d.clients := rfl
  unfold runCommand
  rw [hclients]
  split
  · cases cmd with
    | addNode ticket =>
      simp only [handleCommand, setPaused_handleAddNode, and_self]
    | removeNode id =>
      simp only [handleCommand, setPaused_handleRemoveNode, and_self]
    | pause | resume => contradiction
    | query | status | getTicket | shutdown => exact ⟨rfl, rfl⟩
  · exact ⟨rfl, rfl⟩

theorem setPaused_step {e : Event} (hswitch : e.switches = false) :
    (d.setPaused b).step codecs e = (d.step codecs e).setPaused b := by
  cases e with
  | received signed env =>
    cases signed with
    | none => rfl
    | some signed =>
      have hreceive : ((d.setPaused b).ctx.receive signed env).1 =
          (d.ctx.receive signed env).1.setPaused b :=
        congrArg Prod.fst (setPaused_receive d.ctx b signed env)
      simp only [Daemon.step, hreceive]
      rfl
  | cleanup now iter => rfl
  | save iter fault =>
    have hsave : (d.setPaused b).ctx.save iter fault =
        (d.ctx.save iter fault).map (·.setPaused b) := setPaused_save b d.ctx iter fault
    simp only [Daemon.step, hsave]
    cases d.ctx.save iter fault <;> rfl
  | authenticate authReq mode env =>
    exact setPaused_authenticateAndRegister codecs d b authReq mode env
  | command client cmd env => exact (setPaused_runCommand codecs d b client env hswitch).2

end Daemon
def LoopEvent.switches : LoopEvent → Bool
  | .command _ cmd _ _ _ => cmd.switches
  | _ => false

def Emission.timed (em : Emission) : Bool :=
  match em.message with
  | .aboutMe .. | .syncRequest _ => true
  | _ => false

/-- Some messages of the timers are missing, and nothing else. -/
def Silenced (emitted full : List Emission) : Prop :=
  emitted.Sublist full ∧ emitted.filter (!·.timed) = full.filter (!·.timed)

theorem Silenced.rfl {emitted : List Emission} : Silenced emitted emitted := ⟨.refl emitted, Eq.refl _⟩

theorem Silenced.append {a a' b b' : List Emission} (ha : Silenced a a') (hb : Silenced b b') :
    Silenced (a ++ b) (a' ++ b') :=
  ⟨ha.1.append hb.1, by rw [List.filter_append, List.filter_append, ha.2, hb.2]⟩

section Process
variable (platform : Platform) (p : Process) (b : Bool)

theorem setPaused_perform (ev : Event) (hswitch : ev.switches = false) :
    (p.setPaused b).perform platform ev = (p.perform platform ev).setPaused b := by
  have hstep : (p.setPaused b).daemon.step platform.codecs ev =
      (p.daemon.step platform.codecs ev).setPaused b :=
    setPaused_step platform.codecs p.daemon b hswitch
  unfold Process.perform
  rw [hstep]
  rfl

theorem setPaused_reported (done : HostsSyncStatus → HostsSyncStatus)
    (result : Returned Bool × List UInt8) :
    (p.setPaused b).reported platform done result =
      (p.reported platform done result).setPaused b := by
  obtain ⟨returned, file⟩ := result
  cases returned <;> rfl

theorem setPaused_syncHostsFile (env : HostsTurn) :
    (p.setPaused b).syncHostsFile platform env = (p.syncHostsFile platform env).setPaused b := by
  have hsync : (p.setPaused b).daemon.ctx.args = p.daemon.ctx.args := rfl
  unfold Process.syncHostsFile
  rw [hsync]
  split
  · exact setPaused_reported platform p b _ _
  · rfl

theorem setPaused_clearHostsFile (env : HostsTurn) :
    (p.setPaused b).clearHostsFile platform env = (p.clearHostsFile platform env).setPaused b := by
  have hsync : (p.setPaused b).daemon.ctx.args = p.daemon.ctx.args := rfl
  unfold Process.clearHostsFile
  rw [hsync]
  split
  · exact setPaused_reported platform p b _ _
  · rfl

theorem setPaused_gracefulShutdown (env : ShutdownReadings) :
    (p.setPaused b).gracefulShutdown platform env =
      ((p.gracefulShutdown platform env).1.setPaused b, (p.gracefulShutdown platform env).2) := by
  have hargs : (p.setPaused b).daemon.ctx.args = p.daemon.ctx.args := rfl
  unfold Process.gracefulShutdown
  dsimp only
  rw [setPaused_clearHostsFile, hargs]
  generalize p.clearHostsFile platform env.hosts = cleared
  have hstopped : (cleared.setPaused b).stopped = cleared.stopped := rfl
  rw [hstopped, setPaused_perform platform cleared b (.save env.iter env.fault) rfl]
  split <;> rfl

theorem setPaused_shutDown (env : ShutdownReadings) :
    (p.setPaused b).shutDown platform env =
      ((p.shutDown platform env).1.setPaused b, (p.shutDown platform env).2) := by
  unfold Process.shutDown
  rw [setPaused_gracefulShutdown]
  rfl

theorem setPaused_announceJoin (env : SendReadings) :
    (p.setPaused b).announceJoin env =
      ((p.announceJoin env).1.setPaused b, (p.announceJoin env).2) := by
  have hjoined : (p.setPaused b).joinAnnounced = p.joinAnnounced := rfl
  have hargs : (p.setPaused b).daemon.ctx.args = p.daemon.ctx.args := rfl
  unfold Process.announceJoin
  rw [hjoined, hargs]
  split
  · rfl
  · split <;> rfl

theorem setPaused_receiveTurn (signed : Option SignedMessage) (env : Readings)
    (reply : SendReadings) :
    (p.setPaused b).receive platform signed env reply =
      ((p.receive platform signed env reply).1.setPaused b,
        (p.receive platform signed env reply).2) := by
  unfold Process.receive
  rw [setPaused_perform platform p b (.received signed env) rfl]
  cases signed with
  | none => rfl
  | some signed =>
    have hout : ((p.setPaused b).daemon.ctx.receive signed env).2 =
        (p.daemon.ctx.receive signed env).2 := by
      have hreceive : (p.setPaused b).daemon.ctx.receive signed env = _ :=
        setPaused_receive p.daemon.ctx b signed env
      rw [hreceive]
    dsimp only
    rw [hout]

/-- Taking the pause off changes what a timer says and nothing else of the turn. -/
theorem unpaused_turn {e : LoopEvent} (hswitch : e.switches = false) :
    ((p.setPaused false).turn platform e).1 = (p.turn platform e).1.setPaused false ∧
      Silenced (p.turn platform e).2 ((p.setPaused false).turn platform e).2 := by
  have hsame : ∀ {q q' : Process × List Emission}, q' = (q.1.setPaused false, q.2) →
      q'.1 = q.1.setPaused false ∧ Silenced q.2 q'.2 := by
    rintro q q' rfl
    exact ⟨rfl, .rfl⟩
  have htimed : ∀ {emitted : List Emission}, (∀ em ∈ emitted, em.timed = true) →
      ∀ daemon : Bool, Silenced (if daemon && !p.daemon.ctx.paused then emitted else [])
        (if daemon && !(p.setPaused false).daemon.ctx.paused then emitted else []) := by
    intro emitted hall daemon
    have hpaused : (p.setPaused false).daemon.ctx.paused = false := rfl
    have hnone : emitted.filter (!·.timed) = [] :=
      List.filter_eq_nil_iff.mpr fun em hem => by simp [hall em hem]
    rw [hpaused]
    cases daemon <;> cases p.daemon.ctx.paused
    · exact .rfl
    · exact .rfl
    · exact .rfl
    · exact ⟨List.nil_sublist _, hnone.symm⟩
  cases e with
  | ctrlc res env =>
    refine hsame ?_
    simp only [Process.turn]
    have hargs : (p.setPaused false).daemon.ctx.args = p.daemon.ctx.args := rfl
    rw [hargs]
    split
    · exact setPaused_shutDown platform p false env
    · rfl
  | sigterm env => exact hsame (setPaused_shutDown platform p false env)
  | stateBroadcast send now cleanupIter saveIter fault =>
    simp only [Process.turn]
    rw [setPaused_perform platform p false (.cleanup now cleanupIter) rfl,
      setPaused_perform platform _ false (.save saveIter fault) rfl]
    refine ⟨rfl, htimed (fun em hem => ?_) p.daemon.ctx.args.daemon⟩
    obtain rfl := List.mem_singleton.mp hem
    rfl
  | fullSync send =>
    refine ⟨rfl, htimed (fun em hem => ?_) p.daemon.ctx.args.daemon⟩
    obtain rfl := List.mem_singleton.mp hem
    rfl
  | spRecv signed env reply => exact hsame (setPaused_receiveTurn platform p false signed env reply)
  | gosRecv evt =>
    refine hsame ?_
    cases evt with
    | received signed env reply => exact setPaused_receiveTurn platform p false signed env reply
    | neighborUp env => exact setPaused_announceJoin p false env
    | neighborDown | lagged => rfl
  | hostsTick env =>
    refine hsame ?_
    simp only [Process.turn]
    rw [setPaused_syncHostsFile]
  | authenticate authReq mode env =>
    refine hsame ?_
    simp only [Process.turn]
    rw [setPaused_perform platform p false (.authenticate authReq mode env) rfl]
  | command client cmd env responded shutdown =>
    refine hsame ?_
    have haction : (runCommand platform.codecs (p.setPaused false).daemon client cmd env).1.action =
        (runCommand platform.codecs p.daemon client cmd env).1.action :=
      (setPaused_runCommand platform.codecs p.daemon false client env hswitch).1
    simp only [Process.turn]
    rw [haction, setPaused_perform platform p false (.command client cmd env) hswitch]
    split
    · exact setPaused_gracefulShutdown platform _ false shutdown
    · rfl
  | spClosed | gosFailed | gosClosed | exited => exact ⟨rfl, .rfl⟩

theorem unpaused_step {e : LoopEvent} (hswitch : e.switches = false) :
    ((p.setPaused false).step platform e).1 = (p.step platform e).1.setPaused false ∧
      Silenced (p.step platform e).2 ((p.setPaused false).step platform e).2 := by
  have hstopped : (p.setPaused false).stopped = p.stopped := rfl
  unfold Process.step
  rw [hstopped]
  split
  · exact ⟨rfl, .rfl⟩
  · exact unpaused_turn platform p hswitch

end Process
section Run
variable {platform : Platform}

theorem switch_step {e : LoopEvent} (hswitch : e.switches = true) (p : Process) :
    (p.step platform e).1.setPaused false = p.setPaused false ∧ (p.step platform e).2 = [] := by
  unfold Process.step
  split
  · exact ⟨rfl, rfl⟩
  · cases e with
    | command client cmd env responded shutdown =>
      have hrun : (runCommand platform.codecs p.daemon client cmd env).1.action = none ∧
          (runCommand platform.codecs p.daemon client cmd env).2.setPaused false =
            p.daemon.setPaused false := by
        unfold runCommand
        split
        · cases cmd with
          | pause | resume => exact ⟨rfl, rfl⟩
          | _ => contradiction
        · exact ⟨rfl, rfl⟩
      obtain ⟨haction, hdaemon⟩ := hrun
      simp only [Process.turn, haction, reduceCtorEq, decide_false, Bool.and_false,
        Bool.false_eq_true, if_false, and_true]
      exact congrArg (fun d => { p with daemon := d }) hdaemon
    | _ => contradiction

theorem run_unpaused (p : Process) (es : List LoopEvent) :
    ((p.setPaused false).run platform (es.filter (!·.switches))).1 =
        (p.run platform es).1.setPaused false ∧
      Silenced (p.run platform es).2
        ((p.setPaused false).run platform (es.filter (!·.switches))).2 := by
  induction es generalizing p with
  | nil => exact ⟨rfl, .rfl⟩
  | cons e es ih =>
    obtain ⟨hstate, hsilenced⟩ := ih (p.step platform e).1
    cases hswitch : e.switches with
    | true =>
      obtain ⟨hsame, hquiet⟩ := @switch_step platform e hswitch p
      rw [hsame] at hstate hsilenced
      rw [List.filter_cons_of_neg (by simp [hswitch])]
      refine ⟨hstate, ?_⟩
      rw [Process.run_cons, hquiet]
      exact hsilenced
    | false =>
      obtain ⟨hsame, hquieter⟩ := unpaused_step platform p hswitch
      rw [← hsame] at hstate hsilenced
      rw [List.filter_cons_of_pos (by simp [hswitch])]
      exact ⟨hstate, hquieter.append hsilenced⟩

theorem syncHostsFile_paused (p : Process) (env : HostsTurn) :
    (p.syncHostsFile platform env).daemon.ctx.paused = p.daemon.ctx.paused := by
  have hreported : ∀ done result,
      (p.reported platform done result).daemon.ctx.paused = p.daemon.ctx.paused := by
    rintro done ⟨returned, file⟩
    cases returned <;> rfl
  unfold Process.syncHostsFile
  split
  · exact hreported _ _
  · rfl

theorem launch_paused (start : Start platform.codecs) (hostsFile : List UInt8)
    (env : LaunchReadings) :
    (start.launch platform hostsFile env).1.daemon.ctx.paused = false := by
  have hsynced : ∀ q : Process, q.daemon = start.daemon →
      (q.syncHostsFile platform env.hosts).daemon.ctx.paused = false := by
    intro q hq
    rw [syncHostsFile_paused, hq]
    exact initNetwork_paused start.started
  unfold Start.launch
  dsimp only
  split <;> exact hsynced _ (announceJoin_daemon env.announce)

theorem paused_turn_quiet {p : Process} {e : LoopEvent} (hpaused : p.daemon.ctx.paused = true) :
    ∀ em ∈ (p.step platform e).2, em.timed = false := by
  intro em hem
  cases mem_step hem with
  | invited _ _ => rfl
  | aboutMe _ hactive | syncRequest hactive =>
    rw [hpaused] at hactive
    contradiction
  | syncResponse _ _ => rfl
  | left _ => rfl

/-- A run with pauses and resumes goes through the same tables, files and registrations as the
run without these commands; it hands the same messages to the network but for some of the
timers', and none of the timers' while the flag is set. -/
theorem pausing_silences_timers (start : Start platform.codecs) (hostsFile : List UInt8)
    (env : LaunchReadings) (events : List LoopEvent) :
    let launched := (start.launch platform hostsFile env).1
    let paused := launched.run platform events
    let plain := launched.run platform (events.filter (!·.switches))
    plain.1 = paused.1.setPaused false ∧ paused.2.Sublist plain.2 ∧
    paused.2.filter (!·.timed) = plain.2.filter (!·.timed) ∧
    ∀ before e after, events = before ++ e :: after →
      (launched.run platform before).1.daemon.ctx.paused = true →
      ∀ em ∈ ((launched.run platform before).1.step platform e).2, em.timed = false := by
  intro launched paused plain
  have hplain : launched.setPaused false = launched := by
    have hpaused : launched.daemon.ctx.paused = false := launch_paused start hostsFile env
    unfold Process.setPaused Daemon.setPaused Context.setPaused
    rw [← hpaused]
  obtain ⟨hstate, hsilenced⟩ := @run_unpaused platform launched events
  rw [hplain] at hstate hsilenced
  exact ⟨hstate, hsilenced.1, hsilenced.2, fun before e after _ hset => paused_turn_quiet hset⟩

end Run
end P2pDdns
