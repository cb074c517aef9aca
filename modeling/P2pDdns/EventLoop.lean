import P2pDdns.Hosts
import P2pDdns.TrustTable

/-!
A running daemon process: the event loop with its timers and signals, the tasks beside it, and
what it hands to the network. A process that has stopped does nothing.
-/

set_option autoImplicit false

namespace P2pDdns
open Std Relation

/-- What does not change while a process runs. `errorText` is `to_string` of an I/O error. -/
structure Platform where
  codecs : Codecs
  interactive : Bool
  windows : Bool
  hostsSuffix : Option String
  errorText : IoError → String

inductive Channel where
  | gossip
  | neighbors
  | direct (target : EndpointAddr)
  deriving DecidableEq

/-- A message signed at `timestamp` and handed over; `accepted` if no error came back. -/
structure Emission where
  channel : Channel
  message : Message
  timestamp : Nat
  accepted : Bool
  deriving DecidableEq

structure Process where
  daemon : Daemon
  joinAnnounced : Bool
  hostsFile : List UInt8
  stopped : Bool
  deriving DecidableEq

/-- What a send reads: the endpoint's address and the clock for the daemon's own record, and
the clock again when the message is signed. -/
structure SendReadings where
  ownAddr : EndpointAddr
  stateNow : Nat
  signNow : Nat
  accepted : Bool

structure HostsTurn where
  readings : HostsReadings
  writes : WriteReadings
  here : EndpointAddr
  ownAddr : EndpointAddr
  stateNow : Nat
  doneNow : Nat
  iter : IterOrder

structure ShutdownReadings where
  send : SendReadings
  hosts : HostsTurn
  iter : IterOrder
  fault : Option String

inductive GossipEvent where
  | received (signed : Option SignedMessage) (env : Readings) (reply : SendReadings)
  | neighborUp (env : SendReadings)
  | neighborDown
  | lagged

/-- The branches of the event loop's `select!`, then the tasks beside it. A byte string that
does not decode or verify is `none`. `responded` says whether the client got its response. -/
inductive LoopEvent where
  | ctrlc (res : Bool) (env : ShutdownReadings)
  | sigterm (env : ShutdownReadings)
  | stateBroadcast (send : SendReadings) (now : Nat) (cleanupIter saveIter : IterOrder)
      (fault : Option String)
  | fullSync (send : SendReadings)
  | spRecv (signed : Option SignedMessage) (env : Readings) (reply : SendReadings)
  | spClosed
  | gosRecv (evt : GossipEvent)
  | gosFailed
  | gosClosed
  | hostsTick (env : HostsTurn)
  | authenticate (authReq : AuthRequest) (mode : AuthMode) (env : AuthReadings)
  | command (client : EndpointId) (cmd : ClientCommand) (env : CommandReadings)
      (responded : Bool) (shutdown : ShutdownReadings)
  | exited

def Context.ownState (ctx : Context) (ownAddr : EndpointAddr) (now : Nat) : Node :=
  { ctx.me with addr := ownAddr, lastHeartbeat := now }

theorem Context.currentNodeState_eq (ctx : Context) (env : Readings) :
    ctx.currentNodeState env = ctx.ownState env.ownAddr env.replyNow := rfl

def Context.setHostsSync (ctx : Context) (status : HostsSyncStatus) : Context :=
  { ctx with hostsSync := status }

def Daemon.setHostsSync (d : Daemon) (status : HostsSyncStatus) : Daemon :=
  { d with ctx := d.ctx.setHostsSync status }

namespace Process
variable (platform : Platform) (p : Process)

def broadcastMessage (message : Message) (env : SendReadings) : List Emission :=
  [⟨.gossip, message, env.signNow, env.accepted⟩]

def broadcastNeighborMessage (message : Message) (env : SendReadings) : List Emission :=
  [⟨.neighbors, message, env.signNow, env.accepted⟩]

/-- The flag is set once a join has been handed over without an error. -/
def announceJoin (env : SendReadings) : Process × List Emission :=
  if p.joinAnnounced then (p, [])
  else if !p.daemon.ctx.args.daemon || p.daemon.ctx.args.primary then (p, [])
  else
    let ctx := p.daemon.ctx
    let me := ctx.ownState env.ownAddr env.stateNow
    let invited :=
      .invited ctx.ticket.topic ctx.ticket.rnum me.addr me.domain me.services me.invitor
    ({ p with joinAnnounced := env.accepted }, broadcastMessage invited env)

def broadcastStateUpdate (env : SendReadings) : List Emission :=
  let me := p.daemon.ctx.ownState env.ownAddr env.stateNow
  broadcastMessage (.aboutMe me.addr me.domain me.services me.invitor) env

def requestNeighborSync (env : SendReadings) : List Emission :=
  broadcastNeighborMessage (.syncRequest []) env

/-- The hosts status after an update ended; `done` is what a success writes down. -/
def reported (done : HostsSyncStatus → HostsSyncStatus) :
    Returned Bool × List UInt8 → Process
  | (.ok _, file) =>
    { p with
      daemon := p.daemon.setHostsSync { done p.daemon.ctx.hostsSync with lastError := none }
      hostsFile := file }
  | (.err e, file) =>
    { p with
      daemon := p.daemon.setHostsSync
        { p.daemon.ctx.hostsSync with lastError := some (platform.errorText e) }
      hostsFile := file }
  | (.panicked, file) => { p with hostsFile := file, stopped := true }

/-- Where hosts sync is on there is a path: the one given, or the default one. -/
def syncHostsFile (env : HostsTurn) : Process :=
  if p.daemon.ctx.args.hostsSync then
    let nodes := (env.iter.walk p.daemon.ctx.nodes).map (·.2)
      ++ [p.daemon.ctx.ownState env.ownAddr env.stateNow]
    p.reported platform (fun status => { status with lastSuccess := some env.doneNow })
      (syncNodesToHosts platform.windows env.readings env.writes env.here nodes
        platform.hostsSuffix p.hostsFile)
  else p

def clearHostsFile (env : HostsTurn) : Process :=
  if p.daemon.ctx.args.hostsSync then
    p.reported platform (fun status => { status with lastCleanup := some env.doneNow })
      (clearManagedHosts platform.windows env.readings env.writes p.hostsFile)
  else p

def perform (e : Event) : Process := { p with daemon := p.daemon.step platform.codecs e }

/-- A panic while the hosts file is cleared aborts the process before the save. -/
def gracefulShutdown (env : ShutdownReadings) : Process × List Emission :=
  let left := if p.daemon.ctx.args.daemon then broadcastMessage .left env.send else []
  let p := p.clearHostsFile platform env.hosts
  if p.stopped then (p, left)
  else (p.perform platform (.save env.iter env.fault), left)

def receive (signed : Option SignedMessage) (env : Readings) (reply : SendReadings) :
    Process × List Emission :=
  (p.perform platform (.received signed env),
    match signed with
    | none => []
    | some signed =>
      (p.daemon.ctx.receive signed env).2.map fun out =>
        ⟨.direct out.target, out.message, reply.signNow, reply.accepted⟩)

def processGossip (evt : GossipEvent) : Process × List Emission :=
  match evt with
  | .received signed env reply => p.receive platform signed env reply
  | .neighborUp env => p.announceJoin env
  | .neighborDown | .lagged => (p, [])

def stop : Process := { p with stopped := true }

def shutDown (env : ShutdownReadings) : Process × List Emission :=
  let (p, emitted) := p.gracefulShutdown platform env
  (p.stop, emitted)

/-- One turn of a process that runs. A daemon away from a terminal ignores SIGINT. -/
def turn (e : LoopEvent) : Process × List Emission :=
  match e with
  | .ctrlc res env =>
    if res && !(p.daemon.ctx.args.daemon && !platform.interactive) then p.shutDown platform env
    else (p, [])
  | .sigterm env => p.shutDown platform env
  | .stateBroadcast send now cleanupIter saveIter fault =>
    let emitted :=
      if p.daemon.ctx.args.daemon && !p.daemon.ctx.paused then p.broadcastStateUpdate send else []
    ((p.perform platform (.cleanup now cleanupIter)).perform platform (.save saveIter fault),
      emitted)
  | .fullSync send =>
    (p, if p.daemon.ctx.args.daemon && !p.daemon.ctx.paused then requestNeighborSync send else [])
  | .spRecv signed env reply => p.receive platform signed env reply
  | .gosRecv evt => p.processGossip platform evt
  | .gosFailed => (p, [])
  | .spClosed | .gosClosed => (p.stop, [])
  | .hostsTick env => (p.syncHostsFile platform env, [])
  | .authenticate authReq mode env => (p.perform platform (.authenticate authReq mode env), [])
  | .command client cmd env responded shutdown =>
    let outcome := (runCommand platform.codecs p.daemon client cmd env).1
    let p := p.perform platform (.command client cmd env)
    if responded && outcome.action = some .shutdown then p.gracefulShutdown platform shutdown
    else (p, [])
  | .exited => (p.stop, [])

def step (e : LoopEvent) : Process × List Emission :=
  if p.stopped then (p, []) else p.turn platform e

def run : Process → List LoopEvent → Process × List Emission
  | p, [] => (p, [])
  | p, e :: es =>
    let (p, emitted) := p.step platform e
    let (p, rest) := run p es
    (p, emitted ++ rest)

theorem run_cons (e : LoopEvent) (es : List LoopEvent) :
    p.run platform (e :: es) =
      (((p.step platform e).1.run platform es).1,
        (p.step platform e).2 ++ ((p.step platform e).1.run platform es).2) := rfl

end Process

/-- What `run_daemon` reads between the start of the network and the event loop. -/
structure LaunchReadings where
  announce : SendReadings
  hosts : HostsTurn
  sync : SendReadings

/-- From `init_network` to the event loop: the join, the first hosts update, which has to
succeed, and the first sync request. -/
def Start.launch (platform : Platform) (start : Start platform.codecs) (hostsFile : List UInt8)
    (env : LaunchReadings) : Process × List Emission :=
  let p : Process :=
    { daemon := start.daemon, joinAnnounced := false, hostsFile := hostsFile, stopped := false }
  let (p, announced) := p.announceJoin env.announce
  let p := p.syncHostsFile platform env.hosts
  if p.stopped || p.daemon.ctx.hostsSync.lastError.isSome then (p.stop, announced)
  else (p, announced ++ Process.requestNeighborSync env.sync)

/-! What a turn does to the daemon: it performs events of the daemon, and notes how an update
of the hosts file went. -/

def LoopEvent.events : LoopEvent → List Event
  | .ctrlc _ env | .sigterm env => [.save env.iter env.fault]
  | .stateBroadcast _ now cleanupIter saveIter fault =>
    [.cleanup now cleanupIter, .save saveIter fault]
  | .spRecv signed env _ | .gosRecv (.received signed env _) => [.received signed env]
  | .authenticate authReq mode env => [.authenticate authReq mode env]
  | .command client cmd env _ shutdown =>
    [.command client cmd env, .save shutdown.iter shutdown.fault]
  | _ => []

theorem LoopEvent.command_of_mem {e : LoopEvent} {client : EndpointId} {cmd : ClientCommand}
    {env : CommandReadings} (h : .command client cmd env ∈ e.events) :
    ∃ responded shutdown, e = .command client cmd env responded shutdown := by
  cases e with
  | command client' cmd' env' responded shutdown =>
    rcases List.mem_cons.mp h with h | h
    · obtain ⟨rfl, rfl, rfl⟩ := Event.command.inj h
      exact ⟨responded, shutdown, rfl⟩
    · simp at h
  | gosRecv evt => cases evt <;> simp [LoopEvent.events] at h
  | _ => simp [LoopEvent.events] at h

inductive Move (platform : Platform) (e : LoopEvent) : Daemon → Daemon → Prop where
  | performed {d : Daemon} {ev : Event} :
      ev ∈ e.events → Move platform e d (d.step platform.codecs ev)
  | noted {d : Daemon} {status : HostsSyncStatus} : Move platform e d (d.setHostsSync status)

section Moves
variable {platform : Platform} {p : Process} {e : LoopEvent}

theorem perform_moves {ev : Event} (hev : ev ∈ e.events) :
    ReflTransGen (Move platform e) p.daemon (p.perform platform ev).daemon :=
  .single (.performed hev)

theorem announceJoin_daemon (env : SendReadings) : (p.announceJoin env).1.daemon = p.daemon := by
  unfold Process.announceJoin
  split
  · rfl
  · split <;> rfl

theorem reported_moves (done : HostsSyncStatus → HostsSyncStatus)
    (result : Returned Bool × List UInt8) :
    ReflTransGen (Move platform e) p.daemon (p.reported platform done result).daemon := by
  obtain ⟨returned, file⟩ := result
  cases returned with
  | ok _ => exact .single .noted
  | err _ => exact .single .noted
  | panicked => exact .refl

theorem syncHostsFile_moves (env : HostsTurn) :
    ReflTransGen (Move platform e) p.daemon (p.syncHostsFile platform env).daemon := by
  unfold Process.syncHostsFile
  split
  · exact reported_moves _ _
  · exact .refl

theorem clearHostsFile_moves (env : HostsTurn) :
    ReflTransGen (Move platform e) p.daemon (p.clearHostsFile platform env).daemon := by
  unfold Process.clearHostsFile
  split
  · exact reported_moves _ _
  · exact .refl

theorem gracefulShutdown_moves {env : ShutdownReadings}
    (hsave : .save env.iter env.fault ∈ e.events) :
    ReflTransGen (Move platform e) p.daemon (p.gracefulShutdown platform env).1.daemon := by
  unfold Process.gracefulShutdown
  dsimp only
  split
  · exact clearHostsFile_moves env.hosts
  · exact (clearHostsFile_moves env.hosts).tail (.performed hsave)

theorem shutDown_moves {env : ShutdownReadings} (hsave : .save env.iter env.fault ∈ e.events) :
    ReflTransGen (Move platform e) p.daemon (p.shutDown platform env).1.daemon :=
  gracefulShutdown_moves hsave

theorem turn_moves (platform : Platform) (p : Process) (e : LoopEvent) :
    ReflTransGen (Move platform e) p.daemon (p.turn platform e).1.daemon := by
  cases e with
  | ctrlc res env =>
    simp only [Process.turn]
    split
    · exact shutDown_moves List.mem_cons_self
    · exact .refl
  | sigterm env => exact shutDown_moves List.mem_cons_self
  | stateBroadcast send now cleanupIter saveIter fault =>
    exact (perform_moves List.mem_cons_self).trans
      (perform_moves (List.mem_cons_of_mem _ List.mem_cons_self))
  | spRecv signed env reply => exact perform_moves List.mem_cons_self
  | gosRecv evt =>
    cases evt with
    | received signed env reply => exact perform_moves List.mem_cons_self
    | neighborUp env =>
      rw [Process.turn, Process.processGossip, announceJoin_daemon]
    | neighborDown | lagged => exact .refl
  | hostsTick env => exact syncHostsFile_moves env
  | authenticate authReq mode env => exact perform_moves List.mem_cons_self
  | command client cmd env responded shutdown =>
    simp only [Process.turn]
    split
    · exact (perform_moves List.mem_cons_self).trans
        (gracefulShutdown_moves (List.mem_cons_of_mem _ List.mem_cons_self))
    · exact perform_moves List.mem_cons_self
  | fullSync _ | spClosed | gosFailed | gosClosed | exited => exact .refl

theorem step_moves (platform : Platform) (p : Process) (e : LoopEvent) :
    ReflTransGen (Move platform e) p.daemon (p.step platform e).1.daemon := by
  unfold Process.step
  split
  · exact .refl
  · exact turn_moves platform p e

theorem launch_moves {start : Start platform.codecs} (hostsFile : List UInt8)
    (env : LaunchReadings) :
    ReflTransGen (Move platform e) start.daemon
      (start.launch platform hostsFile env).1.daemon := by
  unfold Start.launch
  have hlaunched : ∀ q : Process, q.daemon = start.daemon →
      ReflTransGen (Move platform e) start.daemon (q.syncHostsFile platform env.hosts).daemon := by
    rintro q hq
    rw [← hq]
    exact syncHostsFile_moves env.hosts
  dsimp only
  split <;> exact hlaunched _ (announceJoin_daemon env.announce)

/-- What every performed event and every note on the hosts file keeps, a turn keeps. -/
theorem moves_induct {I : Daemon → Prop} {d d' : Daemon}
    (hmoves : ReflTransGen (Move platform e) d d') (hd : I d)
    (hevent : ∀ u ev, ev ∈ e.events → I u → I (u.step platform.codecs ev))
    (hnoted : ∀ u status, I u → I (u.setHostsSync status)) : I d' := by
  induction hmoves with
  | refl => exact hd
  | tail _ hlast ih =>
    cases hlast with
    | performed hev => exact hevent _ _ hev ih
    | noted => exact hnoted _ _ ih

theorem moves_frame {d d' : Daemon} (hmoves : ReflTransGen (Move platform e) d d') :
    d'.ctx.me = d.ctx.me ∧ d'.ctx.args = d.ctx.args ∧ d'.ctx.ticket = d.ctx.ticket := by
  induction hmoves with
  | refl => exact ⟨rfl, rfl, rfl⟩
  | @tail u v _ hlast ih =>
    cases hlast with
    | performed _ =>
      obtain ⟨hme, hargs, hticket⟩ := changes_frame (step_changes platform.codecs u _)
      exact ⟨hme.trans ih.1, hargs.trans ih.2.1, hticket.trans ih.2.2⟩
    | noted => exact ih

end Moves
/-! The trust table of a process. -/

section Tables
variable {p : Process}

theorem TrustTable.setHostsSync {ctx : Context} (h : TrustTable ctx) (status : HostsSyncStatus) :
    TrustTable (ctx.setHostsSync status) :=
  ⟨h.nodesKeyed, h.trustedKeyed, h.trustedOthers, h.trustedDaemons, h.daemonsTrusted⟩

theorem Process.step_trustTable (platform : Platform) (e : LoopEvent)
    (h : TrustTable p.daemon.ctx) : TrustTable (p.step platform e).1.daemon.ctx :=
  moves_induct (I := fun d : Daemon => TrustTable d.ctx) (step_moves platform p e) h
    (fun d ev _ hd => TrustTable.step d ev hd) fun _ status hd => hd.setHostsSync status

theorem Process.run_trustTable (platform : Platform) (es : List LoopEvent)
    (h : TrustTable p.daemon.ctx) : TrustTable (p.run platform es).1.daemon.ctx := by
  induction es generalizing p with
  | nil => exact h
  | cons e es ih => exact ih (p.step_trustTable platform e h)

theorem launch_trustTable {platform : Platform} (start : Start platform.codecs)
    (hostsFile : List UInt8) (env : LaunchReadings) :
    TrustTable (start.launch platform hostsFile env).1.daemon.ctx :=
  moves_induct (I := fun d : Daemon => TrustTable d.ctx) (e := .exited)
    (launch_moves hostsFile env) (TrustTable.start start)
    (fun d ev _ hd => TrustTable.step d ev hd) fun _ status hd => hd.setHostsSync status

end Tables
end P2pDdns
