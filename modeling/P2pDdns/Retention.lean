import P2pDdns.AdminEffects
import P2pDdns.DuplicateDomains
import P2pDdns.HostsTurns
import P2pDdns.Leases

/-!
Peers that keep in touch. Hearing from a peer vouches for its record, a cleanup demands that it was
heard from within the time to live; a peer that is, and is not dismissed, stays in the active table
and in the hosts file.
-/

set_option autoImplicit false

namespace P2pDdns
open Std FiniteMaps Relation TextLines AppendedLists Leases

def Context.HeldSince (ctx : Context) (id : EndpointId) (t : Nat) : Prop :=
  ∃ node, ctx.nodes[id]? = some node ∧ t ≤ node.lastHeartbeat

/-- A message of another daemon that refreshes the record held of it or announces it. -/
def HearsFrom (ctx : Context) (id : EndpointId) (signed : SignedMessage) (env : Readings) : Prop :=
  signed.sender = id ∧ id ≠ ctx.me.nodeId ∧ signed.message ≠ .left ∧
    ((Passed ctx signed env ∧ id ∈ ctx.nodes) ∨ ∃ ann, Accepts ctx signed env ann)

/-- What ends a record for another reason than its age: the node's own departure, an administrator
who removes the node or adds a ticket with an older record of it, and another record of its domain
that comes first. -/
def Dismisses (codecs : Codecs) (d : Daemon) (id : EndpointId) : Event → Prop
  | .received (some signed) env =>
    signed.sender = id ∧ signed.message = .left ∧ Passed d.ctx signed env
  | .cleanup now iter =>
    ∃ node, d.ctx.nodes[id]? = some node ∧ Outranked (d.ctx.nodesSnapshot now iter) node
  | .command client (.addNode ticket) _ =>
    d.clients.checkPermission client "add_node" = true ∧
      ∃ node, AddsNode codecs d ticket node ∧ node.nodeId = id ∧
        ∃ held, d.ctx.nodes[id]? = some held ∧ node.lastHeartbeat < held.lastHeartbeat
  | .command client (.removeNode text) env =>
    d.clients.checkPermission client "remove_node" = true ∧ RemovesNode codecs d text env.iter id
  | _ => False

/-! One event. -/

section Events
variable {codecs : Codecs} {ctx : Context} {id : EndpointId} {t : Nat}

namespace Context.HeldSince

theorem of_nodes_eq {ctx' : Context} (h : ctx.HeldSince id t) (heq : ctx'.nodes = ctx.nodes) :
    ctx'.HeldSince id t := by
  obtain ⟨node, hnode, ht⟩ := h
  exact ⟨node, heq ▸ hnode, ht⟩

theorem insert_nodes (h : ctx.HeldSince id t) {key : EndpointId} {node : Node}
    (hnode : key = id → t ≤ node.lastHeartbeat) :
    ({ ctx with nodes := ctx.nodes.insert key node } : Context).HeldSince id t := by
  by_cases hkey : key = id
  · exact ⟨node, hkey ▸ getElem?_insert_self ctx.nodes key node, hnode hkey⟩
  · obtain ⟨held, hheld, ht⟩ := h
    exact ⟨held, (getElem?_insert_ne ctx.nodes node hkey).trans hheld, ht⟩

theorem erase_nodes (h : ctx.HeldSince id t) {key : EndpointId} (hkey : key ≠ id) :
    ({ ctx with nodes := ctx.nodes.erase key } : Context).HeldSince id t := by
  obtain ⟨held, hheld, ht⟩ := h
  refine ⟨held, ?_, ht⟩
  rw [getElem?_erase_eq, if_neg (Ne.symm hkey)]
  exact hheld

theorem upsertActiveNode (h : ctx.HeldSince id t) {node : Node}
    (hnode : node.nodeId = id → t ≤ node.lastHeartbeat) :
    (ctx.upsertActiveNode node).HeldSince id t := by
  rcases Context.upsertActiveNode_cases ctx node with ⟨-, heq⟩ | ⟨-, heq⟩
  · rwa [heq]
  · rw [heq]
    exact (h.insert_nodes hnode).of_nodes_eq rfl

theorem admitNode (h : ctx.HeldSince id t) {node : Node}
    (hnode : node.nodeId = id → t ≤ node.lastHeartbeat) : (ctx.admitNode node).HeldSince id t :=
  (h.of_nodes_eq (Context.trustDaemonNode_nodes ctx node)).upsertActiveNode hnode

theorem merged (h : ctx.HeldSince id t) {incoming : Node} (hincoming : t ≤ incoming.lastHeartbeat) :
    t ≤ (mergeNode ctx.nodes[id]? incoming).1.lastHeartbeat := by
  obtain ⟨held, hheld, ht⟩ := h
  refine mergeNode_induct (P := fun node => t ≤ node.lastHeartbeat) (fun _ _ hnode => hnode) ?_
    hincoming
  intro node hnode
  obtain rfl := Option.some.inj (hheld.symm.trans hnode)
  exact ht

theorem heard {start ctx' : Context} {signed : SignedMessage} {env : Readings}
    (hc : Heard start signed env ctx ctx') (htable : TrustTable ctx) (h : ctx.HeldSince id t)
    (hrefresh : t ≤ env.refreshNow) (hincoming : t ≤ env.incomingNow)
    (hstays : ¬ (signed.sender = id ∧ signed.message = .left ∧ Passed start signed env)) :
    ctx'.HeldSince id t := by
  cases hc with
  | touched _ _ => exact h.insert_nodes fun _ => hrefresh
  | observed _ _ _ =>
    exact (h.of_nodes_eq (Context.refreshTrustedNode_nodes _ _ _)).upsertActiveNode fun _ => hrefresh
  | @announced ann _ =>
    refine h.admitNode fun hid => ?_
    rw [htable.merged_nodeId signed.sender rfl] at hid
    subst hid
    exact h.merged hincoming
  | @listed earlier later node _ _ _ hbeats =>
    refine h.admitNode fun hid => ?_
    rw [htable.merged_nodeId node.nodeId (listedNode_nodeId _ _ _)] at hid
    subst hid
    refine h.merged ?_
    rw [listedNode_lastHeartbeat]
    obtain ⟨held, hheld, ht⟩ := h
    exact ht.trans (Nat.le_of_lt (hbeats held hheld))
  | left hpassed hmsg => exact h.erase_nodes fun hid => hstays ⟨hid, hmsg, hpassed⟩

theorem allHeard {start ctx' : Context} {signed : SignedMessage} {env : Readings}
    (hheard : ReflTransGen (Heard start signed env) ctx ctx') (htable : TrustTable ctx)
    (h : ctx.HeldSince id t) (hrefresh : t ≤ env.refreshNow) (hincoming : t ≤ env.incomingNow)
    (hstays : ¬ (signed.sender = id ∧ signed.message = .left ∧ Passed start signed env)) :
    ctx'.HeldSince id t := by
  have hboth : TrustTable ctx' ∧ ctx'.HeldSince id t := by
    induction hheard with
    | refl => exact ⟨htable, h⟩
    | tail _ hlast ih =>
      exact ⟨TrustTable.heard hlast ih.1, ih.2.heard hlast ih.1 hrefresh hincoming hstays⟩
  exact hboth.2

end Context.HeldSince

theorem mergeNode_notOlder (existing : Option Node) (incoming : Node) :
    incoming.lastHeartbeat ≤ (mergeNode existing incoming).1.lastHeartbeat := by
  cases existing with
  | none => exact le_rfl
  | some old =>
    by_cases hnewer : old.lastHeartbeat < incoming.lastHeartbeat
    · rw [mergeNode_newer hnewer]
    · rw [mergeNode_not_newer hnewer]
      exact Nat.le_of_not_lt hnewer

theorem HearsFrom.heldSince {signed : SignedMessage} {env : Readings}
    (h : HearsFrom ctx id signed env) (htable : TrustTable ctx) (hrefresh : t ≤ env.refreshNow)
    (hincoming : t ≤ env.incomingNow) : (ctx.receive signed env).1.HeldSince id t := by
  obtain ⟨rfl, hme, hleft, ⟨hpassed, hheld⟩ | ⟨ann, haccepts⟩⟩ := h
  · have hrefreshed : (ctx.refreshed signed env).HeldSince signed.sender t := by
      obtain ⟨old, hold⟩ := exists_getElem? hheld
      have hkey : old.nodeId = signed.sender := htable.nodesKeyed _ _ hold
      rw [Context.refreshed, if_pos (status_passed.mpr hpassed), refreshSender_eq, hold]
      cases env.refreshObserved with
      | none => exact ⟨_, getElem?_insert_self _ _ _, hrefresh⟩
      | some sock =>
        rcases Context.upsertActiveNode_cases
          (ctx.refreshTrustedNode signed.sender (observedNode old signed.sender sock env.refreshNow))
          (observedNode old signed.sender sock env.refreshNow) with ⟨hself, -⟩ | ⟨-, heq⟩
        · rw [Context.refreshTrustedNode_me] at hself
          exact absurd (hkey.symm.trans hself) hme
        · dsimp only
          rw [heq]
          refine ⟨observedNode old signed.sender sock env.refreshNow, ?_, hrefresh⟩
          rw [← hkey]
          exact getElem?_insert_self _ _ _
    exact hrefreshed.allHeard (dispatch_heard ctx signed env) (htable.refreshed signed env) hrefresh hincoming
      fun hgone => hleft hgone.2.1
  · have hid : (mergeNode (ctx.refreshed signed env).nodes[signed.sender]?
        (ann.incoming signed.sender env)).1.nodeId = signed.sender :=
      (htable.refreshed signed env).merged_nodeId signed.sender rfl
    rw [receive_accepted haccepts]
    refine ⟨_, ?_, hincoming.trans (mergeNode_notOlder (ctx.refreshed signed env).nodes[signed.sender]?
      (ann.incoming signed.sender env))⟩
    rw [admitNode_nodes _ _ (by rwa [hid, refreshed_me]), hid]
    exact getElem?_insert_self _ _ _

theorem Context.HeldSince.addNode {d : Daemon} {ticket : String} {env : CommandReadings}
    (h : d.ctx.HeldSince id t)
    (hstays : ¬ ∃ node, AddsNode codecs d ticket node ∧ node.nodeId = id ∧
      ∃ held, d.ctx.nodes[id]? = some held ∧ node.lastHeartbeat < held.lastHeartbeat) :
    (handleAddNode codecs d ticket env).2.ctx.HeldSince id t := by
  have hadmitted : ∀ node, AddsNode codecs d ticket node → (d.ctx.admitNode node).HeldSince id t := by
    intro node hadds
    refine h.admitNode fun hid => ?_
    obtain ⟨held, hheld, ht⟩ := h
    by_contra hlt
    exact hstays ⟨node, hadds, hid, held, hheld, by omega⟩
  rcases @handleAddNode_cases codecs d ticket env with
    ⟨text, heq, -⟩ | ⟨node, hadds, ⟨fault, text, -, heq⟩ | ⟨text, -, heq⟩⟩
  · rw [heq]
    exact h
  · rw [heq]
    exact hadmitted node hadds
  · rw [heq]
    exact (hadmitted node hadds).of_nodes_eq rfl

theorem Context.HeldSince.removeNode {d : Daemon} {text : String} {env : CommandReadings}
    (h : d.ctx.HeldSince id t) (hstays : ¬ RemovesNode codecs d text env.iter id) :
    (handleRemoveNode codecs d text env).2.ctx.HeldSince id t := by
  have hother : ∀ nodeId, RemovesNode codecs d text env.iter nodeId →
      (d.ctx.withoutNode nodeId).HeldSince id t := by
    intro nodeId hremoves
    have hne : nodeId ≠ id := fun heq => hstays (heq ▸ hremoves)
    exact (h.erase_nodes hne).of_nodes_eq rfl
  rcases @handleRemoveNode_cases codecs d text env with
    ⟨error, heq, -⟩ | ⟨nodeId, hremoves, ⟨fault, error, -, heq⟩ | ⟨error, -, heq⟩⟩
  · rw [heq]
    exact h
  · rw [heq]
    exact hother nodeId hremoves
  · rw [heq]
    exact (hother nodeId hremoves).of_nodes_eq rfl

theorem save_nodes (codecs : Codecs) (d : Daemon) (iter : IterOrder) (fault : Option String) :
    (d.step codecs (.save iter fault)).ctx.nodes = d.ctx.nodes := by
  cases fault <;> rfl

theorem Context.HeldSince.step {d : Daemon} {e : Event} (h : d.ctx.HeldSince id t)
    (htable : TrustTable d.ctx) (hclock : ∀ c ∈ e.clock, t ≤ c)
    (hstays : ¬ Dismisses codecs d id e)
    (hfresh : ∀ now iter, e = .cleanup now iter → d.ctx.HeldSince id (now - STALE_NODE_TTL_SECS)) :
    (d.step codecs e).ctx.HeldSince id t := by
  cases e with
  | received signed env =>
    cases signed with
    | none => exact h
    | some signed =>
      exact h.allHeard (receive_heard d.ctx signed env) htable (hclock _ (by simp [Event.clock]))
        (hclock _ (by simp [Event.clock])) hstays
  | cleanup now iter =>
    obtain ⟨node, hnode, ht⟩ := h
    obtain ⟨node', hnode', hage⟩ := hfresh now iter rfl
    obtain rfl := Option.some.inj (hnode.symm.trans hnode')
    refine ⟨node, (getElem?_cleanup htable.nodesKeyed).mpr ⟨hnode, ?_, ?_⟩, ht⟩
    · intro _
      omega
    · exact fun houtranked => hstays ⟨node, hnode, houtranked⟩
  | save iter fault =>
    exact h.of_nodes_eq (save_nodes codecs d iter fault)
  | authenticate authReq mode env =>
    rcases @authenticateAndRegister_cases codecs d authReq mode env with
      ⟨hsame, -⟩ | ⟨pk, -, -, -, hnodes⟩
    · rwa [Daemon.step, hsame]
    · exact (h.insert_nodes fun _ => hclock env.recordNow (by simp [Event.clock])).of_nodes_eq hnodes
  | command client cmd env =>
    simp only [Daemon.step, runCommand]
    split
    · rename_i hperm
      cases cmd with
      | addNode ticket => exact h.addNode fun hadds => hstays ⟨hperm, hadds⟩
      | removeNode text => exact h.removeNode fun hremoves => hstays ⟨hperm, hremoves⟩
      | query | status | getTicket | shutdown => exact h
      | pause | resume => exact h.of_nodes_eq rfl
    · exact h

end Events
/-! One turn of a process. -/

def LoopEvent.tableEvent? : LoopEvent → Option Event
  | .stateBroadcast _ now cleanupIter _ _ => some (.cleanup now cleanupIter)
  | .spRecv signed env _ | .gosRecv (.received signed env _) => some (.received signed env)
  | .authenticate authReq mode env => some (.authenticate authReq mode env)
  | .command client cmd env _ _ => some (.command client cmd env)
  | _ => none

def LoopEvent.clock (e : LoopEvent) : List Nat := e.tableEvent?.elim [] Event.clock

def LoopEvent.HearsFrom (p : Process) (id : EndpointId) (e : LoopEvent) (t : Nat) : Prop :=
  p.stopped = false ∧ ∃ signed env reply, e.Receives signed env reply ∧
    P2pDdns.HearsFrom p.daemon.ctx id signed env ∧ t = env.verifyNow

def LoopEvent.Dismisses (codecs : Codecs) (p : Process) (id : EndpointId) (e : LoopEvent) : Prop :=
  ∃ ev, e.tableEvent? = some ev ∧ P2pDdns.Dismisses codecs p.daemon id ev

/-- The time a node has to have been heard from by a turn. -/
def LoopEvent.demands : LoopEvent → Option Nat
  | .stateBroadcast _ now _ _ _ => some (now - STALE_NODE_TTL_SECS)
  | _ => none

section Turns
variable {platform : Platform} {p : Process} {id : EndpointId} {t : Nat}

theorem reported_nodes (done : HostsSyncStatus → HostsSyncStatus)
    (result : Returned Bool × List UInt8) :
    (p.reported platform done result).daemon.ctx.nodes = p.daemon.ctx.nodes := by
  obtain ⟨returned, file⟩ := result
  cases returned <;> rfl

theorem gracefulShutdown_nodes (env : ShutdownReadings) :
    (p.gracefulShutdown platform env).1.daemon.ctx.nodes = p.daemon.ctx.nodes := by
  have hclear : (p.clearHostsFile platform env.hosts).daemon.ctx.nodes = p.daemon.ctx.nodes := by
    unfold Process.clearHostsFile
    split
    · exact reported_nodes _ _
    · rfl
  unfold Process.gracefulShutdown
  dsimp only
  split
  · exact hclear
  · exact (save_nodes platform.codecs _ env.iter env.fault).trans hclear

theorem turn_nodes (platform : Platform) (p : Process) (e : LoopEvent) :
    (p.turn platform e).1.daemon.ctx.nodes =
      (e.tableEvent?.elim p.daemon (p.daemon.step platform.codecs)).ctx.nodes := by
  cases e with
  | ctrlc res env =>
    simp only [Process.turn]
    split
    · exact gracefulShutdown_nodes env
    · rfl
  | sigterm env => exact gracefulShutdown_nodes env
  | stateBroadcast send now cleanupIter saveIter fault =>
    exact save_nodes platform.codecs _ saveIter fault
  | gosRecv evt =>
    cases evt with
    | neighborUp env =>
      rw [Process.turn, Process.processGossip, announceJoin_daemon]
      rfl
    | received | neighborDown | lagged => rfl
  | hostsTick env =>
    simp only [Process.turn, Process.syncHostsFile]
    split
    · exact reported_nodes _ _
    · rfl
  | command client cmd env responded shutdown =>
    simp only [Process.turn]
    split
    · exact gracefulShutdown_nodes shutdown
    · rfl
  | fullSync | spRecv | spClosed | gosFailed | gosClosed | authenticate | exited => rfl

theorem step_heldSince {e : LoopEvent} (h : p.daemon.ctx.HeldSince id t)
    (htable : TrustTable p.daemon.ctx) (hclock : ∀ c ∈ e.clock, t ≤ c)
    (hstays : ¬ e.Dismisses platform.codecs p id)
    (hfresh : ∀ d, e.demands = some d → p.daemon.ctx.HeldSince id d) :
    (p.step platform e).1.daemon.ctx.HeldSince id t := by
  unfold Process.step
  split
  · exact h
  · refine Context.HeldSince.of_nodes_eq ?_ (turn_nodes platform p e)
    cases hevent : e.tableEvent? with
    | none => exact h
    | some ev =>
      rw [LoopEvent.clock, hevent] at hclock
      refine h.step htable hclock (fun hgone => hstays ⟨ev, hevent, hgone⟩) ?_
      rintro now iter rfl
      refine hfresh _ ?_
      cases e with
      | stateBroadcast send now' cleanupIter saveIter fault =>
        obtain ⟨rfl, rfl⟩ := Event.cleanup.inj (Option.some.inj hevent)
        rfl
      | gosRecv evt => cases evt <;> simp [LoopEvent.tableEvent?] at hevent
      | _ => simp [LoopEvent.tableEvent?] at hevent

theorem LoopEvent.HearsFrom.heldSince {e : LoopEvent} (h : e.HearsFrom p id t)
    (htable : TrustTable p.daemon.ctx) (hclock : ∀ c ∈ e.clock, t ≤ c) :
    (p.step platform e).1.daemon.ctx.HeldSince id t := by
  obtain ⟨hactive, signed, env, reply, hreceives, hhears, rfl⟩ := h
  have hreadings : ∀ c ∈ Event.clock (.received (some signed) env), env.verifyNow ≤ c := by
    rcases hreceives with rfl | rfl <;> exact hclock
  rw [hreceives.ctx_eq platform hactive]
  exact hhears.heldSince htable (hreadings _ (by simp [Event.clock]))
    (hreadings _ (by simp [Event.clock]))

end Turns
/-! Whole runs. -/

/-- A node's place in the active table as a lease. -/
def nodeLease (platform : Platform) (id : EndpointId) :
    Lease fun (p : Process) (e : LoopEvent) => (p.step platform e).1 where
  Inv p := TrustTable p.daemon.ctx
  Vouched t p := p.daemon.ctx.HeldSince id t
  Renews p e t := e.HearsFrom p id t
  Ends p e := e.Dismisses platform.codecs p id
  ReadsFrom t e := ∀ c ∈ e.clock, t ≤ c
  demand := LoopEvent.demands
  inv _ e h := Process.step_trustTable platform e h
  mono := fun _ _ _ ⟨node, hnode, ht⟩ hle => ⟨node, hnode, hle.trans ht⟩
  renewed _ _ _ htable hhears hclock := hhears.heldSince htable hclock
  kept _ _ _ htable h hclock hstays hfresh := step_heldSince h htable hclock hstays hfresh

theorem Process.run_eq_exec (platform : Platform) (p : Process) (events : List LoopEvent) :
    (p.run platform events).1 = Runs.exec (fun p e => (p.step platform e).1) p events := by
  induction events generalizing p with
  | nil => rfl
  | cons e events ih => exact ih (p.step platform e).1

def HeardAt (platform : Platform) (p : Process) (id : EndpointId) (events : List LoopEvent)
    (t : Nat) : Prop :=
  ∃ before e after, events = before ++ e :: after ∧ e.HearsFrom (p.run platform before).1 id t

/-- The clock does not go back; once the node was heard from, it is not dismissed, and each cleanup
comes within the time to live after it was last heard from. -/
structure KeepsInTouch (platform : Platform) (p : Process) (id : EndpointId)
    (events : List LoopEvent) : Prop where
  clock : (events.flatMap LoopEvent.clock).Pairwise (· ≤ ·)
  stays : ∀ before e after t, events = before ++ e :: after → HeardAt platform p id before t →
    ¬ e.Dismisses platform.codecs (p.run platform before).1 id
  recent : ∀ before send now cleanupIter saveIter fault after t,
    events = before ++ .stateBroadcast send now cleanupIter saveIter fault :: after →
      HeardAt platform p id before t →
      ∃ t', HeardAt platform p id before t' ∧ now ≤ t' + STALE_NODE_TTL_SECS

section Runs
variable {platform : Platform} {p : Process} {id : EndpointId} {events : List LoopEvent} {t : Nat}

theorem renewed_iff : (nodeLease platform id).Renewed p events t ↔ HeardAt platform p id events t := by
  simp only [HeardAt, Process.run_eq_exec]
  exact Iff.rfl

theorem HeardAt.clock_le {before after : List LoopEvent} {e : LoopEvent}
    (hclock : ((before ++ e :: after).flatMap LoopEvent.clock).Pairwise (· ≤ ·))
    (h : HeardAt platform p id (before ++ [e]) t) : ∀ c ∈ e.clock, t ≤ c := by
  obtain ⟨front, f, back, hsplit, -, signed, env, reply, hreceives, -, rfl⟩ := h
  obtain ⟨heach, hall⟩ := List.pairwise_flatMap.mp hclock
  have hread : f.clock = Event.clock (.received (some signed) env) := by
    rcases hreceives with rfl | rfl <;> rfl
  rcases List.eq_nil_or_concat back with rfl | ⟨back, g, rfl⟩
  · obtain ⟨rfl, hef⟩ := List.append_inj' hsplit rfl
    obtain rfl := List.singleton_inj.mp hef
    have hreadings := heach e (by simp)
    rw [hread] at hreadings ⊢
    intro c hc
    rcases List.mem_cons.mp hc with rfl | hc
    · exact le_rfl
    · exact (List.pairwise_cons.mp hreadings).1 c hc
  · rw [List.concat_eq_append, ← List.cons_append, ← List.append_assoc] at hsplit
    obtain ⟨rfl, hef⟩ := List.append_inj' hsplit rfl
    obtain rfl := List.singleton_inj.mp hef
    rw [List.pairwise_append] at hall
    refine hall.2.2 f (by simp) e List.mem_cons_self env.verifyNow ?_
    simp [hread, Event.clock]

theorem KeepsInTouch.inTime (h : KeepsInTouch platform p id events) :
    (nodeLease platform id).InTime p events where
  clock before e after t hevents hrenewed :=
    HeardAt.clock_le (hevents ▸ h.clock) (renewed_iff.mp hrenewed)
  unended before e after t hevents hrenewed := by
    rw [← Process.run_eq_exec]
    exact h.stays before e after t hevents (renewed_iff.mp hrenewed)
  met before e after t d hevents hrenewed hdemand := by
    cases e with
    | stateBroadcast send now cleanupIter saveIter fault =>
      obtain ⟨t', hheard, hle⟩ := h.recent before send now cleanupIter saveIter fault after t hevents
        (renewed_iff.mp hrenewed)
      obtain rfl := Option.some.inj hdemand
      exact ⟨t', renewed_iff.mpr hheard, by omega⟩
    | _ => contradiction

theorem KeepsInTouch.held (h : KeepsInTouch platform p id events)
    (htable : TrustTable p.daemon.ctx) (hheard : HeardAt platform p id events t) :
    (p.run platform events).1.daemon.ctx.HeldSince id t := by
  rw [Process.run_eq_exec]
  exact h.inTime.vouched htable t (renewed_iff.mpr hheard)

/-- From the first time it is heard from, a node that keeps in touch is in the active table, with
a heartbeat as late as any time it was heard from. -/
theorem heard_peers_stay {start : Start platform.codecs} {hostsFile : List UInt8}
    {env : LaunchReadings}
    (h : KeepsInTouch platform (start.launch platform hostsFile env).1 id events)
    (hheard : HeardAt platform (start.launch platform hostsFile env).1 id events t) :
    ∃ node, ((start.launch platform hostsFile env).1.run platform events).1.daemon.ctx.nodes[id]? =
      some node ∧ t ≤ node.lastHeartbeat :=
  h.held (launch_trustTable start hostsFile env) hheard

end Runs
/-! The hosts file. -/

section Published
variable {windows : Bool} {here : EndpointAddr} {nodes : List Node} {suffix : Option String}
  {node : Node} {ip : IpAddr} {hostname name : String}

theorem mem_of_mem_between {lines : List String} {line : String} (h : line ∈ between lines) :
    line ∈ lines := List.mem_of_mem_tail (List.mem_of_mem_dropLast h)

theorem mem_under {entries : List (IpAddr × List String)} :
    name ∈ under ip entries ↔ ∃ entry ∈ entries, entry.1 = ip ∧ name ∈ entry.2 := by
  simp only [under, List.mem_flatMap, List.mem_filter, decide_eq_true_eq, and_assoc]

theorem line_published (windows : Bool) (hnode : node ∈ nodes)
    (hwritten : Written here node ip hostname)
    (hname : name ∈ hostnamesOf (suffix.bind canonicalHostname) hostname) :
    ∃ line ∈ between ((nodesBuilder here nodes suffix).linesToInsert windows),
      (fields line).head? = some ip.toText ∧ name ∈ hostnamesOn line := by
  have hnamed := nodesBuilder_named here nodes suffix
  have hunder : name ∈ under ip ((nodesBuilder here nodes suffix).pairs windows) := by
    have hentry : (ip, hostnamesOf (suffix.bind canonicalHostname) hostname) ∈
        nodeEntries here nodes suffix := mem_nodeEntries.mpr ⟨node, hnode, ip, hostname, hwritten, rfl⟩
    have hpairs : under ip ((nodesBuilder here nodes suffix).pairs windows) =
        under ip (nodeEntries here nodes suffix) := by
      have hlist : under ip (nodesBuilder here nodes suffix).hostnameMap.toList =
          under ip (nodeEntries here nodes suffix) := by
        rw [under_toList, nodesBuilder_eq, ExtTreeMap.getD_eq_getD_getElem?, getElem?_collect,
          if_pos (List.mem_map_of_mem hentry), Option.getD_some]
      cases windows with
      | false => exact hlist
      | true => exact (under_spread ip _).trans hlist
    rw [hpairs, mem_under]
    exact ⟨_, hentry, rfl, hname⟩
  obtain ⟨pair, hpair, rfl, hmem⟩ := mem_under.mp hunder
  obtain ⟨hne, hnames⟩ := HostsBuilder.pairs_named hnamed pair hpair
  rw [HostsBuilder.between_linesToInsert, HostsBuilder.entries_eq]
  refine ⟨_, List.mem_map_of_mem hpair, ?_, ?_⟩
  · rw [fields_entry hne hnames, List.head?_cons]
  · rwa [hostnamesOn, fields_entry hne hnames, List.tail_cons]

end Published

section Runs
variable {platform : Platform} {p : Process} {id : EndpointId} {events : List LoopEvent} {t : Nat}

/-- An update that succeeds writes the names of every active node it has an address for. -/
theorem tick_publishes {turn : HostsTurn} {changed : Bool} {node : Node} {ip : IpAddr}
    {hostname : String} (hactive : p.stopped = false) (hsync : p.daemon.ctx.args.hostsSync = true)
    (hok : (syncNodesToHosts platform.windows turn.readings turn.writes turn.here
      (p.hostsNodes turn) platform.hostsSuffix p.hostsFile).1 = .ok changed)
    (hnode : p.daemon.ctx.nodes[id]? = some node)
    (hwritten : Written turn.here node ip hostname) :
    ∃ lines, readLines (p.step platform (.hostsTick turn)).1.hostsFile = some lines ∧
      ∀ name ∈ hostnamesOf (platform.hostsSuffix.bind canonicalHostname) hostname,
        ∃ line ∈ lines, (fields line).head? = some ip.toText ∧ name ∈ hostnamesOn line := by
  have hfile : (p.step platform (.hostsTick turn)).1.hostsFile =
      (syncNodesToHosts platform.windows turn.readings turn.writes turn.here (p.hostsNodes turn)
        platform.hostsSuffix p.hostsFile).2 := by
    simp only [Process.step, hactive, Bool.false_eq_true, if_false, Process.turn,
      Process.syncHostsFile, hsync, if_true]
    exact reported_hostsFile _ _
  obtain ⟨htag, hclean⟩ := nodesBuilder_spec turn.here (p.hostsNodes turn) platform.hostsSuffix
  obtain ⟨before, lines, -, hlines, hrewrites, -⟩ :=
    writeTo_rewrites htag hclean (Prod.ext hok rfl)
  obtain ⟨front, back, hplaced⟩ := rewrites_placed hrewrites
  refine ⟨lines, hfile ▸ hlines, fun name hname => ?_⟩
  have hlisted : node ∈ p.hostsNodes turn := by
    refine List.mem_append_left _ (List.mem_map.mpr ⟨(id, node), turn.iter.mem_walk.mpr hnode, rfl⟩)
  obtain ⟨line, hline, hhead, hon⟩ := line_published platform.windows hlisted hwritten hname
  refine ⟨line, ?_, hhead, hon⟩
  rw [hplaced]
  simp [mem_of_mem_between hline]

/-- A node that keeps in touch can be looked up: every update of the hosts file that succeeds
leaves a line for each name it has, behind its address. -/
theorem heard_peers_resolve {start : Start platform.codecs} {hostsFile : List UInt8}
    {env : LaunchReadings} (hsync : start.args.hostsSync = true)
    (h : KeepsInTouch platform (start.launch platform hostsFile env).1 id events)
    (hheard : HeardAt platform (start.launch platform hostsFile env).1 id events t)
    (turn : HostsTurn) (changed : Bool) :
    let p := ((start.launch platform hostsFile env).1.run platform events).1
    p.stopped = false →
    (syncNodesToHosts platform.windows turn.readings turn.writes turn.here (p.hostsNodes turn)
      platform.hostsSuffix p.hostsFile).1 = .ok changed →
    ∃ node, p.daemon.ctx.nodes[id]? = some node ∧ t ≤ node.lastHeartbeat ∧
      ∀ ip hostname, Written turn.here node ip hostname →
        ∃ lines, readLines (p.step platform (.hostsTick turn)).1.hostsFile = some lines ∧
          ∀ name ∈ hostnamesOf (platform.hostsSuffix.bind canonicalHostname) hostname,
            ∃ line ∈ lines, (fields line).head? = some ip.toText ∧ name ∈ hostnamesOn line := by
  intro p hactive hok
  obtain ⟨-, -, hstarted, -⟩ := initNetwork_ok start.started
  have hargs : p.daemon.ctx.args.hostsSync = true := by
    rw [(launched_run_frame hostsFile env events).2.1]
    exact hstarted ▸ hsync
  obtain ⟨node, hnode, ht⟩ := h.held (launch_trustTable start hostsFile env) hheard
  exact ⟨node, hnode, ht, fun ip hostname => tick_publishes hactive hargs hok hnode⟩

end Runs

namespace Sample

/-! Alice hears of bob, and cleans up 54 seconds later. -/

def touchEvents : List LoopEvent :=
  [joinHeard, .stateBroadcast (replies alice 1 1060) 1060 .byId .byId none]

@[irreducible] def touchStart : Process :=
  (syncingStart.launch onTerminal syncedHosts (launchReadings alice 1 1000)).1

theorem touchStart_eq : touchStart =
    (syncingStart.launch onTerminal syncedHosts (launchReadings alice 1 1000)).1 := by
  rw [touchStart]

theorem touchStart_frame : touchStart.daemon.ctx.me = syncingStart.ctx.me ∧
    touchStart.daemon.ctx.ticket = syncingStart.ctx.ticket := by
  have hframe := moves_frame (@launch_moves onTerminal .exited syncingStart syncedHosts
    (launchReadings alice 1 1000))
  rw [← touchStart_eq] at hframe
  exact ⟨hframe.1, hframe.2.2⟩

theorem touchStart_trustTable : TrustTable touchStart.daemon.ctx := by
  have htable := @launch_trustTable onTerminal syncingStart syncedHosts (launchReadings alice 1 1000)
  rwa [← touchStart_eq] at htable

theorem bob_heard : joinHeard.HearsFrom touchStart bob 1006 := by
  obtain ⟨hme, hticket⟩ := touchStart_frame
  have haccepts : Accepts touchStart.daemon.ctx ⟨bob, bobsJoin, 1005⟩ (readings 1006)
      ⟨.fromParts bob [.ip (sock 2)], "bob", ∅, alice⟩ := by
    refine .inr ⟨?_, by decide⟩
    rw [hticket]
    rfl
  refine ⟨by decide +kernel, _, _, _, .inr rfl, ⟨rfl, ?_, ?_, .inr ⟨_, haccepts⟩⟩, rfl⟩
  · rw [hme]
    decide
  · exact Message.noConfusion

theorem bob_heardAt (after : List LoopEvent) :
    HeardAt onTerminal touchStart bob (joinHeard :: after) 1006 := by
  refine ⟨[], joinHeard, after, rfl, ?_⟩
  rw [Process.run]
  exact bob_heard

theorem bob_keeps_name :
    ¬ (LoopEvent.stateBroadcast (replies alice 1 1060) 1060 .byId .byId none).Dismisses
      onTerminal.codecs (touchStart.run onTerminal [joinHeard]).1 bob := by
  rintro ⟨_, ⟨⟩, node, hnode, other, hother, -, hid, -⟩
  have htable := Process.run_trustTable onTerminal [joinHeard] touchStart_trustTable
  have hlisted : ((touchStart.run onTerminal [joinHeard]).1.daemon.ctx.nodesSnapshot 1060
      .byId).map (·.nodeId) = [bob] := by decide +kernel
  have hmem := List.mem_map_of_mem (f := (·.nodeId)) hother
  rw [hlisted, List.mem_singleton] at hmem
  exact hid (hmem.trans (htable.nodesKeyed bob node hnode).symm)

theorem bob_in_touch : KeepsInTouch onTerminal touchStart bob touchEvents where
  clock := by decide
  stays before e after t hevents hheard := by
    rcases before with _ | ⟨b, _ | ⟨c, before⟩⟩
    · obtain ⟨front, f, back, hnil, -⟩ := hheard
      simp at hnil
    · simp only [touchEvents, List.cons_append, List.nil_append, List.cons.injEq] at hevents
      obtain ⟨rfl, rfl, -⟩ := hevents
      exact bob_keeps_name
    · simp [touchEvents] at hevents
  recent before send now cleanupIter saveIter fault after t hevents hheard := by
    rcases before with _ | ⟨b, _ | ⟨c, before⟩⟩
    · obtain ⟨front, f, back, hnil, -⟩ := hheard
      simp at hnil
    · simp only [touchEvents, List.cons_append, List.nil_append, List.cons.injEq,
        LoopEvent.stateBroadcast.injEq] at hevents
      obtain ⟨rfl, ⟨-, rfl, -⟩, -⟩ := hevents
      exact ⟨1006, bob_heardAt [], by decide⟩
    · simp [touchEvents] at hevents

theorem heard_peers_stay_bob :
    let p := (syncingStart.launch onTerminal syncedHosts (launchReadings alice 1 1000)).1
    ∃ node, (p.run onTerminal touchEvents).1.daemon.ctx.nodes[bob]? = some node ∧
      1006 ≤ node.lastHeartbeat := by
  have htouch := bob_in_touch
  have hheard := bob_heardAt touchEvents.tail
  rw [touchStart_eq] at htouch hheard
  exact heard_peers_stay htouch hheard

theorem heard_peers_resolve_bob :
    let launched := (syncingStart.launch onTerminal syncedHosts (launchReadings alice 1 1000)).1
    let p := (launched.run onTerminal touchEvents).1
    ∃ node, p.daemon.ctx.nodes[bob]? = some node ∧ 1006 ≤ node.lastHeartbeat ∧
      ∀ ip hostname, Written (hostsUpdate 1062).here node ip hostname →
        ∃ lines, readLines (p.step onTerminal (.hostsTick (hostsUpdate 1062))).1.hostsFile =
            some lines ∧
          ∀ name ∈ hostnamesOf (onTerminal.hostsSuffix.bind canonicalHostname) hostname,
            ∃ line ∈ lines, (fields line).head? = some ip.toText ∧ name ∈ hostnamesOn line := by
  have htouch := bob_in_touch
  have hheard := bob_heardAt touchEvents.tail
  rw [touchStart_eq] at htouch hheard
  exact heard_peers_resolve rfl htouch hheard (hostsUpdate 1062) true (by decide +kernel)
    (by decide +kernel)

end Sample
end P2pDdns
