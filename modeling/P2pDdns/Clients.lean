import P2pDdns.Commands
import P2pDdns.DuplicateDomains
import P2pDdns.Provenance

/-!
The registry of clients and the marked records of the table. Authentication and
`RemoveNode` change both; messages, cleanups and tickets change the table only.
-/

set_option autoImplicit false

namespace P2pDdns
open Std FiniteMaps NewestWins

variable {codecs : Codecs}

def Context.Marked (ctx : Context) (id : EndpointId) : Prop :=
  ∃ node, ctx.nodes[id]? = some node ∧ isDaemonNode node = false

/-- The registered ids are those with a marked record. -/
def RegistryAgrees (d : Daemon) : Prop :=
  ∀ id, d.clients.isClientNode id = true ↔ d.ctx.Marked id

/-- A record stamped `t` is newer than the one held for `id` when the message is dispatched;
a message that passed has refreshed the one of its sender. -/
def Outdates (ctx : Context) (signed : SignedMessage) (env : Readings) (id : EndpointId)
    (t : Nat) : Prop :=
  ∀ old, ctx.nodes[id]? = some old →
    if signed.sender = id ∧ (ctx.status signed env).passed then env.refreshNow < t
    else old.lastHeartbeat < t

def Announces (ctx : Context) (signed : SignedMessage) (env : Readings) (id : EndpointId) : Prop :=
  signed.sender = id ∧ id ≠ ctx.me.nodeId ∧ Outdates ctx signed env id env.incomingNow

/-- The event gives `id` a record with the marker, or leaves it with none that has it. -/
def SetsMark (codecs : Codecs) (d : Daemon) (id : EndpointId) (marked : Bool) : Event → Prop
  | .received (some signed) env =>
    match signed.message with
    | .invited topic rnum _ _ services _ =>
      ((signed.isFresh env.verifyNow = true ∧ d.ctx.ticket.validate topic rnum = true) ∧
        Announces d.ctx signed env id) ∧ services.contains SERVICE_MARKER_CLIENT = marked
    | .aboutMe _ _ services _ =>
      (Passed d.ctx signed env ∧ Announces d.ctx signed env id) ∧
        services.contains SERVICE_MARKER_CLIENT = marked
    | .left => (Passed d.ctx signed env ∧ signed.sender = id) ∧ false = marked
    | .syncRequest nodes | .syncResponse nodes =>
      ((d.ctx.args.daemon = false ∨ Passed d.ctx signed env) ∧
        ∃ node ∈ nodes, considered d.ctx.me.nodeId id node = true ∧
          Outdates d.ctx signed env id node.lastHeartbeat) ∧ false = marked
    | .introduce _ | .heartbeat => False
  | .cleanup now iter =>
    (∃ node, d.ctx.nodes[id]? = some node ∧ isDaemonNode node = false ∧
      Outranked (d.ctx.nodesSnapshot now iter) node) ∧ false = marked
  | .command client (.addNode ticket) _ =>
    match Ticket.fromStr codecs ticket with
    | .ok parsed =>
      (d.clients.checkPermission client "add_node" = true ∧ parsed.topic = d.ctx.ticket.topic ∧
        parsed.invitor.nodeId = id ∧ id ≠ d.ctx.me.nodeId) ∧
        parsed.invitor.services.contains SERVICE_MARKER_CLIENT = marked
    | .error _ => False
  | _ => False

def Follows (now before : Prop) (sets : Bool → Prop) : Prop :=
  (∀ m, sets m → (now ↔ m = true)) ∧ ((∀ m, ¬ sets m) → (now ↔ before))

namespace Follows
variable {now before c : Prop} {b : Bool} {sets : Bool → Prop}

theorem of_cond (hset : c → (now ↔ b = true)) (hkeep : ¬ c → (now ↔ before)) :
    Follows now before fun m => c ∧ b = m := by
  refine ⟨?_, fun h => hkeep fun hc => h b ⟨hc, rfl⟩⟩
  rintro m ⟨hc, rfl⟩
  exact hset hc

theorem guarded {e : Prop} (hyes : c → Follows now before fun m => e ∧ b = m)
    (hno : ¬ c → (now ↔ before)) : Follows now before fun m => (c ∧ e) ∧ b = m := by
  apply of_cond
  · rintro ⟨hc, he⟩
    exact (hyes hc).1 b ⟨he, rfl⟩
  · intro hnot
    by_cases hc : c
    · exact (hyes hc).2 fun m hm => hnot ⟨hc, hm.1⟩
    · exact hno hc

theorem congr {before' : Prop} {sets' : Bool → Prop} (h : Follows now before sets)
    (hbefore : before ↔ before') (hsets : ∀ m, sets m ↔ sets' m) : Follows now before' sets' := by
  refine ⟨fun m hm => h.1 m ((hsets m).mpr hm), fun hnot => (h.2 fun m hm => ?_).trans hbefore⟩
  exact hnot m ((hsets m).mp hm)

theorem unset (h : now ↔ before) (hsets : ∀ m, ¬ sets m) : Follows now before sets :=
  ⟨fun m hm => absurd hm (hsets m), fun _ => h⟩

theorem agrees_iff (h : Follows now before sets) (hb : b = true ↔ before) :
    (b = true ↔ now) ↔ ¬ sets !b := by
  constructor
  · intro hnow hset
    have hflip := hnow.trans (h.1 _ hset)
    cases b <;> simp at hflip
  · intro hnot
    by_cases hsame : sets b
    · exact (h.1 b hsame).symm
    · refine hb.trans (h.2 fun m hm => ?_).symm
      cases b <;> cases m <;> contradiction

end Follows

section Refreshed
variable {ctx : Context} {signed : SignedMessage} {env : Readings} {id : EndpointId}

def refreshedNode (env : Readings) (id : EndpointId) (old : Node) : Node :=
  match env.refreshObserved with
  | none => { old with lastHeartbeat := env.refreshNow }
  | some sock => observedNode old id sock env.refreshNow

theorem refreshedNode_kind (env : Readings) (id : EndpointId) (old : Node) :
    isDaemonNode (refreshedNode env id old) = isDaemonNode old := by
  unfold refreshedNode
  split <;> rfl

theorem refreshedNode_stamp (env : Readings) (id : EndpointId) (old : Node) :
    (refreshedNode env id old).lastHeartbeat = env.refreshNow := by
  unfold refreshedNode
  split <;> rfl

theorem getElem?_refreshed (ht : TrustTable ctx) (id : EndpointId) :
    (ctx.refreshed signed env).nodes[id]? =
      if signed.sender = id ∧ (ctx.status signed env).passed then
        ctx.nodes[id]?.map (refreshedNode env id)
      else ctx.nodes[id]? := by
  by_cases hid : signed.sender = id
  · subst hid
    by_cases hpassed : (ctx.status signed env).passed = true
    · rw [if_pos ⟨rfl, hpassed⟩, Context.refreshed, if_pos hpassed, refreshSender_eq]
      cases hold : ctx.nodes[signed.sender]? with
      | none => simpa using hold
      | some old =>
        cases hobs : env.refreshObserved with
        | none => simp [refreshedNode, hobs]
        | some sock =>
          have hkey : old.nodeId = signed.sender := ht.nodesKeyed _ old hold
          have hne := ht.ne_me (status_passed.mp hpassed).1
          simp [Context.upsertActiveNode, observedNode, refreshedNode, hobs, hkey, hne]
    · simp [hpassed, Context.refreshed]
  · rw [if_neg fun h => hid h.1, refreshed_nodes_ne ht.nodesKeyed (Ne.symm hid)]

theorem marked_refreshed (ht : TrustTable ctx) (id : EndpointId) :
    (ctx.refreshed signed env).Marked id ↔ ctx.Marked id := by
  unfold Context.Marked
  rw [getElem?_refreshed ht]
  split
  · cases ctx.nodes[id]? <;> simp [refreshedNode_kind]
  · rfl

theorem outdates_iff (ht : TrustTable ctx) {t : Nat} :
    Outdates ctx signed env id t ↔
      ∀ old, (ctx.refreshed signed env).nodes[id]? = some old → old.lastHeartbeat < t := by
  unfold Outdates
  rw [getElem?_refreshed ht]
  cases ctx.nodes[id]? with
  | none => simp
  | some old => split <;> simp_all [refreshedNode_stamp]

end Refreshed

/-! What each branch of the handler does to the mark of an id. -/

section Branches
variable {ctx : Context} {id : EndpointId}

theorem isDaemonNode_eq (node : Node) :
    isDaemonNode node = !node.services.contains SERVICE_MARKER_CLIENT := rfl

theorem marked_congr {ctx' : Context} (h : ctx'.nodes[id]? = ctx.nodes[id]?) :
    ctx'.Marked id ↔ ctx.Marked id := by
  unfold Context.Marked
  rw [h]

theorem marked_iff {node : Node} (h : ctx.nodes[id]? = some node) :
    ctx.Marked id ↔ node.services.contains SERVICE_MARKER_CLIENT = true := by
  simp [Context.Marked, h, isDaemonNode_eq]

theorem admitNode_follows (hkeyed : NodesKeyed ctx) (incoming : Node) :
    Follows ((ctx.admitNode (mergeNode ctx.nodes[incoming.nodeId]? incoming).1).Marked id)
      (ctx.Marked id) fun m =>
        (incoming.nodeId = id ∧ id ≠ ctx.me.nodeId ∧
          ∀ old, ctx.nodes[id]? = some old → old.lastHeartbeat < incoming.lastHeartbeat) ∧
        incoming.services.contains SERVICE_MARKER_CLIENT = m := by
  have hid : (mergeNode ctx.nodes[incoming.nodeId]? incoming).1.nodeId = incoming.nodeId :=
    mergeNode_nodeId fun old hold => hkeyed _ old hold
  have hinsert : incoming.nodeId ≠ ctx.me.nodeId →
      (ctx.admitNode (mergeNode ctx.nodes[incoming.nodeId]? incoming).1).nodes =
        ctx.nodes.insert incoming.nodeId (mergeNode ctx.nodes[incoming.nodeId]? incoming).1 := by
    intro hme
    rw [admitNode_nodes ctx _ (by rwa [hid]), hid]
  apply Follows.of_cond
  · rintro ⟨rfl, hme, hnewer⟩
    rw [marked_iff (by rw [hinsert hme]; exact getElem?_insert_self _ _ _)]
    cases hold : ctx.nodes[incoming.nodeId]? with
    | none => rfl
    | some old => rw [mergeNode_newer (hnewer old hold)]
  · intro hcond
    by_cases hme : incoming.nodeId = ctx.me.nodeId
    · rw [admitNode_self _ _ (hid.trans hme)]
    · by_cases hne : incoming.nodeId = id
      · subst hne
        have hheld : ∃ old, ctx.nodes[incoming.nodeId]? = some old ∧
            ¬ old.lastHeartbeat < incoming.lastHeartbeat := by
          by_contra hnone
          exact hcond ⟨rfl, hme, fun old hold => by_contra fun hlt => hnone ⟨old, hold, hlt⟩⟩
        obtain ⟨old, hold, hlt⟩ := hheld
        rw [marked_iff (by rw [hinsert hme]; exact getElem?_insert_self _ _ _), marked_iff hold,
          hold, mergeNode_not_newer hlt]
      · refine marked_congr ?_
        rw [hinsert hme]
        exact getElem?_insert_ne _ _ hne

def ListsNewer (ctx : Context) (id : EndpointId) (nodes : List Node) : Prop :=
  ∃ node ∈ nodes, considered ctx.me.nodeId id node = true ∧
    ∀ old, ctx.nodes[id]? = some old → old.lastHeartbeat < node.lastHeartbeat

theorem isDaemonNode_listedNode (sender : EndpointId) (observed : Option SocketAddr) (node : Node) :
    isDaemonNode (listedNode sender observed node) = isDaemonNode node := by
  unfold listedNode
  split <;> rfl

theorem syncNode_daemon (sender : EndpointId) (observed : Option SocketAddr) {node : Node}
    (h : (∃ old, ctx.nodes[id]? = some old ∧ isDaemonNode old = true) ∨
      ListsNewer ctx id [node]) :
    ∃ new, (ctx.syncNode sender observed node).nodes[id]? = some new ∧
      isDaemonNode new = true := by
  rw [getElem?_syncNode]
  by_cases hcons : considered ctx.me.nodeId id node = true
  · rw [if_pos hcons]
    have hd : isDaemonNode (listedNode sender observed node) = true := by
      rw [isDaemonNode_listedNode]
      simp only [considered, Bool.and_eq_true] at hcons
      exact hcons.2
    cases hold : ctx.nodes[id]? with
    | none => exact ⟨_, rfl, hd⟩
    | some old =>
      by_cases hlt : old.lastHeartbeat < node.lastHeartbeat
      · refine ⟨replaceNode old (listedNode sender observed node), by simp [absorb, hlt], ?_⟩
        rw [replaceNode_eq (by rwa [listedNode_lastHeartbeat])]
        exact hd
      · refine ⟨old, by simp [absorb, hlt], ?_⟩
        rcases h with ⟨_, heq, hdold⟩ | ⟨n, hn, -, hnewer⟩
        · obtain rfl := Option.some.inj (hold.symm.trans heq)
          exact hdold
        · obtain rfl := List.mem_singleton.mp hn
          exact absurd (hnewer old hold) hlt
  · rw [if_neg hcons]
    rcases h with h | ⟨n, hn, hncons, -⟩
    · exact h
    · obtain rfl := List.mem_singleton.mp hn
      exact absurd hncons hcons

theorem syncNode_untouched (sender : EndpointId) (observed : Option SocketAddr) {node : Node}
    (h : ¬ ListsNewer ctx id [node]) :
    (ctx.syncNode sender observed node).nodes[id]? = ctx.nodes[id]? := by
  rw [getElem?_syncNode]
  split
  · rename_i hcons
    have hcase : Beats Node.lastHeartbeat ctx.nodes[id]? (listedNode sender observed node) ∨
        Covers Node.lastHeartbeat ctx.nodes[id]?
          (listedNode sender observed node).lastHeartbeat := beats_or_covers _ _
    rcases hcase with hbeats | hcovers
    · refine absurd ⟨node, List.mem_singleton_self node, hcons, fun old hold => ?_⟩ h
      have := hbeats old hold
      rwa [listedNode_lastHeartbeat] at this
    · exact absorb_of_covers hcovers
  · rfl

theorem syncNodes_daemon (sender : EndpointId) (observed : Nat → Option SocketAddr) (k : Nat)
    (nodes : List Node)
    (h : (∃ old, ctx.nodes[id]? = some old ∧ isDaemonNode old = true) ∨
      ListsNewer ctx id nodes) :
    ∃ new, (Context.syncNodes sender observed k nodes ctx).nodes[id]? = some new ∧
      isDaemonNode new = true := by
  induction nodes generalizing k ctx with
  | nil =>
    rcases h with h | ⟨n, hn, -⟩
    · exact h
    · exact absurd hn List.not_mem_nil
  | cons node nodes ih =>
    refine ih (k+1) ?_
    by_cases hfirst : ListsNewer ctx id [node]
    · exact .inl (syncNode_daemon sender (observed k) (.inr hfirst))
    · rcases h with h | ⟨n, hn, hcons, hnewer⟩
      · exact .inl (syncNode_daemon sender (observed k) (.inl h))
      · right
        rcases List.mem_cons.mp hn with rfl | hn
        · exact absurd ⟨n, List.mem_singleton_self n, hcons, hnewer⟩ hfirst
        · refine ⟨n, hn, by rwa [syncNode_me], ?_⟩
          rwa [syncNode_untouched sender (observed k) hfirst]

theorem syncNodes_untouched (sender : EndpointId) (observed : Nat → Option SocketAddr) (k : Nat)
    (nodes : List Node) (h : ¬ ListsNewer ctx id nodes) :
    (Context.syncNodes sender observed k nodes ctx).nodes[id]? = ctx.nodes[id]? := by
  induction nodes generalizing k ctx with
  | nil => rfl
  | cons node nodes ih =>
    have hfirst : ¬ ListsNewer ctx id [node] := by
      rintro ⟨n, hn, hnewer⟩
      obtain rfl := List.mem_singleton.mp hn
      exact h ⟨n, List.mem_cons_self, hnewer⟩
    have hsame := syncNode_untouched sender (observed k) hfirst
    refine (ih (k+1) ?_).trans hsame
    rintro ⟨n, hn, hcons, hnewer⟩
    rw [syncNode_me] at hcons
    rw [hsame] at hnewer
    exact h ⟨n, List.mem_cons_of_mem node hn, hcons, hnewer⟩

theorem syncNodes_follows (sender : EndpointId) (observed : Nat → Option SocketAddr) (k : Nat)
    (nodes : List Node) :
    Follows ((Context.syncNodes sender observed k nodes ctx).Marked id) (ctx.Marked id)
      fun m => ListsNewer ctx id nodes ∧ false = m := by
  apply Follows.of_cond
  · intro h
    obtain ⟨new, hnew, hd⟩ := syncNodes_daemon sender observed k nodes (.inr h)
    rw [marked_iff hnew]
    rw [isDaemonNode_eq, Bool.not_eq_true'] at hd
    simp [hd]
  · exact fun h => marked_congr (syncNodes_untouched sender observed k nodes h)

end Branches

/-! What each event does to it. -/

section Events
variable {ctx : Context} {signed : SignedMessage} {env : Readings} {id : EndpointId}

theorem announceNode_follows (ht : TrustTable ctx) (addr : EndpointAddr) (aliasName : String)
    (services : ExtTreeMap String UInt32) (invitor : EndpointId) :
    Follows (((ctx.refreshed signed env).announceNode signed.sender addr aliasName services
        invitor env).Marked id)
      (ctx.Marked id) fun m =>
        Announces ctx signed env id ∧ services.contains SERVICE_MARKER_CLIENT = m := by
  let ann : Announcement := ⟨addr, aliasName, services, invitor⟩
  have hfollows := @admitNode_follows _ id (ht.nodesKeyed.refreshed signed env)
    (ann.incoming signed.sender env)
  refine hfollows.congr (marked_refreshed ht id) fun m => and_congr_left fun _ => ?_
  rw [Announces, refreshed_me, outdates_iff ht]
  rfl

theorem syncBranch_follows (ht : TrustTable ctx) (nodes : List Node) :
    Follows ((if (!(ctx.refreshed signed env).args.daemon ||
          (ctx.status signed env).passed) = true then
        Context.syncNodes signed.sender env.observed 0 nodes (ctx.refreshed signed env)
      else ctx.refreshed signed env).Marked id)
      (ctx.Marked id) fun m =>
        ((ctx.args.daemon = false ∨ Passed ctx signed env) ∧
          ∃ node ∈ nodes, considered ctx.me.nodeId id node = true ∧
            Outdates ctx signed env id node.lastHeartbeat) ∧ false = m := by
  have hgate : (!(ctx.refreshed signed env).args.daemon || (ctx.status signed env).passed) = true ↔
      ctx.args.daemon = false ∨ Passed ctx signed env := by
    rw [refreshed_args, Bool.or_eq_true, Bool.not_eq_true', status_passed]
  apply Follows.guarded
  · intro hopen
    rw [if_pos (hgate.mpr hopen)]
    refine (syncNodes_follows signed.sender env.observed 0 nodes).congr (marked_refreshed ht id)
      fun m => and_congr_left fun _ => ?_
    simp only [ListsNewer, refreshed_me, outdates_iff ht]
  · intro hshut
    rw [if_neg fun h => hshut (hgate.mp h)]
    exact marked_refreshed ht id

theorem receive_follows {d : Daemon} (ht : TrustTable d.ctx) (signed : SignedMessage)
    (env : Readings) (id : EndpointId) :
    Follows ((d.ctx.receive signed env).1.Marked id) (d.ctx.Marked id)
      fun m => SetsMark codecs d id m (.received (some signed) env) := by
  rw [receive_eq]
  simp only [SetsMark]
  cases hmsg : signed.message with
  | invited topic rnum addr aliasName services invitor =>
    rw [invited_ctx, status_fresh, refreshed_ticket]
    apply Follows.guarded
    · intro haccepted
      rw [if_pos haccepted]
      exact announceNode_follows ht addr aliasName services invitor
    · intro hnot
      rw [if_neg hnot]
      exact marked_refreshed ht id
  | aboutMe addr aliasName services invitor =>
    rw [aboutMe_ctx]
    apply Follows.guarded
    · intro hpassed
      rw [if_pos (status_passed.mpr hpassed)]
      exact announceNode_follows ht addr aliasName services invitor
    · intro hnot
      rw [if_neg fun h => hnot (status_passed.mp h)]
      exact marked_refreshed ht id
  | left =>
    rw [left_ctx]
    apply Follows.of_cond
    · rintro ⟨hpassed, rfl⟩
      rw [if_pos (status_passed.mpr hpassed)]
      simp [Context.Marked]
    · intro hnot
      refine Iff.trans ?_ (@marked_refreshed _ signed env ht id)
      split
      · rename_i hpassed
        refine marked_congr ?_
        have hne : signed.sender ≠ id := fun h => hnot ⟨status_passed.mp hpassed, h⟩
        simp [ExtTreeMap.getElem?_erase, hne]
      · rfl
  | syncRequest nodes =>
    rw [syncRequest_ctx]
    exact syncBranch_follows ht nodes
  | syncResponse nodes =>
    rw [syncResponse_ctx]
    exact syncBranch_follows ht nodes
  | introduce invited => exact Follows.unset (marked_refreshed ht id) fun _ h => h
  | heartbeat => exact Follows.unset (marked_refreshed ht id) fun _ h => h

theorem cleanup_follows {d : Daemon} (hkeyed : NodesKeyed d.ctx) (now : Nat) (iter : IterOrder)
    (id : EndpointId) :
    Follows ((d.ctx.cleanup now iter).Marked id) (d.ctx.Marked id)
      fun m => SetsMark codecs d id m (.cleanup now iter) := by
  have hmarked : (d.ctx.cleanup now iter).Marked id ↔ ∃ node, d.ctx.nodes[id]? = some node ∧
      isDaemonNode node = false ∧ ¬ Outranked (d.ctx.nodesSnapshot now iter) node := by
    simp only [Context.Marked, getElem?_cleanup hkeyed]
    refine exists_congr fun node => ?_
    constructor
    · rintro ⟨⟨hn, -, hrank⟩, hd⟩
      exact ⟨hn, hd, hrank⟩
    · rintro ⟨hn, hd, hrank⟩
      exact ⟨⟨hn, fun h => by simp [hd] at h, hrank⟩, hd⟩
  apply Follows.of_cond
  · rintro ⟨node, hn, hd, hrank⟩
    rw [hmarked]
    simp [hn, hrank]
  · intro hnot
    rw [hmarked]
    constructor
    · rintro ⟨node, hn, hd, -⟩
      exact ⟨node, hn, hd⟩
    · rintro ⟨node, hn, hd⟩
      exact ⟨node, hn, hd, fun hrank => hnot ⟨node, hn, hd, hrank⟩⟩

theorem handleAddNode_nodes (d : Daemon) (ticket : String) (env : CommandReadings) :
    (handleAddNode codecs d ticket env).2.clients = d.clients ∧
      (handleAddNode codecs d ticket env).2.ctx.nodes =
        match Ticket.fromStr codecs ticket with
        | .ok parsed =>
          if parsed.topic = d.ctx.ticket.topic then (d.ctx.admitNode parsed.invitor).nodes
          else d.ctx.nodes
        | .error _ => d.ctx.nodes := by
  unfold handleAddNode
  cases hparse : Ticket.fromStr codecs ticket with
  | error e => exact ⟨rfl, rfl⟩
  | ok parsed =>
    by_cases htopic : parsed.topic = d.ctx.ticket.topic
    · simp only [htopic, ne_eq, not_true_eq_false, if_false, if_true]
      split <;> exact ⟨rfl, rfl⟩
    · simp [htopic, respond]

theorem step_addNode (d : Daemon) (client : EndpointId) (ticket : String)
    (env : CommandReadings) :
    d.step codecs (.command client (.addNode ticket) env) =
      if d.clients.checkPermission client "add_node" then (handleAddNode codecs d ticket env).2
      else d := by
  simp only [Daemon.step, runCommand, handleCommand]
  split
  · rename_i hperm
    exact (if_pos hperm).symm
  · rename_i hperm
    exact (if_neg hperm).symm

theorem addNode_follows (d : Daemon) (client : EndpointId) (ticket : String)
    (env : CommandReadings) (id : EndpointId) :
    Follows ((d.step codecs (.command client (.addNode ticket) env)).ctx.Marked id)
      (d.ctx.Marked id)
      fun m => SetsMark codecs d id m (.command client (.addNode ticket) env) := by
  rw [step_addNode]
  simp only [SetsMark]
  have hadd := (@handleAddNode_nodes codecs d ticket env).2
  cases hparse : Ticket.fromStr codecs ticket with
  | error e =>
    rw [hparse] at hadd
    refine Follows.unset ?_ fun _ h => h
    split
    · exact marked_congr (by rw [hadd])
    · exact Iff.rfl
  | ok parsed =>
    rw [hparse] at hadd
    dsimp only at hadd ⊢
    apply Follows.of_cond
    · rintro ⟨hperm, htopic, rfl, hme⟩
      rw [if_pos htopic, admitNode_nodes _ _ hme] at hadd
      rw [if_pos hperm]
      exact marked_iff (by rw [hadd]; exact getElem?_insert_self _ _ _)
    · intro hnot
      split
      · rename_i hperm
        refine marked_congr ?_
        rw [hadd]
        split
        · rename_i htopic
          by_cases hme : parsed.invitor.nodeId = d.ctx.me.nodeId
          · rw [admitNode_self _ _ hme]
          · rw [admitNode_nodes _ _ hme]
            refine getElem?_insert_ne _ _ fun hid => hnot ⟨hperm, htopic, hid, ?_⟩
            rwa [← hid]
        · rfl
      · exact Iff.rfl

theorem withoutNode_agrees {d : Daemon} (h : RegistryAgrees d) (nodeId : EndpointId) :
    RegistryAgrees ⟨d.ctx.withoutNode nodeId, d.clients.removeClient nodeId⟩ := by
  intro id
  have hid := h id
  by_cases hne : nodeId = id
  · subst hne
    simp [ClientRegistry.isClientNode, ClientRegistry.removeClient, Context.withoutNode,
      Context.Marked]
  · simpa [ClientRegistry.isClientNode, ClientRegistry.removeClient, Context.withoutNode,
      Context.Marked, ExtTreeMap.getElem?_erase, hne] using hid

theorem removeNode_agrees {d : Daemon} (h : RegistryAgrees d) (text : String)
    (env : CommandReadings) : RegistryAgrees (handleRemoveNode codecs d text env).2 := by
  rcases @handleRemoveNode_cases codecs d text env with
    ⟨_, heq, -⟩ | ⟨nodeId, -, ⟨_, _, -, heq⟩ | ⟨_, -, heq⟩⟩
  · rw [heq]
    exact h
  · rw [heq]
    exact withoutNode_agrees h nodeId
  · rw [heq]
    exact withoutNode_agrees h nodeId

theorem authenticate_agrees {d : Daemon} (h : RegistryAgrees d) (authReq : AuthRequest)
    (mode : AuthMode) (env : AuthReadings) :
    RegistryAgrees (authenticateAndRegister codecs d authReq mode env).1 := by
  unfold authenticateAndRegister
  dsimp only
  split
  · exact h
  · cases clientKey codecs authReq with
    | none => exact h
    | some pk =>
      dsimp only
      split
      · exact h
      · intro id
        have hid := h id
        by_cases hne : pk = id
        · subst hne
          simp [ClientRegistry.isClientNode, ClientRegistry.addClient, Context.Marked,
            isDaemonNode_clientNode]
        · simpa [ClientRegistry.isClientNode, ClientRegistry.addClient, Context.Marked,
            getElem?_insert_ne _ _ hne, hne] using hid

end Events

/-- The event marks no id that is not registered and unmarks none that is. -/
def KeepsInStep (codecs : Codecs) (d : Daemon) (e : Event) : Prop :=
  ∀ id, ¬ SetsMark codecs d id (!d.clients.isClientNode id) e

theorem agrees_iff_of_follows {d d' : Daemon} {sets : EndpointId → Bool → Prop}
    (h : RegistryAgrees d) (hclients : d'.clients = d.clients)
    (hfollows : ∀ id, Follows (d'.ctx.Marked id) (d.ctx.Marked id) (sets id)) :
    RegistryAgrees d' ↔ ∀ id, ¬ sets id !d.clients.isClientNode id := by
  unfold RegistryAgrees
  rw [hclients]
  exact forall_congr' fun id => (hfollows id).agrees_iff (h id)

/-- One event breaks the agreement exactly if it marks or unmarks an id behind the
registry's back. -/
theorem step_agrees_iff {d : Daemon} (e : Event) (ht : TrustTable d.ctx) (h : RegistryAgrees d) :
    RegistryAgrees (d.step codecs e) ↔ KeepsInStep codecs d e := by
  have hquiet : ∀ d', d'.clients = d.clients → d'.ctx.nodes = d.ctx.nodes →
      (∀ id m, ¬ SetsMark codecs d id m e) → (RegistryAgrees d' ↔ KeepsInStep codecs d e) := by
    intro d' hclients hnodes hsets
    exact agrees_iff_of_follows h hclients fun id =>
      Follows.unset (marked_congr (by rw [hnodes])) (hsets id)
  cases e with
  | received signed env =>
    cases signed with
    | none => exact hquiet d rfl rfl fun _ _ hset => hset
    | some signed =>
      have hclients : (d.step codecs (.received (some signed) env)).clients = d.clients := rfl
      exact agrees_iff_of_follows h hclients (receive_follows ht signed env)
  | cleanup now iter =>
    have hclients : (d.step codecs (.cleanup now iter)).clients = d.clients := rfl
    exact agrees_iff_of_follows h hclients (cleanup_follows ht.nodesKeyed now iter)
  | save iter fault =>
    simp only [Daemon.step, Context.save]
    cases d.ctx.storage.batchSaveNodes _ fault with
    | error e => exact hquiet d rfl rfl fun _ _ hset => hset
    | ok storage => exact hquiet _ rfl rfl fun _ _ hset => hset
  | authenticate authReq mode env =>
    exact iff_of_true (authenticate_agrees h authReq mode env) fun _ hset => hset
  | command client cmd env =>
    cases cmd with
    | addNode ticket =>
      refine agrees_iff_of_follows h ?_ (addNode_follows d client ticket env)
      rw [step_addNode]
      split
      · exact (handleAddNode_nodes d ticket env).1
      · rfl
    | removeNode id =>
      refine iff_of_true ?_ fun _ hset => hset
      simp only [Daemon.step, runCommand, handleCommand]
      split
      · exact removeNode_agrees h id env
      · exact h
    | query | status | getTicket | pause | resume | shutdown =>
      refine hquiet _ ?_ ?_ fun _ _ hset => hset
      all_goals
        simp only [Daemon.step, runCommand, handleCommand, respond]
        split <;> rfl

def Start.TicketNamesClient (start : Start codecs) : Prop :=
  ∃ text ticket, start.args.ticket = some text ∧ Ticket.fromStr codecs text = .ok ticket ∧
    isDaemonNode ticket.invitor = false

theorem start_agrees_iff (start : Start codecs) :
    RegistryAgrees start.daemon ↔ ¬ start.TicketNamesClient := by
  obtain ⟨argTicket, hticket, -, -, hnodes, -⟩ := initNetwork_ok start.started
  have hagrees : RegistryAgrees start.daemon ↔ ∀ id, ¬ start.ctx.Marked id := by
    refine forall_congr' fun id => ?_
    simp [Start.daemon, ClientRegistry.new, ClientRegistry.isClientNode]
  rw [hagrees, ← not_exists, not_iff_not]
  constructor
  · rintro ⟨id, node, hn, hd⟩
    rw [hnodes] at hn
    rcases (startBootstrapNodes_cases hn).2 with hstored | hinv
    · rw [(mem_persistedDaemons.mp hstored).2.1] at hd
      contradiction
    · obtain ⟨text, ticket, htext, hparse, rfl⟩ := (parseArgTicket_invitor hticket).mp hinv
      exact ⟨text, ticket, htext, hparse, hd⟩
  · rintro ⟨text, ticket, htext, hparse, hd⟩
    have hinv := (parseArgTicket_invitor hticket).mpr ⟨text, ticket, htext, hparse, rfl⟩
    refine ⟨ticket.invitor.nodeId, ticket.invitor, ?_, hd⟩
    rw [hnodes, hinv]
    exact getElem?_insert_self _ _ _

/-- Registry and table agree throughout a run exactly if its start-up ticket names no client
and every event keeps them in step. -/
theorem registry_agrees_iff (start : Start codecs) (events : List Event) :
    (∀ before after, events = before ++ after →
      RegistryAgrees (start.daemon.run codecs before)) ↔
    ¬ start.TicketNamesClient ∧
      Runs.Along (Daemon.step codecs) (KeepsInStep codecs) start.daemon events := by
  rw [← start_agrees_iff start]
  exact Runs.always_iff_along (J := fun d : Daemon => TrustTable d.ctx) (TrustTable.step)
    (fun d e => step_agrees_iff e) (TrustTable.start start)

namespace Sample

def daveAsBob : AuthRequest :=
  ⟨"", some "J4EX/BRMcjQPZ9DyMW6Dhs7/vyskKMnFH+98WX8dQm4", some "bob"⟩

def daveAuthenticatesAsBob : Event :=
  .authenticate daveAsBob .allowLocalTicketless ⟨1000, 1000⟩

end Sample

/-- Bob's heartbeat makes him the newer bob; the cleanup drops the client's record and leaves
the client registered. -/
theorem registry_outlives_record :
    ¬ ∀ (start : Start Sample.codecs) (events : List Event),
      RegistryAgrees (start.daemon.run Sample.codecs events) := by
  intro hclaim
  have hregistered := hclaim (Sample.start [Sample.record Sample.bob "bob" [2] 950])
    [Sample.daveAuthenticatesAsBob, Sample.sends Sample.bob .heartbeat 1001,
      .cleanup 1002 .byId] Sample.dave
  obtain ⟨node, hnode, -⟩ := hregistered.mp (by decide)
  revert hnode
  have hnone : ((Sample.start [Sample.record Sample.bob "bob" [2] 950]).daemon.run Sample.codecs
      [Sample.daveAuthenticatesAsBob, Sample.sends Sample.bob .heartbeat 1001,
        .cleanup 1002 .byId]).ctx.nodes[Sample.dave]? = none := by decide
  rw [hnone]
  simp

end P2pDdns
