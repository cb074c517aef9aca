import P2pDdns.AntiEntropy

/-!
A passed sync message as a join: records and trust only come in, stamps only go up, and every
daemon that is listed is known afterwards at least as new as it is listed.
-/

set_option autoImplicit false

namespace P2pDdns
open Std Relation FiniteMaps NewestWins

/-- No id leaves a table, and records of others than the sender only get newer. -/
structure Grows (sender : EndpointId) (before after : Context) : Prop where
  nodes : ∀ id ∈ before.nodes, id ∈ after.nodes
  trusted : ∀ id ∈ before.trustedNodes, id ∈ after.trustedNodes
  newer : ∀ id ≠ sender, ∀ b, Covers Node.lastHeartbeat before.nodes[id]? b →
    Covers Node.lastHeartbeat after.nodes[id]? b

def Untouched (id : EndpointId) (before after : Context) : Prop :=
  after.nodes[id]? = before.nodes[id]? ∧ after.trustedNodes[id]? = before.trustedNodes[id]?

namespace Grows
variable {sender : EndpointId} {ctx ctx' ctx'' : Context}

theorem refl (sender : EndpointId) (ctx : Context) : Grows sender ctx ctx :=
  ⟨fun _ h => h, fun _ h => h, fun _ _ _ h => h⟩

theorem trans (h : Grows sender ctx ctx') (h' : Grows sender ctx' ctx'') :
    Grows sender ctx ctx'' where
  nodes id hid := h'.nodes id (h.nodes id hid)
  trusted id hid := h'.trusted id (h.trusted id hid)
  newer id hid b hb := h'.newer id hid b (h.newer id hid b hb)

end Grows

theorem Untouched.trans {id : EndpointId} {ctx ctx' ctx'' : Context} (h : Untouched id ctx ctx')
    (h' : Untouched id ctx' ctx'') : Untouched id ctx ctx'' :=
  ⟨h'.1.trans h.1, h'.2.trans h.2⟩

/-! The refresh of the sender. -/

section Refresh
variable {ctx : Context} {signed : SignedMessage} {env : Readings}

theorem refreshed_mem_nodes (hkeyed : NodesKeyed ctx) {id : EndpointId} (hid : id ∈ ctx.nodes) :
    id ∈ (ctx.refreshed signed env).nodes := by
  by_cases hsender : id = signed.sender
  · subst hsender
    obtain ⟨old, hold⟩ := exists_getElem? hid
    unfold Context.refreshed
    split
    · rw [refreshSender_eq, hold]
      cases env.refreshObserved with
      | none => simp
      | some sock =>
        dsimp only
        generalize observedNode old signed.sender sock env.refreshNow = node
        obtain ⟨-, heq⟩ | ⟨-, heq⟩ :=
          Context.upsertActiveNode_cases (ctx.refreshTrustedNode signed.sender node) node
        · simp [heq, hid]
        · simp [heq, hid]
    · exact hid
  · rw [ExtTreeMap.mem_iff_isSome_getElem?, refreshed_nodes_ne hkeyed hsender,
      ← ExtTreeMap.mem_iff_isSome_getElem?]
    exact hid

theorem refreshed_trusted (ctx : Context) (signed : SignedMessage) (env : Readings) :
    (ctx.refreshed signed env).trustedNodes = ctx.trustedNodes ∨
    ∃ node, signed.sender ∈ ctx.trustedNodes ∧
      (ctx.refreshed signed env).trustedNodes = ctx.trustedNodes.insert signed.sender node := by
  unfold Context.refreshed
  split
  · rw [refreshSender_eq]
    split
    · exact .inl rfl
    · exact .inl rfl
    · rename_i old sock _ _
      rw [Context.upsertActiveNode_trustedNodes]
      rcases Context.refreshTrustedNode_cases ctx
        (observedNode old signed.sender sock env.refreshNow) signed.sender with heq | ⟨hid, -, heq⟩
      · rw [heq]
        exact .inl rfl
      · rw [heq]
        exact .inr ⟨_, hid, rfl⟩
  · exact .inl rfl

theorem refreshed_grows (hkeyed : NodesKeyed ctx) (signed : SignedMessage) (env : Readings) :
    Grows signed.sender ctx (ctx.refreshed signed env) where
  nodes _ hid := refreshed_mem_nodes hkeyed hid
  trusted id hid := by
    rcases refreshed_trusted ctx signed env with heq | ⟨node, -, heq⟩
    · rwa [heq]
    · rw [heq]
      simp [hid]
  newer id hid b hb := by rwa [refreshed_nodes_ne hkeyed hid]

theorem refreshed_untouched (hkeyed : NodesKeyed ctx) {id : EndpointId} (hid : id ≠ signed.sender) :
    Untouched id ctx (ctx.refreshed signed env) := by
  refine ⟨refreshed_nodes_ne hkeyed hid, ?_⟩
  rcases refreshed_trusted ctx signed env with heq | ⟨node, -, heq⟩
  · rw [heq]
  · rw [heq]
    exact getElem?_insert_ne _ _ hid.symm

theorem TrustTable.heardOf {ctx' : Context} (h : TrustTable ctx)
    (hheard : ReflTransGen (Heard ctx signed env) ctx ctx') : TrustTable ctx' := by
  induction hheard with
  | refl => exact h
  | tail _ hlast ih => exact TrustTable.heard hlast ih

theorem TrustTable.refreshed (h : TrustTable ctx) (signed : SignedMessage) (env : Readings) :
    TrustTable (ctx.refreshed signed env) :=
  h.heardOf (refreshed_heard ctx signed env)

theorem TrustTable.receive (h : TrustTable ctx) (signed : SignedMessage) (env : Readings) :
    TrustTable (ctx.receive signed env).1 :=
  h.heardOf (receive_heard ctx signed env)

end Refresh

/-! The sync loop: one record, then the list. -/

section Loop
variable {ctx : Context} {sender : EndpointId} {observed : Nat → Option SocketAddr} {node : Node}
  {nodes : List Node}

theorem syncNode_admits (ctx : Context) (sender : EndpointId) (observed : Option SocketAddr)
    (node : Node) :
    ctx.syncNode sender observed node = ctx ∨
    ∃ merged : Node, merged.nodeId = node.nodeId ∧
      ctx.syncNode sender observed node = ctx.admitNode merged := by
  rcases syncNode_cases ctx sender observed node with ⟨heq, -⟩ | ⟨-, -, hbeats, heq⟩
  · exact .inl heq
  · have hlisted : Beats Node.lastHeartbeat ctx.nodes[node.nodeId]?
        (listedNode sender observed node) := by
      intro old hold
      rw [listedNode_lastHeartbeat]
      exact hbeats old hold
    have hid := (mergeNode_beats hlisted).2
    rw [listedNode_nodeId] at hid
    exact .inr ⟨_, hid, heq⟩

theorem TrustTable.admitNode_trusted (h : TrustTable ctx) (node : Node) :
    (ctx.admitNode node).trustedNodes = ctx.trustedNodes ∨
    ∃ copy, (ctx.admitNode node).trustedNodes = ctx.trustedNodes.insert node.nodeId copy := by
  rw [Context.admitNode, Context.upsertActiveNode_trustedNodes]
  rcases Context.trustDaemonNode_cases ctx node with ⟨-, heq⟩ | ⟨-, -, heq⟩
  · rw [heq]
    exact .inl rfl
  · rw [heq]
    dsimp only
    rw [h.trustedCopy_nodeId]
    exact .inr ⟨_, rfl⟩

theorem TrustTable.syncNode_trusted (h : TrustTable ctx) (sender : EndpointId)
    (observed : Option SocketAddr) (node : Node) :
    (ctx.syncNode sender observed node).trustedNodes = ctx.trustedNodes ∨
    ∃ copy, (ctx.syncNode sender observed node).trustedNodes =
      ctx.trustedNodes.insert node.nodeId copy := by
  rcases syncNode_admits ctx sender observed node with heq | ⟨merged, hid, heq⟩
  · exact .inl (by rw [heq])
  · rw [heq, ← hid]
    exact h.admitNode_trusted merged

theorem TrustTable.syncNode (h : TrustTable ctx) (sender : EndpointId)
    (observed : Option SocketAddr) (node : Node) :
    TrustTable (ctx.syncNode sender observed node) := by
  rcases syncNode_admits ctx sender observed node with heq | ⟨merged, -, heq⟩
  · rwa [heq]
  · rw [heq]
    exact h.admitNode merged

theorem TrustTable.syncNode_grows (h : TrustTable ctx) (sender : EndpointId)
    (observed : Option SocketAddr) (node : Node) :
    Grows sender ctx (ctx.syncNode sender observed node) where
  nodes id hid := by
    obtain ⟨old, hold⟩ := exists_getElem? hid
    obtain ⟨new, hnew, -⟩ :=
      syncNode_covers ctx sender id observed node ⟨old, hold, Nat.le_refl old.lastHeartbeat⟩
    exact mem_of_getElem? hnew
  trusted id hid := by
    rcases h.syncNode_trusted sender observed node with heq | ⟨copy, heq⟩
    · rwa [heq]
    · rw [heq]
      simp [hid]
  newer id _ _ hb := syncNode_covers ctx sender id observed node hb

theorem TrustTable.syncNode_others (h : TrustTable ctx) (sender : EndpointId)
    (observed : Option SocketAddr) {id : EndpointId} (hid : node.nodeId ≠ id) :
    Untouched id ctx (ctx.syncNode sender observed node) := by
  constructor
  · rw [getElem?_syncNode, if_neg (by simp [considered, hid])]
  · rcases h.syncNode_trusted sender observed node with heq | ⟨copy, heq⟩
    · rw [heq]
    · rw [heq]
      exact getElem?_insert_ne _ _ hid

theorem syncNodes_covers (k : Nat) {id : EndpointId} {b : Nat}
    (h : Covers Node.lastHeartbeat ctx.nodes[id]? b) :
    Covers Node.lastHeartbeat (Context.syncNodes sender observed k nodes ctx).nodes[id]? b := by
  induction nodes generalizing k ctx with
  | nil => exact h
  | cons node nodes ih => exact ih (k+1) (syncNode_covers ctx sender id (observed k) node h)

theorem syncNodes_covers_listed (k : Nat) (hnode : node ∈ nodes)
    (hme : node.nodeId ≠ ctx.me.nodeId) (hd : isDaemonNode node = true) :
    Covers Node.lastHeartbeat (Context.syncNodes sender observed k nodes ctx).nodes[node.nodeId]?
      node.lastHeartbeat := by
  induction nodes generalizing k ctx with
  | nil => exact absurd hnode List.not_mem_nil
  | cons first nodes ih =>
    rcases List.mem_cons.mp hnode with rfl | hlater
    · exact syncNodes_covers (k+1) (syncNode_covers_self ctx sender (observed k) hme hd)
    · exact ih (k+1) hlater (by rwa [syncNode_me])

theorem TrustTable.syncNodes_grows (h : TrustTable ctx) (k : Nat) :
    Grows sender ctx (Context.syncNodes sender observed k nodes ctx) := by
  induction nodes generalizing k ctx with
  | nil => exact .refl sender ctx
  | cons node nodes ih =>
    have hfirst := h.syncNode_grows sender (observed k) node
    exact hfirst.trans (ih (h.syncNode sender (observed k) node) (k+1))

theorem TrustTable.syncNodes_others (h : TrustTable ctx) (k : Nat) {id : EndpointId}
    (hid : ∀ node ∈ nodes, node.nodeId ≠ id) :
    Untouched id ctx (Context.syncNodes sender observed k nodes ctx) := by
  induction nodes generalizing k ctx with
  | nil => exact ⟨rfl, rfl⟩
  | cons node nodes ih =>
    obtain ⟨hnode, hothers⟩ := List.forall_mem_cons.mp hid
    have hfirst := h.syncNode_others sender (observed k) hnode
    exact hfirst.trans (ih (h.syncNode sender (observed k) node) (k+1) hothers)

end Loop

/-! The message. -/

structure Joined (sender : EndpointId) (nodes : List Node) (before after : Context) : Prop where
  nodesKept : ∀ id ∈ before.nodes, id ∈ after.nodes
  trustedKept : ∀ id ∈ before.trustedNodes, id ∈ after.trustedNodes
  newer : ∀ id ≠ sender, ∀ old, before.nodes[id]? = some old →
    ∃ new, after.nodes[id]? = some new ∧ old.lastHeartbeat ≤ new.lastHeartbeat
  others : ∀ id ≠ sender, (∀ node ∈ nodes, node.nodeId ≠ id) →
    after.nodes[id]? = before.nodes[id]? ∧ after.trustedNodes[id]? = before.trustedNodes[id]?
  listed : ∀ node ∈ nodes, SERVICE_MARKER_CLIENT ∉ node.services →
    node.nodeId ≠ before.me.nodeId →
    ∃ new, after.nodes[node.nodeId]? = some new ∧ node.lastHeartbeat ≤ new.lastHeartbeat ∧
      (SERVICE_MARKER_CLIENT ∉ new.services → node.nodeId ∈ after.trustedNodes)

/-- A passed sync message is a monotone join of the records it lists. -/
theorem sync_joins {codecs : Codecs} {d : Daemon} (hd : Reachable codecs d)
    {signed : SignedMessage} {env : Readings} {nodes : List Node}
    (hpassed : Passed d.ctx signed env) (hsync : Syncs signed nodes) :
    Joined signed.sender nodes d.ctx (d.ctx.receive signed env).1 := by
  have htable := hd.trustTable
  have hafter := htable.receive signed env
  have hreceive : (d.ctx.receive signed env).1 =
      Context.syncNodes signed.sender env.observed 0 nodes (d.ctx.refreshed signed env) := by
    have heq := passed_sync d.ctx (m := (signed, env)) ⟨hpassed, nodes, hsync⟩
    rcases hsync with hmsg | hmsg <;> rwa [hmsg] at heq
  have hrefreshed := htable.refreshed signed env
  have hgrows : Grows signed.sender d.ctx (d.ctx.receive signed env).1 := by
    rw [hreceive]
    exact (refreshed_grows htable.nodesKeyed signed env).trans (hrefreshed.syncNodes_grows 0)
  refine ⟨hgrows.nodes, hgrows.trusted, ?_, ?_, ?_⟩
  · intro id hid old hold
    exact hgrows.newer id hid old.lastHeartbeat ⟨old, hold, Nat.le_refl _⟩
  · intro id hid hnodes
    rw [hreceive]
    exact (refreshed_untouched htable.nodesKeyed hid).trans (hrefreshed.syncNodes_others 0 hnodes)
  · intro node hnode hmark hme
    have hcovers : Covers Node.lastHeartbeat (d.ctx.receive signed env).1.nodes[node.nodeId]?
        node.lastHeartbeat := by
      rw [hreceive]
      exact syncNodes_covers_listed 0 hnode (by rwa [refreshed_me]) (isDaemonNode_iff.mpr hmark)
    obtain ⟨new, hnew, hle⟩ := hcovers
    refine ⟨new, hnew, hle, fun hmark' => ?_⟩
    have hme' : (d.ctx.receive signed env).1.me = d.ctx.me := by
      rw [hreceive, syncNodes_me, refreshed_me]
    exact hafter.daemonsTrusted node.nodeId new hnew (by rwa [hme']) (isDaemonNode_iff.mpr hmark')

namespace Sample

def daveMarked : Node :=
  { record dave "dave" [4] 1000 with
    services := (∅ : ExtTreeMap String UInt32).insert SERVICE_MARKER_CLIENT SERVICE_VALUE_CLIENT }

def bobLists : List Node :=
  [carolReachable, carolUnreachable, record alice "alice" [1] 1001, daveMarked,
    record bob "bob" [2] 950]

def bobSends : SignedMessage := ⟨bob, .syncResponse bobLists, 1001⟩

theorem bobSends_passed :
    Passed (start [record bob "bob" [2] 900]).daemon.ctx bobSends (readings 1001) :=
  ⟨by decide, by decide⟩

theorem sync_joins_duplicates :
    Joined bob bobLists (start [record bob "bob" [2] 900]).daemon.ctx
      ((start [record bob "bob" [2] 900]).daemon.ctx.receive bobSends (readings 1001)).1 :=
  sync_joins ⟨start [record bob "bob" [2] 900], [], rfl⟩ bobSends_passed (.inr rfl)

end Sample

end P2pDdns
