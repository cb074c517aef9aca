import P2pDdns.Changes

/-!
The relation between the two tables. Trusted records are daemons other than this
one, each under its own id, and every active daemon is trusted.
-/

set_option autoImplicit false

namespace P2pDdns
open Std FiniteMaps

def NodesKeyed (ctx : Context) : Prop :=
  ∀ (id : EndpointId) (node : Node), ctx.nodes[id]? = some node → node.nodeId = id

structure TrustTable (ctx : Context) : Prop where
  nodesKeyed : NodesKeyed ctx
  trustedKeyed : ∀ (id : EndpointId) (node : Node), ctx.trustedNodes[id]? = some node →
    node.nodeId = id
  trustedOthers : ctx.me.nodeId ∉ ctx.trustedNodes
  trustedDaemons : ∀ (id : EndpointId) (node : Node), ctx.trustedNodes[id]? = some node →
    isDaemonNode node = true
  daemonsTrusted : ∀ (id : EndpointId) (node : Node), ctx.nodes[id]? = some node →
    id ≠ ctx.me.nodeId → isDaemonNode node = true → id ∈ ctx.trustedNodes

theorem refreshed_nodes_ne {ctx : Context} {signed : SignedMessage} {env : Readings}
    (hkeyed : NodesKeyed ctx) {id : EndpointId} (hid : id ≠ signed.sender) :
    (ctx.refreshed signed env).nodes[id]? = ctx.nodes[id]? := by
  unfold Context.refreshed
  split
  · rw [refreshSender_eq]
    split
    · rfl
    · exact getElem?_insert_ne _ _ hid.symm
    · rename_i old sock hold _
      have hkey : old.nodeId = signed.sender := hkeyed _ _ hold
      rcases Context.upsertActiveNode_cases
        (ctx.refreshTrustedNode signed.sender (observedNode old signed.sender sock env.refreshNow))
        (observedNode old signed.sender sock env.refreshNow) with ⟨-, heq⟩ | ⟨-, heq⟩
      · rw [heq, Context.refreshTrustedNode_nodes]
      · rw [heq]
        dsimp only
        rw [Context.refreshTrustedNode_nodes]
        exact getElem?_insert_ne _ _ (by rw [observedNode, hkey]; exact hid.symm)
  · rfl

theorem refreshed_me (ctx : Context) (signed : SignedMessage) (env : Readings) :
    (ctx.refreshed signed env).me = ctx.me := by
  unfold Context.refreshed
  split
  · rw [refreshSender_eq]
    split <;> simp
  · rfl

namespace NodesKeyed
variable {ctx : Context}

theorem upsertActiveNode (h : NodesKeyed ctx) (node : Node) :
    NodesKeyed (ctx.upsertActiveNode node) := by
  rcases Context.upsertActiveNode_cases ctx node with ⟨-, heq⟩ | ⟨-, heq⟩
  · rw [heq]
    exact h
  · rw [heq]
    exact forall_insert h rfl

theorem of_nodes_eq {ctx' : Context} (h : NodesKeyed ctx) (heq : ctx'.nodes = ctx.nodes) :
    NodesKeyed ctx' := by
  intro a n hn
  rw [heq] at hn
  exact h a n hn

theorem refreshed (h : NodesKeyed ctx) (signed : SignedMessage) (env : Readings) :
    NodesKeyed (ctx.refreshed signed env) := by
  unfold Context.refreshed
  split
  · rw [refreshSender_eq]
    split
    · exact h
    · rename_i old hold _
      exact forall_insert h (h _ old hold)
    · exact (h.of_nodes_eq (Context.refreshTrustedNode_nodes _ _ _)).upsertActiveNode _
  · exact h

theorem syncNodes (h : NodesKeyed ctx) (sender : EndpointId) (observed : Nat → Option SocketAddr)
    (k : Nat) (nodes : List Node) : NodesKeyed (Context.syncNodes sender observed k nodes ctx) := by
  induction nodes generalizing k ctx with
  | nil => exact h
  | cons node nodes ih =>
    refine ih ?_ (k+1)
    rcases syncNode_cases ctx sender (observed k) node with ⟨heq, -⟩ | ⟨-, -, -, heq⟩
    · rw [heq]
      exact h
    · rw [heq]
      exact (h.of_nodes_eq (Context.trustDaemonNode_nodes ctx _)).upsertActiveNode _

end NodesKeyed

theorem isDaemonNode_addr (node : Node) (addr : EndpointAddr) :
    isDaemonNode { node with addr := addr } = isDaemonNode node := rfl

theorem isDaemonNode_mergeNode {existing : Option Node} {incoming : Node}
    (he : ∀ node, existing = some node → isDaemonNode node = true)
    (hi : isDaemonNode incoming = true) : isDaemonNode (mergeNode existing incoming).1 = true :=
  mergeNode_induct (P := fun node => isDaemonNode node = true)
    (fun node addr h => (isDaemonNode_addr node addr).trans h) he hi

theorem isDaemonNode_clientNode (codecs : Codecs) (me : Node) (pk : EndpointId)
    (authReq : AuthRequest) (now : Nat) :
    isDaemonNode (clientNode codecs me pk authReq now) = false := by
  simp [isDaemonNode, clientNode]

namespace TrustTable
variable {ctx : Context}

theorem insert_nodes (h : TrustTable ctx) {id : EndpointId} {node : Node}
    (hkey : node.nodeId = id)
    (htrusted : id ≠ ctx.me.nodeId → isDaemonNode node = true → id ∈ ctx.trustedNodes) :
    TrustTable { ctx with nodes := ctx.nodes.insert id node } where
  nodesKeyed := forall_insert h.nodesKeyed hkey
  trustedKeyed := h.trustedKeyed
  trustedOthers := h.trustedOthers
  trustedDaemons := h.trustedDaemons
  daemonsTrusted := forall_insert h.daemonsTrusted htrusted

theorem insert_trusted (h : TrustTable ctx) {id : EndpointId} {node : Node}
    (hkey : node.nodeId = id) (hme : id ≠ ctx.me.nodeId) (hd : isDaemonNode node = true) :
    TrustTable { ctx with trustedNodes := ctx.trustedNodes.insert id node } where
  nodesKeyed := h.nodesKeyed
  trustedKeyed := forall_insert h.trustedKeyed hkey
  trustedOthers := by
    have := h.trustedOthers
    simp [hme, this]
  trustedDaemons := forall_insert h.trustedDaemons hd
  daemonsTrusted a n hn hne hn' := by
    have := h.daemonsTrusted a n hn hne hn'
    simp [this]

theorem erase_nodes (h : TrustTable ctx) (id : EndpointId) :
    TrustTable { ctx with nodes := ctx.nodes.erase id } where
  nodesKeyed := forall_erase h.nodesKeyed id
  trustedKeyed := h.trustedKeyed
  trustedOthers := h.trustedOthers
  trustedDaemons := h.trustedDaemons
  daemonsTrusted := forall_erase h.daemonsTrusted id

theorem ne_me (h : TrustTable ctx) {id : EndpointId} (hid : id ∈ ctx.trustedNodes) :
    id ≠ ctx.me.nodeId := by
  rintro rfl
  exact h.trustedOthers hid

theorem trustedCopy_nodeId (h : TrustTable ctx) (node : Node) :
    (mergeNode ctx.trustedNodes[node.nodeId]? node).1.nodeId = node.nodeId :=
  mergeNode_nodeId fun old hold => h.trustedKeyed node.nodeId old hold

theorem trustDaemonNode (h : TrustTable ctx) (node : Node) :
    TrustTable (ctx.trustDaemonNode node) := by
  rcases Context.trustDaemonNode_cases ctx node with ⟨-, heq⟩ | ⟨hme, hd, heq⟩
  · rw [heq]
    exact h
  · have hid := h.trustedCopy_nodeId node
    rw [heq]
    refine h.insert_trusted rfl ?_ (isDaemonNode_mergeNode ?_ hd)
    · rw [hid]
      exact hme
    · exact fun old hold => h.trustedDaemons node.nodeId old hold

theorem mem_trustDaemonNode (h : TrustTable ctx) {node : Node} (hme : node.nodeId ≠ ctx.me.nodeId)
    (hd : isDaemonNode node = true) : node.nodeId ∈ (ctx.trustDaemonNode node).trustedNodes := by
  rcases Context.trustDaemonNode_cases ctx node with ⟨hor, -⟩ | ⟨-, -, heq⟩
  · rcases hor with hor | hor
    · exact absurd hor hme
    · rw [hd] at hor
      contradiction
  · rw [heq]
    simp [h.trustedCopy_nodeId node]

theorem upsertActiveNode (h : TrustTable ctx) {node : Node}
    (htrusted : node.nodeId ≠ ctx.me.nodeId → isDaemonNode node = true →
      node.nodeId ∈ ctx.trustedNodes) : TrustTable (ctx.upsertActiveNode node) := by
  rcases Context.upsertActiveNode_cases ctx node with ⟨-, heq⟩ | ⟨-, heq⟩
  · rw [heq]
    exact h
  · rw [heq]
    have hins := h.insert_nodes rfl htrusted
    exact ⟨hins.nodesKeyed, hins.trustedKeyed, hins.trustedOthers, hins.trustedDaemons,
      hins.daemonsTrusted⟩

theorem admitNode (h : TrustTable ctx) (node : Node) : TrustTable (ctx.admitNode node) := by
  refine (h.trustDaemonNode node).upsertActiveNode ?_
  intro hme hd
  rw [Context.trustDaemonNode_me] at hme
  exact h.mem_trustDaemonNode hme hd

theorem refreshTrustedNode (h : TrustTable ctx) {id : EndpointId} {node : Node}
    (hkey : node.nodeId = id) : TrustTable (ctx.refreshTrustedNode id node) := by
  rcases Context.refreshTrustedNode_cases ctx node id with heq | ⟨hid, hd, heq⟩
  · rw [heq]
    exact h
  · rw [heq]
    exact h.insert_trusted hkey (h.ne_me hid) hd

theorem mem_refreshTrustedNode {id a : EndpointId} {node : Node} (ha : a ∈ ctx.trustedNodes) :
    a ∈ (ctx.refreshTrustedNode id node).trustedNodes := by
  rcases Context.refreshTrustedNode_cases ctx node id with heq | ⟨-, -, heq⟩
  · rw [heq]
    exact ha
  · rw [heq]
    simp [ha]

theorem heard {start ctx' : Context} {signed : SignedMessage} {env : Readings}
    (hc : Heard start signed env ctx ctx') (h : TrustTable ctx) : TrustTable ctx' := by
  cases hc with
  | @touched old hpassed hold =>
    have hkey : old.nodeId = signed.sender := h.nodesKeyed _ _ hold
    exact h.insert_nodes hkey (h.daemonsTrusted signed.sender old hold)
  | @observed old sock hpassed hsock hold =>
    have hkey : (observedNode old signed.sender sock env.refreshNow).nodeId = signed.sender :=
      h.nodesKeyed signed.sender old hold
    refine (h.refreshTrustedNode hkey).upsertActiveNode ?_
    intro hme hd
    rw [hkey, Context.refreshTrustedNode_me] at hme
    rw [hkey]
    exact mem_refreshTrustedNode (h.daemonsTrusted signed.sender old hold hme hd)
  | announced _ => exact h.admitNode _
  | listed _ _ _ _ => exact h.admitNode _
  | left _ _ => exact h.erase_nodes _

theorem change {codecs : Codecs} {start d d' : Daemon} {e : Event}
    (hc : Change codecs start e d d') (h : TrustTable d.ctx) : TrustTable d'.ctx := by
  cases hc with
  | heard hheard => exact heard hheard h
  | expired => exact h.erase_nodes _
  | saved => exact ⟨h.nodesKeyed, h.trustedKeyed, h.trustedOthers, h.trustedDaemons, h.daemonsTrusted⟩
  | registered _ _ _ =>
    refine h.insert_nodes rfl ?_
    intro _ hd
    rw [isDaemonNode_clientNode] at hd
    contradiction
  | added _ _ _ => exact h.admitNode _
  | persisted =>
    exact ⟨h.nodesKeyed, h.trustedKeyed, h.trustedOthers, h.trustedDaemons, h.daemonsTrusted⟩
  | revoked _ _ _ =>
    -- The id leaves both tables, so no active daemon loses its trusted copy.
    refine ⟨?_, ?_, ?_, ?_, ?_⟩
    · exact forall_erase h.nodesKeyed _
    · exact forall_erase h.trustedKeyed _
    · have := h.trustedOthers
      simp [this]
    · exact forall_erase h.trustedDaemons _
    · intro a n hn hme hd
      obtain ⟨hne, hn⟩ := getElem?_erase_cases hn
      have := h.daemonsTrusted a n hn hme hd
      simp [hne, this]
  | paused =>
    exact ⟨h.nodesKeyed, h.trustedKeyed, h.trustedOthers, h.trustedDaemons, h.daemonsTrusted⟩

theorem changes {codecs : Codecs} {start d : Daemon} {e : Event}
    (hc : Relation.ReflTransGen (Change codecs start e) start d) (h : TrustTable start.ctx) :
    TrustTable d.ctx :=
  changes_induct (I := fun d : Daemon => TrustTable d.ctx) hc h fun _ _ _ hc => change hc

theorem step {codecs : Codecs} (d : Daemon) (e : Event) (h : TrustTable d.ctx) :
    TrustTable (d.step codecs e).ctx :=
  changes (step_changes codecs d e) h

theorem start {codecs : Codecs} (start : Start codecs) : TrustTable start.ctx := by
  obtain ⟨argTicket, -, -, -, hnodes, htrusted, -⟩ := initNetwork_ok start.started
  refine ⟨?_, ?_, ?_, ?_, ?_⟩
  · intro id node hn
    rw [hnodes] at hn
    exact (startBootstrapNodes_cases hn).1
  · intro id node hn
    rw [htrusted] at hn
    exact (startTrustedNodes_cases hn).1
  · intro hmem
    obtain ⟨node, hn⟩ := exists_getElem? hmem
    rw [htrusted] at hn
    obtain ⟨hid, -, hne, -⟩ := startTrustedNodes_cases hn
    exact hne hid
  · intro id node hn
    rw [htrusted] at hn
    exact (startTrustedNodes_cases hn).2.1
  · intro id node hn hme hd
    rw [hnodes] at hn
    obtain ⟨rfl, horigin⟩ := startBootstrapNodes_cases hn
    rw [htrusted]
    exact mem_startTrustedNodes hd hme horigin

theorem run {codecs : Codecs} (st : Start codecs) (events : List Event) :
    TrustTable (st.daemon.run codecs events).ctx :=
  Runs.invariant (I := fun d : Daemon => TrustTable d.ctx) step (start st) events

end TrustTable

/-! Only a removal takes an id out of the trusted table. -/

def Event.Removes (codecs : Codecs) (d : Daemon) (id : EndpointId) : Event → Prop
  | .command client (.removeNode text) env =>
    d.clients.checkPermission client "remove_node" = true ∧
      resolveNodeId codecs d text env.iter = .ok id
  | _ => False

section Trust
variable {codecs : Codecs} {id : EndpointId} {ctx ctx' : Context}

theorem mem_trusted_admitNode (node : Node) (h : id ∈ ctx.trustedNodes) :
    id ∈ (ctx.admitNode node).trustedNodes := by
  rw [Context.admitNode, Context.upsertActiveNode_trustedNodes]
  rcases Context.trustDaemonNode_cases ctx node with ⟨-, heq⟩ | ⟨-, -, heq⟩
  · rwa [heq]
  · rw [heq]
    exact ExtTreeMap.mem_insert.mpr (.inr h)

theorem Heard.keeps_trust {start : Context} {signed : SignedMessage} {env : Readings}
    (hc : Heard start signed env ctx ctx') (h : id ∈ ctx.trustedNodes) :
    id ∈ ctx'.trustedNodes := by
  cases hc with
  | touched _ _ => exact h
  | observed _ _ _ =>
    rw [Context.upsertActiveNode_trustedNodes]
    exact TrustTable.mem_refreshTrustedNode h
  | announced _ => exact mem_trusted_admitNode _ h
  | listed _ _ _ _ => exact mem_trusted_admitNode _ h
  | left _ _ => exact h

theorem receive_keeps_trust (signed : SignedMessage) (env : Readings) (h : id ∈ ctx.trustedNodes) :
    id ∈ (ctx.receive signed env).1.trustedNodes := by
  have hheard := receive_heard ctx signed env
  generalize (ctx.receive signed env).1 = ctx' at hheard
  induction hheard with
  | refl => exact h
  | tail _ hlast ih => exact hlast.keeps_trust ih

theorem Change.keeps_trust {start d d' : Daemon} {e : Event} (hc : Change codecs start e d d')
    (hkept : ¬ e.Removes codecs start id) (h : id ∈ d.ctx.trustedNodes) :
    id ∈ d'.ctx.trustedNodes := by
  cases hc with
  | heard hheard => exact hheard.keeps_trust h
  | added _ _ _ => exact mem_trusted_admitNode _ h
  | @revoked _ _ _ _ nodeId hperm hresolve _ =>
    rw [ExtTreeMap.mem_erase, ne_eq, LawfulEqOrd.compare_eq_iff_eq]
    exact ⟨fun heq => hkept ⟨hperm, heq ▸ hresolve⟩, h⟩
  | expired | saved | persisted | paused => exact h
  | registered _ _ _ => exact h

theorem step_keeps_trust {d : Daemon} {e : Event} (hkept : ¬ e.Removes codecs d id)
    (h : id ∈ d.ctx.trustedNodes) : id ∈ (d.step codecs e).ctx.trustedNodes :=
  changes_induct (I := fun u : Daemon => id ∈ u.ctx.trustedNodes) (step_changes codecs d e) h
    fun _ _ _ hc => hc.keeps_trust hkept

end Trust

theorem Reachable.trustTable {codecs : Codecs} {d : Daemon} (h : Reachable codecs d) :
    TrustTable d.ctx := by
  obtain ⟨start, events, rfl⟩ := h
  exact TrustTable.run start events

/-- In every reachable state the two tables fit together. -/
theorem trust_tables_agree {codecs : Codecs} {d : Daemon} (h : Reachable codecs d) :
    (∀ (id : EndpointId) (node : Node), d.ctx.trustedNodes[id]? = some node →
      node.nodeId = id ∧ id ≠ d.ctx.me.nodeId ∧ SERVICE_MARKER_CLIENT ∉ node.services) ∧
    (∀ (id : EndpointId) (node : Node), d.ctx.nodes[id]? = some node → id ≠ d.ctx.me.nodeId →
      SERVICE_MARKER_CLIENT ∉ node.services → id ∈ d.ctx.trustedNodes) := by
  have htable := h.trustTable
  constructor
  · intro id node hn
    refine ⟨htable.trustedKeyed id node hn, htable.ne_me (mem_of_getElem? hn), ?_⟩
    exact isDaemonNode_iff.mp (htable.trustedDaemons id node hn)
  · intro id node hn hme hd
    exact htable.daemonsTrusted id node hn hme (isDaemonNode_iff.mpr hd)

theorem trust_tables_agree_after_left :
    let d := (Sample.start [Sample.record Sample.bob "bob" [2] 900]).daemon.run Sample.codecs
      [Sample.sends Sample.bob (.syncRequest [Sample.record Sample.carol "carol" [3] 1000]) 1001,
        Sample.sends Sample.bob .left 1002]
    (∀ (id : EndpointId) (node : Node), d.ctx.trustedNodes[id]? = some node →
      node.nodeId = id ∧ id ≠ d.ctx.me.nodeId ∧ SERVICE_MARKER_CLIENT ∉ node.services) ∧
    (∀ (id : EndpointId) (node : Node), d.ctx.nodes[id]? = some node → id ≠ d.ctx.me.nodeId →
      SERVICE_MARKER_CLIENT ∉ node.services → id ∈ d.ctx.trustedNodes) :=
  trust_tables_agree ⟨_, _, rfl⟩

end P2pDdns
