import P2pDdns.Alone
import P2pDdns.TrustTable

/-!
What the accesses of the event loop can do to the trusted table and to the database,
whatever runs beside it.
-/

set_option autoImplicit false

namespace P2pDdns
open Std FiniteMaps Interleaving

structure Keyed (d : Daemon) : Prop where
  nodes : NodesKeyed d.ctx
  trustedNodes : ∀ (id : EndpointId) (node : Node), d.ctx.trustedNodes[id]? = some node →
    node.nodeId = id

def Op.Files : Op → Prop
  | .insertNode id node => node.nodeId = id
  | .insertTrusted id node => node.nodeId = id
  | _ => True

/-- An access that leaves the database alone, untrusts nobody and trusts ids in `S` only. -/
def Op.Trusts (S : EndpointId → Prop) : Op → Prop
  | .insertTrusted id _ => S id
  | .removeTrusted _ => False
  | .saveNodes _ _ => False
  | .removeStored _ _ => False
  | _ => True

def Op.Admits (S : EndpointId → Prop) (op : Op) : Prop := op.Files ∧ op.Trusts S

@[simp] theorem setStorage_nodes (d : Daemon) (written : Except String Storage) :
    (d.setStorage written).ctx.nodes = d.ctx.nodes := by
  cases written <;> rfl

@[simp] theorem setStorage_trustedNodes (d : Daemon) (written : Except String Storage) :
    (d.setStorage written).ctx.trustedNodes = d.ctx.trustedNodes := by
  cases written <;> rfl

theorem Keyed.apply {d : Daemon} (h : Keyed d) {op : Op} (hop : op.Files) : Keyed (op.apply d) := by
  obtain ⟨hnodes, htrusted⟩ := h
  cases op with
  | touchNode id now =>
    cases hold : d.ctx.nodes[id]? with
    | none =>
      simp only [Op.apply, hold]
      exact ⟨hnodes, htrusted⟩
    | some old =>
      simp only [Op.apply, hold]
      exact ⟨forall_insert hnodes (hnodes id old hold), htrusted⟩
  | insertNode id node => exact ⟨forall_insert hnodes hop, htrusted⟩
  | removeNode id => exact ⟨forall_erase hnodes id, htrusted⟩
  | insertTrusted id node => exact ⟨hnodes, forall_insert htrusted hop⟩
  | removeTrusted id => exact ⟨hnodes, forall_erase htrusted id⟩
  | saveNodes nodes fault =>
    refine ⟨fun a n hn => hnodes a n ?_, fun a n hn => htrusted a n ?_⟩
    · simpa [Op.apply] using hn
    · simpa [Op.apply] using hn
  | removeStored id fault =>
    refine ⟨fun a n hn => hnodes a n ?_, fun a n hn => htrusted a n ?_⟩
    · simpa [Op.apply] using hn
    · simpa [Op.apply] using hn
  | addEndpointInfo _ | removeClient _ | getNode _ | nodeIds | checkTrusted _ | getTrusted _
  | trustedIds => exact ⟨hnodes, htrusted⟩

def Message.isInvited : Message → Bool
  | .invited .. => true
  | _ => false

section Tables
variable {d : Daemon} {op : Op} {id : EndpointId}

theorem mem_trustedNodes_apply (hop : op ≠ .removeTrusted id) :
    id ∈ (op.apply d).ctx.trustedNodes ↔
      id ∈ d.ctx.trustedNodes ∨ ∃ node, op = .insertTrusted id node := by
  cases op with
  | insertTrusted a node =>
    simp [Op.apply, Daemon.setTrustedNodes, or_comm]
  | removeTrusted a =>
    have hne : a ≠ id := by
      rintro rfl
      exact hop rfl
    simp [Op.apply, Daemon.setTrustedNodes, hne]
  | touchNode a now =>
    simp only [Op.apply]
    cases d.ctx.nodes[a]? <;> simp [Daemon.setNodes]
  | saveNodes nodes fault => simp [Op.apply]
  | removeStored a fault => simp [Op.apply]
  | insertNode _ _ | removeNode _ | addEndpointInfo _ | removeClient _ | getNode _ | nodeIds
  | checkTrusted _ | getTrusted _ | trustedIds => simp [Op.apply, Daemon.setNodes]

theorem mem_stored_apply (hop : ∀ fault, op ≠ .removeStored id fault) :
    id ∈ (op.apply d).ctx.storage.nodes ↔ id ∈ d.ctx.storage.nodes ∨
      ∃ nodes, op = .saveNodes nodes none ∧ ∃ node ∈ nodes, node.nodeId = id := by
  cases op with
  | saveNodes nodes fault =>
    cases fault with
    | none => simp [Op.apply, Daemon.setStorage, Storage.batchSaveNodes, Storage.transact,
        mem_insertAll]
    | some e => simp [Op.apply, Daemon.setStorage, Storage.batchSaveNodes, Storage.transact]
  | removeStored a fault =>
    have hne : a ≠ id := by
      rintro rfl
      exact hop fault rfl
    cases fault <;>
      simp [Op.apply, Daemon.setStorage, Storage.removeNode, Storage.transact, hne]
  | touchNode a now =>
    simp only [Op.apply]
    cases d.ctx.nodes[a]? <;> simp [Daemon.setNodes]
  | insertNode _ _ | removeNode _ | addEndpointInfo _ | removeClient _ | getNode _ | nodeIds
  | checkTrusted _ | getTrusted _ | trustedIds | insertTrusted _ _ | removeTrusted _ =>
    simp [Op.apply, Daemon.setNodes, Daemon.setTrustedNodes]

end Tables

namespace Task
variable {self : Fixed} {R : Op → Daemon → Prop} {S : EndpointId → Prop}

theorem collect_issues {G : Op → Prop} {P : EndpointId × Node → Prop}
    {get : EndpointId → Task (Option Node)}
    (hget : ∀ id, (get id).Issues R G fun found => ∀ node, found = some node → P (id, node))
    (ids : List EndpointId) : (collect get ids).Issues R G fun entries => ∀ e ∈ entries, P e := by
  induction ids with
  | nil => exact Prog.issues_pure (by simp)
  | cons id ids ih =>
    refine Prog.issues_bind (hget id) fun found hfound => Prog.issues_bind ih fun rest hrest => ?_
    refine Prog.issues_pure fun e he => ?_
    rcases List.mem_append.mp he with he | he
    · simp only [Option.mem_toList, Option.map_eq_some_iff] at he
      obtain ⟨node, hnode, rfl⟩ := he
      exact hfound node hnode
    · exact hrest e he

section Receive
variable (hkeyed : ∀ o d, R o d → Keyed d)

theorem addEndpointInfo_issues (node : Node) :
    (addEndpointInfo node).Issues R (·.Admits S) fun _ => True := by
  unfold addEndpointInfo
  split
  · exact Prog.issues_pure trivial
  · exact Prog.issues_exec ⟨trivial, trivial⟩ trivial

theorem upsertActiveNode_issues (node : Node) :
    (upsertActiveNode self node).Issues R (·.Admits S) fun _ => True := by
  unfold upsertActiveNode
  split
  · exact Prog.issues_pure trivial
  · exact Prog.issues_bind (addEndpointInfo_issues node)
      fun _ _ => Prog.issues_exec ⟨rfl, trivial⟩ trivial

include hkeyed

theorem getNode_issues (id : EndpointId) :
    (getNode id).Issues R (·.Admits S) fun found => ∀ node, found = some node → node.nodeId = id :=
  Prog.issues_op ⟨trivial, trivial⟩ fun d hd => (hkeyed _ d hd).nodes id

theorem getTrusted_issues (id : EndpointId) :
    (getTrusted id).Issues R (·.Admits S)
      fun found => ∀ node, found = some node → node.nodeId = id :=
  Prog.issues_op ⟨trivial, trivial⟩ fun d hd => (hkeyed _ d hd).trustedNodes id

theorem trustDaemonNode_issues {node : Node} (hS : S node.nodeId) :
    (trustDaemonNode self node).Issues R (·.Admits S) fun _ => True := by
  unfold trustDaemonNode
  split
  · exact Prog.issues_pure trivial
  · refine Prog.issues_bind (getTrusted_issues hkeyed node.nodeId) fun existing hexisting => ?_
    have hid : (mergeNode existing node).1.nodeId = node.nodeId := mergeNode_nodeId hexisting
    exact Prog.issues_exec ⟨rfl, by rw [Op.Trusts, hid]; exact hS⟩ trivial

theorem admitNode_issues {node : Node} (hS : S node.nodeId) :
    Prog.Issues R (·.Admits S) (fun _ => True)
      (do trustDaemonNode self node; upsertActiveNode self node : Task Unit) :=
  Prog.issues_bind (trustDaemonNode_issues hkeyed hS) fun _ _ => upsertActiveNode_issues node

theorem refreshSender_issues {sender : EndpointId} (hS : S sender) (env : Readings) :
    (refreshSender self sender env).Issues R (·.Admits S) fun _ => True := by
  have hobserved : (refreshSenderObservedAddr self sender env.refreshObserved
      env.refreshNow).Issues R (·.Admits S) fun _ => True := by
    unfold refreshSenderObservedAddr
    cases observedDirectAddr sender env.refreshObserved with
    | none => exact Prog.issues_pure trivial
    | some addr =>
      refine Prog.issues_bind (getNode_issues hkeyed sender) fun existing hexisting => ?_
      cases existing with
      | none => exact Prog.issues_pure trivial
      | some old =>
        refine Prog.issues_then ?_ fun _ =>
          Prog.issues_then (upsertActiveNode_issues _) fun _ => Prog.issues_pure trivial
        refine Prog.issues_then (Prog.issues_any ⟨trivial, trivial⟩) fun trusted => ?_
        split
        · exact Prog.issues_exec ⟨hexisting old rfl, hS⟩ trivial
        · exact Prog.issues_pure trivial
  refine Prog.issues_bind hobserved fun refreshed _ => ?_
  split
  · exact Prog.issues_pure trivial
  · exact Prog.issues_exec ⟨trivial, trivial⟩ trivial

theorem syncNodes_issues (sender : EndpointId) (observed : Nat → Option SocketAddr) (k : Nat)
    {nodes : List Node} (hS : ∀ node ∈ nodes, S node.nodeId) :
    (syncNodes self sender observed k nodes).Issues R (·.Admits S) fun _ => True := by
  induction nodes generalizing k with
  | nil => exact Prog.issues_pure trivial
  | cons node nodes ih =>
    have hrest := ih (k+1) fun n hn => hS n (List.mem_cons_of_mem node hn)
    refine Prog.issues_then ?_ fun _ => hrest
    unfold syncNode
    split
    · exact Prog.issues_pure trivial
    · refine Prog.issues_bind (getNode_issues hkeyed _) fun existing hexisting => ?_
      have hid : (mergeNode existing (listedNode sender (observed k) node)).1.nodeId =
          node.nodeId := (mergeNode_nodeId hexisting).trans (listedNode_nodeId _ _ _)
      have hadmit : Prog.Issues R (·.Admits S) (fun _ => True)
          (do
            trustDaemonNode self (mergeNode existing (listedNode sender (observed k) node)).1
            upsertActiveNode self (mergeNode existing (listedNode sender (observed k) node)).1 :
            Task Unit) := by
        refine admitNode_issues hkeyed ?_
        rw [hid]
        exact hS node List.mem_cons_self
      cases existing with
      | none => exact hadmit
      | some old =>
        dsimp only
        split
        · exact hadmit
        · exact Prog.issues_pure trivial

theorem announceNode_issues {sender : EndpointId} (hS : S sender) (addr : EndpointAddr)
    (aliasName : String) (services : ExtTreeMap String UInt32) (invitor : EndpointId)
    (env : Readings) :
    (announceNode self sender addr aliasName services invitor env).Issues R (·.Admits S)
      fun _ => True := by
  refine Prog.issues_bind (getNode_issues hkeyed sender) fun existing hexisting => ?_
  refine admitNode_issues hkeyed ?_
  rw [mergeNode_nodeId hexisting]
  exact hS

theorem answerSync_issues (sender : EndpointId) (env : Readings) :
    (answerSync self sender env).Issues R (·.Admits S) fun _ => True := by
  unfold answerSync
  split
  · refine Prog.issues_then ?_ fun active => ?_
    · refine Prog.issues_then (Prog.issues_any ⟨trivial, trivial⟩) fun ids => ?_
      have hids := collect_issues (P := fun e => e.2.nodeId = e.1)
        (getNode_issues (S := S) hkeyed) ids
      exact hids.weaken fun _ _ => trivial
    · unfold sendMessageTo
      split
      · exact Prog.issues_pure trivial
      · exact Prog.issues_bind (getNode_issues hkeyed sender) fun _ _ => Prog.issues_pure trivial
  · exact Prog.issues_pure trivial

theorem takeNodes_issues (sender : EndpointId) {nodes : List Node}
    (hS : ∀ node ∈ nodes, S node.nodeId) (passed : Bool) (env : Readings) :
    (takeNodes self sender nodes passed env).Issues R (·.Admits S) fun _ => True := by
  unfold takeNodes
  split
  · exact syncNodes_issues hkeyed sender env.observed 0 hS
  · exact Prog.issues_pure trivial

theorem processMessage_issues {sender : EndpointId} {message : Message} {status : VerifyStatus}
    (hpassed : status.passed = true → S sender) (hinvited : message.isInvited = true → S sender)
    (hlisted : ∀ node ∈ message.nodes, S node.nodeId) (env : Readings) :
    (processMessage self sender message status env).Issues R (·.Admits S) fun _ => True := by
  refine Prog.issues_then ?_ fun _ => ?_
  · unfold refreshPassed
    split
    · rename_i h
      exact refreshSender_issues hkeyed (hpassed h) env
    · exact Prog.issues_pure trivial
  · unfold dispatchMessage
    cases message with
    | invited topic rnum addr aliasName services invitor =>
      dsimp only
      split
      · exact Prog.issues_pure trivial
      · split
        · exact Prog.issues_pure trivial
        · exact Prog.issues_bind (announceNode_issues hkeyed (hinvited rfl) addr aliasName services
            invitor env) fun _ _ => Prog.issues_pure trivial
    | aboutMe addr aliasName services invitor =>
      dsimp only
      split
      · exact Prog.issues_pure trivial
      · rename_i h
        rw [Bool.not_eq_false] at h
        exact Prog.issues_bind (announceNode_issues hkeyed (hpassed h) addr aliasName services
          invitor env) fun _ _ => Prog.issues_pure trivial
    | introduce invited => exact Prog.issues_pure trivial
    | heartbeat => exact Prog.issues_pure trivial
    | left =>
      dsimp only
      split
      · exact Prog.issues_pure trivial
      · exact Prog.issues_then (Prog.issues_any ⟨trivial, trivial⟩)
          fun _ => Prog.issues_pure trivial
    | syncRequest nodes =>
      exact Prog.issues_bind (takeNodes_issues hkeyed sender hlisted status.passed env)
        fun _ _ => answerSync_issues hkeyed sender env
    | syncResponse nodes =>
      exact Prog.issues_bind (takeNodes_issues hkeyed sender hlisted status.passed env)
        fun _ _ => Prog.issues_pure trivial

/-- The sender counts if it can be found trusted when the message is verified. -/
theorem receive_issues {signed : SignedMessage}
    (htrusted : ∀ o d, R o d → signed.sender ∈ d.ctx.trustedNodes → S signed.sender)
    (hinvited : signed.message.isInvited = true → S signed.sender)
    (hlisted : ∀ node ∈ signed.message.nodes, S node.nodeId) (env : Readings) :
    (receive self signed env).Issues R (·.Admits S) fun _ => True := by
  refine Prog.issues_bind (Q := fun trusted => trusted = true → S signed.sender)
    (Prog.issues_op ⟨trivial, trivial⟩ ?_) fun trusted hsender => ?_
  · intro d hd h
    refine htrusted _ d hd ?_
    rwa [Context.isNodeTrusted, ExtTreeMap.contains_iff_mem] at h
  · refine processMessage_issues hkeyed ?_ hinvited hlisted env
    intro hpassed
    simp only [VerifyStatus.passed, Bool.and_eq_true] at hpassed
    exact hsender hpassed.1

end Receive
end Task
end P2pDdns
