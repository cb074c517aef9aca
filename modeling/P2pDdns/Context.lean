import P2pDdns.Merge
import P2pDdns.Storage

/-!
The tables of a running daemon and the operations that change them. Each
operation takes what it reads from the clock and from the endpoint as arguments.
-/

set_option autoImplicit false

namespace P2pDdns
open Std

def STALE_NODE_TTL_SECS : Nat := 90

structure DaemonArgs where
  daemon : Bool
  primary : Bool
  resetStorage : Bool
  domain : Option String
  ticket : Option String
  hostsSync : Bool
  hostsPath : Option String
  deriving DecidableEq

structure HostsSyncStatus where
  enabled : Bool
  path : Option String
  cleanupOnShutdown : Bool
  lastSuccess : Option Nat
  lastCleanup : Option Nat
  lastError : Option String
  deriving DecidableEq

/-- `staticProvider` lists the addresses handed to the static provider, oldest first,
each with the `node_id` of the record it was taken from. -/
structure Context where
  storage : Storage
  staticProvider : List (EndpointId × EndpointAddr)
  ticket : Ticket
  nodes : DashMap EndpointId Node
  trustedNodes : DashMap EndpointId Node
  me : Node
  args : DaemonArgs
  startedAt : Nat
  paused : Bool
  hostsSync : HostsSyncStatus
  deriving DecidableEq

structure VerifyStatus where
  trusted : Bool
  fresh : Bool
  deriving DecidableEq

def VerifyStatus.passed (status : VerifyStatus) : Bool := status.trusted && status.fresh

/-- `observed` is the peer address of a direct connection to `node_id`, if there is one. -/
def observedDirectAddr (nodeId : EndpointId) (observed : Option SocketAddr) :
    Option EndpointAddr :=
  observed.map fun addr => .fromParts nodeId [.ip addr]

def senderMessageAddr (nodeId : EndpointId) (addr : EndpointAddr)
    (observed : Option SocketAddr) : EndpointAddr :=
  let addr := if addr.id = nodeId then addr else .new nodeId
  (observedDirectAddr nodeId observed).getD addr

@[simp] theorem senderMessageAddr_id (nodeId : EndpointId) (addr : EndpointAddr)
    (observed : Option SocketAddr) : (senderMessageAddr nodeId addr observed).id = nodeId := by
  cases observed with
  | none =>
    simp only [senderMessageAddr, observedDirectAddr, Option.map_none, Option.getD_none]
    split
    · assumption
    · rfl
  | some sock => rfl

/-- A record without addresses is not handed to the static provider. -/
def feedAddr (node : Node) : List (EndpointId × EndpointAddr) :=
  if node.addr.isEmpty then [] else [(node.nodeId, node.addr)]

theorem eq_of_mem_feedAddr {fed : EndpointId × EndpointAddr} {node : Node}
    (h : fed ∈ feedAddr node) : fed = (node.nodeId, node.addr) := by
  unfold feedAddr at h
  split at h
  · contradiction
  · exact List.mem_singleton.mp h

namespace Context

def isNodeTrusted (ctx : Context) (id : EndpointId) : Bool := ctx.trustedNodes.contains id

def trustDaemonNode (ctx : Context) (node : Node) : Context :=
  if node.nodeId = ctx.me.nodeId ∨ isDaemonNode node = false then ctx
  else
    let existing := ctx.trustedNodes[node.nodeId]?
    let merged := (mergeNode existing node).1
    { ctx with trustedNodes := ctx.trustedNodes.insert merged.nodeId merged }

def untrustNode (ctx : Context) (nodeId : EndpointId) : Context :=
  { ctx with trustedNodes := ctx.trustedNodes.erase nodeId }

def upsertActiveNode (ctx : Context) (node : Node) : Context :=
  if node.nodeId = ctx.me.nodeId then ctx
  else
    { ctx with
      staticProvider := ctx.staticProvider ++ feedAddr node
      nodes := ctx.nodes.insert node.nodeId node }

/-- The trusted copy of a refreshed record, kept only for an id that is trusted already. -/
def refreshTrustedNode (ctx : Context) (nodeId : EndpointId) (merged : Node) : Context :=
  if ctx.isNodeTrusted nodeId && isDaemonNode merged then
    { ctx with trustedNodes := ctx.trustedNodes.insert nodeId merged }
  else ctx

def refreshSenderObservedAddr (ctx : Context) (nodeId : EndpointId)
    (observed : Option SocketAddr) (now : Nat) : Context × Bool :=
  match observedDirectAddr nodeId observed with
  | none => (ctx, false)
  | some addr =>
    match ctx.nodes[nodeId]? with
    | none => (ctx, false)
    | some existing =>
      let merged := { existing with addr := addr, lastHeartbeat := now }
      ((ctx.refreshTrustedNode nodeId merged).upsertActiveNode merged, true)

def save (ctx : Context) (iter : IterOrder) (fault : Option String) : Except String Context :=
  let nodes := ((iter.walk ctx.trustedNodes).filter fun it =>
    it.1 ≠ ctx.me.nodeId && isDaemonNode it.2).map (·.2)
  (ctx.storage.batchSaveNodes nodes fault).map fun storage => { ctx with storage := storage }

def cleanup (ctx : Context) (now : Nat) (iter : IterOrder) : Context :=
  let staleNodeIds := (iter.walk ctx.nodes).filterMap fun (id, node) =>
    if node.services.contains SERVICE_MARKER_CLIENT then none
    else if now - node.lastHeartbeat > STALE_NODE_TTL_SECS then some id
    else none
  let active := FiniteMaps.eraseAll ctx.nodes staleNodeIds
  let nodesSnapshot := (iter.walk active).map (·.2)
  let nodesToRemove := idsToRemoveForDuplicateDomains nodesSnapshot
  { ctx with nodes := FiniteMaps.eraseAll active nodesToRemove }

/-! The effect of each operation on each table. -/

section Frame
variable (ctx : Context) (node : Node) (id : EndpointId)

theorem trustDaemonNode_cases :
    ((node.nodeId = ctx.me.nodeId ∨ isDaemonNode node = false) ∧ ctx.trustDaemonNode node = ctx) ∨
    (node.nodeId ≠ ctx.me.nodeId ∧ isDaemonNode node = true ∧
      ctx.trustDaemonNode node =
        { ctx with
          trustedNodes := ctx.trustedNodes.insert
            (mergeNode ctx.trustedNodes[node.nodeId]? node).1.nodeId
            (mergeNode ctx.trustedNodes[node.nodeId]? node).1 }) := by
  unfold trustDaemonNode
  split
  · rename_i h
    exact .inl ⟨h, rfl⟩
  · rename_i h
    rw [not_or, Bool.not_eq_false] at h
    exact .inr ⟨h.1, h.2, rfl⟩

theorem upsertActiveNode_cases :
    (node.nodeId = ctx.me.nodeId ∧ ctx.upsertActiveNode node = ctx) ∨
    (node.nodeId ≠ ctx.me.nodeId ∧
      ctx.upsertActiveNode node =
        { ctx with
          staticProvider := ctx.staticProvider ++ feedAddr node
          nodes := ctx.nodes.insert node.nodeId node }) := by
  unfold upsertActiveNode
  split
  · rename_i h
    exact .inl ⟨h, rfl⟩
  · rename_i h
    exact .inr ⟨h, rfl⟩

theorem refreshTrustedNode_cases :
    ctx.refreshTrustedNode id node = ctx ∨
    (id ∈ ctx.trustedNodes ∧ isDaemonNode node = true ∧
      ctx.refreshTrustedNode id node =
        { ctx with trustedNodes := ctx.trustedNodes.insert id node }) := by
  unfold refreshTrustedNode isNodeTrusted
  split
  · rename_i h
    rw [Bool.and_eq_true, ExtTreeMap.contains_iff_mem] at h
    exact .inr ⟨h.1, h.2, rfl⟩
  · exact .inl rfl

@[simp] theorem trustDaemonNode_me : (ctx.trustDaemonNode node).me = ctx.me := by
  rcases trustDaemonNode_cases ctx node with ⟨-, h⟩ | ⟨-, -, h⟩ <;> rw [h]

@[simp] theorem trustDaemonNode_nodes : (ctx.trustDaemonNode node).nodes = ctx.nodes := by
  rcases trustDaemonNode_cases ctx node with ⟨-, h⟩ | ⟨-, -, h⟩ <;> rw [h]

@[simp] theorem trustDaemonNode_args : (ctx.trustDaemonNode node).args = ctx.args := by
  rcases trustDaemonNode_cases ctx node with ⟨-, h⟩ | ⟨-, -, h⟩ <;> rw [h]

@[simp] theorem trustDaemonNode_ticket : (ctx.trustDaemonNode node).ticket = ctx.ticket := by
  rcases trustDaemonNode_cases ctx node with ⟨-, h⟩ | ⟨-, -, h⟩ <;> rw [h]

@[simp] theorem trustDaemonNode_storage : (ctx.trustDaemonNode node).storage = ctx.storage := by
  rcases trustDaemonNode_cases ctx node with ⟨-, h⟩ | ⟨-, -, h⟩ <;> rw [h]

@[simp] theorem trustDaemonNode_paused : (ctx.trustDaemonNode node).paused = ctx.paused := by
  rcases trustDaemonNode_cases ctx node with ⟨-, h⟩ | ⟨-, -, h⟩ <;> rw [h]

@[simp] theorem upsertActiveNode_me : (ctx.upsertActiveNode node).me = ctx.me := by
  rcases upsertActiveNode_cases ctx node with ⟨-, h⟩ | ⟨-, h⟩ <;> rw [h]

@[simp] theorem upsertActiveNode_trustedNodes :
    (ctx.upsertActiveNode node).trustedNodes = ctx.trustedNodes := by
  rcases upsertActiveNode_cases ctx node with ⟨-, h⟩ | ⟨-, h⟩ <;> rw [h]

@[simp] theorem upsertActiveNode_args : (ctx.upsertActiveNode node).args = ctx.args := by
  rcases upsertActiveNode_cases ctx node with ⟨-, h⟩ | ⟨-, h⟩ <;> rw [h]

@[simp] theorem upsertActiveNode_ticket : (ctx.upsertActiveNode node).ticket = ctx.ticket := by
  rcases upsertActiveNode_cases ctx node with ⟨-, h⟩ | ⟨-, h⟩ <;> rw [h]

@[simp] theorem upsertActiveNode_storage : (ctx.upsertActiveNode node).storage = ctx.storage := by
  rcases upsertActiveNode_cases ctx node with ⟨-, h⟩ | ⟨-, h⟩ <;> rw [h]

@[simp] theorem upsertActiveNode_paused : (ctx.upsertActiveNode node).paused = ctx.paused := by
  rcases upsertActiveNode_cases ctx node with ⟨-, h⟩ | ⟨-, h⟩ <;> rw [h]

@[simp] theorem refreshTrustedNode_me : (ctx.refreshTrustedNode id node).me = ctx.me := by
  rcases refreshTrustedNode_cases ctx node id with h | ⟨-, -, h⟩ <;> rw [h]

@[simp] theorem refreshTrustedNode_nodes : (ctx.refreshTrustedNode id node).nodes = ctx.nodes := by
  rcases refreshTrustedNode_cases ctx node id with h | ⟨-, -, h⟩ <;> rw [h]

@[simp] theorem refreshTrustedNode_args : (ctx.refreshTrustedNode id node).args = ctx.args := by
  rcases refreshTrustedNode_cases ctx node id with h | ⟨-, -, h⟩ <;> rw [h]

@[simp] theorem refreshTrustedNode_ticket :
    (ctx.refreshTrustedNode id node).ticket = ctx.ticket := by
  rcases refreshTrustedNode_cases ctx node id with h | ⟨-, -, h⟩ <;> rw [h]

@[simp] theorem refreshTrustedNode_storage :
    (ctx.refreshTrustedNode id node).storage = ctx.storage := by
  rcases refreshTrustedNode_cases ctx node id with h | ⟨-, -, h⟩ <;> rw [h]

end Frame
end Context
end P2pDdns
