import P2pDdns.Daemon
import P2pDdns.Interleaving

/-!
The event loop and the admin tasks as they run beside each other: the same functions
as in `Context`, written as programs whose operations are single accesses to a shared
table and single storage transactions.
-/

set_option autoImplicit false

namespace P2pDdns
open Std Interleaving

/-- One access to a table, or one storage transaction. -/
inductive Op where
  | getNode (id : EndpointId)
  | touchNode (id : EndpointId) (now : Nat)
  | insertNode (id : EndpointId) (node : Node)
  | removeNode (id : EndpointId)
  | nodeIds
  | checkTrusted (id : EndpointId)
  | getTrusted (id : EndpointId)
  | insertTrusted (id : EndpointId) (node : Node)
  | removeTrusted (id : EndpointId)
  | trustedIds
  | addEndpointInfo (node : Node)
  | removeClient (id : EndpointId)
  | saveNodes (nodes : List Node) (fault : Option String)
  | removeStored (id : EndpointId) (fault : Option String)
  deriving DecidableEq

def Daemon.setNodes (d : Daemon) (nodes : DashMap EndpointId Node) : Daemon :=
  { d with ctx := { d.ctx with nodes := nodes } }

def Daemon.setTrustedNodes (d : Daemon) (nodes : DashMap EndpointId Node) : Daemon :=
  { d with ctx := { d.ctx with trustedNodes := nodes } }

/-- The outcome of a transaction: a failed one leaves the database as it was. -/
def Daemon.setStorage (d : Daemon) (written : Except String Storage) : Daemon :=
  match written with
  | .ok storage => { d with ctx := { d.ctx with storage := storage } }
  | .error _ => d

def Op.apply (op : Op) (d : Daemon) : Daemon :=
  match op with
  | .touchNode id now =>
    match d.ctx.nodes[id]? with
    | some node => d.setNodes (d.ctx.nodes.insert id { node with lastHeartbeat := now })
    | none => d
  | .insertNode id node => d.setNodes (d.ctx.nodes.insert id node)
  | .removeNode id => d.setNodes (d.ctx.nodes.erase id)
  | .insertTrusted id node => d.setTrustedNodes (d.ctx.trustedNodes.insert id node)
  | .removeTrusted id => d.setTrustedNodes (d.ctx.trustedNodes.erase id)
  | .addEndpointInfo node =>
    { d with ctx := { d.ctx with
        staticProvider := d.ctx.staticProvider ++ [(node.nodeId, node.addr)] } }
  | .removeClient id => { d with clients := d.clients.removeClient id }
  | .saveNodes nodes fault => d.setStorage (d.ctx.storage.batchSaveNodes nodes fault)
  | .removeStored id fault => d.setStorage (d.ctx.storage.removeNode id fault)
  | .getNode _ | .nodeIds | .checkTrusted _ | .getTrusted _ | .trustedIds => d

abbrev Task := Prog Daemon Op

structure Fixed where
  me : Node
  args : DaemonArgs
  ticket : Ticket

def Context.fixed (ctx : Context) : Fixed := ⟨ctx.me, ctx.args, ctx.ticket⟩

namespace Task

def getNode (id : EndpointId) : Task (Option Node) := .op (.getNode id) fun d => d.ctx.nodes[id]?

def getTrusted (id : EndpointId) : Task (Option Node) :=
  .op (.getTrusted id) fun d => d.ctx.trustedNodes[id]?

def isNodeTrusted (id : EndpointId) : Task Bool :=
  .op (.checkTrusted id) fun d => d.ctx.isNodeTrusted id

def untrustNode (id : EndpointId) : Task Unit := .exec (.removeTrusted id)

def addEndpointInfo (node : Node) : Task Unit :=
  if node.addr.isEmpty then pure () else .exec (.addEndpointInfo node)

/-- The entries an iteration comes to; one removed before its turn is passed over. -/
def collect (get : EndpointId → Task (Option Node)) :
    List EndpointId → Task (List (EndpointId × Node))
  | [] => pure []
  | id :: ids => do
    let found ← get id
    let rest ← collect get ids
    return (found.map (Prod.mk id)).toList ++ rest

def iterNodes (iter : IterOrder) : Task (List (EndpointId × Node)) := do
  let ids ← .op .nodeIds fun d => (iter.walk d.ctx.nodes).map (·.1)
  collect getNode ids

def iterTrusted (iter : IterOrder) : Task (List (EndpointId × Node)) := do
  let ids ← .op .trustedIds fun d => (iter.walk d.ctx.trustedNodes).map (·.1)
  collect getTrusted ids

def batchSaveNodes (nodes : List Node) (fault : Option String) : Task (Except String Unit) :=
  .op (.saveNodes nodes fault) fun d =>
    (d.ctx.storage.batchSaveNodes nodes fault).map fun _ => ()

def removeStored (id : EndpointId) (fault : Option String) : Task (Except String Unit) :=
  .op (.removeStored id fault) fun d => (d.ctx.storage.removeNode id fault).map fun _ => ()

section
variable (self : Fixed)

def trustDaemonNode (node : Node) : Task Unit :=
  if node.nodeId = self.me.nodeId ∨ isDaemonNode node = false then pure ()
  else do
    let existing ← getTrusted node.nodeId
    let merged := (mergeNode existing node).1
    .exec (.insertTrusted merged.nodeId merged)

def upsertActiveNode (node : Node) : Task Unit :=
  if node.nodeId = self.me.nodeId then pure ()
  else do
    addEndpointInfo node
    .exec (.insertNode node.nodeId node)

def refreshTrustedNode (nodeId : EndpointId) (merged : Node) : Task Unit := do
  let trusted ← isNodeTrusted nodeId
  if trusted && isDaemonNode merged then .exec (.insertTrusted nodeId merged) else pure ()

def refreshSenderObservedAddr (nodeId : EndpointId) (observed : Option SocketAddr) (now : Nat) :
    Task Bool :=
  match observedDirectAddr nodeId observed with
  | none => pure false
  | some addr => do
    let existing ← getNode nodeId
    match existing with
    | none => pure false
    | some existing => do
      let merged := { existing with addr := addr, lastHeartbeat := now }
      refreshTrustedNode nodeId merged
      upsertActiveNode self merged
      return true

def refreshSender (sender : EndpointId) (env : Readings) : Task Unit := do
  let refreshed ← refreshSenderObservedAddr self sender env.refreshObserved env.refreshNow
  if refreshed then pure () else .exec (.touchNode sender env.refreshNow)

def syncNode (sender : EndpointId) (observed : Option SocketAddr) (node : Node) : Task Unit :=
  if node.nodeId = self.me.nodeId ∨ isDaemonNode node = false then pure ()
  else do
    let node := listedNode sender observed node
    let existing ← getNode node.nodeId
    let shouldUpdate :=
      match existing with
      | none => true
      | some existing => existing.lastHeartbeat < node.lastHeartbeat
    if shouldUpdate then do
      let merged := (mergeNode existing node).1
      trustDaemonNode self merged
      upsertActiveNode self merged
    else pure ()

def syncNodes (sender : EndpointId) (observed : Nat → Option SocketAddr) :
    Nat → List Node → Task Unit
  | _, [] => pure ()
  | k, node :: nodes => do
    syncNode self sender (observed k) node
    syncNodes sender observed (k+1) nodes

def announceNode (sender : EndpointId) (addr : EndpointAddr) (aliasName : String)
    (services : ExtTreeMap String UInt32) (invitor : EndpointId) (env : Readings) : Task Unit := do
  let addr := senderMessageAddr sender addr (env.observed 0)
  let incoming : Node :=
    { nodeId := sender, invitor := invitor, addr := addr, domain := aliasName,
      services := services, lastHeartbeat := env.incomingNow }
  let existing ← getNode sender
  let node := (mergeNode existing incoming).1
  trustDaemonNode self node
  upsertActiveNode self node

def sendMessageTo (id : EndpointId) (message : Message) (env : Readings) : Task (List Outgoing) :=
  if id = self.me.nodeId then pure []
  else do
    let known ← getNode id
    let target :=
      match known with
      | some node => bestEndpointAddrForLocal node.addr env.dialAddr
      | none => .new id
    return [⟨target, message⟩]

def takeNodes (sender : EndpointId) (nodes : List Node) (passed : Bool) (env : Readings) :
    Task Unit :=
  if !self.args.daemon || passed then syncNodes self sender env.observed 0 nodes else pure ()

def answerSync (sender : EndpointId) (env : Readings) : Task (List Outgoing) :=
  if self.args.daemon then do
    let active ← iterNodes env.iter
    let me := { self.me with addr := env.ownAddr, lastHeartbeat := env.replyNow }
    let known := (active.map (·.2)).filter isDaemonNode ++ [me]
    sendMessageTo self sender (.syncResponse known) env
  else pure []

def dispatchMessage (sender : EndpointId) (message : Message) (status : VerifyStatus)
    (env : Readings) : Task (List Outgoing) :=
  let passed := status.passed
  match message with
  | .invited topic rnum addr aliasName services invitor =>
    if status.fresh = false then pure []
    else if self.ticket.validate topic rnum = false then pure []
    else do
      announceNode self sender addr aliasName services invitor env
      return []
  | .aboutMe addr aliasName services invitor =>
    if passed = false then pure []
    else do
      announceNode self sender addr aliasName services invitor env
      return []
  | .introduce _ => pure []
  | .heartbeat => pure []
  | .left =>
    if passed = false then pure []
    else do
      .exec (.removeNode sender)
      return []
  | .syncRequest nodes => do
    takeNodes self sender nodes passed env
    answerSync self sender env
  | .syncResponse nodes => do
    takeNodes self sender nodes passed env
    return []

def refreshPassed (sender : EndpointId) (status : VerifyStatus) (env : Readings) : Task Unit :=
  if status.passed then refreshSender self sender env else pure ()

def processMessage (sender : EndpointId) (message : Message) (status : VerifyStatus)
    (env : Readings) : Task (List Outgoing) := do
  refreshPassed self sender status env
  dispatchMessage self sender message status env

/-- `decode_and_verify`, then `process_message`. -/
def receive (signed : SignedMessage) (env : Readings) : Task (List Outgoing) := do
  let trusted ← isNodeTrusted signed.sender
  processMessage self signed.sender signed.message
    { trusted := trusted, fresh := signed.isFresh env.verifyNow } env

def save (iter : IterOrder) (fault : Option String) : Task (Except String Unit) := do
  let entries ← iterTrusted iter
  let nodes := (entries.filter fun it => it.1 ≠ self.me.nodeId && isDaemonNode it.2).map (·.2)
  batchSaveNodes nodes fault

end

def lookupDomain (nodeId : EndpointId) : Task (Option String) := do
  let active ← getNode nodeId
  match active with
  | some node => return some node.domain
  | none => do
    let trusted ← getTrusted nodeId
    return trusted.map (·.domain)

def removalOutcome (codecs : Codecs) (nodeId : EndpointId) (domain : Option String)
    (removed : Except String Unit) : CommandOutcome :=
  match removed with
  | .error e => { response := .error s!"Failed to remove from storage: {e}", action := none }
  | .ok _ =>
    let text := codecs.endpointIdToString nodeId
    let msg := match domain with
      | some name => s!"Node removed: {name} ({text})"
      | none => s!"Node removed: {text}"
    { response := .ack msg, action := none }

/-- `RemoveNode` once the id is resolved: the domain for the answer, then the four removals. -/
def removeNode (codecs : Codecs) (nodeId : EndpointId) (fault : Option String) :
    Task CommandOutcome := do
  let domain ← lookupDomain nodeId
  .exec (.removeClient nodeId)
  .exec (.removeNode nodeId)
  untrustNode nodeId
  let removed ← removeStored nodeId fault
  return removalOutcome codecs nodeId domain removed

end Task

end P2pDdns
