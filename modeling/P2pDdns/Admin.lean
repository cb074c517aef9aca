import P2pDdns.Startup

/-!
The admin interface: authentication of clients, their registry, and the commands.
-/

set_option autoImplicit false

namespace P2pDdns
open Std

structure ClientPermissions where
  canQuery : Bool
  canAddNode : Bool
  canRemoveNode : Bool
  canControl : Bool
  deriving DecidableEq

structure ClientInfo where
  connectedAt : Nat
  ticketUsed : String
  clientName : Option String
  permissions : ClientPermissions
  deriving DecidableEq

structure ClientRegistry where
  clients : DashMap EndpointId ClientInfo
  deriving DecidableEq

namespace ClientRegistry

def new : ClientRegistry := ⟨∅⟩

def addClient (reg : ClientRegistry) (nodeId : EndpointId) (info : ClientInfo) : ClientRegistry :=
  ⟨reg.clients.insert nodeId info⟩

def removeClient (reg : ClientRegistry) (nodeId : EndpointId) : ClientRegistry :=
  ⟨reg.clients.erase nodeId⟩

def isClientNode (reg : ClientRegistry) (nodeId : EndpointId) : Bool := reg.clients.contains nodeId

def checkPermission (reg : ClientRegistry) (nodeId : EndpointId) (perm : String) : Bool :=
  match reg.clients[nodeId]? with
  | some info =>
    if perm = "query" then info.permissions.canQuery
    else if perm = "add_node" then info.permissions.canAddNode
    else if perm = "remove_node" then info.permissions.canRemoveNode
    else if perm = "control" then info.permissions.canControl
    else false
  | none => false

def count (reg : ClientRegistry) : Nat := reg.clients.size

end ClientRegistry

structure AuthRequest where
  ticket : String
  clientPublicKey : Option String
  clientName : Option String
  deriving DecidableEq

structure AuthResponse where
  success : Bool
  error : Option String
  daemonPublicKey : Option String
  deriving DecidableEq

inductive ClientCommand where
  | query
  | addNode (ticket : String)
  | removeNode (id : String)
  | status
  | getTicket
  | pause
  | resume
  | shutdown
  deriving DecidableEq

structure DaemonStatus where
  running : Bool
  paused : Bool
  nodeCount : Nat
  clientCount : Nat
  uptimeSeconds : Nat
  myDomain : String
  myAddr : String
  hostsSync : HostsSyncStatus
  deriving DecidableEq

inductive ClientResponse where
  | nodes : List Node → ClientResponse
  | status : DaemonStatus → ClientResponse
  | ticket : String → ClientResponse
  | ack : String → ClientResponse
  | error : String → ClientResponse
  deriving DecidableEq

inductive AdminAction where
  | shutdown
  deriving DecidableEq

inductive AuthMode where
  | requireTicket
  | allowLocalTicketless
  deriving DecidableEq

structure CommandOutcome where
  response : ClientResponse
  action : Option AdminAction
  deriving DecidableEq

/-- The two stores an admin request works on. -/
structure Daemon where
  ctx : Context
  clients : ClientRegistry
  deriving DecidableEq

/-- The clock, read for the client's record and again for its registration. -/
structure AuthReadings where
  recordNow : Nat
  connectedNow : Nat

/-- What a command reads: the clock, the outcome of its storage transaction, the order
maps are walked in, and the display text of the endpoint's address. -/
structure CommandReadings where
  now : Nat
  fault : Option String
  iter : IterOrder
  myAddr : String

variable (codecs : Codecs)

def ticketValid (ctx : Context) (authReq : AuthRequest) : Bool :=
  match Ticket.fromStr codecs authReq.ticket with
  | .ok ticket => ticket.validate ctx.ticket.topic ctx.ticket.rnum
  | .error _ => false

def authAllowed (ctx : Context) (authReq : AuthRequest) (mode : AuthMode) : Bool :=
  ticketValid codecs ctx authReq || mode = .allowLocalTicketless

def clientKey (authReq : AuthRequest) : Option EndpointId :=
  match authReq.clientPublicKey with
  | some text =>
    match codecs.base64Decode text with
    | .ok bytes => if bytes.length = 32 then codecs.publicKeyFromBytes bytes else none
    | .error _ => none
  | none => none

def clientNode (me : Node) (pk : EndpointId) (authReq : AuthRequest) (now : Nat) : Node :=
  { nodeId := pk
    invitor := me.nodeId
    addr := .new pk
    domain := authReq.clientName.getD ("client-" ++ codecs.endpointIdToString pk)
    services := (∅ : ExtTreeMap String UInt32).insert SERVICE_MARKER_CLIENT SERVICE_VALUE_CLIENT
    lastHeartbeat := now }

def clientInfo (authReq : AuthRequest) (now : Nat) : ClientInfo :=
  { connectedAt := now
    ticketUsed := authReq.ticket
    clientName := authReq.clientName
    permissions :=
      { canQuery := true, canAddNode := true, canRemoveNode := true, canControl := true } }

def authenticateAndRegister (d : Daemon) (authReq : AuthRequest) (mode : AuthMode)
    (env : AuthReadings) : Daemon × AuthResponse × Option EndpointId :=
  let accepted : AuthResponse :=
    { success := true, error := none,
      daemonPublicKey := some (codecs.base64Encode (codecs.publicKeyAsBytes d.ctx.me.nodeId)) }
  if authAllowed codecs d.ctx authReq mode = false then
    (d, { success := false, error := some "Invalid ticket", daemonPublicKey := none }, none)
  else
    match clientKey codecs authReq with
    | some pk =>
      if d.clients.isClientNode pk then (d, accepted, some pk)
      else
        let node := clientNode codecs d.ctx.me pk authReq env.recordNow
        ({ ctx := { d.ctx with nodes := d.ctx.nodes.insert pk node }
           clients := d.clients.addClient pk (clientInfo authReq env.connectedNow) },
          accepted, some pk)
    | none => (d, accepted, none)

def requiredPermission : ClientCommand → String
  | .query => "query"
  | .addNode _ => "add_node"
  | .removeNode _ => "remove_node"
  | .status => "query"
  | .getTicket => "query"
  | .pause => "control"
  | .resume => "control"
  | .shutdown => "control"

def startsWith (text pre : String) : Bool := pre.toList.isPrefixOf text.toList

def Context.trustedNodeIdsWithPrefix (ctx : Context) (pre : String) (iter : IterOrder) :
    List EndpointId :=
  ((iter.walk ctx.trustedNodes).filter fun node =>
    startsWith (codecs.toLowercase (codecs.endpointIdToString node.1)) pre).map (·.1)

def Context.trustedNodeDomain (ctx : Context) (nodeId : EndpointId) : Option String :=
  ctx.trustedNodes[nodeId]?.map (·.domain)

/-- The ids `RemoveNode` considers when its argument is not a full id. -/
def prefixMatches (d : Daemon) (id : String) (iter : IterOrder) : List EndpointId :=
  let pre := codecs.toLowercase id
  let active := (((iter.walk d.ctx.nodes).filter fun e => !d.clients.isClientNode e.1).filter
    fun e => startsWith (codecs.toLowercase (codecs.endpointIdToString e.1)) pre).map (·.1)
  (d.ctx.trustedNodeIdsWithPrefix codecs pre iter).foldl
    (fun found trustedId => if found.contains trustedId then found else found ++ [trustedId])
    active

def resolveNodeId (d : Daemon) (id : String) (iter : IterOrder) : Except String EndpointId :=
  match codecs.parseEndpointId id with
  | some nodeId => .ok nodeId
  | none =>
    match prefixMatches codecs d id iter with
    | [] => .error s!"No node found matching prefix '{id}'"
    | [nodeId] => .ok nodeId
    | found => .error
        s!"Ambiguous prefix '{id}': matches {found.length} nodes. Provide more characters."

def respond (d : Daemon) (response : ClientResponse) : CommandOutcome × Daemon :=
  ({ response := response, action := none }, d)

def handleAddNode (d : Daemon) (ticket : String) (env : CommandReadings) :
    CommandOutcome × Daemon :=
  match Ticket.fromStr codecs ticket with
  | .error e => respond d (.error s!"Invalid ticket: {e}")
  | .ok parsed =>
    let node := parsed.invitor
    if parsed.topic ≠ d.ctx.ticket.topic then
      respond d (.error "Ticket topic does not match this daemon's network")
    else
      let ctx := (d.ctx.trustDaemonNode node).upsertActiveNode node
      match ctx.storage.saveNode node env.fault with
      | .error e => respond { d with ctx := ctx } (.error s!"Failed to persist node: {e}")
      | .ok storage =>
        respond { d with ctx := { ctx with storage := storage } }
          (.ack s!"Node added: {node.domain}")

def handleRemoveNode (d : Daemon) (id : String) (env : CommandReadings) :
    CommandOutcome × Daemon :=
  match resolveNodeId codecs d id env.iter with
  | .error e => respond d (.error e)
  | .ok nodeId =>
    if nodeId = d.ctx.me.nodeId then respond d (.error "Refusing to remove self")
    else
      let domain := (d.ctx.nodes[nodeId]?.map (·.domain)).or (d.ctx.trustedNodeDomain nodeId)
      let clients := d.clients.removeClient nodeId
      let ctx := { d.ctx with nodes := d.ctx.nodes.erase nodeId }
      let ctx := ctx.untrustNode nodeId
      match ctx.storage.removeNode nodeId env.fault with
      | .error e =>
        respond ⟨ctx, clients⟩ (.error s!"Failed to remove from storage: {e}")
      | .ok storage =>
        let text := codecs.endpointIdToString nodeId
        let msg := match domain with
          | some name => s!"Node removed: {name} ({text})"
          | none => s!"Node removed: {text}"
        respond ⟨{ ctx with storage := storage }, clients⟩ (.ack msg)

def handleCommand (d : Daemon) (cmd : ClientCommand) (env : CommandReadings) :
    CommandOutcome × Daemon :=
  match cmd with
  | .query =>
    respond d (.nodes (((env.iter.walk d.ctx.nodes).filter fun e =>
      !d.clients.isClientNode e.1).map (·.2)))
  | .addNode ticket => handleAddNode codecs d ticket env
  | .removeNode id => handleRemoveNode codecs d id env
  | .status =>
    respond d (.status
      { running := true, paused := d.ctx.paused, nodeCount := d.ctx.nodes.size,
        clientCount := d.clients.count, uptimeSeconds := env.now - d.ctx.startedAt,
        myDomain := d.ctx.me.domain, myAddr := env.myAddr, hostsSync := d.ctx.hostsSync })
  | .getTicket => respond d (.ticket (d.ctx.ticket.toString codecs))
  | .pause => respond { d with ctx := { d.ctx with paused := true } } (.ack "Daemon paused")
  | .resume => respond { d with ctx := { d.ctx with paused := false } } (.ack "Daemon resumed")
  | .shutdown =>
    ({ response := .ack "Daemon shutting down", action := some .shutdown }, d)

end P2pDdns
