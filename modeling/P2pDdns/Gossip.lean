import P2pDdns.BestAddress
import P2pDdns.Context

/-!
Receiving messages. Everything the handler reads outside the tables (the clock,
the endpoint's connections and addresses, the order a map is walked in) is a
reading that comes with the message.
-/

set_option autoImplicit false

namespace P2pDdns
open Std

/-- What is read while one message is handled. The clock is read when the message is
verified, when the sender's record is refreshed, when the incoming record is stamped
and when a reply is built; `observed k` is the sender's direct connection when the
`k`-th record of the message is looked at. -/
structure Readings where
  verifyNow : Nat
  refreshNow : Nat
  incomingNow : Nat
  replyNow : Nat
  refreshObserved : Option SocketAddr
  observed : Nat → Option SocketAddr
  ownAddr : EndpointAddr
  dialAddr : EndpointAddr
  iter : IterOrder

structure Outgoing where
  target : EndpointAddr
  message : Message
  deriving DecidableEq

/-- A sender's own record is listed with the address it is heard from. -/
def listedNode (sender : EndpointId) (observed : Option SocketAddr) (node : Node) : Node :=
  if node.nodeId = sender then { node with addr := senderMessageAddr sender node.addr observed }
  else node

namespace Context

def decodeAndVerify (ctx : Context) (signed : SignedMessage) (now : Nat) :
    EndpointId × Message × VerifyStatus :=
  (signed.sender, signed.message,
    { trusted := ctx.isNodeTrusted signed.sender, fresh := signed.isFresh now })

def currentNodeState (ctx : Context) (env : Readings) : Node :=
  { ctx.me with addr := env.ownAddr, lastHeartbeat := env.replyNow }

def sendTarget (ctx : Context) (id : EndpointId) (here : EndpointAddr) : EndpointAddr :=
  match ctx.nodes[id]? with
  | some node => bestEndpointAddrForLocal node.addr here
  | none => .new id

def sendMessageTo (ctx : Context) (id : EndpointId) (message : Message) (env : Readings) :
    List Outgoing :=
  if id = ctx.me.nodeId then []
  else [⟨ctx.sendTarget id env.dialAddr, message⟩]

/-- The refresh at the top of `process_message`. -/
def refreshSender (ctx : Context) (sender : EndpointId) (env : Readings) : Context :=
  match ctx.refreshSenderObservedAddr sender env.refreshObserved env.refreshNow with
  | (ctx, true) => ctx
  | (ctx, false) =>
    match ctx.nodes[sender]? with
    | some node =>
      { ctx with nodes := ctx.nodes.insert sender { node with lastHeartbeat := env.refreshNow } }
    | none => ctx

/-- The body of the sync loops for one listed record. -/
def syncNode (ctx : Context) (sender : EndpointId) (observed : Option SocketAddr)
    (node : Node) : Context :=
  if node.nodeId = ctx.me.nodeId ∨ isDaemonNode node = false then ctx
  else
    let node := listedNode sender observed node
    let existing := ctx.nodes[node.nodeId]?
    let shouldUpdate :=
      match existing with
      | none => true
      | some existing => existing.lastHeartbeat < node.lastHeartbeat
    if shouldUpdate then
      let merged := (mergeNode existing node).1
      (ctx.trustDaemonNode merged).upsertActiveNode merged
    else ctx

/-- `SyncRequest` and `SyncResponse` run the same loop. -/
def syncNodes (sender : EndpointId) (observed : Nat → Option SocketAddr) :
    Nat → List Node → Context → Context
  | _, [], ctx => ctx
  | k, node :: nodes, ctx => syncNodes sender observed (k+1) nodes
      (ctx.syncNode sender (observed k) node)

/-- The record a sender announces about itself, merged into the one held. -/
def announceNode (ctx : Context) (sender : EndpointId) (addr : EndpointAddr) (aliasName : String)
    (services : ExtTreeMap String UInt32) (invitor : EndpointId) (env : Readings) : Context :=
  let addr := senderMessageAddr sender addr (env.observed 0)
  let incoming : Node :=
    { nodeId := sender, invitor := invitor, addr := addr, domain := aliasName,
      services := services, lastHeartbeat := env.incomingNow }
  let existing := ctx.nodes[sender]?
  let node := (mergeNode existing incoming).1
  (ctx.trustDaemonNode node).upsertActiveNode node

/-- The `match message` of `process_message`. -/
def dispatchMessage (ctx : Context) (sender : EndpointId) (message : Message)
    (status : VerifyStatus) (env : Readings) : Context × List Outgoing :=
  let passed := status.passed
  match message with
  | .invited topic rnum addr aliasName services invitor =>
    if status.fresh = false then (ctx, [])
    else if ctx.ticket.validate topic rnum = false then (ctx, [])
    else (ctx.announceNode sender addr aliasName services invitor env, [])
  | .aboutMe addr aliasName services invitor =>
    if passed = false then (ctx, [])
    else (ctx.announceNode sender addr aliasName services invitor env, [])
  | .introduce _ => (ctx, [])
  | .heartbeat => (ctx, [])
  | .left =>
    if passed = false then (ctx, [])
    else ({ ctx with nodes := ctx.nodes.erase sender }, [])
  | .syncRequest nodes =>
    let ctx :=
      if !ctx.args.daemon || passed then syncNodes sender env.observed 0 nodes ctx else ctx
    if ctx.args.daemon then
      let known := (((env.iter.walk ctx.nodes).map (·.2)).filter isDaemonNode)
        ++ [ctx.currentNodeState env]
      (ctx, ctx.sendMessageTo sender (.syncResponse known) env)
    else (ctx, [])
  | .syncResponse nodes =>
    if !ctx.args.daemon || passed then (syncNodes sender env.observed 0 nodes ctx, [])
    else (ctx, [])

def processMessage (ctx : Context) (sender : EndpointId) (message : Message)
    (status : VerifyStatus) (env : Readings) : Context × List Outgoing :=
  let ctx := if status.passed then ctx.refreshSender sender env else ctx
  ctx.dispatchMessage sender message status env

/-- One turn of the event loop for an envelope that decoded. -/
def receive (ctx : Context) (signed : SignedMessage) (env : Readings) :
    Context × List Outgoing :=
  let (sender, message, status) := ctx.decodeAndVerify signed env.verifyNow
  ctx.processMessage sender message status env

end Context
end P2pDdns
