import P2pDdns.Admin
import P2pDdns.Gossip
import P2pDdns.Runs

/-!
A daemon as a transition system: after start-up it executes received messages,
cleanups, saves, client authentications and admin commands one at a time.
-/

set_option autoImplicit false

namespace P2pDdns
open Std

/-- A received byte string that does not decode or verify is `received none`. A command
comes from an authenticated client and needs the permission assigned to it. -/
inductive Event where
  | received (signed : Option SignedMessage) (env : Readings)
  | cleanup (now : Nat) (iter : IterOrder)
  | save (iter : IterOrder) (fault : Option String)
  | authenticate (authReq : AuthRequest) (mode : AuthMode) (env : AuthReadings)
  | command (client : EndpointId) (cmd : ClientCommand) (env : CommandReadings)

section Runs
variable (codecs : Codecs)

/-- The server's gate in front of `handle_command`. -/
def runCommand (d : Daemon) (client : EndpointId) (cmd : ClientCommand)
    (env : CommandReadings) : CommandOutcome × Daemon :=
  if d.clients.checkPermission client (requiredPermission cmd) then handleCommand codecs d cmd env
  else respond d (.error "Permission denied")

def Daemon.step (d : Daemon) : Event → Daemon
  | .received none _ => d
  | .received (some signed) env => { d with ctx := (d.ctx.receive signed env).1 }
  | .cleanup now iter => { d with ctx := d.ctx.cleanup now iter }
  | .save iter fault =>
    match d.ctx.save iter fault with
    | .ok ctx => { d with ctx := ctx }
    | .error _ => d
  | .authenticate authReq mode env => (authenticateAndRegister codecs d authReq mode env).1
  | .command client cmd env => (runCommand codecs d client cmd env).2

def Daemon.run (d : Daemon) (events : List Event) : Daemon :=
  Runs.exec (Daemon.step codecs) d events

structure Start where
  args : DaemonArgs
  storage : Storage
  env : StartReadings
  ctx : Context
  started : initNetwork codecs args storage env = .ok ctx

/-- The registry of clients starts empty. -/
def Start.daemon (start : Start codecs) : Daemon := ⟨start.ctx, .new⟩

def Reachable (d : Daemon) : Prop :=
  ∃ (start : Start codecs) (events : List Event), d = start.daemon.run codecs events

end Runs

/-! A small network for concrete runs: three daemons, a client, and the texts of their keys. -/

namespace Sample

def alice : EndpointId := 0xd75a980182b10ab7d54bfed3c964073a0ee172f3daa62325af021a68f707511a
def bob : EndpointId := 0x3d4017c3e843895a92b70aa74d1b7ebc9c982ccf2ec4968cc0cd55f12af4660c
def carol : EndpointId := 0xfc51cd8e6218a1a38da47ed00230f0580816ed13ba3303ac5deb911548908025
def dave : EndpointId := 0x278117fc144c72340f67d0f2316e8386ceffbf2b2428c9c51fef7c597f1d426e

structure KeyTexts where
  id : EndpointId
  hex : String
  base64 : String

def keyTexts : List KeyTexts :=
  [⟨alice, "d75a980182b10ab7d54bfed3c964073a0ee172f3daa62325af021a68f707511a",
      "11qYAYKxCrfVS/7TyWQHOg7hcvPapiMlrwIaaPcHURo"⟩,
    ⟨bob, "3d4017c3e843895a92b70aa74d1b7ebc9c982ccf2ec4968cc0cd55f12af4660c",
      "PUAXw+hDiVqStwqnTRt+vJyYLM8uxJaMwM1V8Sr0Zgw"⟩,
    ⟨carol, "fc51cd8e6218a1a38da47ed00230f0580816ed13ba3303ac5deb911548908025",
      "/FHNjmIYoaONpH7QAjDwWAgW7RO6MwOsXeuRFUiQgCU"⟩,
    ⟨dave, "278117fc144c72340f67d0f2316e8386ceffbf2b2428c9c51fef7c597f1d426e",
      "J4EX/BRMcjQPZ9DyMW6Dhs7/vyskKMnFH+98WX8dQm4"⟩]

def keyBytes (id : EndpointId) : List UInt8 :=
  (List.range 32).map fun i => UInt8.ofNat (id.toNat >>> (8 * (31-i)))

/-- The codecs on the texts of these keys; no other text occurs in a sample run. -/
def codecs : Codecs where
  base64Decode text :=
    if text = "" then .ok []
    else match keyTexts.find? (·.base64 = text) with
      | some key => .ok (keyBytes key.id)
      | none => .error "Invalid symbol"
  base64Encode bytes := ((keyTexts.find? (keyBytes ·.id = bytes)).map (·.base64)).getD ""
  ticketFromBytes _ := .error "Hit the end of buffer, expected more data"
  ticketToBytes _ := none
  publicKeyFromBytes bytes := (keyTexts.find? (keyBytes ·.id = bytes)).map (·.id)
  publicKeyAsBytes := keyBytes
  parseEndpointId text := (keyTexts.find? (·.hex = text)).map (·.id)
  endpointIdToString id := ((keyTexts.find? (·.id = id)).map (·.hex)).getD ""
  toLowercase text := text

def sock (host : BitVec 8) : SocketAddr := .v4 (0x0a000000#24 ++ host) 7777

def record (id : EndpointId) (domain : String) (hosts : List (BitVec 8)) (heartbeat : Nat) : Node :=
  { nodeId := id, invitor := alice, addr := .fromParts id (hosts.map fun h => .ip (sock h)),
    domain := domain, services := ∅, lastHeartbeat := heartbeat }

def args : DaemonArgs :=
  { daemon := true, primary := true, resetStorage := false, domain := some "alice", ticket := none,
    hostsSync := false, hostsPath := none }

def storage (nodes : List Node) : Storage :=
  { secret := some alice, topic := some 5, ticketRnum := some [1, 2, 3, 4],
    nodes := collectNodes nodes }

def startReadings : StartReadings :=
  { generatedDomain := "node", generatedKey := carol, generatedTopic := 6, generatedRnum := [5],
    secretSaved := true, advertisedAddr := .fromParts alice [.ip (sock 1)], now := 1000,
    startedAt := 1000, defaultHostsPath := "/etc/hosts", iter := .byId }

def context (nodes : List Node) : Context :=
  let me := record alice "alice" [1] 1000
  { storage := storage nodes
    staticProvider := startStaticProvider alice (storage nodes).loadNodes none .byId
    ticket := ⟨5, [1, 2, 3, 4], me⟩
    nodes := startBootstrapNodes alice (storage nodes).loadNodes none
    trustedNodes := startTrustedNodes alice (storage nodes).loadNodes none
    me := me
    args := args
    startedAt := 1000
    paused := false
    hostsSync :=
      { enabled := false, path := none, cleanupOnShutdown := false, lastSuccess := none,
        lastCleanup := none, lastError := none } }

def start (nodes : List Node) : Start codecs where
  args := args
  storage := storage nodes
  env := startReadings
  ctx := context nodes
  started := rfl

/-- A message handled within one second, from a sender without a direct connection. -/
def readings (now : Nat) : Readings :=
  { verifyNow := now, refreshNow := now, incomingNow := now, replyNow := now,
    refreshObserved := none, observed := fun _ => none,
    ownAddr := .fromParts alice [.ip (sock 1)], dialAddr := .fromParts alice [.ip (sock 1)],
    iter := .byId }

def sends (sender : EndpointId) (message : Message) (now : Nat) : Event :=
  .received (some ⟨sender, message, now⟩) (readings now)

def authenticates (keyText : String) (now : Nat) : Event :=
  .authenticate ⟨"", some keyText, none⟩ .allowLocalTicketless ⟨now, now⟩

def daveAuthenticates : Event := authenticates "J4EX/BRMcjQPZ9DyMW6Dhs7/vyskKMnFH+98WX8dQm4" 1000

def commands (cmd : ClientCommand) (now : Nat) : Event :=
  .command dave cmd ⟨now, none, .byId, "10.0.0.1"⟩

end Sample

end P2pDdns
