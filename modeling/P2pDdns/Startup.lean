import P2pDdns.Context

/-!
Start-up: the network ticket and the tables a daemon begins with, from its
arguments and its database. Binding the endpoint and joining the gossip topic
are outside the model; they change no table.
-/

set_option autoImplicit false

namespace P2pDdns
open Std

/-- Text and byte formats the program takes from its libraries. -/
structure Codecs where
  base64Decode : String → Except String (List UInt8)
  base64Encode : List UInt8 → String
  ticketFromBytes : List UInt8 → Except String Ticket
  ticketToBytes : Ticket → Option (List UInt8)
  publicKeyFromBytes : List UInt8 → Option EndpointId
  publicKeyAsBytes : EndpointId → List UInt8
  parseEndpointId : String → Option EndpointId
  endpointIdToString : EndpointId → String
  toLowercase : String → String

def Ticket.fromStr (codecs : Codecs) (s : String) : Except String Ticket := do
  let bytes ← codecs.base64Decode s
  codecs.ticketFromBytes bytes

def Ticket.toString (codecs : Codecs) (ticket : Ticket) : String :=
  match codecs.ticketToBytes ticket with
  | some text => codecs.base64Encode text
  | none => "<ticket-encode-error>"

/-- What a start draws at random or reads from the clock and the endpoint.
A secret key that cannot be saved is only logged. -/
structure StartReadings where
  generatedDomain : String
  generatedKey : EndpointId
  generatedTopic : TopicId
  generatedRnum : List UInt8
  secretSaved : Bool
  advertisedAddr : EndpointAddr
  now : Nat
  startedAt : Nat
  defaultHostsPath : String
  iter : IterOrder

/-- The network ticket with the transactions that record it, in order. -/
def networkTicket (args : DaemonArgs) (argTicket : Option Ticket) (storage : Storage)
    (me : Node) (env : StartReadings) : Except String (Ticket × List ConfigWrite) :=
  if args.primary then
    match storage.topic, storage.ticketRnum with
    | some topic, some rnum => .ok (⟨topic, rnum, me⟩, [])
    | _, _ =>
      let ticket : Ticket := ⟨env.generatedTopic, env.generatedRnum, me⟩
      .ok (ticket, [.topic ticket.topic, .ticketRnum ticket.rnum])
  else
    match argTicket with
    | some ticket => .ok (ticket, [.topic ticket.topic, .ticketRnum ticket.rnum])
    | none =>
      match storage.topic, storage.ticketRnum with
      | some topic, some rnum => .ok (⟨topic, rnum, me⟩, [])
      | _, _ => .error "Network config not found in both storage and ticket"

/-- `collect::<DashMap<_, _>>()` keyed by `node_id`. -/
def collectNodes (nodes : List Node) : DashMap EndpointId Node :=
  FiniteMaps.insertAll (·.nodeId) ∅ nodes

def hostsSyncPath (args : DaemonArgs) (env : StartReadings) : Option String :=
  if args.hostsSync then some (args.hostsPath.getD env.defaultHostsPath) else none

/-- The stored records a start takes over: daemons other than this one. -/
def persistedDaemons (pk : EndpointId) (persistedNodes : List Node) : List Node :=
  persistedNodes.filter fun node => isDaemonNode node && node.nodeId ≠ pk

/-- The ticket's invitor is trusted only as a daemon other than this one. -/
def startTrustedNodes (pk : EndpointId) (persistedNodes : List Node)
    (invitorNode : Option Node) : DashMap EndpointId Node :=
  let trustedNodes := collectNodes (persistedDaemons pk persistedNodes)
  match invitorNode with
  | some node =>
    if isDaemonNode node && node.nodeId ≠ pk then trustedNodes.insert node.nodeId node
    else trustedNodes
  | none => trustedNodes

/-- The ticket's invitor becomes a bootstrap node whatever it is. -/
def startBootstrapNodes (pk : EndpointId) (persistedNodes : List Node)
    (invitorNode : Option Node) : DashMap EndpointId Node :=
  let bootstrapNodes := collectNodes (persistedDaemons pk persistedNodes)
  match invitorNode with
  | some node => bootstrapNodes.insert node.nodeId node
  | none => bootstrapNodes

def startStaticProvider (pk : EndpointId) (persistedNodes : List Node)
    (invitorNode : Option Node) (iter : IterOrder) : List (EndpointId × EndpointAddr) :=
  let bootstrapNodes := collectNodes (persistedDaemons pk persistedNodes)
  ((iter.walk bootstrapNodes).flatMap fun it => feedAddr it.2) ++
    match invitorNode with
    | some node => feedAddr node
    | none => []

def parseArgTicket (codecs : Codecs) (args : DaemonArgs) : Except String (Option Ticket) :=
  match args.ticket with
  | some ticket => (Ticket.fromStr codecs ticket).map some
  | none => .ok none

theorem parseArgTicket_invitor {codecs : Codecs} {args : DaemonArgs} {argTicket : Option Ticket}
    {node : Node} (h : parseArgTicket codecs args = .ok argTicket) :
    argTicket.map (·.invitor) = some node ↔
      ∃ text ticket, args.ticket = some text ∧ Ticket.fromStr codecs text = .ok ticket ∧
        ticket.invitor = node := by
  unfold parseArgTicket at h
  cases htext : args.ticket with
  | none =>
    rw [htext] at h
    obtain rfl := Except.ok.inj h
    simp
  | some text =>
    rw [htext] at h
    cases hparse : Ticket.fromStr codecs text with
    | error e => simp [hparse, Except.map] at h
    | ok ticket =>
      simp only [hparse, Except.map, Except.ok.injEq] at h
      subst h
      simp [hparse]

def initNetwork (codecs : Codecs) (args : DaemonArgs) (storage : Storage)
    (env : StartReadings) : Except String Context := do
  let storage := if args.resetStorage then Storage.clear else storage
  let domain := args.domain.getD env.generatedDomain
  let pk := storage.secret.getD env.generatedKey
  let storage :=
    if storage.secret.isNone && env.secretSaved then { storage with secret := some pk }
    else storage
  let argTicket ← parseArgTicket codecs args
  let invitorNode := argTicket.map (·.invitor)
  let me : Node :=
    { nodeId := pk, invitor := (invitorNode.map (·.nodeId)).getD pk, addr := env.advertisedAddr,
      domain := domain, services := ∅, lastHeartbeat := env.now }
  let (ticket, writes) ← networkTicket args argTicket storage me env
  let storage := writes.foldl Storage.saveConfig storage
  let persistedNodes := storage.loadNodes
  pure
    { storage := storage
      staticProvider := startStaticProvider pk persistedNodes invitorNode env.iter
      ticket := ticket
      nodes := startBootstrapNodes pk persistedNodes invitorNode
      trustedNodes := startTrustedNodes pk persistedNodes invitorNode
      me := me
      args := args
      startedAt := env.startedAt
      paused := false
      hostsSync :=
        { enabled := args.hostsSync, path := hostsSyncPath args env,
          cleanupOnShutdown := args.hostsSync, lastSuccess := none, lastCleanup := none,
          lastError := none } }

/-! The records a start begins with come from its database or from its ticket. -/

section StartTables
variable {pk id : EndpointId} {persistedNodes : List Node} {invitorNode : Option Node} {node : Node}

theorem mem_persistedDaemons :
    node ∈ persistedDaemons pk persistedNodes ↔
      node ∈ persistedNodes ∧ isDaemonNode node = true ∧ node.nodeId ≠ pk := by
  simp [persistedDaemons]

theorem getElem?_collectNodes {nodes : List Node} (h : (collectNodes nodes)[id]? = some node) :
    node ∈ nodes ∧ node.nodeId = id := by
  rcases FiniteMaps.getElem?_insertAll_cases h with h | h
  · exact h
  · simp at h

theorem startTrustedNodes_cases
    (h : (startTrustedNodes pk persistedNodes invitorNode)[id]? = some node) :
    node.nodeId = id ∧ isDaemonNode node = true ∧ node.nodeId ≠ pk ∧
      (node ∈ persistedDaemons pk persistedNodes ∨ invitorNode = some node) := by
  have hpersisted : ∀ n, (collectNodes (persistedDaemons pk persistedNodes))[id]? = some n →
      n.nodeId = id ∧ isDaemonNode n = true ∧ n.nodeId ≠ pk ∧
        (n ∈ persistedDaemons pk persistedNodes ∨ invitorNode = some n) := by
    intro n hn
    obtain ⟨hmem, hid⟩ := getElem?_collectNodes hn
    obtain ⟨-, hd, hne⟩ := mem_persistedDaemons.mp hmem
    exact ⟨hid, hd, hne, .inl hmem⟩
  cases hinv : invitorNode with
  | none =>
    rw [hinv] at h hpersisted
    exact hpersisted node h
  | some invitor =>
    rw [hinv] at h hpersisted
    simp only [startTrustedNodes] at h
    split at h
    · rename_i hok
      rcases FiniteMaps.getElem?_insert_cases h with ⟨hid, rfl⟩ | ⟨-, h⟩
      · simp only [Bool.and_eq_true, decide_eq_true_eq] at hok
        exact ⟨hid, hok.1, hok.2, .inr rfl⟩
      · exact hpersisted node h
    · exact hpersisted node h

theorem startBootstrapNodes_cases
    (h : (startBootstrapNodes pk persistedNodes invitorNode)[id]? = some node) :
    node.nodeId = id ∧ (node ∈ persistedDaemons pk persistedNodes ∨ invitorNode = some node) := by
  cases hinv : invitorNode with
  | none =>
    rw [hinv] at h
    obtain ⟨hmem, hid⟩ := getElem?_collectNodes h
    exact ⟨hid, .inl hmem⟩
  | some invitor =>
    rw [hinv] at h
    rcases FiniteMaps.getElem?_insert_cases h with ⟨hid, rfl⟩ | ⟨-, h⟩
    · exact ⟨hid, .inr rfl⟩
    · obtain ⟨hmem, hid⟩ := getElem?_collectNodes h
      exact ⟨hid, .inl hmem⟩

/-- Both tables of a start are filtered alike, the ticket's invitor apart. -/
theorem mem_startTrustedNodes (hd : isDaemonNode node = true) (hne : node.nodeId ≠ pk)
    (h : node ∈ persistedDaemons pk persistedNodes ∨ invitorNode = some node) :
    node.nodeId ∈ startTrustedNodes pk persistedNodes invitorNode := by
  have hpersisted : node ∈ persistedDaemons pk persistedNodes →
      node.nodeId ∈ collectNodes (persistedDaemons pk persistedNodes) :=
    fun hmem => FiniteMaps.mem_insertAll.mpr (.inr ⟨node, hmem, rfl⟩)
  cases hinv : invitorNode with
  | none =>
    rw [hinv] at h
    rcases h with h | h
    · exact hpersisted h
    · contradiction
  | some invitor =>
    rw [hinv] at h
    simp only [startTrustedNodes]
    rcases h with h | h
    · split
      · exact ExtTreeMap.mem_insert.mpr (.inr (hpersisted h))
      · exact hpersisted h
    · obtain rfl := Option.some.inj h
      simp [hd, hne]

theorem mem_startStaticProvider {iter : IterOrder} {fed : EndpointId × EndpointAddr}
    (h : fed ∈ startStaticProvider pk persistedNodes invitorNode iter) :
    ∃ node, fed = (node.nodeId, node.addr) ∧
      (node ∈ persistedDaemons pk persistedNodes ∨ invitorNode = some node) := by
  rcases List.mem_append.mp h with h | h
  · obtain ⟨⟨a, n⟩, hwalk, hn⟩ := List.mem_flatMap.mp h
    rw [IterOrder.mem_walk] at hwalk
    exact ⟨n, eq_of_mem_feedAddr hn, .inl (getElem?_collectNodes hwalk).1⟩
  · cases hinv : invitorNode with
    | none =>
      rw [hinv] at h
      contradiction
    | some n =>
      rw [hinv] at h
      exact ⟨n, eq_of_mem_feedAddr h, .inr rfl⟩

end StartTables

def ownId (args : DaemonArgs) (storage : Storage) (env : StartReadings) : EndpointId :=
  ((if args.resetStorage then Storage.clear else storage).secret).getD env.generatedKey

theorem saveConfig_nodes (writes : List ConfigWrite) (storage : Storage) :
    (writes.foldl Storage.saveConfig storage).nodes = storage.nodes := by
  induction writes generalizing storage with
  | nil => rfl
  | cons w writes ih =>
    rw [List.foldl_cons, ih]
    cases w <;> rfl

theorem initNetwork_ok {codecs : Codecs} {args : DaemonArgs} {storage : Storage}
    {env : StartReadings} {ctx : Context} (h : initNetwork codecs args storage env = .ok ctx) :
    ∃ argTicket, parseArgTicket codecs args = .ok argTicket ∧ ctx.args = args ∧
      ctx.storage.nodes = (if args.resetStorage then ∅ else storage.nodes) ∧
      ctx.nodes = startBootstrapNodes ctx.me.nodeId ctx.storage.loadNodes
        (argTicket.map (·.invitor)) ∧
      ctx.trustedNodes = startTrustedNodes ctx.me.nodeId ctx.storage.loadNodes
        (argTicket.map (·.invitor)) ∧
      ctx.staticProvider = startStaticProvider ctx.me.nodeId ctx.storage.loadNodes
        (argTicket.map (·.invitor)) env.iter ∧
      ctx.me.nodeId = ownId args storage env := by
  unfold initNetwork at h
  cases hticket : parseArgTicket codecs args with
  | error e => simp [hticket, bind, Except.bind] at h
  | ok argTicket =>
    simp only [hticket, bind, Except.bind] at h
    split at h
    · contradiction
    · obtain ⟨rfl⟩ := h
      refine ⟨argTicket, rfl, rfl, ?_, rfl, rfl, rfl, rfl⟩
      dsimp only
      rw [saveConfig_nodes]
      split <;> split <;> rfl

end P2pDdns
