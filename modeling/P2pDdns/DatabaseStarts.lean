import P2pDdns.Databases
import P2pDdns.Endpoints
import P2pDdns.Restart
import P2pDdns.Transactions

/-!
A start on the database file, one load and one transaction after the other: how it ends and what
it commits depend on the contents of the file only.
-/

set_option autoImplicit false

namespace P2pDdns
open Std FiniteMaps WireFormats EncodedMaps Transactions

inductive StartError where
  | load (e : LoadError)
  | bind (e : BindError)
  | other (text : String)

/-- A start with all it reads; it is stopped after `stop` transactions or runs into `events`.
`relays` is the outcome of parsing the relay URLs, `joined` that of joining the gossip, and
`endpointAddr` the address of the endpoint that came up. -/
structure Boot {codecs : Codecs} (keys : Keys codecs) where
  args : DaemonArgs
  bindArgs : BindArgs
  env : StartReadings
  secretKey : SecretKey
  drawn : env.generatedKey = keys.publicKey secretKey
  drawnPort : UInt16
  relays : Except String Unit
  interfaces : List Interface
  bindEndpoint : Option SocketAddrV4 → Option SocketAddrV6 → Except String Unit
  endpointAddr : EndpointAddr
  advertised : env.advertisedAddr = advertisedEndpointAddr endpointAddr bindArgs interfaces
  joined : Except String Unit
  stop : Option Nat
  events : List Event

structure StartTables where
  bootstrapNodes : DashMap EndpointId Node
  trustedNodes : DashMap EndpointId Node
  staticProvider : List (EndpointId × EndpointAddr)

def startTables (pk : EndpointId) (invitorNode : Option Node) (iter : IterOrder)
    (persistedNodes : List Node) : StartTables :=
  ⟨startBootstrapNodes pk persistedNodes invitorNode,
    startTrustedNodes pk persistedNodes invitorNode,
    startStaticProvider pk persistedNodes invitorNode iter⟩

section Session
variable {codecs : Codecs} {keys : Keys codecs}

abbrev StartSession := Transactions.Session Database Transaction StartError

def load {α : Type} (f : Database → Except LoadError α) : StartSession α :=
  query fun db => (f db).mapError .load

def commit (codecs : Codecs) (w : Transaction) : StartSession Unit :=
  transact (Database.perform codecs) w

def commitIf (codecs : Codecs) (condition : Bool) (w : Transaction) : StartSession Unit :=
  if condition then commit codecs w else pure ()

def Database.storage (keys : Keys codecs) (db : Database) : Except LoadError Storage := do
  let secret ← db.loadSecret keys
  let topic ← db.loadConfig topicIdFormat "topic"
  let rnum ← db.loadConfig byteSeq "ticket_rnum"
  let nodes ← db.loadNodes
  pure ⟨secret.map (·.1), topic, rnum, collectNodes nodes⟩

/-- A new secret key that cannot be saved is used all the same. -/
def openIdentity (boot : Boot keys) : StartSession EndpointId := do
  match ← load fun db => db.loadSecret keys with
  | some (pk, _) => pure pk
  | none =>
    commitIf codecs boot.env.secretSaved (.saveSecret boot.secretKey)
    pure (keys.publicKey boot.secretKey)

def loadOrAssignBindPort (boot : Boot keys) : StartSession UInt16 := do
  match ← load fun db => db.loadConfig u16 "bind_port" with
  | some port => pure port
  | none =>
    commit codecs (.saveBindPort boot.drawnPort)
    pure boot.drawnPort

def chooseBindAddrs (boot : Boot keys) : StartSession BindAddrs :=
  match boot.bindArgs.bind with
  | some bind => do
    match ← given ((boot.bindArgs.parseBindTarget bind).mapError .other) with
    | .socket addr => pure (bindSocket addr)
    | .ip ip =>
      let port ← loadOrAssignBindPort boot
      pure (bindIp ip port.toBitVec)
  | none =>
    match boot.bindArgs.bindInterface with
    | some interface => do
      let port ← loadOrAssignBindPort boot
      let addrs ← given ((lookupInterfaceAddrs boot.interfaces interface).mapError .other)
      pure (bindInterface addrs port.toBitVec)
    | none => do
      let port ← loadOrAssignBindPort boot
      pure (bindEverywhere port.toBitVec)

def saveTicket (codecs : Codecs) (ticket : Ticket) : StartSession Ticket := do
  commit codecs (.saveConfig (.topic ticket.topic))
  commit codecs (.saveConfig (.ticketRnum ticket.rnum))
  pure ticket

def openTicket (boot : Boot keys) (argTicket : Option Ticket) (me : Node) : StartSession Ticket :=
  if boot.args.primary then do
    let topic ← load fun db => db.loadConfig topicIdFormat "topic"
    let rnum ← load fun db => db.loadConfig byteSeq "ticket_rnum"
    match topic, rnum with
    | some topic, some rnum => pure ⟨topic, rnum, me⟩
    | _, _ => saveTicket codecs ⟨boot.env.generatedTopic, boot.env.generatedRnum, me⟩
  else
    match argTicket with
    | some ticket => saveTicket codecs ticket
    | none => do
      let topic ← load fun db => db.loadConfig topicIdFormat "topic"
      let rnum ← load fun db => db.loadConfig byteSeq "ticket_rnum"
      match topic, rnum with
      | some topic, some rnum => pure ⟨topic, rnum, me⟩
      | _, _ => given (.error (.other "Network config not found in both storage and ticket"))

/-- The record of the daemon itself; it was invited by the invitor of its ticket or by none. -/
def Boot.me (boot : Boot keys) (pk : EndpointId) (invitorNode : Option Node) : Node :=
  { nodeId := pk, invitor := (invitorNode.map (·.nodeId)).getD pk, addr := boot.env.advertisedAddr,
    domain := boot.args.domain.getD boot.env.generatedDomain, services := ∅,
    lastHeartbeat := boot.env.now }

/-- The context of a start; its `storage` is what the database gives access to. -/
def Boot.context (boot : Boot keys) (me : Node) (ticket : Ticket) (storage : Storage)
    (tables : StartTables) : Context :=
  { storage := storage
    staticProvider := tables.staticProvider
    ticket := ticket
    nodes := tables.bootstrapNodes
    trustedNodes := tables.trustedNodes
    me := me
    args := boot.args
    startedAt := boot.env.startedAt
    paused := false
    hostsSync :=
      { enabled := boot.args.hostsSync, path := hostsSyncPath boot.args boot.env,
        cleanupOnShutdown := boot.args.hostsSync, lastSuccess := none, lastCleanup := none,
        lastError := none } }

def Boot.openTables (boot : Boot keys) (pk : EndpointId) (argTicket : Option Ticket)
    (addrs : BindAddrs) : StartSession (Context × BindAddrs) := do
  let invitorNode := argTicket.map (·.invitor)
  let me := boot.me pk invitorNode
  let ticket ← openTicket boot argTicket me
  let tables ← load fun db => db.loadNodes.map (startTables pk invitorNode boot.env.iter)
  given (boot.joined.mapError .other)
  let storage ← load (Database.storage keys)
  pure (boot.context me ticket storage tables, addrs)

def Boot.openEndpoint (boot : Boot keys) : StartSession BindAddrs := do
  given (boot.relays.mapError .other)
  let addrs ← chooseBindAddrs boot
  given ((bindWithFallback boot.bindEndpoint addrs).mapError .bind)
  pure addrs

def Boot.openNetwork (boot : Boot keys) (pk : EndpointId) :
    StartSession (Context × BindAddrs) := do
  let argTicket ← given ((parseArgTicket codecs boot.args).mapError .other)
  let addrs ← boot.openEndpoint
  boot.openTables pk argTicket addrs

/-- `init_network`, in the order of the source. -/
def Boot.start (boot : Boot keys) : StartSession (Context × BindAddrs) := do
  commitIf codecs boot.args.resetStorage .clear
  let pk ← openIdentity boot
  boot.openNetwork pk

end Session

/-! What a start commits. -/

section Specs
variable {codecs : Codecs} {keys : Keys codecs}

/-- The program ends with `x` on every file with these contents, after it committed `ws`. -/
abbrev Opens {α : Type} (codecs : Codecs) (c : Contents) (m : StartSession α)
    (x : Except StartError α) (ws : List Transaction) : Prop :=
  Gives (Database.perform codecs) (Holds codecs) c m x ws

theorem holds_performs (keys : Keys codecs) (db : Database) (c : Contents) (w : Transaction)
    (h : Holds codecs db c) : Holds codecs (db.perform codecs w) (c.perform w) := h.perform keys w

theorem load_opens {α : Type} {c : Contents} {f : Database → Except LoadError α} {a : α}
    (h : ∀ db, Holds codecs db c → f db = .ok a) : Opens codecs c (load f) (.ok a) [] :=
  .query fun db hdb => by rw [h db hdb]; rfl

def secretWrites (boot : Boot keys) (c : Contents) : List Transaction :=
  if c.secretKey.isNone && boot.env.secretSaved then [.saveSecret boot.secretKey] else []

def portWrites (boot : Boot keys) (c : Contents) : List Transaction :=
  if c.bindPort.isNone then [.saveBindPort boot.drawnPort] else []

theorem openIdentity_opens (boot : Boot keys) (c : Contents) :
    Opens codecs c (openIdentity boot)
      (.ok ((c.secretKey.map keys.publicKey).getD (keys.publicKey boot.secretKey)))
      (secretWrites boot c) := by
  have hload : Opens codecs c (load fun db => db.loadSecret keys)
      (.ok (c.secretKey.map fun sk => (keys.publicKey sk, sk))) [] :=
    load_opens fun _ hdb => hdb.loadSecret keys
  refine hload.read (holds_performs keys) ?_
  unfold secretWrites
  cases c.secretKey with
  | some sk => exact .pure _ _
  | none =>
    cases boot.env.secretSaved with
    | true => exact Gives.compute (holds_performs keys) (.transact _ _) (.pure _ _)
    | false => exact .pure _ _

theorem loadOrAssignBindPort_opens (boot : Boot keys) (c : Contents) :
    Opens codecs c (loadOrAssignBindPort boot) (.ok (c.bindPort.getD boot.drawnPort))
      (portWrites boot c) := by
  have hload : Opens codecs c (load fun db => db.loadConfig u16 "bind_port") (.ok c.bindPort) [] :=
    load_opens fun _ hdb => loadConfig_eq hdb.bindPort
  refine hload.read (holds_performs keys) ?_
  unfold portWrites
  cases c.bindPort with
  | some port => exact .pure _ _
  | none => exact Gives.compute (holds_performs keys) (.transact _ _) (.pure _ _)

def Boot.NamesPort (boot : Boot keys) : Prop :=
  ∃ bind addr, boot.bindArgs.bind = some bind ∧
    boot.bindArgs.parseBindTarget bind = .ok (.socket addr)

theorem given_opens {α : Type} (c : Contents) (x : Except StartError α) :
    Opens codecs c (given x) x [] := .given c x

theorem chooseBindAddrs_opens (boot : Boot keys) (c : Contents) :
    ∃ x ws, Opens codecs c (chooseBindAddrs boot) x ws ∧
      (ws = [] ∨ ws = portWrites boot c) ∧ (∀ e, x ≠ .error (.load e)) ∧
      ∀ addrs, x = .ok addrs → ¬ boot.NamesPort →
        ws = portWrites boot c ∧ addrs.AtPort (c.bindPort.getD boot.drawnPort).toBitVec := by
  have hport := loadOrAssignBindPort_opens boot c
  unfold chooseBindAddrs
  cases hbind : boot.bindArgs.bind with
  | some bind =>
    dsimp only
    cases htarget : boot.bindArgs.parseBindTarget bind with
    | error e =>
      exact ⟨_, _, (given_opens c _).fail, .inl rfl, by simp, by simp⟩
    | ok target =>
      cases target with
      | socket addr =>
        refine ⟨_, _, (given_opens c _).compute (holds_performs keys) (.pure _ _), .inl rfl, by simp, ?_⟩
        exact fun _ _ hnot => absurd ⟨bind, addr, hbind, htarget⟩ hnot
      | ip ip =>
        refine ⟨_, _, (given_opens c _).read (holds_performs keys)
          (hport.compute (holds_performs keys) (.pure _ _)), .inr rfl, by simp, ?_⟩
        rintro addrs h -
        obtain rfl := Except.ok.inj h
        exact ⟨rfl, bindIp_atPort ip _⟩
  | none =>
    dsimp only
    cases boot.bindArgs.bindInterface with
    | some interface =>
      dsimp only
      cases hlookup : lookupInterfaceAddrs boot.interfaces interface with
      | error e =>
        exact ⟨_, _, hport.compute (holds_performs keys) (given_opens _ _).fail, .inr rfl, by simp,
          by simp⟩
      | ok addrs =>
        refine ⟨_, _, hport.compute (holds_performs keys)
          ((given_opens _ _).compute (holds_performs keys) (.pure _ _)), .inr rfl, by simp, ?_⟩
        rintro addrs h -
        obtain rfl := Except.ok.inj h
        exact ⟨rfl, bindInterface_atPort (lookupInterfaceAddrs_ne_nil hlookup) _⟩
    | none =>
      refine ⟨_, _, hport.compute (holds_performs keys) (.pure _ _), .inr rfl, by simp, ?_⟩
      rintro addrs h -
      obtain rfl := Except.ok.inj h
      exact ⟨rfl, bindEverywhere_atPort _⟩

def recordWrites : Except String (Ticket × List ConfigWrite) → List Transaction
  | .ok (_, writes) => writes.map .saveConfig
  | .error _ => []

theorem saveTicket_opens (keys : Keys codecs) (ticket : Ticket) (c : Contents) :
    Opens codecs c (saveTicket codecs ticket) (.ok ticket)
      (recordWrites (.ok (ticket, [.topic ticket.topic, .ticketRnum ticket.rnum]))) := by
  have htopic : Opens codecs c (commit codecs (.saveConfig (.topic ticket.topic)))
      (.ok ()) [.saveConfig (.topic ticket.topic)] := .transact _ _
  exact htopic.bind (holds_performs keys)
    (Gives.compute (holds_performs keys) (.transact _ _) (.pure _ _))

theorem loadTopic_opens (c : Contents) :
    Opens codecs c (load fun db => db.loadConfig topicIdFormat "topic") (.ok c.topic) [] :=
  load_opens fun _ hdb => loadConfig_eq hdb.topic

theorem loadRnum_opens (c : Contents) :
    Opens codecs c (load fun db => db.loadConfig byteSeq "ticket_rnum")
      (.ok c.ticketRnum) [] :=
  load_opens fun _ hdb => loadConfig_eq hdb.ticketRnum

theorem openTicket_opens (boot : Boot keys) (argTicket : Option Ticket) (me : Node) (c : Contents) :
    let found := networkTicket boot.args argTicket (c.storage keys) me boot.env
    Opens codecs c (openTicket boot argTicket me)
      ((found.map (·.1)).mapError .other) (recordWrites found) := by
  have hload {α : Type} {f : Option TopicId → Option (List UInt8) → StartSession α}
      {x : Except StartError α} {ws : List Transaction} (h : Opens codecs c (f c.topic c.ticketRnum) x ws) :
      Opens codecs c (do
        let topic ← load fun db => db.loadConfig topicIdFormat "topic"
        let rnum ← load fun db => db.loadConfig byteSeq "ticket_rnum"
        f topic rnum) x ws :=
    (loadTopic_opens c).read (holds_performs keys) ((loadRnum_opens c).read (holds_performs keys) h)
  unfold openTicket networkTicket Contents.storage
  dsimp only
  split
  · refine hload ?_
    cases c.topic with
    | none => exact saveTicket_opens keys _ c
    | some topic =>
      cases c.ticketRnum with
      | none => exact saveTicket_opens keys _ c
      | some rnum => exact .pure c _
  · cases argTicket with
    | some ticket => exact saveTicket_opens keys ticket c
    | none =>
      refine hload ?_
      cases c.topic with
      | none => exact given_opens c _
      | some topic =>
        cases c.ticketRnum with
        | none => exact given_opens c _
        | some rnum => exact .pure c _

theorem startTables_congr {nodes nodes' : List Node} (hmem : ∀ node, node ∈ nodes ↔ node ∈ nodes')
    (hids : ∀ n ∈ nodes, ∀ n' ∈ nodes, n.nodeId = n'.nodeId → n = n') (pk : EndpointId)
    (invitorNode : Option Node) (iter : IterOrder) :
    startTables pk invitorNode iter nodes' = startTables pk invitorNode iter nodes := by
  have hcollect : collectNodes (persistedDaemons pk nodes') =
      collectNodes (persistedDaemons pk nodes) := by
    refine insertAll_values (fun id node h => (getElem?_collectNodes h).2) fun node => ?_
    rw [mem_persistedDaemons, ← hmem, ← mem_persistedDaemons]
    constructor
    · intro h
      refine ⟨node.nodeId, getElem?_insertAll_of_mem (fun other hother heq => ?_) h⟩
      exact hids other (mem_persistedDaemons.mp hother).1 node (mem_persistedDaemons.mp h).1 heq
    · rintro ⟨id, h⟩
      exact (getElem?_collectNodes h).1
  simp only [startTables, startBootstrapNodes, startTrustedNodes, startStaticProvider, hcollect]

theorem mem_storage_loadNodes {c : Contents} {node : Node} :
    node ∈ (c.storage keys).loadNodes ↔ ∃ id : EndpointId, c.nodes[id]? = some node := by
  simp [mem_loadNodes, Contents.storage]

theorem loadTables_opens (keys : Keys codecs) (c : Contents) (pk : EndpointId) (invitorNode : Option Node)
    (iter : IterOrder) :
    Opens codecs c (load fun db => db.loadNodes.map (startTables pk invitorNode iter))
      (.ok (startTables pk invitorNode iter (c.storage keys).loadNodes)) [] := by
  refine load_opens fun db hdb => ?_
  obtain ⟨nodes, hnodes, hmem⟩ := hdb.loadNodes
  rw [hnodes]
  refine congrArg Except.ok (startTables_congr ?_ ?_ pk invitorNode iter)
  · intro node
    rw [mem_storage_loadNodes, hmem]
  · intro n hn n' hn' heq
    obtain ⟨id, hid⟩ := mem_storage_loadNodes.mp hn
    obtain ⟨id', hid'⟩ := mem_storage_loadNodes.mp hn'
    rw [← hdb.keyed id n hid, heq, hdb.keyed id' n' hid'] at hid
    exact Option.some.inj (hid.symm.trans hid')

theorem Holds.storage {db : Database} {c : Contents} (keys : Keys codecs) (h : Holds codecs db c) :
    db.storage keys = .ok (c.storage keys) := by
  obtain ⟨nodes, hnodes, -⟩ := h.loadNodes
  simp only [Database.storage, h.loadSecret, loadConfig_eq h.topic, loadConfig_eq h.ticketRnum,
    hnodes, h.collectNodes hnodes, bind, Except.bind, pure, Except.pure, Contents.storage,
    Option.map_map]
  rfl

/-! The whole start. -/

def afterClear (boot : Boot keys) (c : Contents) : Contents :=
  if boot.args.resetStorage then .empty else c

def openingWrites (boot : Boot keys) (c : Contents) : List Transaction :=
  (if boot.args.resetStorage then [.clear] else []) ++ secretWrites boot (afterClear boot c)

def bootWrites (boot : Boot keys) (c : Contents) (port : List Transaction) : List Transaction :=
  openingWrites boot c ++ port ++
    (configWrites codecs boot.args (c.storage keys) boot.env).map .saveConfig

/-- How a start on these contents ends, and what it commits. -/
structure StartsAs (boot : Boot keys) (c : Contents) (x : Except StartError (Context × BindAddrs))
    (ws : List Transaction) : Prop where
  commits : ∃ port later, (port = [] ∨ port = portWrites boot (afterClear boot c)) ∧
    bootWrites boot c port = ws ++ later ∧
    ∀ up, x = .ok up → later = [] ∧
      (¬ boot.NamesPort → port = portWrites boot (afterClear boot c))
  loads : ∀ e, x ≠ .error (.load e)
  context : ∀ ctx addrs, x = .ok (ctx, addrs) →
    initNetwork codecs boot.args (c.storage keys) boot.env = .ok ctx
  atPort : ∀ ctx addrs, x = .ok (ctx, addrs) → ¬ boot.NamesPort →
    addrs.AtPort ((afterClear boot c).bindPort.getD boot.drawnPort).toBitVec

theorem StartsAs.failed {boot : Boot keys} {c : Contents} {e : StartError}
    {port ws later : List Transaction} (hload : ∀ f, e ≠ .load f)
    (hport : port = [] ∨ port = portWrites boot (afterClear boot c))
    (hws : bootWrites boot c port = ws ++ later) : StartsAs boot c (.error e) ws where
  commits := ⟨port, later, hport, hws, by simp⟩
  loads f h := hload f (Except.error.inj h)
  context _ _ h := by cases h
  atPort _ _ h := by cases h

theorem commitIf_opens (condition : Bool) (w : Transaction) (c : Contents) :
    Opens codecs c (commitIf codecs condition w) (.ok ()) (if condition then [w] else []) := by
  cases condition with
  | true => exact .transact c w
  | false => exact .pure c ()

theorem openingWrites_foldl (boot : Boot keys) (c : Contents) :
    (openingWrites boot c).foldl Contents.perform c =
      (secretWrites boot (afterClear boot c)).foldl Contents.perform (afterClear boot c) := by
  unfold openingWrites afterClear
  cases boot.args.resetStorage <;> rfl

theorem opening_bindPort (boot : Boot keys) (c : Contents) :
    ((openingWrites boot c).foldl Contents.perform c).bindPort = (afterClear boot c).bindPort := by
  rw [openingWrites_foldl, secretWrites]
  split <;> rfl

theorem networkTicket_congr {args : DaemonArgs} {argTicket : Option Ticket} {s s' : Storage}
    {me : Node} {env : StartReadings} (htopic : s.topic = s'.topic)
    (hrnum : s.ticketRnum = s'.ticketRnum) :
    networkTicket args argTicket s me env = networkTicket args argTicket s' me env := by
  simp only [networkTicket, htopic, hrnum]

theorem openTables_fails {boot : Boot keys} {argTicket : Option Ticket} {pk : EndpointId}
    {addrs : BindAddrs} {c : Contents} {e : String}
    (hfound : networkTicket boot.args argTicket (c.storage keys)
      (boot.me pk (argTicket.map (·.invitor))) boot.env = .error e) :
    Opens codecs c (boot.openTables pk argTicket addrs) (.error (.other e)) [] := by
  have hticket := openTicket_opens boot argTicket (boot.me pk (argTicket.map (·.invitor))) c
  rw [hfound] at hticket
  exact hticket.fail

theorem openTables_opens {boot : Boot keys} {argTicket : Option Ticket} {pk : EndpointId}
    {addrs : BindAddrs} {c : Contents} {ticket : Ticket} {writes : List ConfigWrite}
    (hfound : networkTicket boot.args argTicket (c.storage keys)
      (boot.me pk (argTicket.map (·.invitor))) boot.env = .ok (ticket, writes)) :
    let stored := ((writes.map Transaction.saveConfig).foldl Contents.perform c).storage keys
    Opens codecs c (boot.openTables pk argTicket addrs)
      ((boot.joined.mapError StartError.other).map fun _ =>
        (boot.context (boot.me pk (argTicket.map (·.invitor))) ticket stored
          (startTables pk (argTicket.map (·.invitor)) boot.env.iter stored.loadNodes), addrs))
      (writes.map .saveConfig) := by
  have hticket := openTicket_opens boot argTicket (boot.me pk (argTicket.map (·.invitor))) c
  rw [hfound] at hticket
  refine hticket.compute (holds_performs keys) ((loadTables_opens keys _ _ _ _).read (holds_performs keys) ?_)
  cases boot.joined with
  | error e => exact (given_opens _ _).fail
  | ok joined =>
    exact (given_opens _ _).read (holds_performs keys)
      ((load_opens fun _ hdb => hdb.storage keys).read (holds_performs keys) (.pure _ _))

theorem afterClear_storage (boot : Boot keys) (c : Contents) :
    (afterClear boot c).storage keys = afterReset boot.args (c.storage keys) := by
  unfold afterClear afterReset
  split <;> rfl

theorem ownId_eq (boot : Boot keys) (c : Contents) :
    ((afterClear boot c).secretKey.map keys.publicKey).getD (keys.publicKey boot.secretKey) =
      ownId boot.args (c.storage keys) boot.env := by
  have hsecret := congrArg Storage.secret (afterClear_storage boot c)
  rw [ownId, boot.drawn]
  exact congrArg (fun s : Option EndpointId => s.getD (keys.publicKey boot.secretKey)) hsecret

theorem before_ticket (boot : Boot keys) (c : Contents) {port : List Transaction}
    (hport : port = [] ∨ port = portWrites boot (afterClear boot c)) :
    ((openingWrites boot c ++ port).foldl Contents.perform c).topic = (afterClear boot c).topic ∧
      ((openingWrites boot c ++ port).foldl Contents.perform c).ticketRnum =
        (afterClear boot c).ticketRnum := by
  rw [List.foldl_append, openingWrites_foldl]
  unfold secretWrites
  rcases hport with rfl | rfl
  · split <;> exact ⟨rfl, rfl⟩
  · unfold portWrites
    split <;> split <;> exact ⟨rfl, rfl⟩

/-- What a transaction of a start is to the rest of the program; it does not see the port. -/
def startWrite? (keys : Keys codecs) : Transaction → Option StartWrite
  | .clear => some .clear
  | .saveSecret sk => some (.secret (keys.publicKey sk))
  | .saveConfig write => some (.config write)
  | .saveBindPort _ | .saveNode _ | .batchSaveNodes _ | .removeNode _ => none

def Transaction.OfStart : Transaction → Prop
  | .saveNode _ | .batchSaveNodes _ | .removeNode _ => False
  | .clear | .saveSecret _ | .saveBindPort _ | .saveConfig _ => True

theorem storage_foldl (keys : Keys codecs) {ws : List Transaction} (h : ∀ w ∈ ws, w.OfStart)
    (c : Contents) :
    (ws.foldl Contents.perform c).storage keys =
      (ws.filterMap (startWrite? keys)).foldl Storage.startWrite (c.storage keys) := by
  induction ws generalizing c with
  | nil => rfl
  | cons w ws ih =>
    have hrest := ih (fun v hv => h v (List.mem_cons_of_mem w hv)) (c.perform w)
    rw [List.foldl_cons, hrest]
    cases w with
    | clear | saveSecret _ | saveBindPort _ => rfl
    | saveConfig write => cases write <;> rfl
    | saveNode _ | batchSaveNodes _ | removeNode _ => exact (h _ List.mem_cons_self).elim

section BootWrites
variable {boot : Boot keys} {c : Contents} {port : List Transaction}
  (hport : port = [] ∨ port = portWrites boot (afterClear boot c))
include hport

theorem mem_bootWrites {w : Transaction} (h : w ∈ bootWrites boot c port) :
    (w = .clear ∧ boot.args.resetStorage = true) ∨
      (w = .saveSecret boot.secretKey ∧ (afterClear boot c).secretKey = none) ∨
      (w = .saveBindPort boot.drawnPort ∧ (afterClear boot c).bindPort = none) ∨
      ∃ write, w = .saveConfig write := by
  simp only [bootWrites, openingWrites, List.mem_append, List.mem_map] at h
  rcases h with ((h | h) | h) | ⟨write, -, rfl⟩
  · split at h
    · exact .inl ⟨List.mem_singleton.mp h, ‹_›⟩
    · contradiction
  · unfold secretWrites at h
    split at h
    · rename_i hnew
      rw [Bool.and_eq_true, Option.isNone_iff_eq_none] at hnew
      exact .inr (.inl ⟨List.mem_singleton.mp h, hnew.1⟩)
    · contradiction
  · rcases hport with rfl | rfl
    · contradiction
    · unfold portWrites at h
      split at h
      · rename_i hnew
        rw [Option.isNone_iff_eq_none] at hnew
        exact .inr (.inr (.inl ⟨List.mem_singleton.mp h, hnew⟩))
      · contradiction
  · exact .inr (.inr (.inr ⟨write, rfl⟩))

theorem bootWrites_ofStart : ∀ w ∈ bootWrites boot c port, w.OfStart := by
  intro w hw
  rcases mem_bootWrites hport hw with ⟨rfl, -⟩ | ⟨rfl, -⟩ | ⟨rfl, -⟩ | ⟨write, rfl⟩ <;> trivial

theorem bootWrites_startWrites :
    (bootWrites boot c port).filterMap (startWrite? keys) =
      startWrites codecs boot.args (c.storage keys) boot.env := by
  have hportless : port.filterMap (startWrite? keys) = [] := by
    rcases hport with rfl | rfl
    · rfl
    · unfold portWrites
      split <;> rfl
  have hconfig (writes : List ConfigWrite) :
      (writes.map Transaction.saveConfig).filterMap (startWrite? keys) =
        writes.map StartWrite.config := by
    rw [List.filterMap_map]
    exact congrFun (List.filterMap_eq_map' (f := StartWrite.config)) writes
  have hopening : (openingWrites boot c).filterMap (startWrite? keys) =
      identityWrites boot.args (c.storage keys) boot.env := by
    have hsecret : (afterReset boot.args (c.storage keys)).secret =
        (afterClear boot c).secretKey.map keys.publicKey := by
      rw [← afterClear_storage]
      rfl
    simp only [openingWrites, identityWrites, List.filterMap_append, secretWrites, hsecret,
      Option.isNone_map, ← ownId_eq]
    congr 1
    · split <;> rfl
    · split
      · rename_i hnew
        rw [Bool.and_eq_true, Option.isNone_iff_eq_none] at hnew
        simp [hnew.1, startWrite?]
      · rfl
  rw [bootWrites, List.filterMap_append, List.filterMap_append, hportless, hconfig, hopening,
    List.append_nil, startWrites]

end BootWrites

theorem startTicket_eq {boot : Boot keys} {c : Contents} {argTicket : Option Ticket}
    (hticket : parseArgTicket codecs boot.args = .ok argTicket) :
    startTicket codecs boot.args (c.storage keys) boot.env =
      networkTicket boot.args argTicket (afterReset boot.args (c.storage keys))
        (boot.me (ownId boot.args (c.storage keys) boot.env) (argTicket.map (·.invitor))) boot.env := by
  simp only [startTicket, hticket, bind, Except.bind, Boot.me, Option.map_map]

theorem initNetwork_eq {boot : Boot keys} {c : Contents} {argTicket : Option Ticket} {ticket : Ticket}
    {writes : List ConfigWrite} (hticket : parseArgTicket codecs boot.args = .ok argTicket)
    (hfound : startTicket codecs boot.args (c.storage keys) boot.env = .ok (ticket, writes)) :
    let pk := ownId boot.args (c.storage keys) boot.env
    let stored := (startWrites codecs boot.args (c.storage keys) boot.env).foldl
      Storage.startWrite (c.storage keys)
    initNetwork codecs boot.args (c.storage keys) boot.env =
      .ok (boot.context (boot.me pk (argTicket.map (·.invitor))) ticket stored
        (startTables pk (argTicket.map (·.invitor)) boot.env.iter stored.loadNodes)) := by
  have hwrites : configWrites codecs boot.args (c.storage keys) boot.env = writes := by
    rw [configWrites, hfound]
  have hstored : (startWrites codecs boot.args (c.storage keys) boot.env).foldl
      Storage.startWrite (c.storage keys) = writes.foldl Storage.saveConfig
        (if (afterReset boot.args (c.storage keys)).secret.isNone && boot.env.secretSaved then
          { afterReset boot.args (c.storage keys) with
            secret := some (ownId boot.args (c.storage keys) boot.env) }
        else afterReset boot.args (c.storage keys)) := by
    rw [startWrites, List.foldl_append, identityWrites_foldl, hwrites, foldl_config]
  dsimp only
  rw [hstored]
  rw [startTicket_eq hticket, ← networkTicket_secret] at hfound
  unfold initNetwork
  simp only [hticket, bind, Except.bind]
  split
  · rename_i e he
    exact absurd (he.symm.trans hfound) (by simp)
  · rename_i found hok
    obtain rfl := Except.ok.inj (hok.symm.trans hfound)
    rfl

theorem openEndpoint_opens (boot : Boot keys) (c : Contents) :
    ∃ x port, Opens codecs c boot.openEndpoint x port ∧
      (port = [] ∨ port = portWrites boot c) ∧ (∀ e, x ≠ .error (.load e)) ∧
      ∀ addrs, x = .ok addrs → ¬ boot.NamesPort →
        port = portWrites boot c ∧ addrs.AtPort (c.bindPort.getD boot.drawnPort).toBitVec := by
  unfold Boot.openEndpoint
  cases boot.relays with
  | error e => exact ⟨_, [], (given_opens c _).fail, .inl rfl, by simp, by simp⟩
  | ok _ =>
    obtain ⟨found, port, hchoose, hport, hload, hat⟩ := chooseBindAddrs_opens boot c
    cases found with
    | error e =>
      exact ⟨_, port, .given_ok hchoose.fail, hport, fun f hf => hload f (congrArg _ (Except.error.inj hf)),
        by simp⟩
    | ok addrs =>
      cases hbind : bindWithFallback boot.bindEndpoint addrs with
      | error e =>
        refine ⟨.error (.bind e), port, .given_ok (hchoose.compute (holds_performs keys) ?_), hport,
          by simp, by simp⟩
        rw [hbind]
        exact (given_opens _ _).fail
      | ok _ =>
        refine ⟨.ok addrs, port, .given_ok (hchoose.compute (holds_performs keys) ?_), hport, by simp, ?_⟩
        · rw [hbind]
          exact .given_ok (.pure _ _)
        · intro found hfound
          obtain rfl := Except.ok.inj hfound
          exact hat _ rfl

theorem openNetwork_opens (boot : Boot keys) (pk : EndpointId) (c : Contents) :
    ∃ x port ws, Opens codecs c (boot.openNetwork pk) x (port ++ ws) ∧
      (port = [] ∨ port = portWrites boot c) ∧
      ((ws = [] ∧ ∃ e, x = .error e ∧ ∀ f, e ≠ .load f) ∨
        ∃ argTicket ticket writes addrs, parseArgTicket codecs boot.args = .ok argTicket ∧
          networkTicket boot.args argTicket ((port.foldl Contents.perform c).storage keys)
            (boot.me pk (argTicket.map (·.invitor))) boot.env = .ok (ticket, writes) ∧
          ws = writes.map .saveConfig ∧
          (¬ boot.NamesPort → port = portWrites boot c ∧
            addrs.AtPort (c.bindPort.getD boot.drawnPort).toBitVec) ∧
          let stored := ((port ++ ws).foldl Contents.perform c).storage keys
          x = (boot.joined.mapError StartError.other).map fun _ =>
            (boot.context (boot.me pk (argTicket.map (·.invitor))) ticket stored
              (startTables pk (argTicket.map (·.invitor)) boot.env.iter stored.loadNodes), addrs)) := by
  unfold Boot.openNetwork
  cases hticket : parseArgTicket codecs boot.args with
  | error e => exact ⟨_, [], [], (given_opens c _).fail, .inl rfl, .inl ⟨rfl, _, rfl, by simp⟩⟩
  | ok argTicket =>
    obtain ⟨found, port, hopen, hport, hload, hat⟩ := openEndpoint_opens boot c
    cases found with
    | error e =>
      refine ⟨_, port, [], ?_, hport, .inl ⟨rfl, e, rfl, fun f hf => hload f (congrArg _ hf)⟩⟩
      rw [List.append_nil]
      exact .given_ok hopen.fail
    | ok addrs =>
      cases hfound : networkTicket boot.args argTicket ((port.foldl Contents.perform c).storage keys)
          (boot.me pk (argTicket.map (·.invitor))) boot.env with
      | error e =>
        exact ⟨_, port, [], .given_ok (hopen.bind (holds_performs keys) (openTables_fails hfound)),
          hport, .inl ⟨rfl, .other e, rfl, by simp⟩⟩
      | ok found =>
        obtain ⟨ticket, writes⟩ := found
        refine ⟨_, port, _, .given_ok (hopen.bind (holds_performs keys) (openTables_opens hfound)), hport,
          .inr ⟨argTicket, ticket, writes, addrs, rfl, hfound, rfl, hat addrs rfl, ?_⟩⟩
        rw [List.foldl_append]

/-- Any start, on any contents. -/
theorem start_opens (boot : Boot keys) (c : Contents) :
    ∃ x ws, Opens codecs c boot.start x ws ∧ StartsAs boot c x ws := by
  have hafter : ((if boot.args.resetStorage then [.clear] else []).foldl Contents.perform c) =
      afterClear boot c := by
    unfold afterClear
    split <;> rfl
  obtain ⟨x, port, ws, hopen, hport, hend⟩ := openNetwork_opens boot
    (ownId boot.args (c.storage keys) boot.env) ((openingWrites boot c).foldl Contents.perform c)
  have hidentity : Opens codecs (afterClear boot c) (openIdentity boot)
      (.ok (ownId boot.args (c.storage keys) boot.env)) (secretWrites boot (afterClear boot c)) := by
    have h := openIdentity_opens boot (afterClear boot c)
    rwa [ownId_eq] at h
  have hstart : Opens codecs c boot.start x (openingWrites boot c ++ (port ++ ws)) := by
    rw [openingWrites, List.append_assoc]
    rw [openingWrites_foldl] at hopen
    refine (commitIf_opens _ _ c).bind (holds_performs keys) ?_
    rw [hafter]
    exact hidentity.bind (holds_performs keys) hopen
  have hsame := opening_bindPort boot c
  have hports : portWrites boot ((openingWrites boot c).foldl Contents.perform c) =
      portWrites boot (afterClear boot c) := by
    rw [portWrites, hsame, portWrites]
  rw [hports] at hport
  refine ⟨x, _, hstart, ?_⟩
  rcases hend with ⟨rfl, e, rfl, hload⟩ | ⟨argTicket, ticket, writes, addrs, hticket, hfound, rfl, hat, rfl⟩
  · have hlater : bootWrites boot c port = openingWrites boot c ++ (port ++ []) ++
        (configWrites codecs boot.args (c.storage keys) boot.env).map .saveConfig := by
      rw [List.append_nil, bootWrites]
    exact .failed hload hport hlater
  · -- The ticket is that of the contents the start began with.
    have hbefore := before_ticket boot c hport
    rw [List.foldl_append] at hbefore
    have hfound' : startTicket codecs boot.args (c.storage keys) boot.env = .ok (ticket, writes) := by
      rw [startTicket_eq hticket, ← hfound, ← afterClear_storage]
      exact networkTicket_congr hbefore.1.symm hbefore.2.symm
    have hwrites : bootWrites boot c port =
        openingWrites boot c ++ (port ++ writes.map .saveConfig) := by
      rw [bootWrites, configWrites, hfound', List.append_assoc]
    have hstored : ((port ++ writes.map Transaction.saveConfig).foldl Contents.perform
          ((openingWrites boot c).foldl Contents.perform c)).storage keys =
        (startWrites codecs boot.args (c.storage keys) boot.env).foldl Storage.startWrite
          (c.storage keys) := by
      rw [← List.foldl_append, ← hwrites, storage_foldl keys (bootWrites_ofStart hport),
        bootWrites_startWrites hport]
    have hcontext := initNetwork_eq hticket hfound'
    rw [hsame, hports] at hat
    rw [hstored]
    cases boot.joined with
    | error e =>
      exact .failed (by simp) hport (by rw [hwrites, List.append_nil])
    | ok _ =>
      refine ⟨⟨port, [], hport, by rw [hwrites, List.append_nil], fun _ _ => ⟨rfl, fun h => (hat h).1⟩⟩,
        (fun f hf => by cases hf), ?_, ?_⟩
      · intro ctx addrs' h
        obtain ⟨rfl, rfl⟩ := Prod.mk.inj (Except.ok.inj h)
        exact hcontext
      · intro ctx addrs' h hnot
        obtain ⟨rfl, rfl⟩ := Prod.mk.inj (Except.ok.inj h)
        exact (hat hnot).2

end Specs
end P2pDdns
