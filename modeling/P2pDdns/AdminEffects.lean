import P2pDdns.Commands

/-!
What a login and the two commands that change the tables do to the records of others: which
logins overwrite a daemon, which tickets take a record back in time, and the one node that a
removal removes.
-/

set_option autoImplicit false

namespace P2pDdns
open Std FiniteMaps

variable {codecs : Codecs}

/-! A login. -/

def KeepsPeers (before after : Daemon) : Prop :=
  ∀ (id : EndpointId) node, before.ctx.nodes[id]? = some node → isDaemonNode node = true →
    after.ctx.nodes[id]? = some node

/-- The login is allowed with the key of a daemon that is not registered as a client. -/
def TakesPeer (codecs : Codecs) (d : Daemon) (authReq : AuthRequest) (mode : AuthMode) : Prop :=
  authAllowed codecs d.ctx authReq mode = true ∧
    ∃ pk, clientKey codecs authReq = some pk ∧ d.clients.isClientNode pk = false ∧
      ∃ node, d.ctx.nodes[pk]? = some node ∧ isDaemonNode node = true

theorem authenticateAndRegister_cases (d : Daemon) (authReq : AuthRequest) (mode : AuthMode)
    (env : AuthReadings) :
    ((authenticateAndRegister codecs d authReq mode env).1 = d ∧
      ¬ TakesPeer codecs d authReq mode) ∨
    ∃ pk, authAllowed codecs d.ctx authReq mode = true ∧ clientKey codecs authReq = some pk ∧
      d.clients.isClientNode pk = false ∧
      (authenticateAndRegister codecs d authReq mode env).1.ctx.nodes =
        d.ctx.nodes.insert pk (clientNode codecs d.ctx.me pk authReq env.recordNow) := by
  unfold authenticateAndRegister
  cases hallowed : authAllowed codecs d.ctx authReq mode with
  | false => exact .inl ⟨by simp, fun h => by simp [TakesPeer, hallowed] at h⟩
  | true =>
    cases hkey : clientKey codecs authReq with
    | none =>
      refine .inl ⟨by simp, ?_⟩
      rintro ⟨-, pk, hpk, -⟩
      simp [hkey] at hpk
    | some pk =>
      cases hclient : d.clients.isClientNode pk with
      | true =>
        refine .inl ⟨by simp [hclient], ?_⟩
        rintro ⟨-, pk', hpk, hnot, -⟩
        obtain rfl := Option.some.inj (hkey.symm.trans hpk)
        rw [hclient] at hnot
        contradiction
      | false => exact .inr ⟨pk, rfl, rfl, hclient, by simp [hclient]⟩

theorem clientNode_isClient (me : Node) (pk : EndpointId) (authReq : AuthRequest) (now : Nat) :
    isDaemonNode (clientNode codecs me pk authReq now) = false := by
  simp [isDaemonNode, clientNode]

/-- A login leaves the daemons alone exactly if it is not made with the key of one. -/
theorem login_keeps_peers_iff (d : Daemon) (authReq : AuthRequest) (mode : AuthMode)
    (env : AuthReadings) :
    KeepsPeers d (authenticateAndRegister codecs d authReq mode env).1 ↔
      ¬ TakesPeer codecs d authReq mode := by
  rcases @authenticateAndRegister_cases codecs d authReq mode env with
    ⟨hsame, hnot⟩ | ⟨pk, hallowed, hkey, hclient, hnodes⟩
  · rw [hsame]
    exact iff_of_true (fun _ _ h _ => h) hnot
  · rw [KeepsPeers, hnodes]
    constructor
    · rintro hkeeps ⟨-, pk', hpk, -, node, hnode, hd⟩
      obtain rfl := Option.some.inj (hkey.symm.trans hpk)
      have hkept := hkeeps pk node hnode hd
      rw [getElem?_insert_self, Option.some.injEq] at hkept
      rw [← hkept, clientNode_isClient] at hd
      contradiction
    · intro hnot id node hnode hd
      rw [getElem?_insert_ne _ _ ?_]
      · exact hnode
      · rintro rfl
        exact hnot ⟨hallowed, pk, hkey, hclient, node, hnode, hd⟩

/-! A ticket. -/

/-- Neither the active record of the ticket's node nor its trusted copy is newer than the
ticket's. -/
def UpToDate (ctx : Context) (node : Node) : Prop :=
  (∀ old, ctx.nodes[node.nodeId]? = some old → old.lastHeartbeat ≤ node.lastHeartbeat) ∧
    ∀ old, ctx.trustedNodes[node.nodeId]? = some old → old.lastHeartbeat ≤ node.lastHeartbeat

/-- Nothing known of the ticket's node is lost to an older record. -/
structure StaysCurrent (before after : Context) (node : Node) : Prop where
  heartbeat : ∀ old, before.nodes[node.nodeId]? = some old →
    ∃ new, after.nodes[node.nodeId]? = some new ∧ old.lastHeartbeat ≤ new.lastHeartbeat
  facts : ∀ old, before.nodes[node.nodeId]? = some old → node.lastHeartbeat < old.lastHeartbeat →
    ∃ new, after.nodes[node.nodeId]? = some new ∧ new.domain = old.domain ∧
      new.services = old.services ∧
      ∀ sock, TransportAddr.ip sock ∈ old.addr.addrs → TransportAddr.ip sock ∈ new.addr.addrs
  persisted : ∀ trusted stored, after.trustedNodes[node.nodeId]? = some trusted →
    after.storage.nodes[node.nodeId]? = some stored →
    trusted.lastHeartbeat ≤ stored.lastHeartbeat

theorem trustDaemonNode_upToDate {ctx : Context} {node : Node} :
    (∀ trusted, (ctx.trustDaemonNode node).trustedNodes[node.nodeId]? = some trusted →
      trusted.lastHeartbeat ≤ node.lastHeartbeat) ↔
    ∀ old, ctx.trustedNodes[node.nodeId]? = some old →
      old.lastHeartbeat ≤ node.lastHeartbeat := by
  rcases Context.trustDaemonNode_cases ctx node with ⟨-, heq⟩ | ⟨-, -, heq⟩
  · rw [heq]
  · rw [heq]
    dsimp only
    cases hold : ctx.trustedNodes[node.nodeId]? with
    | none => simp
    | some old =>
      simp only [Option.some.injEq, forall_eq']
      by_cases hnewer : old.lastHeartbeat < node.lastHeartbeat
      · rw [mergeNode_newer hnewer, getElem?_insert_self]
        simp [hnewer.le]
      · rw [mergeNode_not_newer hnewer]
        by_cases hid : old.nodeId = node.nodeId
        · simp [hid]
        · rw [getElem?_insert_ne _ _ hid, hold]
          simp

def Context.withAdded (ctx : Context) (node : Node) : Context :=
  (ctx.admitNode node).withStored (ctx.storage.nodes.insert node.nodeId node)

section Added
variable {ctx : Context} {node : Node}

theorem withAdded_active (hme : node.nodeId ≠ ctx.me.nodeId) :
    (ctx.withAdded node).nodes[node.nodeId]? = some node := by
  simp only [Context.withAdded, Context.withStored, admitNode_nodes ctx node hme,
    getElem?_insert_self]

theorem withAdded_stored : (ctx.withAdded node).storage.nodes[node.nodeId]? = some node := by
  simp only [Context.withAdded, Context.withStored, getElem?_insert_self]

theorem withAdded_trustedNodes :
    (ctx.withAdded node).trustedNodes = (ctx.trustDaemonNode node).trustedNodes := by
  simp [Context.withAdded, Context.withStored, Context.admitNode]

theorem withAdded_current_iff (hme : node.nodeId ≠ ctx.me.nodeId) :
    StaysCurrent ctx (ctx.withAdded node) node ↔ UpToDate ctx node := by
  rw [UpToDate, ← trustDaemonNode_upToDate]
  constructor
  · intro hcurrent
    refine ⟨fun old hold => ?_, fun trusted htrusted => ?_⟩
    · obtain ⟨new, hnew, hle⟩ := hcurrent.heartbeat old hold
      obtain rfl := Option.some.inj ((withAdded_active hme).symm.trans hnew)
      exact hle
    · rw [← withAdded_trustedNodes] at htrusted
      exact hcurrent.persisted trusted node htrusted withAdded_stored
  · rintro ⟨hnodes, htrusted⟩
    refine ⟨fun old hold => ?_, fun old hold hlt => ?_, fun trusted stored hafter hstored => ?_⟩
    · exact ⟨node, withAdded_active hme, hnodes old hold⟩
    · exact absurd (hnodes old hold) (Nat.not_le_of_lt hlt)
    · obtain rfl := Option.some.inj (withAdded_stored.symm.trans hstored)
      rw [withAdded_trustedNodes] at hafter
      exact htrusted trusted hafter

end Added

theorem addNode_acked {d : Daemon} {ticket text : String} {env : CommandReadings} {node : Node}
    (hadds : AddsNode codecs d ticket node)
    (hack : (handleCommand codecs d (.addNode ticket) env).1.response = .ack text) :
    (handleCommand codecs d (.addNode ticket) env).2.ctx = d.ctx.withAdded node := by
  simp only [handleCommand] at hack ⊢
  rcases @handleAddNode_cases codecs d ticket env with
    ⟨_, heq, -⟩ | ⟨node', hadds', ⟨_, _, -, heq⟩ | ⟨_, -, heq⟩⟩
  · rw [heq] at hack
    contradiction
  · rw [heq] at hack
    contradiction
  · rw [heq, hadds.unique hadds']
    rfl

/-- An acknowledged ticket takes nothing back in time exactly if nothing newer is known. -/
theorem add_node_current_iff {d : Daemon} {ticket text : String} {env : CommandReadings}
    {node : Node} (hadds : AddsNode codecs d ticket node) (hme : node.nodeId ≠ d.ctx.me.nodeId)
    (hack : (handleCommand codecs d (.addNode ticket) env).1.response = .ack text) :
    StaysCurrent d.ctx (handleCommand codecs d (.addNode ticket) env).2.ctx node ↔
      UpToDate d.ctx node := by
  rw [addNode_acked hadds hack]
  exact withAdded_current_iff hme

/-! A removal. -/

/-- The id of an active daemon or a trusted one, with a text that starts as the argument does,
whatever the case of the letters. -/
def Candidate (codecs : Codecs) (d : Daemon) (id : String) (nodeId : EndpointId) : Prop :=
  ((nodeId ∈ d.ctx.nodes ∧ d.clients.isClientNode nodeId = false) ∨
    nodeId ∈ d.ctx.trustedNodes) ∧
  startsWith (codecs.toLowercase (codecs.endpointIdToString nodeId)) (codecs.toLowercase id) = true

/-- The argument is a full id, or the text of this candidate alone starts with it. -/
def Names (codecs : Codecs) (d : Daemon) (id : String) (nodeId : EndpointId) : Prop :=
  codecs.parseEndpointId id = some nodeId ∨
    codecs.parseEndpointId id = none ∧ Candidate codecs d id nodeId ∧
      ∀ other, Candidate codecs d id other → other = nodeId

/-- The id is in none of the four stores, and everything else in them is as before. -/
structure RemovedOnly (before after : Daemon) (nodeId : EndpointId) : Prop where
  nodes : ∀ id : EndpointId,
    after.ctx.nodes[id]? = if id = nodeId then none else before.ctx.nodes[id]?
  trustedNodes : ∀ id : EndpointId,
    after.ctx.trustedNodes[id]? = if id = nodeId then none else before.ctx.trustedNodes[id]?
  clients : ∀ id : EndpointId,
    after.clients.clients[id]? = if id = nodeId then none else before.clients.clients[id]?
  storage : ∀ id : EndpointId,
    after.ctx.storage.nodes[id]? = if id = nodeId then none else before.ctx.storage.nodes[id]?
  config : { after.ctx.storage with nodes := before.ctx.storage.nodes } = before.ctx.storage

section Removal
variable {d : Daemon} {id : String} {iter : IterOrder} {nodeId : EndpointId}

theorem mem_prefixMatches :
    nodeId ∈ prefixMatches codecs d id iter ↔ Candidate codecs d id nodeId := by
  have hkeys (m : DashMap EndpointId Node) : nodeId ∈ m ↔ ∃ node, (nodeId, node) ∈ iter.walk m := by
    simp only [IterOrder.mem_walk]
    constructor
    · exact exists_getElem?
    · rintro ⟨node, hnode⟩
      exact mem_of_getElem? hnode
  rw [prefixMatches, mem_foldl_addNew]
  simp only [Context.trustedNodeIdsWithPrefix, List.mem_map, List.mem_filter, Prod.exists,
    exists_and_right, exists_eq_right, Candidate, hkeys, Bool.not_eq_true', or_and_right]

theorem prefixMatches_nodup : (prefixMatches codecs d id iter).Nodup :=
  foldl_addNew_nodup ((iter.walk_keys_nodup d.ctx.nodes).sublist
    ((List.filter_sublist.trans List.filter_sublist).map _))

theorem resolveNodeId_ok_iff :
    resolveNodeId codecs d id iter = .ok nodeId ↔ Names codecs d id nodeId := by
  unfold resolveNodeId Names
  cases hparse : codecs.parseEndpointId id with
  | some full => simp
  | none =>
    have hmem (other : EndpointId) :
        Candidate codecs d id other ↔ other ∈ prefixMatches codecs d id iter :=
      mem_prefixMatches.symm
    have hnodup := @prefixMatches_nodup codecs d id iter
    simp only [reduceCtorEq, false_or, true_and, hmem]
    split
    · rename_i hnil
      simp [hnil]
    · rename_i only hone
      simp [hone, eq_comm]
    · rename_i hnil hone
      refine iff_of_false (by simp) ?_
      rintro ⟨hin, hunique⟩
      -- a list without repetitions that has one member is a singleton
      have hsingle : prefixMatches codecs d id iter = [nodeId] :=
        List.perm_singleton.mp ((List.perm_ext_iff_of_nodup hnodup (List.nodup_singleton _)).mpr
          fun other => by
            rw [List.mem_singleton]
            exact ⟨hunique other, fun h => h ▸ hin⟩)
      exact hone nodeId hsingle

theorem removesNode_iff :
    RemovesNode codecs d id iter nodeId ↔
      Names codecs d id nodeId ∧ nodeId ≠ d.ctx.me.nodeId := by
  rw [RemovesNode, resolveNodeId_ok_iff]

end Removal

/-- With a storage that works, a removal removes the one node its argument names, from all four
stores; where it names none, or this daemon, it answers with an error and removes nothing. -/
theorem remove_node_exact {d : Daemon} {id : String} {env : CommandReadings}
    (hstorage : env.fault = none) :
    (∃ text nodeId, (handleCommand codecs d (.removeNode id) env).1.response = .ack text ∧
      Names codecs d id nodeId ∧ nodeId ≠ d.ctx.me.nodeId ∧
      RemovedOnly d (handleCommand codecs d (.removeNode id) env).2 nodeId) ∨
    (∃ text, (handleCommand codecs d (.removeNode id) env).1.response = .error text ∧
      (∀ nodeId, Names codecs d id nodeId → nodeId = d.ctx.me.nodeId) ∧
      (handleCommand codecs d (.removeNode id) env).2 = d) := by
  simp only [handleCommand]
  rcases @handleRemoveNode_cases codecs d id env with
    ⟨text, heq, hnot⟩ | ⟨nodeId, hremoves, ⟨fault, -, hfault, -⟩ | ⟨text, -, heq⟩⟩
  · rw [heq]
    refine .inr ⟨text, rfl, fun nodeId hnames => ?_, rfl⟩
    by_contra hne
    exact hnot nodeId (removesNode_iff.mpr ⟨hnames, hne⟩)
  · rw [hstorage] at hfault
    contradiction
  · rw [removesNode_iff] at hremoves
    rw [heq]
    exact .inl ⟨text, nodeId, rfl, hremoves.1, hremoves.2,
      getElem?_erase_eq _ nodeId, getElem?_erase_eq _ nodeId, getElem?_erase_eq _ nodeId,
      getElem?_erase_eq _ nodeId, rfl⟩

namespace Sample

def knowsBob : Daemon := (start [record bob "bob" [2] 950]).daemon

def asBob : AuthRequest := ⟨"", some "PUAXw+hDiVqStwqnTRt+vJyYLM8uxJaMwM1V8Sr0Zgw", none⟩

def oldTicket : Ticket := ⟨5, [1, 2, 3, 4], record bob "robert" [] 900⟩

def oldTicketCodecs : Codecs :=
  { Sample.codecs with
    base64Decode := fun text =>
      if text = "b2xk" then .ok [111, 108, 100] else Sample.codecs.base64Decode text
    ticketFromBytes := fun bytes =>
      if bytes = [111, 108, 100] then .ok oldTicket else Sample.codecs.ticketFromBytes bytes }

def commandReadings : CommandReadings := ⟨1001, none, .byId, "10.0.0.1"⟩

theorem oldTicket_adds :
    AddsNode oldTicketCodecs knowsBob "b2xk" (record bob "robert" [] 900) :=
  ⟨oldTicket, rfl, rfl, rfl⟩

theorem oldTicket_current_iff :
    StaysCurrent knowsBob.ctx
        (handleCommand oldTicketCodecs knowsBob (.addNode "b2xk") commandReadings).2.ctx
        (record bob "robert" [] 900) ↔
      UpToDate knowsBob.ctx (record bob "robert" [] 900) :=
  @add_node_current_iff oldTicketCodecs knowsBob "b2xk" "Node added: robert" commandReadings _
    oldTicket_adds (by decide) rfl

def removesBob : CommandOutcome × Daemon :=
  handleCommand Sample.codecs knowsBob (.removeNode "3d40") commandReadings

theorem bob_removed :
    (∃ text nodeId, removesBob.1.response = .ack text ∧
      Names Sample.codecs knowsBob "3d40" nodeId ∧ nodeId ≠ knowsBob.ctx.me.nodeId ∧
      RemovedOnly knowsBob removesBob.2 nodeId) ∨
    (∃ text, removesBob.1.response = .error text ∧
      (∀ nodeId, Names Sample.codecs knowsBob "3d40" nodeId →
        nodeId = knowsBob.ctx.me.nodeId) ∧
      removesBob.2 = knowsBob) :=
  remove_node_exact rfl

/-- Whoever logs in with Bob's public key takes the place of his record. -/
theorem login_overwrites_peer :
    ¬ ∀ (d : Daemon) (authReq : AuthRequest) (mode : AuthMode) (env : AuthReadings),
      KeepsPeers d (authenticateAndRegister Sample.codecs d authReq mode env).1 := by
  intro hclaim
  have hkept := hclaim knowsBob asBob .allowLocalTicketless ⟨1000, 1000⟩ bob
    (record bob "bob" [2] 950) (by decide) (by decide)
  revert hkept
  decide

/-- A ticket older than what is known of Bob takes his record back to it. -/
theorem add_node_goes_back :
    ¬ ∀ (d : Daemon) (ticket text : String) (env : CommandReadings) (node : Node),
      AddsNode oldTicketCodecs d ticket node → node.nodeId ≠ d.ctx.me.nodeId →
      (handleCommand oldTicketCodecs d (.addNode ticket) env).1.response = .ack text →
      StaysCurrent d.ctx (handleCommand oldTicketCodecs d (.addNode ticket) env).2.ctx node := by
  intro hclaim
  have hcurrent := hclaim knowsBob "b2xk" "Node added: robert" commandReadings
    (record bob "robert" [] 900) oldTicket_adds (by decide) rfl
  obtain ⟨new, hnew, hle⟩ := hcurrent.heartbeat (record bob "bob" [2] 950) (by decide)
  have hold : (handleCommand oldTicketCodecs knowsBob (.addNode "b2xk")
      commandReadings).2.ctx.nodes[bob]? = some (record bob "robert" [] 900) := by decide
  obtain rfl := Option.some.inj (hold.symm.trans hnew)
  revert hle
  decide

end Sample
end P2pDdns
