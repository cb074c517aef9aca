import P2pDdns.Presence

/-!
Contact information and the node it is filed under. A sender's own address is given
its id on the way in; a record about someone else keeps the id its address came with.
-/

set_option autoImplicit false

namespace P2pDdns
open Std FiniteMaps NewestWins Relation

variable {codecs : Codecs}

structure ContactTable (ctx : Context) : Prop where
  tables : TrustTable ctx
  nodes : ∀ (id : EndpointId) (node : Node), ctx.nodes[id]? = some node → node.addr.id = id
  trusted : ∀ (id : EndpointId) (node : Node), ctx.trustedNodes[id]? = some node → node.addr.id = id
  fed : ∀ entry ∈ ctx.staticProvider, entry.2.id = entry.1

/-- A record about a third party, or in an added ticket, that the daemon takes over with
the address of another id. -/
def FilesForeignAddr (codecs : Codecs) (d : Daemon) : Event → Prop
  | .received (some signed) env =>
    (d.ctx.args.daemon = false ∨ Passed d.ctx signed env) ∧
      ∃ earlier node later, Syncs signed (earlier ++ node :: later) ∧
        Taken d.ctx earlier node ∧ node.nodeId ≠ signed.sender ∧ node.addr.id ≠ node.nodeId
  | .command client (.addNode ticket) _ =>
    d.clients.checkPermission client "add_node" = true ∧
      ∃ parsed, Ticket.fromStr codecs ticket = .ok parsed ∧ parsed.topic = d.ctx.ticket.topic ∧
        parsed.invitor.nodeId ≠ d.ctx.me.nodeId ∧
        parsed.invitor.addr.id ≠ parsed.invitor.nodeId
  | _ => False

namespace ContactTable
variable {ctx : Context}

theorem insert_nodes (h : ContactTable ctx) {id : EndpointId} {node : Node}
    (ht : TrustTable { ctx with nodes := ctx.nodes.insert id node }) (haddr : node.addr.id = id) :
    ContactTable { ctx with nodes := ctx.nodes.insert id node } where
  tables := ht
  nodes := forall_insert h.nodes haddr
  trusted := h.trusted
  fed := h.fed

theorem erase_nodes (h : ContactTable ctx) (id : EndpointId) :
    ContactTable { ctx with nodes := ctx.nodes.erase id } where
  tables := h.tables.erase_nodes id
  nodes := forall_erase h.nodes id
  trusted := h.trusted
  fed := h.fed

theorem insert_trusted (h : ContactTable ctx) {id : EndpointId} {node : Node}
    (ht : TrustTable { ctx with trustedNodes := ctx.trustedNodes.insert id node })
    (haddr : node.addr.id = id) :
    ContactTable { ctx with trustedNodes := ctx.trustedNodes.insert id node } where
  tables := ht
  nodes := h.nodes
  trusted := forall_insert h.trusted haddr
  fed := h.fed

theorem upsertActiveNode (h : ContactTable ctx) {node : Node}
    (ht : TrustTable (ctx.upsertActiveNode node)) (haddr : node.addr.id = node.nodeId) :
    ContactTable (ctx.upsertActiveNode node) := by
  rcases Context.upsertActiveNode_cases ctx node with ⟨-, heq⟩ | ⟨-, heq⟩
  · rw [heq]
    exact h
  · rw [heq] at ht ⊢
    refine ⟨ht, forall_insert h.nodes haddr, h.trusted, ?_⟩
    intro entry hentry
    rcases List.mem_append.mp hentry with hentry | hentry
    · exact h.fed entry hentry
    · rw [eq_of_mem_feedAddr hentry]
      exact haddr

theorem admitNode (h : ContactTable ctx) {node : Node} (haddr : node.addr.id = node.nodeId) :
    ContactTable (ctx.admitNode node) := by
  have htrust : ContactTable (ctx.trustDaemonNode node) := by
    have ht := h.tables.trustDaemonNode node
    rcases Context.trustDaemonNode_cases ctx node with ⟨-, heq⟩ | ⟨-, -, heq⟩
    · rw [heq]
      exact h
    · -- The trusted copy takes its address id from the incoming record.
      rw [heq] at ht ⊢
      refine h.insert_trusted ht ?_
      rw [mergeNode_addr_id, haddr, h.tables.trustedCopy_nodeId]
  exact htrust.upsertActiveNode (h.tables.admitNode node) haddr

theorem refreshTrustedNode (h : ContactTable ctx) {id : EndpointId} {node : Node}
    (hkey : node.nodeId = id) (haddr : node.addr.id = id) :
    ContactTable (ctx.refreshTrustedNode id node) := by
  have ht := h.tables.refreshTrustedNode hkey
  rcases Context.refreshTrustedNode_cases ctx node id with heq | ⟨-, -, heq⟩
  · rw [heq]
    exact h
  · rw [heq] at ht ⊢
    exact h.insert_trusted ht haddr

theorem heard {start : Daemon} {ctx' : Context} {signed : SignedMessage} {env : Readings}
    (hstart : TrustTable start.ctx)
    (hcond : ¬ FilesForeignAddr codecs start (.received (some signed) env))
    (hc : Heard start.ctx signed env ctx ctx') (h : ContactTable ctx) : ContactTable ctx' := by
  have ht : TrustTable ctx' := TrustTable.heard hc h.tables
  cases hc with
  | @touched old _ hold => exact h.insert_nodes ht (h.nodes _ old hold)
  | @observed old sock _ _ hold =>
    have hkey : (observedNode old signed.sender sock env.refreshNow).nodeId = signed.sender :=
      h.tables.nodesKeyed _ old hold
    exact (h.refreshTrustedNode hkey rfl).upsertActiveNode ht hkey.symm
  | announced _ =>
    refine h.admitNode ?_
    rw [mergeNode_addr_id, h.tables.merged_nodeId signed.sender rfl]
    exact senderMessageAddr_id _ _ _
  | @listed earlier later node hmsg hgate htaken hbeats =>
    refine h.admitNode ?_
    rw [mergeNode_addr_id, h.tables.merged_nodeId node.nodeId (listedNode_nodeId _ _ _)]
    by_cases hsender : node.nodeId = signed.sender
    · simp [listedNode, hsender]
    · by_contra hforeign
      obtain ⟨hme, hd, hbeats', hearlier⟩ := htaken
      rw [refreshed_nodes_ne hstart.nodesKeyed hsender] at hbeats'
      rw [refreshed_me] at hme
      simp only [listedNode, hsender, if_false] at hforeign
      exact hcond ⟨hgate, earlier, node, later, hmsg, ⟨hme, hd, hbeats', hearlier⟩, hsender,
        hforeign⟩
  | left _ _ => exact h.erase_nodes _

theorem change {start d d' : Daemon} {e : Event} (hstart : TrustTable start.ctx)
    (hcond : ¬ FilesForeignAddr codecs start e) (hme : d.ctx.me = start.ctx.me)
    (hc : Change codecs start e d d') (h : ContactTable d.ctx) : ContactTable d'.ctx := by
  have ht : TrustTable d'.ctx := TrustTable.change hc h.tables
  cases hc with
  | heard hheard => exact heard hstart hcond hheard h
  | @added client ticket env _ parsed hperm hparsed htopic =>
    by_cases hself : parsed.invitor.nodeId = start.ctx.me.nodeId
    · -- Neither table takes the daemon's own record.
      have hsame : d.ctx.admitNode parsed.invitor = d.ctx :=
        admitNode_self _ _ (hself.trans (congrArg Node.nodeId hme).symm)
      rw [hsame]
      exact h
    · refine h.admitNode ?_
      by_contra hforeign
      exact hcond ⟨hperm, parsed, hparsed, htopic, hself, hforeign⟩
  | expired => exact h.erase_nodes _
  | registered _ _ _ => exact h.insert_nodes ht rfl
  | saved => exact ⟨ht, h.nodes, h.trusted, h.fed⟩
  | persisted => exact ⟨ht, h.nodes, h.trusted, h.fed⟩
  | revoked _ _ _ => exact ⟨ht, forall_erase h.nodes _, forall_erase h.trusted _, h.fed⟩
  | paused => exact ⟨ht, h.nodes, h.trusted, h.fed⟩

theorem step (d : Daemon) (e : Event) (h : ContactTable d.ctx)
    (hcond : ¬ FilesForeignAddr codecs d e) : ContactTable (d.step codecs e).ctx :=
  changes_induct (I := fun d : Daemon => ContactTable d.ctx) (step_changes codecs d e) h
    fun _ _ hme hc => change h.tables hcond hme hc

theorem start (start : Start codecs) (haddr : ∀ node, start.Loads node → node.addr.id = node.nodeId) :
    ContactTable start.ctx := by
  refine ⟨TrustTable.start start, ?_, ?_, ?_⟩
  · intro id node hn
    obtain ⟨hid, hloads⟩ := start_nodes start hn
    exact (haddr node hloads).trans hid
  · intro id node hn
    obtain ⟨hid, -, hloads⟩ := start_trustedNodes start hn
    exact (haddr node hloads).trans hid
  · intro entry hentry
    obtain ⟨node, rfl, hloads⟩ := start_staticProvider start hentry
    exact haddr node hloads

theorem sendTarget_id (h : ContactTable ctx) (id : EndpointId) (here : EndpointAddr) :
    (ctx.sendTarget id here).id = id := by
  unfold Context.sendTarget
  cases hn : ctx.nodes[id]? with
  | none => rfl
  | some node => exact (bestEndpointAddrForLocal_id _ _).trans (h.nodes id node hn)

end ContactTable

/-- Entries, fed addresses and send targets all belong to the id they are filed under. -/
structure ContactsBelong (ctx : Context) : Prop where
  nodes : ∀ (id : EndpointId) (node : Node), ctx.nodes[id]? = some node →
    node.nodeId = id ∧ node.addr.id = id
  trusted : ∀ (id : EndpointId) (node : Node), ctx.trustedNodes[id]? = some node →
    node.nodeId = id ∧ node.addr.id = id
  fed : ∀ entry ∈ ctx.staticProvider, entry.2.id = entry.1
  targets : ∀ id here, (ctx.sendTarget id here).id = id

/-- What is filed belongs to its id while no record with a foreign address is loaded or taken
over. -/
theorem contacts_belong (start : Start codecs)
    (haddr : ∀ node, start.Loads node → node.addr.id = node.nodeId) (events : List Event)
    (hrun : Runs.Along (Daemon.step codecs) (fun d e => ¬ FilesForeignAddr codecs d e)
      start.daemon events) : ContactsBelong (start.daemon.run codecs events).ctx := by
  have h : ContactTable (start.daemon.run codecs events).ctx :=
    Runs.invariant_along (I := fun d : Daemon => ContactTable d.ctx) ContactTable.step
      (ContactTable.start start haddr) hrun
  refine ⟨?_, ?_, h.fed, h.sendTarget_id⟩
  · exact fun id node hn => ⟨h.tables.nodesKeyed id node hn, h.nodes id node hn⟩
  · exact fun id node hn => ⟨h.tables.trustedKeyed id node hn, h.trusted id node hn⟩

namespace Sample

def onlyBob : Start Sample.codecs := start [record bob "bob" [2] 900]

def bobListsCarol : Event := sends bob (.syncRequest [record carol "carol" [3] 1000]) 1001

def misfiledCarol : Node :=
  { record carol "carol" [] 1000 with addr := .fromParts dave [.ip (sock 4)] }

def bobMisfilesCarol : Event := sends bob (.syncRequest [misfiledCarol]) 1001

end Sample

theorem contacts_belong_listed :
    ContactsBelong (Sample.onlyBob.daemon.run Sample.codecs [Sample.bobListsCarol]).ctx := by
  refine contacts_belong Sample.onlyBob ?_ [Sample.bobListsCarol] ⟨?_, trivial⟩
  · rintro node (⟨-, hmem⟩ | ⟨text, ticket, (htext : none = some text), -⟩)
    · have hstored : ∀ n ∈ persistedDaemons Sample.alice Sample.onlyBob.storage.loadNodes,
          n.addr.id = n.nodeId := by decide
      exact hstored node hmem
    · contradiction
  · rintro ⟨-, earlier, node, later, hmsg, -, -, hforeign⟩
    have hlist : earlier ++ node :: later = [Sample.record Sample.carol "carol" [3] 1000] := by
      rcases hmsg with hmsg | hmsg
      · exact (Message.syncRequest.inj hmsg).symm
      · contradiction
    have hmem : node ∈ earlier ++ node :: later := by simp
    rw [hlist] at hmem
    obtain rfl := List.mem_singleton.mp hmem
    exact hforeign rfl

/-- A listed record about a third party redirects what is sent to it. -/
theorem third_party_misfiled :
    ¬ ∀ (start : Start Sample.codecs) (events : List Event),
      ContactsBelong (start.daemon.run Sample.codecs events).ctx := by
  intro hclaim
  have h := hclaim Sample.onlyBob [Sample.bobMisfilesCarol]
  obtain ⟨-, haddr⟩ := h.nodes Sample.carol Sample.misfiledCarol (by decide)
  revert haddr
  decide

end P2pDdns
