import P2pDdns.TrustTable

/-!
Where trust comes from. An id enters the trusted table at start-up, through the
ticket of an administrator, through its own `Invited`, or through the sync list
of a peer that is trusted already.
-/

set_option autoImplicit false

namespace P2pDdns
open Std FiniteMaps Relation

variable {codecs : Codecs}

/-- The records a start takes over: the other daemons of its database and the ticket's invitor. -/
def Start.Loads (start : Start codecs) (node : Node) : Prop :=
  (start.args.resetStorage = false ∧
    node ∈ persistedDaemons (ownId start.args start.storage start.env) start.storage.loadNodes) ∨
    ∃ text ticket, start.args.ticket = some text ∧ Ticket.fromStr codecs text = .ok ticket ∧
      ticket.invitor = node

section Start
variable (start : Start codecs) {id : EndpointId} {node : Node}

theorem start_loads {argTicket : Option Ticket}
    (hticket : parseArgTicket codecs start.args = .ok argTicket)
    (hstored : start.ctx.storage.nodes =
      if start.args.resetStorage then ∅ else start.storage.nodes)
    (hown : start.ctx.me.nodeId = ownId start.args start.storage start.env)
    (h : node ∈ persistedDaemons start.ctx.me.nodeId start.ctx.storage.loadNodes ∨
      argTicket.map (·.invitor) = some node) : start.Loads node := by
  rcases h with hmem | hinv
  · left
    rw [hown, Storage.loadNodes, hstored] at hmem
    cases hreset : start.args.resetStorage with
    | true => simp [hreset, persistedDaemons] at hmem
    | false =>
      simp only [hreset, Bool.false_eq_true, if_false] at hmem
      exact ⟨rfl, hmem⟩
  · exact .inr ((parseArgTicket_invitor hticket).mp hinv)

theorem start_nodes (h : start.ctx.nodes[id]? = some node) :
    node.nodeId = id ∧ start.Loads node := by
  obtain ⟨argTicket, hticket, -, hstored, hnodes, -, -, hown⟩ := initNetwork_ok start.started
  rw [hnodes] at h
  obtain ⟨hid, horigin⟩ := startBootstrapNodes_cases h
  exact ⟨hid, start_loads start hticket hstored hown horigin⟩

theorem start_trustedNodes (h : start.ctx.trustedNodes[id]? = some node) :
    node.nodeId = id ∧ isDaemonNode node = true ∧ start.Loads node := by
  obtain ⟨argTicket, hticket, -, hstored, -, htrusted, -, hown⟩ := initNetwork_ok start.started
  rw [htrusted] at h
  obtain ⟨hid, hd, -, horigin⟩ := startTrustedNodes_cases h
  exact ⟨hid, hd, start_loads start hticket hstored hown horigin⟩

theorem start_staticProvider {fed : EndpointId × EndpointAddr}
    (h : fed ∈ start.ctx.staticProvider) :
    ∃ node, fed = (node.nodeId, node.addr) ∧ start.Loads node := by
  obtain ⟨argTicket, hticket, -, hstored, -, -, hstatic, hown⟩ := initNetwork_ok start.started
  rw [hstatic] at h
  obtain ⟨node, hfed, horigin⟩ := mem_startStaticProvider h
  exact ⟨node, hfed, start_loads start hticket hstored hown horigin⟩

end Start

def AddsTicketOf (codecs : Codecs) (d : Daemon) (id : EndpointId) : Event → Prop
  | .command client (.addNode ticket) _ =>
    d.clients.checkPermission client "add_node" = true ∧
      ∃ parsed, Ticket.fromStr codecs ticket = .ok parsed ∧
        parsed.topic = d.ctx.ticket.topic ∧ parsed.invitor.nodeId = id
  | _ => False

def InvitesItself (d : Daemon) (id : EndpointId) : Event → Prop
  | .received (some signed) env => signed.sender = id ∧ HoldsTicket d.ctx signed env
  | _ => False

def ListedByTrusted (d : Daemon) (id : EndpointId) : Event → Prop
  | .received (some signed) env =>
    Passed d.ctx signed env ∧ ∃ node, Lists signed node ∧ node.nodeId = id
  | _ => False

/-- A process that is not a daemon takes every sync list. -/
def ListedForClient (d : Daemon) (id : EndpointId) : Event → Prop
  | .received (some signed) _ =>
    d.ctx.args.daemon = false ∧ ∃ node, Lists signed node ∧ node.nodeId = id
  | _ => False

def Grants (codecs : Codecs) (d : Daemon) (id : EndpointId) (e : Event) : Prop :=
  AddsTicketOf codecs d id e ∨ InvitesItself d id e ∨ ListedByTrusted d id e ∨
    ListedForClient d id e

theorem mem_admitNode {ctx : Context} (h : TrustTable ctx) {node : Node} {id : EndpointId}
    (hid : id ∈ (ctx.admitNode node).trustedNodes) : id = node.nodeId ∨ id ∈ ctx.trustedNodes := by
  rw [Context.admitNode, Context.upsertActiveNode_trustedNodes] at hid
  rcases Context.trustDaemonNode_cases ctx node with ⟨-, heq⟩ | ⟨-, -, heq⟩
  · rw [heq] at hid
    exact .inr hid
  · rw [heq, h.trustedCopy_nodeId, ExtTreeMap.mem_insert, LawfulEqOrd.compare_eq_iff_eq] at hid
    exact hid.imp_left Eq.symm

theorem TrustTable.merged_nodeId {ctx : Context} (h : TrustTable ctx) (id : EndpointId)
    {incoming : Node} (hid : incoming.nodeId = id) :
    (mergeNode ctx.nodes[id]? incoming).1.nodeId = id := by
  rw [← hid]
  exact mergeNode_nodeId fun old hold => h.nodesKeyed _ old hold

theorem Heard.grants {start : Daemon} {signed : SignedMessage} {env : Readings}
    {ctx ctx' : Context} {id : EndpointId} (hc : Heard start.ctx signed env ctx ctx')
    (ht : TrustTable ctx) (hstart : id ∉ start.ctx.trustedNodes) (h0 : id ∉ ctx.trustedNodes)
    (h1 : id ∈ ctx'.trustedNodes) : Grants codecs start id (.received (some signed) env) := by
  cases hc with
  | touched _ _ => exact absurd h1 h0
  | @observed old sock _ _ _ =>
    -- The observed address refreshes a trusted copy only where there is one.
    rw [Context.upsertActiveNode_trustedNodes] at h1
    rcases Context.refreshTrustedNode_cases ctx (observedNode old signed.sender sock env.refreshNow)
      signed.sender with heq | ⟨hmem, -, heq⟩
    · rw [heq] at h1
      exact absurd h1 h0
    · rw [heq, ExtTreeMap.mem_insert, LawfulEqOrd.compare_eq_iff_eq] at h1
      rcases h1 with rfl | h1
      · exact absurd hmem h0
      · exact absurd h1 h0
  | @announced ann haccepts =>
    rcases mem_admitNode ht h1 with hid | hid
    · rw [ht.merged_nodeId signed.sender rfl] at hid
      rcases haccepts with ⟨-, hpassed⟩ | ⟨hmsg, hfresh⟩
      · rw [hid] at hstart
        exact absurd hpassed.1 hstart
      · exact .inr (.inl ⟨hid.symm, hfresh, _, _, _, _, hmsg⟩)
    · exact absurd hid h0
  | @listed earlier later node hmsg hgate _ _ =>
    have hlists : Lists signed node := ⟨_, hmsg, by simp⟩
    rcases mem_admitNode ht h1 with hid | hid
    · rw [ht.merged_nodeId node.nodeId (listedNode_nodeId _ _ _)] at hid
      rcases hgate with hclient | hpassed
      · exact .inr (.inr (.inr ⟨hclient, node, hlists, hid.symm⟩))
      · exact .inr (.inr (.inl ⟨hpassed, node, hlists, hid.symm⟩))
    · exact absurd hid h0
  | left _ _ => exact absurd h1 h0

theorem Change.grants {start d d' : Daemon} {e : Event} {id : EndpointId}
    (hc : Change codecs start e d d') (ht : TrustTable d.ctx)
    (hstart : id ∉ start.ctx.trustedNodes) (h0 : id ∉ d.ctx.trustedNodes)
    (h1 : id ∈ d'.ctx.trustedNodes) : Grants codecs start id e := by
  cases hc with
  | heard hheard => exact hheard.grants ht hstart h0 h1
  | @added client ticket env _ parsed hperm hparsed htopic =>
    rcases mem_admitNode ht h1 with hid | hid
    · exact .inl ⟨hperm, parsed, hparsed, htopic, hid.symm⟩
    · exact absurd hid h0
  | revoked _ _ _ => exact absurd (ExtTreeMap.mem_of_mem_erase h1) h0
  | expired => exact absurd h1 h0
  | saved => exact absurd h1 h0
  | registered _ _ _ => exact absurd h1 h0
  | persisted => exact absurd h1 h0
  | paused => exact absurd h1 h0

/-- Whoever is trusted at the end of a run and not at its start was granted trust in it. -/
theorem exists_grant {d : Daemon} {events : List Event} {id : EndpointId} (ht : TrustTable d.ctx)
    (h0 : id ∉ d.ctx.trustedNodes) (h1 : id ∈ (d.run codecs events).ctx.trustedNodes) :
    ∃ before e after, events = before ++ e :: after ∧ Grants codecs (d.run codecs before) id e := by
  obtain ⟨before, e, after, u, u', rfl, hbefore, hu, hchange, hPu, hPu'⟩ :=
    Runs.exists_micro_turn (P := fun d : Daemon => id ∈ d.ctx.trustedNodes)
      (step_changes codecs) h0 h1
  have htbefore : TrustTable (d.run codecs before).ctx :=
    Runs.invariant (I := fun d : Daemon => TrustTable d.ctx) TrustTable.step ht before
  exact ⟨before, e, after, rfl,
    hchange.grants (TrustTable.changes hu htbefore) hbefore hPu hPu'⟩

theorem Heard.gated {start ctx ctx' : Context} {signed : SignedMessage} {env : Readings}
    (hdaemon : start.args.daemon = true) (hc : Heard start signed env ctx ctx') :
    Passed start signed env ∨ HoldsTicket start signed env := by
  cases hc with
  | touched hpassed _ => exact .inl hpassed
  | observed hpassed _ _ => exact .inl hpassed
  | announced haccepts =>
    rcases haccepts with ⟨-, hpassed⟩ | ⟨hmsg, hfresh⟩
    · exact .inl hpassed
    · exact .inr ⟨hfresh, _, _, _, _, hmsg⟩
  | listed _ hgate _ _ =>
    rw [hdaemon] at hgate
    exact .inl (hgate.resolve_left Bool.noConfusion)
  | left hpassed _ => exact .inl hpassed

theorem receive_ungated {ctx : Context} {signed : SignedMessage} {env : Readings}
    (hdaemon : ctx.args.daemon = true) (hpassed : ¬ Passed ctx signed env)
    (hticket : ¬ HoldsTicket ctx signed env) : (ctx.receive signed env).1 = ctx := by
  have hheard := receive_heard ctx signed env
  rcases hheard.cases_head with heq | ⟨u, hfirst, -⟩
  · exact heq.symm
  · rcases hfirst.gated hdaemon with h | h
    · exact absurd h hpassed
    · exact absurd h hticket

/-- Every trusted id was loaded at start-up, added by a ticket, came with the ticket
itself, or was listed by a peer trusted at the time; other messages change nothing. -/
theorem trust_provenance (start : Start codecs) (hdaemon : start.args.daemon = true)
    (events : List Event) :
    (∀ id, id ∈ (start.daemon.run codecs events).ctx.trustedNodes →
      (∃ node, start.Loads node ∧ isDaemonNode node = true ∧ node.nodeId = id) ∨
      ∃ before e after, events = before ++ e :: after ∧
        (AddsTicketOf codecs (start.daemon.run codecs before) id e ∨
          InvitesItself (start.daemon.run codecs before) id e ∨
          ListedByTrusted (start.daemon.run codecs before) id e)) ∧
    (∀ signed env, ¬ Passed (start.daemon.run codecs events).ctx signed env →
      ¬ HoldsTicket (start.daemon.run codecs events).ctx signed env →
      let d := start.daemon.run codecs events
      let d' := start.daemon.run codecs (events ++ [.received (some signed) env])
      d'.ctx.nodes = d.ctx.nodes ∧ d'.ctx.trustedNodes = d.ctx.trustedNodes ∧
        d'.ctx.staticProvider = d.ctx.staticProvider) := by
  have hargs : start.daemon.ctx.args.daemon = true := by
    obtain ⟨-, -, h, -⟩ := initNetwork_ok start.started
    rw [Start.daemon, h, hdaemon]
  constructor
  · intro id hid
    by_cases h0 : id ∈ start.daemon.ctx.trustedNodes
    · obtain ⟨node, hn⟩ := exists_getElem? h0
      obtain ⟨hkey, hd, hloads⟩ := start_trustedNodes start hn
      exact .inl ⟨node, hloads, hd, hkey⟩
    · obtain ⟨before, e, after, hevents, hgrants⟩ := exists_grant (TrustTable.start start) h0 hid
      refine .inr ⟨before, e, after, hevents, ?_⟩
      rcases hgrants with h | h | h | h
      · exact .inl h
      · exact .inr (.inl h)
      · exact .inr (.inr h)
      · cases e with
        | received signed env =>
          cases signed with
          | none => exact h.elim
          | some signed =>
            have := h.1
            rw [run_args, hargs] at this
            contradiction
        | _ => exact h.elim
  · intro signed env hpassed hticket d d'
    have hd' : d' = { d with ctx := (d.ctx.receive signed env).1 } := by
      simp [d', d, Daemon.run, Daemon.step]
    have hsame : (d.ctx.receive signed env).1 = d.ctx :=
      receive_ungated (by rw [run_args, hargs]) hpassed hticket
    rw [hd', hsame]
    exact ⟨rfl, rfl, rfl⟩

theorem trust_provenance_listed :
    let st := Sample.start [Sample.record Sample.bob "bob" [2] 900]
    let events :=
      [Sample.sends Sample.bob (.syncRequest [Sample.record Sample.carol "carol" [3] 1000]) 1001]
    (∀ id, id ∈ (st.daemon.run Sample.codecs events).ctx.trustedNodes →
      (∃ node, st.Loads node ∧ isDaemonNode node = true ∧ node.nodeId = id) ∨
      ∃ before e after, events = before ++ e :: after ∧
        (AddsTicketOf Sample.codecs (st.daemon.run Sample.codecs before) id e ∨
          InvitesItself (st.daemon.run Sample.codecs before) id e ∨
          ListedByTrusted (st.daemon.run Sample.codecs before) id e)) ∧
    (∀ signed env, ¬ Passed (st.daemon.run Sample.codecs events).ctx signed env →
      ¬ HoldsTicket (st.daemon.run Sample.codecs events).ctx signed env →
      let d := st.daemon.run Sample.codecs events
      let d' := st.daemon.run Sample.codecs (events ++ [.received (some signed) env])
      d'.ctx.nodes = d.ctx.nodes ∧ d'.ctx.trustedNodes = d.ctx.trustedNodes ∧
        d'.ctx.staticProvider = d.ctx.staticProvider) :=
  trust_provenance _ rfl _

/-! Revocation. -/

def AcknowledgedRemoval (codecs : Codecs) (d : Daemon) (id : EndpointId) : Event → Prop
  | .command client (.removeNode text) env =>
    resolveNodeId codecs d text env.iter = .ok id ∧
      ∃ msg, (runCommand codecs d client (.removeNode text) env).1.response = .ack msg
  | _ => False

theorem handleRemoveNode_ack {d : Daemon} {text : String} {env : CommandReadings}
    {id : EndpointId} {msg : String} (hid : resolveNodeId codecs d text env.iter = .ok id)
    (hack : (handleRemoveNode codecs d text env).1.response = .ack msg) :
    id ∉ (handleRemoveNode codecs d text env).2.ctx.trustedNodes ∧
      id ∉ (handleRemoveNode codecs d text env).2.ctx.nodes := by
  unfold handleRemoveNode at hack ⊢
  simp only [hid] at hack ⊢
  split at hack
  · contradiction
  · rename_i hme
    simp only [hme, if_false]
    split at hack
    · contradiction
    · rename_i storage hstorage
      simp [respond, Context.untrustNode]

theorem AcknowledgedRemoval.untrusted {d : Daemon} {id : EndpointId} {e : Event}
    (h : AcknowledgedRemoval codecs d id e) : id ∉ (d.step codecs e).ctx.trustedNodes := by
  cases e with
  | command client cmd env =>
    cases cmd with
    | removeNode text =>
      obtain ⟨hid, msg, hack⟩ := h
      simp only [Daemon.step, runCommand] at hack ⊢
      split at hack
      · rename_i hperm
        rw [if_pos hperm]
        exact (handleRemoveNode_ack hid hack).1
      · contradiction
    | _ => exact h.elim
  | _ => exact h.elim

/-- A removed id is trusted again only through a later grant. -/
theorem revocation_needs_grant (start : Start codecs) (before after : List Event)
    (removal : Event) (id : EndpointId)
    (hremoval : AcknowledgedRemoval codecs (start.daemon.run codecs before) id removal)
    (hback : id ∈ (start.daemon.run codecs (before ++ removal :: after)).ctx.trustedNodes) :
    ∃ mid e rest, after = mid ++ e :: rest ∧
      let d := start.daemon.run codecs (before ++ removal :: mid)
      AddsTicketOf codecs d id e ∨ InvitesItself d id e ∨ ListedByTrusted d id e ∨
        ListedForClient d id e := by
  have hsplit : ∀ es, start.daemon.run codecs (before ++ removal :: es) =
      ((start.daemon.run codecs before).step codecs removal).run codecs es := by
    intro es
    simp [Daemon.run]
  rw [hsplit] at hback
  obtain ⟨mid, e, rest, hafter, hgrants⟩ :=
    exists_grant (TrustTable.step _ removal (TrustTable.run start before)) hremoval.untrusted hback
  refine ⟨mid, e, rest, hafter, ?_⟩
  rw [hsplit]
  exact hgrants

namespace Sample

def bobAndCarol : List Node := [record bob "bob" [2] 900, record carol "carol" [3] 900]

def removesCarol : Event :=
  commands (.removeNode "fc51cd8e6218a1a38da47ed00230f0580816ed13ba3303ac5deb911548908025") 1001

def listsCarol : Event := sends bob (.syncResponse [record carol "carol" [3] 990]) 1002

end Sample

/-- A trusted peer's sync list brings a removed id back. -/
theorem revocation_undone_by_sync :
    ¬ ∀ (start : Start Sample.codecs) (before after : List Event) (removal : Event)
        (id : EndpointId),
      AcknowledgedRemoval Sample.codecs (start.daemon.run Sample.codecs before) id removal →
      id ∈ (start.daemon.run Sample.codecs (before ++ removal :: after)).ctx.trustedNodes →
      ∃ mid e rest, after = mid ++ e :: rest ∧
        let d := start.daemon.run Sample.codecs (before ++ removal :: mid)
        AddsTicketOf Sample.codecs d id e ∨ InvitesItself d id e := by
  intro hclaim
  obtain ⟨mid, e, rest, hafter, hgrant⟩ := hclaim (Sample.start Sample.bobAndCarol)
    [Sample.daveAuthenticates] [Sample.listsCarol] Sample.removesCarol Sample.carol
    ⟨by decide, _, rfl⟩ (by decide)
  obtain ⟨rfl, rfl, rfl⟩ : mid = [] ∧ e = Sample.listsCarol ∧ rest = [] := by
    cases mid with
    | nil => simpa [eq_comm] using hafter
    | cons m mid => simp at hafter
  rcases hgrant with h | ⟨hsender, -⟩
  · exact h.elim
  · revert hsender
    decide

theorem revocation_needs_grant_listed :
    ∃ mid e rest, [Sample.listsCarol] = mid ++ e :: rest ∧
      let d := (Sample.start Sample.bobAndCarol).daemon.run Sample.codecs
        ([Sample.daveAuthenticates] ++ Sample.removesCarol :: mid)
      AddsTicketOf Sample.codecs d Sample.carol e ∨ InvitesItself d Sample.carol e ∨
        ListedByTrusted d Sample.carol e ∨ ListedForClient d Sample.carol e :=
  revocation_needs_grant (Sample.start Sample.bobAndCarol) [Sample.daveAuthenticates]
    [Sample.listsCarol] Sample.removesCarol Sample.carol ⟨by decide, _, rfl⟩ (by decide)

end P2pDdns
