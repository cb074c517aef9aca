import P2pDdns.Changes

/-!
The admin commands: what `AddNode` and `RemoveNode` leave behind in each of their
outcomes, and which of their failures leave everything as it was.
-/

set_option autoImplicit false

namespace P2pDdns
open Std FiniteMaps

variable {codecs : Codecs}

/-- The ticket names a node of this network. -/
def AddsNode (codecs : Codecs) (d : Daemon) (ticket : String) (node : Node) : Prop :=
  ∃ parsed, Ticket.fromStr codecs ticket = .ok parsed ∧ parsed.topic = d.ctx.ticket.topic ∧
    parsed.invitor = node

theorem AddsNode.unique {d : Daemon} {ticket : String} {node node' : Node}
    (h : AddsNode codecs d ticket node) (h' : AddsNode codecs d ticket node') : node = node' := by
  obtain ⟨parsed, hparsed, -, rfl⟩ := h
  obtain ⟨parsed', hparsed', -, rfl⟩ := h'
  rw [Except.ok.inj (hparsed.symm.trans hparsed')]

/-- The argument is the id of another node or a prefix that only its id has. -/
def RemovesNode (codecs : Codecs) (d : Daemon) (id : String) (iter : IterOrder)
    (nodeId : EndpointId) : Prop :=
  resolveNodeId codecs d id iter = .ok nodeId ∧ nodeId ≠ d.ctx.me.nodeId

def Context.withoutNode (ctx : Context) (nodeId : EndpointId) : Context :=
  { ctx with
    nodes := ctx.nodes.erase nodeId
    trustedNodes := ctx.trustedNodes.erase nodeId }

def Context.withStored (ctx : Context) (nodes : DashMap EndpointId Node) : Context :=
  { ctx with storage := { ctx.storage with nodes := nodes } }

theorem admitNode_eq (ctx : Context) (node : Node) :
    (ctx.trustDaemonNode node).upsertActiveNode node = ctx.admitNode node := rfl

theorem handleAddNode_cases (d : Daemon) (ticket : String) (env : CommandReadings) :
    (∃ text, handleAddNode codecs d ticket env = respond d (.error text) ∧
      ∀ node, ¬ AddsNode codecs d ticket node) ∨
    (∃ node, AddsNode codecs d ticket node ∧
      ((∃ fault text, env.fault = some fault ∧ handleAddNode codecs d ticket env =
          respond { d with ctx := d.ctx.admitNode node } (.error text)) ∨
        (∃ text, env.fault = none ∧ handleAddNode codecs d ticket env =
          respond ⟨(d.ctx.admitNode node).withStored (d.ctx.storage.nodes.insert node.nodeId node),
            d.clients⟩ (.ack text)))) := by
  unfold handleAddNode
  cases hparse : Ticket.fromStr codecs ticket with
  | error e =>
    refine .inl ⟨_, rfl, ?_⟩
    rintro node ⟨parsed, hparsed, -⟩
    simp [hparse] at hparsed
  | ok parsed =>
    by_cases htopic : parsed.topic = d.ctx.ticket.topic
    · refine .inr ⟨parsed.invitor, ⟨parsed, hparse, htopic, rfl⟩, ?_⟩
      simp only [htopic, ne_eq, not_true_eq_false, if_false, admitNode_eq]
      cases hfault : env.fault with
      | some fault => exact .inl ⟨fault, _, rfl, rfl⟩
      | none =>
        refine .inr ⟨s!"Node added: {parsed.invitor.domain}", rfl, ?_⟩
        simp [Storage.saveNode, Storage.transact, Context.withStored]
    · refine .inl ⟨_, by simp only [htopic, ne_eq, not_false_eq_true, if_true]; rfl, ?_⟩
      rintro node ⟨parsed', hparsed, heq, -⟩
      obtain rfl := Except.ok.inj (hparse.symm.trans hparsed)
      exact htopic heq

theorem handleRemoveNode_cases (d : Daemon) (id : String) (env : CommandReadings) :
    (∃ text, handleRemoveNode codecs d id env = respond d (.error text) ∧
      ∀ nodeId, ¬ RemovesNode codecs d id env.iter nodeId) ∨
    (∃ nodeId, RemovesNode codecs d id env.iter nodeId ∧
      ((∃ fault text, env.fault = some fault ∧ handleRemoveNode codecs d id env =
          respond ⟨d.ctx.withoutNode nodeId, d.clients.removeClient nodeId⟩ (.error text)) ∨
        (∃ text, env.fault = none ∧ handleRemoveNode codecs d id env =
          respond ⟨(d.ctx.withoutNode nodeId).withStored (d.ctx.storage.nodes.erase nodeId),
            d.clients.removeClient nodeId⟩ (.ack text)))) := by
  unfold handleRemoveNode
  cases hresolve : resolveNodeId codecs d id env.iter with
  | error e =>
    refine .inl ⟨_, rfl, ?_⟩
    rintro nodeId ⟨hresolved, -⟩
    simp [hresolve] at hresolved
  | ok nodeId =>
    by_cases hme : nodeId = d.ctx.me.nodeId
    · refine .inl ⟨_, by simp only [hme, if_true]; rfl, ?_⟩
      rintro nodeId' ⟨hresolved, hne⟩
      obtain rfl := Except.ok.inj (hresolve.symm.trans hresolved)
      exact hne hme
    · refine .inr ⟨nodeId, ⟨hresolve, hme⟩, ?_⟩
      simp only [hme, if_false]
      cases hfault : env.fault with
      | some fault => exact .inl ⟨fault, _, rfl, rfl⟩
      | none => exact .inr ⟨_, rfl, rfl⟩

/-! Failures. -/

structure SameStores (d d' : Daemon) : Prop where
  nodes : d'.ctx.nodes = d.ctx.nodes
  trustedNodes : d'.ctx.trustedNodes = d.ctx.trustedNodes
  clients : d'.clients = d.clients
  paused : d'.ctx.paused = d.ctx.paused
  storage : d'.ctx.storage = d.ctx.storage

/-- The record is the daemon's own, or it and its trusted copy are in the tables already. -/
def Context.Admitted (ctx : Context) (node : Node) : Prop :=
  node.nodeId = ctx.me.nodeId ∨
    ctx.nodes[node.nodeId]? = some node ∧
      (isDaemonNode node = true →
        let copy := (mergeNode ctx.trustedNodes[node.nodeId]? node).1
        ctx.trustedNodes[copy.nodeId]? = some copy)

def Absent (d : Daemon) (nodeId : EndpointId) : Prop :=
  nodeId ∉ d.ctx.nodes ∧ nodeId ∉ d.ctx.trustedNodes ∧ d.clients.isClientNode nodeId = false

/-- The storage transaction fails after the tables were changed. -/
def HalfApplied (codecs : Codecs) (d : Daemon) (cmd : ClientCommand) (env : CommandReadings) :
    Prop :=
  env.fault ≠ none ∧
    match cmd with
    | .addNode ticket => ∃ node, AddsNode codecs d ticket node ∧ ¬ d.ctx.Admitted node
    | .removeNode id => ∃ nodeId, RemovesNode codecs d id env.iter nodeId ∧ ¬ Absent d nodeId
    | _ => False

section Failures
variable {d : Daemon} {env : CommandReadings}

theorem admitNode_same_iff (ctx : Context) (node : Node) :
    (ctx.admitNode node).nodes = ctx.nodes ∧ (ctx.admitNode node).trustedNodes = ctx.trustedNodes ↔
      ctx.Admitted node := by
  by_cases hme : node.nodeId = ctx.me.nodeId
  · rw [admitNode_self ctx node hme]
    exact iff_of_true ⟨rfl, rfl⟩ (.inl hme)
  · have htrusted : (ctx.admitNode node).trustedNodes = (ctx.trustDaemonNode node).trustedNodes := by
      simp [Context.admitNode]
    rw [Context.Admitted, or_iff_right hme, admitNode_nodes ctx node hme, insert_eq_self_iff, htrusted]
    refine and_congr_right fun _ => ?_
    rcases Context.trustDaemonNode_cases ctx node with ⟨hor, heq⟩ | ⟨-, hd, heq⟩
    · rw [heq]
      have hclient := hor.resolve_left hme
      simp [hclient]
    · rw [heq]
      simp [hd, insert_eq_self_iff]

theorem absent_iff (nodeId : EndpointId) :
    SameStores d ⟨d.ctx.withoutNode nodeId, d.clients.removeClient nodeId⟩ ↔ Absent d nodeId := by
  have hclients : d.clients.removeClient nodeId = d.clients ↔
      d.clients.isClientNode nodeId = false := by
    rw [ClientRegistry.removeClient, ClientRegistry.isClientNode, Bool.eq_false_iff, ne_eq,
      ExtTreeMap.contains_iff_mem, ← erase_eq_self_iff]
    cases d.clients
    simp
  constructor
  · intro h
    exact ⟨erase_eq_self_iff.mp h.nodes, erase_eq_self_iff.mp h.trustedNodes,
      hclients.mp h.clients⟩
  · rintro ⟨hnodes, htrusted, hclient⟩
    exact ⟨erase_eq_self_iff.mpr hnodes, erase_eq_self_iff.mpr htrusted, hclients.mpr hclient,
      rfl, rfl⟩

/-- A command that answers with an error leaves every store as it was exactly if its storage
transaction does not fail after the tables were changed. -/
theorem failed_command_same_iff (d : Daemon) (cmd : ClientCommand) (env : CommandReadings) :
    (∀ text, (handleCommand codecs d cmd env).1.response = .error text →
      SameStores d (handleCommand codecs d cmd env).2) ↔ ¬ HalfApplied codecs d cmd env := by
  have hself : SameStores d d := ⟨rfl, rfl, rfl, rfl, rfl⟩
  cases cmd with
  | addNode ticket =>
    simp only [handleCommand, HalfApplied]
    rcases @handleAddNode_cases codecs d ticket env with
      ⟨text, heq, hnot⟩ | ⟨node, hadds, ⟨fault, text, hfault, heq⟩ | ⟨text, hfault, heq⟩⟩
    · rw [heq]
      refine iff_of_true (fun _ _ => hself) ?_
      rintro ⟨-, node, hadds, -⟩
      exact hnot node hadds
    · have hsame : SameStores d { d with ctx := d.ctx.admitNode node } ↔ d.ctx.Admitted node := by
        rw [← admitNode_same_iff]
        refine ⟨fun h => ⟨h.nodes, h.trustedNodes⟩, fun h => ⟨h.1, h.2, rfl, ?_, ?_⟩⟩
        · simp [Context.admitNode]
        · simp
      rw [heq, hfault]
      constructor
      · rintro h ⟨-, node', hadds', hnot⟩
        obtain rfl := hadds.unique hadds'
        exact hnot (hsame.mp (h text rfl))
      · intro h _ _
        exact hsame.mpr (by_contra fun hnot => h ⟨by simp, node, hadds, hnot⟩)
    · rw [heq, hfault]
      exact iff_of_true (fun _ h => by simp [respond] at h) fun h => h.1 rfl
  | removeNode id =>
    simp only [handleCommand, HalfApplied]
    rcases @handleRemoveNode_cases codecs d id env with
      ⟨text, heq, hnot⟩ | ⟨nodeId, hremoves, ⟨fault, text, hfault, heq⟩ | ⟨text, hfault, heq⟩⟩
    · rw [heq]
      refine iff_of_true (fun _ _ => hself) ?_
      rintro ⟨-, nodeId, hremoves, -⟩
      exact hnot nodeId hremoves
    · rw [heq, hfault]
      constructor
      · rintro h ⟨-, nodeId', hremoves', hnot⟩
        obtain rfl := Except.ok.inj (hremoves.1.symm.trans hremoves'.1)
        exact hnot ((absent_iff nodeId).mp (h text rfl))
      · intro h _ _
        exact (absent_iff nodeId).mpr (by_contra fun hnot => h ⟨by simp, nodeId, hremoves, hnot⟩)
    · rw [heq, hfault]
      exact iff_of_true (fun _ h => by simp [respond] at h) fun h => h.1 rfl
  | query | status | getTicket | pause | resume | shutdown =>
    refine iff_of_true (fun _ h => ?_) fun h => h.2
    simp [handleCommand, respond] at h

end Failures

/-- A `RemoveNode` of carol whose storage transaction fails answers with an error and has
taken carol out of both tables. -/
theorem failed_removal_changes_tables :
    ¬ ∀ (d : Daemon) (cmd : ClientCommand) (env : CommandReadings) (text : String),
      (handleCommand Sample.codecs d cmd env).1.response = .error text →
      SameStores d (handleCommand Sample.codecs d cmd env).2 := by
  intro hclaim
  have hsame := hclaim (Sample.start [Sample.record Sample.carol "carol" [3] 900]).daemon
    (.removeNode "fc51cd8e6218a1a38da47ed00230f0580816ed13ba3303ac5deb911548908025")
    ⟨1000, some "disk full", .byId, "10.0.0.1"⟩ _ rfl
  have hnodes := hsame.nodes
  revert hnodes
  decide

end P2pDdns
