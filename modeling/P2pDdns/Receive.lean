import P2pDdns.Daemon
import P2pDdns.NewestWins

/-!
What handling a message does, function by function: the refresh of the sender, the
branch of each message, and the sync loop as seen from one id.
-/

set_option autoImplicit false

namespace P2pDdns
open Std FiniteMaps NewestWins

/-- The sender was trusted and the message fresh when it was verified. -/
def Passed (ctx : Context) (signed : SignedMessage) (env : Readings) : Prop :=
  signed.sender ∈ ctx.trustedNodes ∧ signed.isFresh env.verifyNow = true

/-- Every path that takes in a record trusts it and then activates it. -/
def Context.admitNode (ctx : Context) (node : Node) : Context :=
  (ctx.trustDaemonNode node).upsertActiveNode node

def observedNode (old : Node) (id : EndpointId) (sock : SocketAddr) (now : Nat) : Node :=
  { old with addr := .fromParts id [.ip sock], lastHeartbeat := now }

section Messages
variable {ctx : Context} {signed : SignedMessage} {env : Readings}

theorem refreshSender_eq (ctx : Context) (sender : EndpointId) (env : Readings) :
    ctx.refreshSender sender env =
      match ctx.nodes[sender]?, env.refreshObserved with
      | none, _ => ctx
      | some old, none =>
        { ctx with nodes := ctx.nodes.insert sender { old with lastHeartbeat := env.refreshNow } }
      | some old, some sock =>
        (ctx.refreshTrustedNode sender (observedNode old sender sock env.refreshNow)).upsertActiveNode
          (observedNode old sender sock env.refreshNow) := by
  unfold Context.refreshSender Context.refreshSenderObservedAddr observedDirectAddr
  cases hobs : env.refreshObserved with
  | none =>
    simp only [Option.map_none]
    cases ctx.nodes[sender]? <;> rfl
  | some sock =>
    simp only [Option.map_some]
    cases hold : ctx.nodes[sender]? with
    | none => simp [hold]
    | some old => rfl

theorem refreshSender_args (ctx : Context) (sender : EndpointId) :
    (ctx.refreshSender sender env).args = ctx.args := by
  rw [refreshSender_eq]
  split <;> simp

theorem refreshSender_ticket (ctx : Context) (sender : EndpointId) :
    (ctx.refreshSender sender env).ticket = ctx.ticket := by
  rw [refreshSender_eq]
  split <;> simp

def Context.status (ctx : Context) (signed : SignedMessage) (env : Readings) : VerifyStatus :=
  (ctx.decodeAndVerify signed env.verifyNow).2.2

@[simp] theorem status_fresh : (ctx.status signed env).fresh = signed.isFresh env.verifyNow := rfl

@[simp] theorem status_passed : (ctx.status signed env).passed = true ↔ Passed ctx signed env := by
  simp [Context.status, Context.decodeAndVerify, VerifyStatus.passed, Context.isNodeTrusted, Passed]

/-- The context in which the body of `process_message` runs. -/
def Context.refreshed (ctx : Context) (signed : SignedMessage) (env : Readings) : Context :=
  if (ctx.status signed env).passed then ctx.refreshSender signed.sender env else ctx

theorem receive_eq (ctx : Context) (signed : SignedMessage) (env : Readings) :
    ctx.receive signed env = (ctx.refreshed signed env).dispatchMessage signed.sender
      signed.message (ctx.status signed env) env := rfl

theorem refreshed_args (ctx : Context) (signed : SignedMessage) (env : Readings) :
    (ctx.refreshed signed env).args = ctx.args := by
  unfold Context.refreshed
  split
  · exact refreshSender_args ctx signed.sender
  · rfl

theorem refreshed_ticket (ctx : Context) (signed : SignedMessage) (env : Readings) :
    (ctx.refreshed signed env).ticket = ctx.ticket := by
  unfold Context.refreshed
  split
  · exact refreshSender_ticket ctx signed.sender
  · rfl

theorem invited_ctx (ctx : Context) (sender : EndpointId) (topic : TopicId) (rnum : List UInt8)
    (addr : EndpointAddr) (aliasName : String) (services : ExtTreeMap String UInt32)
    (invitor : EndpointId) (status : VerifyStatus) (env : Readings) :
    (ctx.dispatchMessage sender (.invited topic rnum addr aliasName services invitor) status env).1 =
      if status.fresh = true ∧ ctx.ticket.validate topic rnum = true then
        ctx.announceNode sender addr aliasName services invitor env
      else ctx := by
  simp only [Context.dispatchMessage]
  cases status.fresh <;> cases ctx.ticket.validate topic rnum <;> rfl

theorem aboutMe_ctx (ctx : Context) (sender : EndpointId) (addr : EndpointAddr)
    (aliasName : String) (services : ExtTreeMap String UInt32) (invitor : EndpointId)
    (status : VerifyStatus) (env : Readings) :
    (ctx.dispatchMessage sender (.aboutMe addr aliasName services invitor) status env).1 =
      if status.passed = true then ctx.announceNode sender addr aliasName services invitor env
      else ctx := by
  simp only [Context.dispatchMessage]
  cases status.passed <;> rfl

theorem left_ctx (ctx : Context) (sender : EndpointId) (status : VerifyStatus) (env : Readings) :
    (ctx.dispatchMessage sender .left status env).1 =
      if status.passed = true then { ctx with nodes := ctx.nodes.erase sender } else ctx := by
  simp only [Context.dispatchMessage]
  cases status.passed <;> rfl

theorem syncRequest_ctx (ctx : Context) (sender : EndpointId) (nodes : List Node)
    (status : VerifyStatus) (env : Readings) :
    (ctx.dispatchMessage sender (.syncRequest nodes) status env).1 =
      if (!ctx.args.daemon || status.passed) = true then
        Context.syncNodes sender env.observed 0 nodes ctx
      else ctx := by
  simp only [Context.dispatchMessage]
  split <;> split <;> rfl

theorem syncResponse_ctx (ctx : Context) (sender : EndpointId) (nodes : List Node)
    (status : VerifyStatus) (env : Readings) :
    (ctx.dispatchMessage sender (.syncResponse nodes) status env).1 =
      if (!ctx.args.daemon || status.passed) = true then
        Context.syncNodes sender env.observed 0 nodes ctx
      else ctx := by
  simp only [Context.dispatchMessage]
  split <;> rfl

end Messages

section SyncLoop

@[simp] theorem listedNode_nodeId (sender : EndpointId) (observed : Option SocketAddr) (node : Node) :
    (listedNode sender observed node).nodeId = node.nodeId := by
  unfold listedNode; split <;> rfl

@[simp] theorem listedNode_lastHeartbeat (sender : EndpointId) (observed : Option SocketAddr)
    (node : Node) : (listedNode sender observed node).lastHeartbeat = node.lastHeartbeat := by
  unfold listedNode; split <;> rfl

def replaceNode (old new : Node) : Node := (mergeNode (some old) new).1

theorem replaceNode_eq {old new : Node} (h : old.lastHeartbeat < new.lastHeartbeat) :
    replaceNode old new =
      { new with
        addr := if hasIpAddr new.addr then new.addr else mergeAddr old.addr new.addr } :=
  mergeNode_newer h

theorem replaceNode_lastHeartbeat (old new : Node) (h : old.lastHeartbeat < new.lastHeartbeat) :
    (replaceNode old new).lastHeartbeat = new.lastHeartbeat := by
  rw [replaceNode_eq h]

theorem mergeNode_beats {held : Option Node} {node : Node}
    (h : Beats Node.lastHeartbeat held node) :
    absorb Node.lastHeartbeat replaceNode held node = some (mergeNode held node).1 ∧
      (mergeNode held node).1.nodeId = node.nodeId := by
  cases held with
  | none => exact ⟨rfl, rfl⟩
  | some old =>
    have hlt := h old rfl
    exact ⟨by simp [absorb, hlt, replaceNode], by rw [mergeNode_newer hlt]⟩

def considered (me id : EndpointId) (node : Node) : Bool :=
  decide (node.nodeId = id) && decide (node.nodeId ≠ me) && isDaemonNode node

section
variable (ctx : Context) (sender id : EndpointId) (observed : Option SocketAddr) (node : Node)

/-- The gate of the sync loops, and the one thing a listed record can do. -/
theorem syncNode_cases :
    (ctx.syncNode sender observed node = ctx ∧
      (node.nodeId = ctx.me.nodeId ∨ isDaemonNode node = false ∨
        Covers Node.lastHeartbeat ctx.nodes[node.nodeId]? node.lastHeartbeat)) ∨
    (node.nodeId ≠ ctx.me.nodeId ∧ isDaemonNode node = true ∧
      Beats Node.lastHeartbeat ctx.nodes[node.nodeId]? node ∧
      ctx.syncNode sender observed node =
        ctx.admitNode (mergeNode ctx.nodes[node.nodeId]? (listedNode sender observed node)).1) := by
  unfold Context.syncNode
  split
  · rename_i hskip
    exact .inl ⟨rfl, hskip.imp_right .inl⟩
  · rename_i hskip
    rw [not_or, Bool.not_eq_false] at hskip
    simp only [listedNode_nodeId, listedNode_lastHeartbeat]
    cases hold : ctx.nodes[node.nodeId]? with
    | none => exact .inr ⟨hskip.1, hskip.2, beats_none node, rfl⟩
    | some old =>
      by_cases hlt : old.lastHeartbeat < node.lastHeartbeat
      · refine .inr ⟨hskip.1, hskip.2, ?_, ?_⟩
        · rintro x ⟨⟩
          exact hlt
        · simp only [hlt, decide_true, if_true]
          rfl
      · refine .inl ⟨by simp [hlt], .inr (.inr ⟨old, rfl, ?_⟩)⟩
        omega

@[simp] theorem admitNode_me : (ctx.admitNode node).me = ctx.me := by simp [Context.admitNode]

@[simp] theorem admitNode_storage : (ctx.admitNode node).storage = ctx.storage := by
  simp [Context.admitNode]

theorem admitNode_nodes (hme : node.nodeId ≠ ctx.me.nodeId) :
    (ctx.admitNode node).nodes = ctx.nodes.insert node.nodeId node := by
  simp [Context.admitNode, Context.upsertActiveNode, hme]

theorem admitNode_self (hme : node.nodeId = ctx.me.nodeId) : ctx.admitNode node = ctx := by
  simp [Context.admitNode, Context.trustDaemonNode, Context.upsertActiveNode, hme]

@[simp] theorem syncNode_me : (ctx.syncNode sender observed node).me = ctx.me := by
  rcases syncNode_cases ctx sender observed node with ⟨h, -⟩ | ⟨-, -, -, h⟩ <;> simp [h]

theorem getElem?_syncNode :
    (ctx.syncNode sender observed node).nodes[id]? =
      if considered ctx.me.nodeId id node then
        absorb Node.lastHeartbeat replaceNode ctx.nodes[id]? (listedNode sender observed node)
      else ctx.nodes[id]? := by
  rcases syncNode_cases ctx sender observed node with ⟨h, hwhy⟩ | ⟨hme, hd, hbeats, h⟩
  · rw [h]
    split
    · rename_i hcons
      simp only [considered, Bool.and_eq_true, decide_eq_true_eq] at hcons
      obtain ⟨⟨rfl, hme⟩, hd⟩ := hcons
      rcases hwhy with hwhy | hwhy | hcovers
      · exact absurd hwhy hme
      · rw [hd] at hwhy
        contradiction
      · rw [absorb_of_covers]
        rwa [listedNode_lastHeartbeat]
    · rfl
  · have hlisted : Beats Node.lastHeartbeat ctx.nodes[node.nodeId]?
        (listedNode sender observed node) := by
      intro old hold
      rw [listedNode_lastHeartbeat]
      exact hbeats old hold
    obtain ⟨habsorb, hid⟩ := mergeNode_beats hlisted
    rw [listedNode_nodeId] at hid
    rw [h, admitNode_nodes ctx _ (by rwa [hid]), hid]
    by_cases heq : node.nodeId = id
    · subst heq
      simp [considered, hme, hd, habsorb]
    · simp [considered, heq, getElem?_insert_ne]

end

section
variable {sender id : EndpointId} {observed : Nat → Option SocketAddr} {nodes : List Node}

@[simp] theorem syncNodes_me (k : Nat) (ctx : Context) :
    (Context.syncNodes sender observed k nodes ctx).me = ctx.me := by
  induction nodes generalizing k ctx with
  | nil => rfl
  | cons node nodes ih => simp [Context.syncNodes, ih]

/-- The record held for an id other than the sender's is the newest of those listed for it. -/
theorem getElem?_syncNodes (hid : id ≠ sender) (k : Nat) (ctx : Context) :
    (Context.syncNodes sender observed k nodes ctx).nodes[id]? =
      absorbAll Node.lastHeartbeat replaceNode ctx.nodes[id]?
        (nodes.filter (considered ctx.me.nodeId id)) := by
  induction nodes generalizing k ctx with
  | nil => rfl
  | cons node nodes ih =>
    rw [Context.syncNodes, ih, syncNode_me, getElem?_syncNode]
    by_cases hcons : considered ctx.me.nodeId id node = true
    · have hnode : node.nodeId ≠ sender := by
        simp only [considered, Bool.and_eq_true, decide_eq_true_eq] at hcons
        rw [hcons.1.1]
        exact hid
      simp [hcons, listedNode, hnode]
    · simp [hcons]

theorem syncNode_covers (ctx : Context) (sender id : EndpointId) (observed : Option SocketAddr)
    (node : Node) {b : Nat} (h : Covers Node.lastHeartbeat ctx.nodes[id]? b) :
    Covers Node.lastHeartbeat (ctx.syncNode sender observed node).nodes[id]? b := by
  rw [getElem?_syncNode]
  split
  · exact covers_absorb replaceNode_lastHeartbeat _ h
  · exact h

theorem syncNode_covers_self (ctx : Context) (sender : EndpointId) (observed : Option SocketAddr)
    {node : Node} (hme : node.nodeId ≠ ctx.me.nodeId) (hd : isDaemonNode node = true) :
    Covers Node.lastHeartbeat (ctx.syncNode sender observed node).nodes[node.nodeId]?
      node.lastHeartbeat := by
  have hcons : considered ctx.me.nodeId node.nodeId node = true := by simp [considered, hme, hd]
  rw [getElem?_syncNode, if_pos hcons]
  have := covers_absorb_self replaceNode_lastHeartbeat ctx.nodes[node.nodeId]?
    (listedNode sender observed node)
  rwa [listedNode_lastHeartbeat] at this

end

end SyncLoop
end P2pDdns
