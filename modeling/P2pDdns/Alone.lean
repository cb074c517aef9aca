import P2pDdns.Receive
import P2pDdns.Tasks

/-!
Each program, run with nothing beside it, does what its function does to the tables
and returns what it returns.
-/

set_option autoImplicit false

namespace P2pDdns
open Std Interleaving

namespace Context
variable (ctx : Context) (node : Node) (id : EndpointId)

@[simp] theorem trustDaemonNode_fixed : (ctx.trustDaemonNode node).fixed = ctx.fixed := by
  simp [fixed]

@[simp] theorem upsertActiveNode_fixed : (ctx.upsertActiveNode node).fixed = ctx.fixed := by
  simp [fixed]

@[simp] theorem refreshTrustedNode_fixed : (ctx.refreshTrustedNode id node).fixed = ctx.fixed := by
  simp [fixed]

theorem refreshSender_fixed (env : Readings) : (ctx.refreshSender id env).fixed = ctx.fixed := by
  rw [refreshSender_eq]
  split
  · rfl
  · rfl
  · simp

theorem syncNode_fixed (sender : EndpointId) (observed : Option SocketAddr) :
    (ctx.syncNode sender observed node).fixed = ctx.fixed := by
  rcases syncNode_cases ctx sender observed node with ⟨h, -⟩ | ⟨-, -, -, h⟩
  · rw [h]
  · rw [h, admitNode, upsertActiveNode_fixed, trustDaemonNode_fixed]

theorem syncNodes_fixed (sender : EndpointId) (observed : Nat → Option SocketAddr) (k : Nat)
    (nodes : List Node) : (syncNodes sender observed k nodes ctx).fixed = ctx.fixed := by
  induction nodes generalizing k ctx with
  | nil => rfl
  | cons node nodes ih => rw [syncNodes, ih, syncNode_fixed]

end Context

namespace Task

/-- Run alone on the tables `ctx`, the program returns `a` and leaves the tables `ctx'`. -/
def Computes {α : Type} (p : Task α) (ctx : Context) (a : α) (ctx' : Context) : Prop :=
  ∀ clients, p.run Op.apply ⟨ctx, clients⟩ = (a, ⟨ctx', clients⟩)

namespace Computes
variable {α β : Type} {ctx ctx' ctx'' : Context}

theorem pure (a : α) (ctx : Context) : Computes (Pure.pure a) ctx a ctx := fun _ => rfl

theorem op {o : Op} (find : Daemon → α) {a : α} (hfind : ∀ clients, find ⟨ctx, clients⟩ = a)
    (ho : ∀ clients, o.apply ⟨ctx, clients⟩ = ⟨ctx', clients⟩) :
    Computes (.op o find) ctx a ctx' := by
  intro clients
  rw [Prog.run_op, hfind, ho]

theorem exec {o : Op} (ho : ∀ clients, o.apply ⟨ctx, clients⟩ = ⟨ctx', clients⟩) :
    Computes (.exec o) ctx () ctx' := op _ (fun _ => rfl) ho

theorem bind {p : Task α} {k : α → Task β} {a : α} {b : β} (hp : Computes p ctx a ctx')
    (hk : Computes (k a) ctx' b ctx'') : Computes (p >>= k) ctx b ctx'' := by
  intro clients
  rw [Prog.run_bind, hp clients]
  exact hk clients

end Computes

section Alone
variable {ctx : Context} {self : Fixed}

theorem getNode_computes (id : EndpointId) : Computes (getNode id) ctx ctx.nodes[id]? ctx :=
  .op _ (fun _ => rfl) fun _ => rfl

theorem getTrusted_computes (id : EndpointId) :
    Computes (getTrusted id) ctx ctx.trustedNodes[id]? ctx := .op _ (fun _ => rfl) fun _ => rfl

theorem isNodeTrusted_computes (id : EndpointId) :
    Computes (isNodeTrusted id) ctx (ctx.isNodeTrusted id) ctx := .op _ (fun _ => rfl) fun _ => rfl

theorem addEndpointInfo_computes (node : Node) :
    Computes (addEndpointInfo node) ctx ()
      { ctx with staticProvider := ctx.staticProvider ++ feedAddr node } := by
  unfold addEndpointInfo feedAddr
  split
  · rw [List.append_nil]
    exact .pure () ctx
  · exact .exec fun _ => rfl

theorem trustDaemonNode_computes (hself : self.me = ctx.me) (node : Node) :
    Computes (trustDaemonNode self node) ctx () (ctx.trustDaemonNode node) := by
  unfold trustDaemonNode Context.trustDaemonNode
  rw [hself]
  split
  · exact .pure () ctx
  · exact .bind (getTrusted_computes node.nodeId) (.exec fun _ => rfl)

theorem upsertActiveNode_computes (hself : self.me = ctx.me) (node : Node) :
    Computes (upsertActiveNode self node) ctx () (ctx.upsertActiveNode node) := by
  unfold upsertActiveNode Context.upsertActiveNode
  rw [hself]
  split
  · exact .pure () ctx
  · exact .bind (addEndpointInfo_computes node) (.exec fun _ => rfl)

theorem admitNode_computes (hself : self.me = ctx.me) (node : Node) :
    Computes (do trustDaemonNode self node; upsertActiveNode self node) ctx ()
      (ctx.admitNode node) := by
  have hself' : self.me = (ctx.trustDaemonNode node).me := by simp [hself]
  exact .bind (trustDaemonNode_computes hself node) (upsertActiveNode_computes hself' node)

theorem refreshTrustedNode_computes (nodeId : EndpointId) (merged : Node) :
    Computes (refreshTrustedNode nodeId merged) ctx () (ctx.refreshTrustedNode nodeId merged) := by
  refine .bind (isNodeTrusted_computes nodeId) ?_
  unfold Context.refreshTrustedNode
  split
  · exact .exec fun _ => rfl
  · exact .pure () ctx

theorem refreshSenderObservedAddr_computes (hself : self.me = ctx.me) (nodeId : EndpointId)
    (observed : Option SocketAddr) (now : Nat) :
    Computes (refreshSenderObservedAddr self nodeId observed now) ctx
      (ctx.refreshSenderObservedAddr nodeId observed now).2
      (ctx.refreshSenderObservedAddr nodeId observed now).1 := by
  unfold refreshSenderObservedAddr Context.refreshSenderObservedAddr
  cases observedDirectAddr nodeId observed with
  | none => exact .pure false ctx
  | some addr =>
    refine .bind (getNode_computes nodeId) ?_
    cases ctx.nodes[nodeId]? with
    | none => exact .pure false ctx
    | some existing =>
      have hself' : ∀ merged, self.me = (ctx.refreshTrustedNode nodeId merged).me := by
        simp [hself]
      exact .bind (refreshTrustedNode_computes nodeId _)
        (.bind (upsertActiveNode_computes (hself' _) _) (.pure true _))

theorem refreshSender_computes (hself : self.me = ctx.me) (sender : EndpointId) (env : Readings) :
    Computes (refreshSender self sender env) ctx () (ctx.refreshSender sender env) := by
  refine .bind (refreshSenderObservedAddr_computes hself sender _ _) ?_
  unfold Context.refreshSender
  rcases ctx.refreshSenderObservedAddr sender env.refreshObserved env.refreshNow with ⟨ctx', _ | _⟩
  · refine .exec fun clients => ?_
    unfold Op.apply
    dsimp only
    cases ctx'.nodes[sender]? <;> rfl
  · exact .pure () ctx'

theorem syncNode_computes (hself : self.me = ctx.me) (sender : EndpointId)
    (observed : Option SocketAddr) (node : Node) :
    Computes (syncNode self sender observed node) ctx () (ctx.syncNode sender observed node) := by
  unfold syncNode Context.syncNode
  rw [hself]
  split
  · exact .pure () ctx
  · refine .bind (getNode_computes _) ?_
    dsimp only
    cases ctx.nodes[(listedNode sender observed node).nodeId]? with
    | none => exact admitNode_computes hself _
    | some existing =>
      dsimp only
      split
      · exact admitNode_computes hself _
      · exact .pure () ctx

theorem syncNodes_computes (hself : self = ctx.fixed) (sender : EndpointId)
    (observed : Nat → Option SocketAddr) (k : Nat) (nodes : List Node) :
    Computes (syncNodes self sender observed k nodes) ctx ()
      (Context.syncNodes sender observed k nodes ctx) := by
  induction nodes generalizing k ctx with
  | nil => exact .pure () ctx
  | cons node nodes ih =>
    have hself' : self = (ctx.syncNode sender (observed k) node).fixed := by
      rw [Context.syncNode_fixed, hself]
    exact .bind (syncNode_computes (congrArg Fixed.me hself) sender (observed k) node) (ih hself' (k+1))

theorem announceNode_computes (hself : self.me = ctx.me) (sender : EndpointId)
    (addr : EndpointAddr) (aliasName : String) (services : ExtTreeMap String UInt32)
    (invitor : EndpointId) (env : Readings) :
    Computes (announceNode self sender addr aliasName services invitor env) ctx ()
      (ctx.announceNode sender addr aliasName services invitor env) :=
  .bind (getNode_computes sender) (admitNode_computes hself _)

theorem takeNodes_computes (hself : self = ctx.fixed) (sender : EndpointId) (nodes : List Node)
    (passed : Bool) (env : Readings) :
    Computes (takeNodes self sender nodes passed env) ctx ()
      (if !ctx.args.daemon || passed then Context.syncNodes sender env.observed 0 nodes ctx
        else ctx) := by
  have hargs : self.args = ctx.args := congrArg Fixed.args hself
  unfold takeNodes
  rw [hargs]
  by_cases h : (!ctx.args.daemon || passed) = true
  · rw [if_pos h, if_pos h]
    exact syncNodes_computes hself sender env.observed 0 nodes
  · rw [if_neg h, if_neg h]
    exact .pure () ctx

theorem collect_computes {get : EndpointId → Task (Option Node)} {m : DashMap EndpointId Node}
    (hget : ∀ id, Computes (get id) ctx m[id]? ctx) {entries : List (EndpointId × Node)}
    (hentries : ∀ e ∈ entries, m[e.1]? = some e.2) :
    Computes (collect get (entries.map (·.1))) ctx entries ctx := by
  induction entries with
  | nil => exact .pure [] ctx
  | cons e entries ih =>
    have hhead := hget e.1
    rw [hentries e List.mem_cons_self] at hhead
    have hrest := ih fun f hf => hentries f (List.mem_cons_of_mem e hf)
    exact .bind hhead (.bind hrest (.pure _ ctx))

theorem iterNodes_computes (iter : IterOrder) :
    Computes (iterNodes iter) ctx (iter.walk ctx.nodes) ctx :=
  .bind (.op _ (fun _ => rfl) fun _ => rfl)
    (collect_computes getNode_computes fun _ he => (IterOrder.mem_walk iter).mp he)

theorem iterTrusted_computes (iter : IterOrder) :
    Computes (iterTrusted iter) ctx (iter.walk ctx.trustedNodes) ctx :=
  .bind (.op _ (fun _ => rfl) fun _ => rfl)
    (collect_computes getTrusted_computes fun _ he => (IterOrder.mem_walk iter).mp he)

theorem sendMessageTo_computes (hself : self.me = ctx.me) (id : EndpointId) (message : Message)
    (env : Readings) :
    Computes (sendMessageTo self id message env) ctx (ctx.sendMessageTo id message env) ctx := by
  unfold sendMessageTo Context.sendMessageTo
  rw [hself]
  split
  · exact .pure [] ctx
  · exact .bind (getNode_computes id) (.pure _ ctx)

theorem answerSync_computes (hself : self = ctx.fixed) (sender : EndpointId) (env : Readings) :
    Computes (answerSync self sender env) ctx
      (if ctx.args.daemon then
        ctx.sendMessageTo sender (.syncResponse
          (((env.iter.walk ctx.nodes).map (·.2)).filter isDaemonNode
            ++ [ctx.currentNodeState env])) env
      else []) ctx := by
  have hme : self.me = ctx.me := congrArg Fixed.me hself
  have hargs : self.args = ctx.args := congrArg Fixed.args hself
  unfold answerSync
  rw [hargs, hme]
  by_cases h : ctx.args.daemon = true
  · rw [if_pos h, if_pos h]
    exact .bind (iterNodes_computes env.iter) (sendMessageTo_computes hme sender _ env)
  · rw [if_neg h, if_neg h]
    exact .pure [] ctx

theorem dispatchMessage_computes (hself : self = ctx.fixed) (sender : EndpointId)
    (message : Message) (status : VerifyStatus) (env : Readings) :
    Computes (dispatchMessage self sender message status env) ctx
      (ctx.dispatchMessage sender message status env).2
      (ctx.dispatchMessage sender message status env).1 := by
  have hticket : self.ticket = ctx.ticket := congrArg Fixed.ticket hself
  have hme : self.me = ctx.me := congrArg Fixed.me hself
  unfold dispatchMessage Context.dispatchMessage
  cases message with
  | invited topic rnum addr aliasName services invitor =>
    dsimp only
    rw [hticket]
    split
    · exact .pure [] ctx
    · split
      · exact .pure [] ctx
      · exact .bind (announceNode_computes hme sender addr aliasName services invitor env)
          (.pure [] _)
  | aboutMe addr aliasName services invitor =>
    dsimp only
    split
    · exact .pure [] ctx
    · exact .bind (announceNode_computes hme sender addr aliasName services invitor env)
        (.pure [] _)
  | introduce invited => exact .pure [] ctx
  | heartbeat => exact .pure [] ctx
  | left =>
    dsimp only
    split
    · exact .pure [] ctx
    · exact .bind (.exec fun _ => rfl) (.pure [] _)
  | syncRequest nodes =>
    refine .bind (takeNodes_computes hself sender nodes status.passed env) ?_
    have hself' : self = (if !ctx.args.daemon || status.passed then
        Context.syncNodes sender env.observed 0 nodes ctx else ctx).fixed := by
      split
      · rw [Context.syncNodes_fixed, hself]
      · exact hself
    have hanswer := answerSync_computes hself' sender env
    dsimp only
    generalize (if !ctx.args.daemon || status.passed then
      Context.syncNodes sender env.observed 0 nodes ctx else ctx) = ctx' at hanswer
    split
    · rename_i hdaemon
      rwa [if_pos hdaemon] at hanswer
    · rename_i hdaemon
      rwa [if_neg hdaemon] at hanswer
  | syncResponse nodes =>
    have htake := takeNodes_computes hself sender nodes status.passed env
    dsimp only
    split at htake
    · rename_i h
      rw [if_pos h]
      exact .bind htake (.pure [] _)
    · rename_i h
      rw [if_neg h]
      exact .bind htake (.pure [] _)

theorem refreshPassed_computes (ctx : Context) (signed : SignedMessage) (env : Readings) :
    Computes (refreshPassed ctx.fixed signed.sender (ctx.status signed env) env) ctx ()
      (ctx.refreshed signed env) := by
  unfold refreshPassed Context.refreshed
  split
  · exact refreshSender_computes rfl signed.sender env
  · exact .pure () ctx

theorem refreshed_fixed (ctx : Context) (signed : SignedMessage) (env : Readings) :
    (ctx.refreshed signed env).fixed = ctx.fixed := by
  unfold Context.refreshed
  split
  · exact Context.refreshSender_fixed ctx signed.sender env
  · rfl

theorem receive_computes (ctx : Context) (signed : SignedMessage) (env : Readings) :
    Computes (receive ctx.fixed signed env) ctx (ctx.receive signed env).2
      (ctx.receive signed env).1 := by
  refine .bind (isNodeTrusted_computes signed.sender) ?_
  exact .bind (refreshPassed_computes ctx signed env)
    (dispatchMessage_computes (refreshed_fixed ctx signed env).symm _ _ _ env)

theorem save_computes (ctx : Context) (iter : IterOrder) (fault : Option String) :
    Computes (save ctx.fixed iter fault) ctx ((ctx.save iter fault).map fun _ => ())
      (match ctx.save iter fault with
        | .ok ctx' => ctx'
        | .error _ => ctx) := by
  refine .bind (iterTrusted_computes iter) ?_
  cases fault <;> exact .op _ (fun _ => rfl) fun _ => rfl

theorem removeNode_alone (codecs : Codecs) {d : Daemon} {text : String} {nodeId : EndpointId}
    {env : CommandReadings} (hresolved : resolveNodeId codecs d text env.iter = .ok nodeId)
    (hme : nodeId ≠ d.ctx.me.nodeId) :
    (removeNode codecs nodeId env.fault).run Op.apply d = handleRemoveNode codecs d text env := by
  unfold removeNode lookupDomain handleRemoveNode
  simp only [hresolved, if_neg hme, getNode, getTrusted, Prog.run_bind, Prog.run_op]
  cases d.ctx.nodes[nodeId]? <;> cases env.fault <;> rfl

end Alone
end Task

end P2pDdns
