import P2pDdns.Receive

/-!
What one event can do to the tables. Every step of a daemon is a sequence of the
changes listed here, each with the reason it was made for; the invariants of the
later modules are proved change by change.
-/

set_option autoImplicit false

namespace P2pDdns
open Std Relation NewestWins

/-- A fresh `Invited` carrying exactly the daemon's topic and rnum. -/
def HoldsTicket (ctx : Context) (signed : SignedMessage) (env : Readings) : Prop :=
  signed.isFresh env.verifyNow = true ∧
    ∃ addr aliasName services invitor,
      signed.message = .invited ctx.ticket.topic ctx.ticket.rnum addr aliasName services invitor

def Syncs (signed : SignedMessage) (nodes : List Node) : Prop :=
  signed.message = .syncRequest nodes ∨ signed.message = .syncResponse nodes

def Lists (signed : SignedMessage) (node : Node) : Prop :=
  ∃ nodes, Syncs signed nodes ∧ node ∈ nodes

/-- The daemon record `node`, listed after `earlier`, is not the daemon's own and beats what
is held and what was listed for its id before. -/
def Taken (ctx : Context) (earlier : List Node) (node : Node) : Prop :=
  node.nodeId ≠ ctx.me.nodeId ∧ isDaemonNode node = true ∧
    Beats Node.lastHeartbeat ctx.nodes[node.nodeId]? node ∧
    ∀ n ∈ earlier, n.nodeId = node.nodeId → isDaemonNode n = true →
      n.lastHeartbeat < node.lastHeartbeat

structure Announcement where
  addr : EndpointAddr
  aliasName : String
  services : ExtTreeMap String UInt32
  invitor : EndpointId

def Announcement.incoming (ann : Announcement) (sender : EndpointId) (env : Readings) : Node :=
  { nodeId := sender, invitor := ann.invitor,
    addr := senderMessageAddr sender ann.addr (env.observed 0), domain := ann.aliasName,
    services := ann.services, lastHeartbeat := env.incomingNow }

/-- The message is an accepted announcement: an `AboutMe` that passed, or a fresh `Invited`
with the daemon's topic and rnum. -/
def Accepts (ctx : Context) (signed : SignedMessage) (env : Readings) (ann : Announcement) : Prop :=
  (signed.message = .aboutMe ann.addr ann.aliasName ann.services ann.invitor ∧
    Passed ctx signed env) ∨
  (signed.message = .invited ctx.ticket.topic ctx.ticket.rnum ann.addr ann.aliasName ann.services
      ann.invitor ∧ signed.isFresh env.verifyNow = true)

/-- The changes one received message makes; `start` is the context it is verified in. -/
inductive Heard (start : Context) (signed : SignedMessage) (env : Readings) :
    Context → Context → Prop where
  | touched {ctx : Context} {old : Node} :
      Passed start signed env → ctx.nodes[signed.sender]? = some old →
      Heard start signed env ctx
        { ctx with
          nodes := ctx.nodes.insert signed.sender { old with lastHeartbeat := env.refreshNow } }
  | observed {ctx : Context} {old : Node} {sock : SocketAddr} :
      Passed start signed env → env.refreshObserved = some sock →
      ctx.nodes[signed.sender]? = some old →
      Heard start signed env ctx
        ((ctx.refreshTrustedNode signed.sender
            (observedNode old signed.sender sock env.refreshNow)).upsertActiveNode
          (observedNode old signed.sender sock env.refreshNow))
  | announced {ctx : Context} {ann : Announcement} :
      Accepts start signed env ann →
      Heard start signed env ctx
        (ctx.admitNode (mergeNode ctx.nodes[signed.sender]? (ann.incoming signed.sender env)).1)
  | listed {ctx : Context} {earlier later : List Node} {node : Node} :
      Syncs signed (earlier ++ node :: later) →
      start.args.daemon = false ∨ Passed start signed env →
      Taken (start.refreshed signed env) earlier node →
      Beats Node.lastHeartbeat ctx.nodes[node.nodeId]? node →
      Heard start signed env ctx
        (ctx.admitNode (mergeNode ctx.nodes[node.nodeId]?
          (listedNode signed.sender (env.observed earlier.length) node)).1)
  | left {ctx : Context} :
      Passed start signed env → signed.message = .left →
      Heard start signed env ctx { ctx with nodes := ctx.nodes.erase signed.sender }

variable {codecs : Codecs}

/-- The changes one event makes; `start` is the daemon it happens to. -/
inductive Change (codecs : Codecs) (start : Daemon) : Event → Daemon → Daemon → Prop where
  | heard {signed : SignedMessage} {env : Readings} {d : Daemon} {ctx : Context} :
      Heard start.ctx signed env d.ctx ctx →
      Change codecs start (.received (some signed) env) d { d with ctx := ctx }
  | expired {now : Nat} {iter : IterOrder} {d : Daemon} {id : EndpointId} :
      Change codecs start (.cleanup now iter) d
        { d with ctx := { d.ctx with nodes := d.ctx.nodes.erase id } }
  | saved {iter : IterOrder} {fault : Option String} {d : Daemon} {storage : Storage} :
      Change codecs start (.save iter fault) d { d with ctx := { d.ctx with storage := storage } }
  | registered {authReq : AuthRequest} {mode : AuthMode} {env : AuthReadings} {d : Daemon}
      {pk : EndpointId} :
      authAllowed codecs start.ctx authReq mode = true → clientKey codecs authReq = some pk →
      start.clients.isClientNode pk = false →
      Change codecs start (.authenticate authReq mode env) d
        { ctx :=
            { d.ctx with
              nodes := d.ctx.nodes.insert pk
                (clientNode codecs start.ctx.me pk authReq env.recordNow) }
          clients := d.clients.addClient pk (clientInfo authReq env.connectedNow) }
  | added {client : EndpointId} {ticket : String} {env : CommandReadings} {d : Daemon}
      {parsed : Ticket} :
      start.clients.checkPermission client "add_node" = true →
      Ticket.fromStr codecs ticket = .ok parsed → parsed.topic = start.ctx.ticket.topic →
      Change codecs start (.command client (.addNode ticket) env) d
        { d with ctx := d.ctx.admitNode parsed.invitor }
  | persisted {client : EndpointId} {cmd : ClientCommand} {env : CommandReadings} {d : Daemon}
      {storage : Storage} :
      Change codecs start (.command client cmd env) d
        { d with ctx := { d.ctx with storage := storage } }
  | revoked {client : EndpointId} {id : String} {env : CommandReadings} {d : Daemon}
      {nodeId : EndpointId} :
      start.clients.checkPermission client "remove_node" = true →
      resolveNodeId codecs start id env.iter = .ok nodeId → nodeId ≠ start.ctx.me.nodeId →
      Change codecs start (.command client (.removeNode id) env) d
        { ctx :=
            { d.ctx with
              nodes := d.ctx.nodes.erase nodeId
              trustedNodes := d.ctx.trustedNodes.erase nodeId }
          clients := d.clients.removeClient nodeId }
  | paused {client : EndpointId} {cmd : ClientCommand} {env : CommandReadings} {d : Daemon}
      {b : Bool} :
      Change codecs start (.command client cmd env) d
        { d with ctx := { d.ctx with paused := b } }

/-! Every step is a sequence of changes. -/

section Messages
variable {ctx : Context} {signed : SignedMessage} {env : Readings}

theorem refreshSender_heard (start : Context) (hpassed : Passed start signed env) :
    ReflTransGen (Heard start signed env) ctx (ctx.refreshSender signed.sender env) := by
  rw [refreshSender_eq]
  cases hold : ctx.nodes[signed.sender]? with
  | none => exact .refl
  | some old =>
    cases hobs : env.refreshObserved with
    | none => exact .single (.touched hpassed hold)
    | some sock => exact .single (.observed hpassed hobs hold)

/-- `base` is the context the loop starts in and `earlier` what it has gone through. -/
theorem syncNodes_heard {start base : Context} {earlier nodes : List Node}
    (hmsg : Syncs signed (earlier ++ nodes))
    (hgate : start.args.daemon = false ∨ Passed start signed env)
    (hbase : base = start.refreshed signed env) (hme : ctx.me = base.me)
    (hheld : ∀ (id : EndpointId) (b : Nat), Covers Node.lastHeartbeat base.nodes[id]? b →
      Covers Node.lastHeartbeat ctx.nodes[id]? b)
    (hearlier : ∀ n ∈ earlier, n.nodeId ≠ base.me.nodeId → isDaemonNode n = true →
      Covers Node.lastHeartbeat ctx.nodes[n.nodeId]? n.lastHeartbeat) :
    ReflTransGen (Heard start signed env) ctx
      (Context.syncNodes signed.sender env.observed earlier.length nodes ctx) := by
  induction nodes generalizing earlier ctx with
  | nil => exact .refl
  | cons node nodes ih =>
    have hstep : ReflTransGen (Heard start signed env) ctx
        (ctx.syncNode signed.sender (env.observed earlier.length) node) := by
      rcases syncNode_cases ctx signed.sender (env.observed earlier.length) node with
        ⟨h, -⟩ | ⟨hnode, hd, hbeats, h⟩
      · rw [h]
      · rw [hme] at hnode
        rw [h]
        refine .single (.listed hmsg hgate ⟨?_, hd, ?_, ?_⟩ hbeats)
        · rwa [← hbase]
        · rw [← hbase]
          exact beats_of_covers (hheld node.nodeId) hbeats
        · intro n hn hid hdn
          have hcovers := hearlier n hn (by rwa [hid]) hdn
          rw [hid] at hcovers
          exact lt_of_covers_of_beats hcovers hbeats
    refine hstep.trans ?_
    have hsplit : Syncs signed ((earlier ++ [node]) ++ nodes) := by simpa using hmsg
    have hrest : ReflTransGen (Heard start signed env)
        (ctx.syncNode signed.sender (env.observed earlier.length) node)
        (Context.syncNodes signed.sender env.observed (earlier ++ [node]).length nodes
          (ctx.syncNode signed.sender (env.observed earlier.length) node)) := by
      refine ih hsplit ?_ ?_ ?_
      · rw [syncNode_me, hme]
      · exact fun id b hb => syncNode_covers ctx signed.sender id _ node (hheld id b hb)
      · intro n hn hnme hdn
        rcases List.mem_append.mp hn with hn | hn
        · exact syncNode_covers ctx signed.sender n.nodeId _ node (hearlier n hn hnme hdn)
        · obtain rfl := List.mem_singleton.mp hn
          rw [← hme] at hnme
          exact syncNode_covers_self ctx signed.sender _ hnme hdn
    rwa [List.length_append] at hrest

theorem Heard.frame {start ctx ctx' : Context} (h : Heard start signed env ctx ctx') :
    ctx'.me = ctx.me ∧ ctx'.args = ctx.args ∧ ctx'.ticket = ctx.ticket := by
  cases h <;> simp [Context.admitNode]

theorem Heard.storage {start ctx ctx' : Context} (h : Heard start signed env ctx ctx') :
    ctx'.storage = ctx.storage := by
  cases h <;> simp

theorem Change.frame {start d d' : Daemon} {e : Event} (h : Change codecs start e d d') :
    d'.ctx.me = d.ctx.me ∧ d'.ctx.args = d.ctx.args ∧ d'.ctx.ticket = d.ctx.ticket := by
  cases h with
  | heard hheard => exact hheard.frame
  | added _ _ _ => simp [Context.admitNode]
  | _ => exact ⟨rfl, rfl, rfl⟩

theorem refreshed_heard (ctx : Context) (signed : SignedMessage) (env : Readings) :
    ReflTransGen (Heard ctx signed env) ctx (ctx.refreshed signed env) := by
  unfold Context.refreshed
  split
  · rename_i h
    exact refreshSender_heard ctx (status_passed.mp h)
  · exact .refl

theorem syncBranch_heard {nodes : List Node} (hmsg : Syncs signed nodes)
    (hgate : (!(ctx.refreshed signed env).args.daemon || (ctx.status signed env).passed) = true) :
    ReflTransGen (Heard ctx signed env) (ctx.refreshed signed env)
      (Context.syncNodes signed.sender env.observed 0 nodes (ctx.refreshed signed env)) := by
  rw [refreshed_args, Bool.or_eq_true, Bool.not_eq_true', status_passed] at hgate
  have hmsg' : Syncs signed ([] ++ nodes) := hmsg
  exact syncNodes_heard hmsg' hgate rfl rfl (fun _ _ hb => hb) (by simp)

theorem dispatch_heard (ctx : Context) (signed : SignedMessage) (env : Readings) :
    ReflTransGen (Heard ctx signed env) (ctx.refreshed signed env) (ctx.receive signed env).1 := by
  rw [receive_eq]
  cases hmsg : signed.message with
  | invited topic rnum addr aliasName services invitor =>
    rw [invited_ctx, status_fresh, refreshed_ticket]
    split
    · rename_i haccepted
      obtain ⟨hfresh, hticket⟩ := haccepted
      obtain ⟨rfl, rfl⟩ := of_decide_eq_true hticket
      have haccepts : Accepts ctx signed env ⟨addr, aliasName, services, invitor⟩ :=
        .inr ⟨hmsg, hfresh⟩
      exact .single (.announced haccepts)
    · exact .refl
  | aboutMe addr aliasName services invitor =>
    rw [aboutMe_ctx]
    split
    · rename_i hpassed
      have haccepts : Accepts ctx signed env ⟨addr, aliasName, services, invitor⟩ :=
        .inl ⟨hmsg, status_passed.mp hpassed⟩
      exact .single (.announced haccepts)
    · exact .refl
  | introduce invited => exact .refl
  | heartbeat => exact .refl
  | left =>
    rw [left_ctx]
    split
    · rename_i hpassed
      exact .single (.left (status_passed.mp hpassed) hmsg)
    · exact .refl
  | syncRequest nodes =>
    -- The reply is built from the merged table and changes nothing.
    rw [syncRequest_ctx]
    split
    · rename_i hgate
      exact syncBranch_heard (.inl hmsg) hgate
    · exact .refl
  | syncResponse nodes =>
    rw [syncResponse_ctx]
    split
    · rename_i hgate
      exact syncBranch_heard (.inr hmsg) hgate
    · exact .refl

/-- Handling a received message is a sequence of `Heard` changes. -/
theorem receive_heard (ctx : Context) (signed : SignedMessage) (env : Readings) :
    ReflTransGen (Heard ctx signed env) ctx (ctx.receive signed env).1 :=
  (refreshed_heard ctx signed env).trans (dispatch_heard ctx signed env)

theorem receive_storage (ctx : Context) (signed : SignedMessage) (env : Readings) :
    (ctx.receive signed env).1.storage = ctx.storage := by
  have hheard := receive_heard ctx signed env
  generalize (ctx.receive signed env).1 = ctx' at hheard ⊢
  induction hheard with
  | refl => rfl
  | tail _ hlast ih => exact hlast.storage.trans ih

end Messages

theorem expired_changes {codecs : Codecs} {start : Daemon} {now : Nat} {iter : IterOrder}
    (d : Daemon) (ids : List EndpointId) :
    ReflTransGen (Change codecs start (.cleanup now iter)) d
      { d with ctx := { d.ctx with nodes := FiniteMaps.eraseAll d.ctx.nodes ids } } := by
  induction ids generalizing d with
  | nil => exact .refl
  | cons id ids ih =>
    exact .head .expired (ih { d with ctx := { d.ctx with nodes := d.ctx.nodes.erase id } })

theorem addNode_changes {codecs : Codecs} {d : Daemon} {client : EndpointId} {ticket : String}
    {env : CommandReadings} (hperm : d.clients.checkPermission client "add_node" = true) :
    ReflTransGen (Change codecs d (.command client (.addNode ticket) env)) d
      (handleAddNode codecs d ticket env).2 := by
  unfold handleAddNode
  split
  · exact .refl
  · rename_i parsed hparsed
    dsimp only
    split
    · exact .refl
    · rename_i htopic
      rw [not_ne_iff] at htopic
      have hadd : ReflTransGen (Change codecs d (.command client (.addNode ticket) env)) d
          { d with ctx := d.ctx.admitNode parsed.invitor } :=
        .single (.added hperm hparsed htopic)
      split
      · exact hadd
      · exact hadd.tail .persisted

theorem removeNode_changes {codecs : Codecs} {d : Daemon} {client : EndpointId} {id : String}
    {env : CommandReadings} (hperm : d.clients.checkPermission client "remove_node" = true) :
    ReflTransGen (Change codecs d (.command client (.removeNode id) env)) d
      (handleRemoveNode codecs d id env).2 := by
  unfold handleRemoveNode
  split
  · exact .refl
  · rename_i nodeId hresolve
    split
    · exact .refl
    · rename_i hme
      have hrevoke : ReflTransGen (Change codecs d (.command client (.removeNode id) env)) d _ :=
        .single (.revoked hperm hresolve hme)
      dsimp only
      split
      · exact hrevoke
      · exact hrevoke.tail .persisted

/-- Every step of a daemon is a sequence of changes. -/
theorem step_changes (codecs : Codecs) (d : Daemon) (e : Event) :
    ReflTransGen (Change codecs d e) d (d.step codecs e) := by
  cases e with
  | received signed env =>
    cases signed with
    | none => exact .refl
    | some signed =>
      exact ReflTransGen.lift (p := Change codecs d (.received (some signed) env))
        (fun ctx => { d with ctx := ctx }) (fun _ _ h => .heard h) _ _
        (receive_heard d.ctx signed env)
  | cleanup now iter => exact (expired_changes d _).trans (expired_changes _ _)
  | save iter fault =>
    simp only [Daemon.step, Context.save]
    cases hsave : d.ctx.storage.batchSaveNodes _ fault with
    | error e => exact .refl
    | ok storage => exact .single .saved
  | authenticate authReq mode env =>
    simp only [Daemon.step, authenticateAndRegister]
    split
    · exact .refl
    · rename_i hallowed
      rw [Bool.not_eq_false] at hallowed
      split
      · rename_i pk hkey
        split
        · exact .refl
        · rename_i hnew
          rw [Bool.not_eq_true] at hnew
          exact .single (.registered hallowed hkey hnew)
      · exact .refl
  | command client cmd env =>
    simp only [Daemon.step, runCommand]
    split
    · rename_i hperm
      cases cmd with
      | addNode ticket => exact addNode_changes hperm
      | removeNode id => exact removeNode_changes hperm
      | pause => exact .single .paused
      | resume => exact .single .paused
      | query | status | getTicket | shutdown => exact .refl
    · exact .refl

theorem changes_frame {start d d' : Daemon} {e : Event}
    (h : ReflTransGen (Change codecs start e) d d') :
    d'.ctx.me = d.ctx.me ∧ d'.ctx.args = d.ctx.args ∧ d'.ctx.ticket = d.ctx.ticket := by
  induction h with
  | refl => exact ⟨rfl, rfl, rfl⟩
  | tail _ hlast ih =>
    obtain ⟨hme, hargs, hticket⟩ := hlast.frame
    exact ⟨hme.trans ih.1, hargs.trans ih.2.1, hticket.trans ih.2.2⟩

/-- What each change of an event preserves holds after all of them. -/
theorem changes_induct {codecs : Codecs} {start d : Daemon} {e : Event} {I : Daemon → Prop}
    (hc : ReflTransGen (Change codecs start e) start d) (hstart : I start)
    (hchange : ∀ u v, u.ctx.me = start.ctx.me → Change codecs start e u v → I u → I v) : I d := by
  induction hc with
  | refl => exact hstart
  | tail hprev hlast ih => exact hchange _ _ (changes_frame hprev).1 hlast ih

section Run
variable (codecs : Codecs) (d : Daemon) (events : List Event)

@[simp] theorem run_args : (d.run codecs events).ctx.args = d.ctx.args :=
  Runs.exec_congr (f := fun d : Daemon => d.ctx.args)
    (fun d e => (changes_frame (step_changes codecs d e)).2.1) d events

end Run

end P2pDdns
