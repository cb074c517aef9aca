import P2pDdns.AddressTexts
import P2pDdns.DatabaseStarts

/-!
The database file through a series of starts, each of which may stop after any of its transactions
or run and write to the file: it reads back as the storage does that the starts and the daemons
are about, and the key and the port of the endpoint stay.
-/

set_option autoImplicit false

namespace P2pDdns
open Std FiniteMaps WireFormats EncodedMaps Transactions

def Daemon.commandTransactions (codecs : Codecs) (d : Daemon) (cmd : ClientCommand)
    (iter : IterOrder) : List Transaction :=
  match cmd with
  | .addNode ticket =>
    match Ticket.fromStr codecs ticket with
    | .ok parsed => if parsed.topic = d.ctx.ticket.topic then [.saveNode parsed.invitor] else []
    | .error _ => []
  | .removeNode id =>
    match resolveNodeId codecs d id iter with
    | .ok nodeId => if nodeId = d.ctx.me.nodeId then [] else [.removeNode nodeId]
    | .error _ => []
  | .query | .status | .getTicket | .pause | .resume | .shutdown => []

/-- The transactions of an event that go through. -/
def Daemon.transactions (codecs : Codecs) (d : Daemon) : Event → List Transaction
  | .save iter none => [.batchSaveNodes (d.ctx.savedNodes iter)]
  | .command client cmd env =>
    if d.clients.checkPermission client (requiredPermission cmd) && env.fault.isNone then
      d.commandTransactions codecs cmd env.iter
    else []
  | .save _ (some _) | .received _ _ | .cleanup _ _ | .authenticate _ _ _ => []

structure Service where
  daemon : Daemon
  db : Database

def Service.step (codecs : Codecs) (s : Service) (e : Event) : Service :=
  ⟨s.daemon.step codecs e, (s.daemon.transactions codecs e).foldl (Database.perform codecs) s.db⟩

def Database.started {codecs : Codecs} {keys : Keys codecs} (db : Database) (boot : Boot keys) :
    Except StartError (Context × BindAddrs) :=
  (Log.run boot.start db).1

/-- What a start leaves in the file, with the daemon that came up and ran. -/
def Database.boot {codecs : Codecs} {keys : Keys codecs} (db : Database) (boot : Boot keys) :
    Database :=
  let writes := (Log.run boot.start db).2
  match boot.stop with
  | some k => (writes.take k).foldl (perform codecs) db
  | none =>
    let written := writes.foldl (perform codecs) db
    match db.started boot with
    | .error _ => written
    | .ok (ctx, _) => (Runs.exec (Service.step codecs) ⟨⟨ctx, .new⟩, written⟩ boot.events).db

def databaseAfter {codecs : Codecs} {keys : Keys codecs} (history : List (Boot keys)) : Database :=
  Runs.exec Database.boot .empty history

/-! The records, as they are read back. -/

def Storage.carried (storage : Storage) : Storage :=
  { storage with nodes := storage.nodes.map fun _ node => node.carried }

/-- An attempt, and what the database then gives back. -/
def Storage.reboot (codecs : Codecs) (storage : Storage) (a : Attempt) : Storage :=
  (storage.attempt codecs a).carried

theorem carried_insert (nodes : DashMap EndpointId Node) (node : Node) :
    (nodes.insert node.nodeId node).map (fun _ node => node.carried) =
      Contents.insertNode (nodes.map fun _ node => node.carried) node := by
  apply ExtTreeMap.ext_getElem?
  intro id
  rw [ExtTreeMap.getElem?_map, Contents.insertNode]
  by_cases hid : node.nodeId = id
  · subst hid
    rw [getElem?_insert_self, getElem?_insert_self, Option.map_some]
  · rw [getElem?_insert_ne _ _ hid, getElem?_insert_ne _ _ hid, ExtTreeMap.getElem?_map]

theorem carried_insertAll (nodes : DashMap EndpointId Node) (news : List Node) :
    (insertAll (·.nodeId) nodes news).map (fun _ node => node.carried) =
      news.foldl Contents.insertNode (nodes.map fun _ node => node.carried) := by
  induction news generalizing nodes with
  | nil => rfl
  | cons node news ih =>
    rw [List.foldl_cons, ← carried_insert]
    exact ih (nodes.insert node.nodeId node)

theorem carried_erase (nodes : DashMap EndpointId Node) (peerId : EndpointId) :
    (nodes.erase peerId).map (fun _ node => node.carried) =
      (nodes.map fun _ node => node.carried).erase peerId := by
  apply ExtTreeMap.ext_getElem?
  intro id
  rw [ExtTreeMap.getElem?_map, getElem?_erase_eq, getElem?_erase_eq, ExtTreeMap.getElem?_map]
  split <;> rfl

section Refinement
variable {codecs : Codecs} {keys : Keys codecs}

theorem Holds.carried {db : Database} {c : Contents} (h : Holds codecs db c) :
    (c.storage keys).carried = c.storage keys := by
  have hnodes : c.nodes.map (fun _ node => node.carried) = c.nodes := by
    apply ExtTreeMap.ext_getElem?
    intro id
    rw [ExtTreeMap.getElem?_map]
    cases hid : c.nodes[id]? with
    | none => rfl
    | some node =>
      have hfound := h.nodes.found id
      rw [hid] at hfound
      obtain ⟨bytes, -, hread⟩ := Option.bind_eq_some_iff.mp hfound
      obtain ⟨fields, -, rfl⟩ := Option.map_eq_some_iff.mp hread
      exact congrArg some (Node.carried_ofWire fields)
  rw [Storage.carried]
  exact congrArg (fun nodes => (⟨c.secretKey.map keys.publicKey, c.topic, c.ticketRnum, nodes⟩ : Storage))
    hnodes

theorem addNode_transactions {d : Daemon} {ticket : String} {iter : IterOrder} {node : Node}
    (h : AddsNode codecs d ticket node) :
    d.commandTransactions codecs (.addNode ticket) iter = [.saveNode node] := by
  obtain ⟨parsed, hparsed, htopic, rfl⟩ := h
  simp [Daemon.commandTransactions, hparsed, htopic]

theorem addNode_no_transactions {d : Daemon} {ticket : String} {iter : IterOrder}
    (h : ∀ node, ¬ AddsNode codecs d ticket node) :
    d.commandTransactions codecs (.addNode ticket) iter = [] := by
  cases hparsed : Ticket.fromStr codecs ticket with
  | error e => simp only [Daemon.commandTransactions, hparsed]
  | ok parsed =>
    simp only [Daemon.commandTransactions, hparsed]
    exact if_neg fun htopic => h _ ⟨parsed, hparsed, htopic, rfl⟩

theorem removeNode_transactions {d : Daemon} {id : String} {iter : IterOrder} {nodeId : EndpointId}
    (h : RemovesNode codecs d id iter nodeId) :
    d.commandTransactions codecs (.removeNode id) iter = [.removeNode nodeId] := by
  obtain ⟨hresolved, hother⟩ := h
  simp [Daemon.commandTransactions, hresolved, hother]

theorem removeNode_no_transactions {d : Daemon} {id : String} {iter : IterOrder}
    (h : ∀ nodeId, ¬ RemovesNode codecs d id iter nodeId) :
    d.commandTransactions codecs (.removeNode id) iter = [] := by
  cases hresolved : resolveNodeId codecs d id iter with
  | error e => simp only [Daemon.commandTransactions, hresolved]
  | ok nodeId =>
    simp only [Daemon.commandTransactions, hresolved]
    exact if_pos (by_contra fun hother => h nodeId ⟨hresolved, hother⟩)

section Step
variable {d : Daemon} {c : Contents}

theorem stands_with (h : c.storage keys = d.ctx.storage.carried) {nodes nodes' : DashMap EndpointId Node}
    (heq : (nodes.map fun _ (node : Node) => node.carried) = nodes') :
    Contents.storage { c with nodes := nodes' } keys =
      ({ d.ctx.storage with nodes := nodes } : Storage).carried := by
  rw [← heq]
  exact congrArg
    (fun s : Storage => { s with nodes := nodes.map fun _ (node : Node) => node.carried }) h

theorem command_carried (h : c.storage keys = d.ctx.storage.carried) (cmd : ClientCommand)
    (env : CommandReadings) :
    ((if env.fault.isNone then d.commandTransactions codecs cmd env.iter else []).foldl
        Contents.perform c).storage keys =
      (handleCommand codecs d cmd env).2.ctx.storage.carried := by
  have hnodes : c.nodes = d.ctx.storage.nodes.map fun _ node => node.carried :=
    congrArg Storage.nodes h
  cases cmd with
  | addNode ticket =>
    simp only [handleCommand]
    rcases @handleAddNode_cases codecs d ticket env with
      ⟨text, heq, hnot⟩ | ⟨node, hadds, ⟨fault, text, hfault, heq⟩ | ⟨text, hfault, heq⟩⟩ <;> rw [heq]
    · rw [addNode_no_transactions hnot, ite_self]
      exact h
    · simp only [hfault, Option.isNone_some, Bool.false_eq_true, if_false]
      exact h.trans (congrArg Storage.carried (admitNode_storage d.ctx node).symm)
    · simp only [hfault, Option.isNone_none, if_true, addNode_transactions hadds]
      have hadmitted : ((d.ctx.admitNode node).withStored
          (d.ctx.storage.nodes.insert node.nodeId node)).storage =
            { d.ctx.storage with nodes := d.ctx.storage.nodes.insert node.nodeId node } := by
        simp [Context.withStored]
      refine (stands_with h ?_).trans (congrArg Storage.carried hadmitted.symm)
      rw [carried_insert, hnodes]
  | removeNode id =>
    simp only [handleCommand]
    rcases @handleRemoveNode_cases codecs d id env with
      ⟨text, heq, hnot⟩ | ⟨nodeId, hremoves, ⟨fault, text, hfault, heq⟩ | ⟨text, hfault, heq⟩⟩ <;>
      rw [heq]
    · rw [removeNode_no_transactions hnot, ite_self]
      exact h
    · simp only [hfault, Option.isNone_some, Bool.false_eq_true, if_false]
      exact h
    · simp only [hfault, Option.isNone_none, if_true, removeNode_transactions hremoves]
      refine stands_with h ?_
      rw [carried_erase, hnodes]
  | query | status | getTicket | pause | resume | shutdown =>
    rw [Daemon.commandTransactions, ite_self]
    exact h

theorem step_carried (h : c.storage keys = d.ctx.storage.carried) (e : Event) :
    ((d.transactions codecs e).foldl Contents.perform c).storage keys =
      (d.step codecs e).ctx.storage.carried := by
  cases e with
  | received signed env =>
    cases signed with
    | none => exact h
    | some signed => exact h.trans (congrArg Storage.carried (receive_storage d.ctx signed env).symm)
  | cleanup now iter => exact h
  | save iter fault =>
    cases fault with
    | some fault => exact h
    | none =>
      have hnodes : c.nodes = d.ctx.storage.nodes.map fun _ node => node.carried :=
        congrArg Storage.nodes h
      refine stands_with h ?_
      rw [carried_insertAll, hnodes]
      rfl
  | authenticate authReq mode env =>
    simp only [Daemon.step, authenticateAndRegister]
    split
    · exact h
    · split
      · split <;> exact h
      · exact h
  | command client cmd env =>
    simp only [Daemon.step, Daemon.transactions, runCommand]
    cases d.clients.checkPermission client (requiredPermission cmd) with
    | false => exact h
    | true => exact command_carried h cmd env

end Step

theorem transactions_keep (codecs : Codecs) (d : Daemon) (e : Event) (c : Contents) :
    let written := (d.transactions codecs e).foldl Contents.perform c
    written.secretKey = c.secretKey ∧ written.bindPort = c.bindPort := by
  have hcommand (cmd : ClientCommand) (iter : IterOrder) :
      let written := (d.commandTransactions codecs cmd iter).foldl Contents.perform c
      written.secretKey = c.secretKey ∧ written.bindPort = c.bindPort := by
    cases cmd with
    | addNode ticket =>
      simp only [Daemon.commandTransactions]
      split
      · split <;> exact ⟨rfl, rfl⟩
      · exact ⟨rfl, rfl⟩
    | removeNode id =>
      simp only [Daemon.commandTransactions]
      split
      · split <;> exact ⟨rfl, rfl⟩
      · exact ⟨rfl, rfl⟩
    | query | status | getTicket | pause | resume | shutdown => exact ⟨rfl, rfl⟩
  cases e with
  | save iter fault => cases fault <;> exact ⟨rfl, rfl⟩
  | command client cmd env =>
    simp only [Daemon.transactions]
    split
    · exact hcommand cmd env.iter
    · exact ⟨rfl, rfl⟩
  | received _ _ | cleanup _ _ | authenticate _ _ _ => exact ⟨rfl, rfl⟩

structure Serves (keys : Keys codecs) (c₀ : Contents) (d : Daemon) (s : Service) (c : Contents) :
    Prop where
  daemon : s.daemon = d
  holds : Holds codecs s.db c
  storage : c.storage keys = d.ctx.storage.carried
  kept : c.secretKey = c₀.secretKey ∧ c.bindPort = c₀.bindPort

theorem Serves.run {c₀ c : Contents} {d : Daemon} {s : Service} (h : Serves keys c₀ d s c)
    (events : List Event) :
    ∃ c', Serves keys c₀ (d.run codecs events) (Runs.exec (Service.step codecs) s events) c' := by
  induction events generalizing d s c with
  | nil => exact ⟨c, h⟩
  | cons e events ih =>
    obtain ⟨rfl, hdb, hstorage, hkept⟩ := h
    have hkeep := transactions_keep codecs s.daemon e c
    exact ih
      { daemon := rfl
        holds := related_foldl (holds_performs keys) hdb _
        storage := step_carried hstorage e
        kept := ⟨hkeep.1.trans hkept.1, hkeep.2.trans hkept.2⟩ }

/-! One start. -/

/-- The attempt is this start on the storage; it comes up where the start does. -/
structure AttemptOf (db : Database) (boot : Boot keys) (a : Attempt) : Prop where
  args : a.args = boot.args
  env : a.env = boot.env
  events : a.events = boot.events
  up : a.stop = none ↔ boot.stop = none ∧ (db.started boot).isOk = true

theorem storage_of_prefix {boot : Boot keys} {c : Contents} {port ws later : List Transaction}
    (hport : port = [] ∨ port = portWrites boot (afterClear boot c))
    (hws : bootWrites boot c port = ws ++ later) :
    ∃ k, (ws.foldl Contents.perform c).storage keys =
      (c.storage keys).attempt codecs ⟨boot.args, boot.env, some k, boot.events⟩ := by
  have hstart : ∀ w ∈ ws, w.OfStart := fun w hw =>
    bootWrites_ofStart hport w (by rw [hws]; exact List.mem_append_left later hw)
  have htake : ws.filterMap (startWrite? keys) =
      (startWrites codecs boot.args (c.storage keys) boot.env).take
        (ws.filterMap (startWrite? keys)).length := by
    rw [← bootWrites_startWrites hport, hws, List.filterMap_append, List.take_left']
    rfl
  refine ⟨(ws.filterMap (startWrite? keys)).length, ?_⟩
  rw [storage_foldl keys hstart, Storage.attempt]
  exact congrArg (List.foldl Storage.startWrite (c.storage keys)) htake

theorem started_as {db : Database} {c : Contents} (h : Holds codecs db c) (boot : Boot keys) :
    StartsAs boot c (db.started boot) (Log.run boot.start db).2 := by
  obtain ⟨x, ws, hopen, hstarts⟩ := start_opens boot c
  rw [Database.started, hopen.run_eq h]
  exact hstarts

theorem started_serves {db : Database} {c : Contents} (h : Holds codecs db c) {boot : Boot keys}
    {ctx : Context} {addrs : BindAddrs} (hend : db.started boot = .ok (ctx, addrs)) :
    let c₁ := (Log.run boot.start db).2.foldl Contents.perform c
    Serves keys c₁ ⟨ctx, .new⟩
      ⟨⟨ctx, .new⟩, (Log.run boot.start db).2.foldl (Database.perform codecs) db⟩ c₁ := by
  have hstarts := started_as h boot
  obtain ⟨port, later, hport, hws, hall⟩ := hstarts.commits
  obtain ⟨rfl, -⟩ := hall _ hend
  rw [List.append_nil] at hws
  have hholds := related_foldl (holds_performs keys) h (Log.run boot.start db).2
  have hstored : ((Log.run boot.start db).2.foldl Contents.perform c).storage keys = ctx.storage := by
    rw [← hws, storage_foldl keys (bootWrites_ofStart hport), bootWrites_startWrites hport,
      (initNetwork_storage (hstarts.context ctx addrs hend)).2]
  exact ⟨rfl, hholds, by rw [← hstored, hholds.carried], rfl, rfl⟩

/-- A start on the file is an attempt on the storage it holds, read back. -/
theorem boot_attempt {db : Database} {c : Contents} (h : Holds codecs db c) (boot : Boot keys) :
    ∃ a c', AttemptOf db boot a ∧ Holds codecs (db.boot boot) c' ∧
      c'.storage keys = (c.storage keys).reboot codecs a := by
  have hstarts := started_as h boot
  obtain ⟨port, later, hport, hws, -⟩ := hstarts.commits
  -- Stopped after some of its transactions, or failed behind them.
  have hstopped {done rest : List Transaction} (hdone : (Log.run boot.start db).2 = done ++ rest)
      (hleft : db.boot boot = done.foldl (Database.perform codecs) db)
      (hdown : ¬ (boot.stop = none ∧ (db.started boot).isOk = true)) :
      ∃ a c', AttemptOf db boot a ∧ Holds codecs (db.boot boot) c' ∧
        c'.storage keys = (c.storage keys).reboot codecs a := by
    rw [hdone, List.append_assoc] at hws
    obtain ⟨k, hk⟩ := storage_of_prefix hport hws
    have hholds := related_foldl (holds_performs keys) h done
    refine ⟨⟨boot.args, boot.env, some k, boot.events⟩, _, ⟨rfl, rfl, rfl, by simp [hdown]⟩,
      hleft ▸ hholds, ?_⟩
    rw [Storage.reboot, ← hk, hholds.carried]
  cases hstop : boot.stop with
  | some k =>
    refine hstopped (List.take_append_drop k _).symm ?_ (by simp [hstop])
    simp only [Database.boot, hstop]
  | none =>
    cases hend : db.started boot with
    | error e =>
      refine hstopped (List.append_nil _).symm ?_ (by simp [hend, Except.isOk, Except.toBool])
      simp only [Database.boot, hstop, hend]
    | ok up =>
      obtain ⟨ctx, addrs⟩ := up
      have hinit := hstarts.context ctx addrs hend
      obtain ⟨c', hrun⟩ := (started_serves h hend).run boot.events
      refine ⟨⟨boot.args, boot.env, none, boot.events⟩, c', ⟨rfl, rfl, rfl, ?_⟩, ?_, ?_⟩
      · simp [hstop, hend, Except.isOk, Except.toBool]
      · simp only [Database.boot, hstop, hend]
        exact hrun.holds
      · rw [hrun.storage, Storage.reboot, Storage.attempt]
        simp only [hinit]

/-! A series of starts. -/

def AttemptsOf : Database → List (Boot keys) → List Attempt → Prop
  | _, [], [] => True
  | db, boot :: history, a :: attempts =>
    AttemptOf db boot a ∧ AttemptsOf (db.boot boot) history attempts
  | _, _, _ => False

theorem history_attempts {db : Database} {c : Contents} (h : Holds codecs db c)
    (history : List (Boot keys)) :
    ∃ attempts c', AttemptsOf db history attempts ∧
      Holds codecs (Runs.exec Database.boot db history) c' ∧
      c'.storage keys = Runs.exec (Storage.reboot codecs) (c.storage keys) attempts := by
  induction history generalizing db c with
  | nil => exact ⟨[], c, trivial, h, rfl⟩
  | cons boot history ih =>
    obtain ⟨a, c₁, ha, h₁, hstorage⟩ := boot_attempt h boot
    obtain ⟨attempts, c₂, hattempts, h₂, hend⟩ := ih h₁
    exact ⟨a :: attempts, c₂, ⟨ha, hattempts⟩, h₂, by rw [hend, hstorage, Runs.exec_cons]⟩

theorem holds_databaseAfter (history : List (Boot keys)) :
    ∃ c, Holds codecs (databaseAfter history) c := by
  obtain ⟨-, c, -, h, -⟩ := history_attempts (holds_empty codecs) history
  exact ⟨c, h⟩

/-- After any series of starts, each stopped anywhere, all of the file is read: it gives what the
same starts leave in the storage, and the next start fails at no load and has the context of a
start on that storage. -/
theorem database_refines_storage (keys : Keys codecs) (history : List (Boot keys)) :
    ∃ attempts, AttemptsOf .empty history attempts ∧
      let stored := Runs.exec (Storage.reboot codecs) .clear attempts
      (databaseAfter history).storage keys = .ok stored ∧
      ∀ boot : Boot keys, (∀ e, (databaseAfter history).started boot ≠ .error (.load e)) ∧
        ∀ ctx addrs, (databaseAfter history).started boot = .ok (ctx, addrs) →
          initNetwork codecs boot.args stored boot.env = .ok ctx := by
  obtain ⟨attempts, c, hattempts, h, hstorage⟩ := history_attempts (holds_empty codecs) history
  refine ⟨attempts, hattempts, ?_⟩
  have hread := h.storage keys
  rw [hstorage] at hread
  refine ⟨hread, fun boot => ⟨(started_as h boot).loads, fun ctx addrs hok => ?_⟩⟩
  have hinit := (started_as h boot).context ctx addrs hok
  rwa [hstorage] at hinit

/-! The key and the port. -/

structure Keeps (c c' : Contents) : Prop where
  secretKey : ∀ sk, c.secretKey = some sk → c'.secretKey = some sk
  bindPort : ∀ port, c.bindPort = some port → c'.bindPort = some port

theorem Keeps.refl (c : Contents) : Keeps c c := ⟨fun _ h => h, fun _ h => h⟩

theorem Keeps.trans {c₁ c₂ c₃ : Contents} (h : Keeps c₁ c₂) (h' : Keeps c₂ c₃) : Keeps c₁ c₃ :=
  ⟨fun sk hsk => h'.secretKey sk (h.secretKey sk hsk), fun p hp => h'.bindPort p (h.bindPort p hp)⟩

theorem keeps_foldl {c : Contents} {ws : List Transaction}
    (h : ∀ w ∈ ws, (∃ write, w = .saveConfig write) ∨
      (∃ sk, w = .saveSecret sk ∧ c.secretKey = none) ∨
      ∃ port, w = .saveBindPort port ∧ c.bindPort = none) : Keeps c (ws.foldl Contents.perform c) := by
  induction ws using List.reverseRecOn with
  | nil => exact .refl c
  | append_singleton ws w ih =>
    obtain ⟨hkey, hport⟩ := ih fun v hv => h v (List.mem_append_left _ hv)
    rw [List.foldl_append]
    rcases h w (by simp) with ⟨write, rfl⟩ | ⟨sk, rfl, hnone⟩ | ⟨port, rfl, hnone⟩
    · cases write <;> exact ⟨hkey, hport⟩
    · exact ⟨fun sk' hsk' => by simp [hnone] at hsk', hport⟩
    · exact ⟨hkey, fun port' hport' => by simp [hnone] at hport'⟩

theorem boot_keeps {db : Database} {c : Contents} (h : Holds codecs db c) {boot : Boot keys}
    (hkept : boot.args.resetStorage = false) :
    ∃ c', Holds codecs (db.boot boot) c' ∧ Keeps c c' := by
  obtain ⟨port, later, hport, hws, -⟩ := (started_as h boot).commits
  have hafter : afterClear boot c = c := by simp [afterClear, hkept]
  have hprefix {done rest : List Transaction} (hdone : (Log.run boot.start db).2 = done ++ rest) :
      Keeps c (done.foldl Contents.perform c) := by
    refine keeps_foldl fun w hw => ?_
    have hmem : w ∈ bootWrites boot c port := by
      rw [hws, hdone]
      exact List.mem_append_left _ (List.mem_append_left _ hw)
    rcases mem_bootWrites hport hmem with ⟨-, hreset⟩ | ⟨rfl, hnone⟩ | ⟨rfl, hnone⟩ | hwrite
    · simp [hkept] at hreset
    · exact .inr (.inl ⟨_, rfl, hafter ▸ hnone⟩)
    · exact .inr (.inr ⟨_, rfl, hafter ▸ hnone⟩)
    · exact .inl hwrite
  unfold Database.boot
  cases boot.stop with
  | some k =>
    exact ⟨_, related_foldl (holds_performs keys) h _, hprefix (List.take_append_drop k _).symm⟩
  | none =>
    have hholds := related_foldl (holds_performs keys) h (Log.run boot.start db).2
    have hkeep := hprefix (List.append_nil _).symm
    cases hend : db.started boot with
    | error e => exact ⟨_, hholds, hkeep⟩
    | ok up =>
      obtain ⟨ctx, addrs⟩ := up
      obtain ⟨c', hrun⟩ := (started_serves h hend).run boot.events
      refine ⟨c', hrun.holds, hkeep.trans ⟨fun sk hsk => ?_, fun port hport => ?_⟩⟩
      · rw [hrun.kept.1, hsk]
      · rw [hrun.kept.2, hport]

theorem history_keeps {db : Database} {c : Contents} (h : Holds codecs db c)
    {history : List (Boot keys)} (hkept : ∀ boot ∈ history, boot.args.resetStorage = false) :
    ∃ c', Holds codecs (Runs.exec Database.boot db history) c' ∧ Keeps c c' := by
  induction history generalizing db c with
  | nil => exact ⟨c, h, .refl c⟩
  | cons boot history ih =>
    obtain ⟨c₁, h₁, hkeep⟩ := boot_keeps h (hkept boot List.mem_cons_self)
    obtain ⟨c₂, h₂, hkeeps⟩ := ih h₁ fun b hb => hkept b (List.mem_cons_of_mem boot hb)
    exact ⟨c₂, h₂, hkeep.trans hkeeps⟩

theorem started_uses {db : Database} {c : Contents} (h : Holds codecs db c) {boot : Boot keys}
    (hkept : boot.args.resetStorage = false) {ctx : Context} {addrs : BindAddrs}
    (hend : db.started boot = .ok (ctx, addrs)) :
    (∀ sk, c.secretKey = some sk → ctx.me.nodeId = keys.publicKey sk) ∧
      ∀ port, c.bindPort = some port → ¬ boot.NamesPort → addrs.AtPort port.toBitVec := by
  have hstarts := started_as h boot
  have hafter : afterClear boot c = c := by simp [afterClear, hkept]
  constructor
  · intro sk hsk
    obtain ⟨-, -, -, -, -, -, -, hown⟩ := initNetwork_ok (hstarts.context ctx addrs hend)
    rw [hown, ← ownId_eq, hafter, hsk]
    rfl
  · intro port hport hnot
    have hat := hstarts.atPort ctx addrs hend hnot
    rwa [hafter, hport] at hat

theorem up_records {db : Database} {c : Contents} (h : Holds codecs db c) {boot : Boot keys}
    (hup : boot.stop = none) (hsaved : boot.env.secretSaved = true) {ctx : Context}
    {addrs : BindAddrs} (hend : db.started boot = .ok (ctx, addrs)) :
    ∃ c' sk, Holds codecs (db.boot boot) c' ∧ c'.secretKey = some sk ∧
      keys.publicKey sk = ctx.me.nodeId ∧
      (¬ boot.NamesPort → ∃ port, c'.bindPort = some port ∧ addrs.AtPort port.toBitVec) := by
  have hstarts := started_as h boot
  obtain ⟨port, later, hport, hws, hall⟩ := hstarts.commits
  obtain ⟨rfl, hdrawn⟩ := hall _ hend
  rw [List.append_nil] at hws
  obtain ⟨c', hrun⟩ := (started_serves h hend).run boot.events
  have hdb : db.boot boot =
      (Runs.exec (Service.step codecs) ⟨⟨ctx, .new⟩,
        (Log.run boot.start db).2.foldl (Database.perform codecs) db⟩ boot.events).db := by
    simp only [Database.boot, hup, hend]
  -- What the start committed, up to the key and then up to the port.
  obtain ⟨sk, hsk, hpublic⟩ : ∃ sk, ((openingWrites boot c).foldl Contents.perform c).secretKey =
      some sk ∧ keys.publicKey sk = ctx.me.nodeId := by
    obtain ⟨-, -, -, -, -, -, -, hown⟩ := initNetwork_ok (hstarts.context ctx addrs hend)
    rw [hown, ← ownId_eq, openingWrites_foldl, secretWrites, hsaved, Bool.and_true]
    cases hkey : (afterClear boot c).secretKey with
    | none => exact ⟨boot.secretKey, rfl, rfl⟩
    | some sk => exact ⟨sk, hkey, rfl⟩
  have hconfig (writes : List ConfigWrite) (c : Contents) :
      Keeps c ((writes.map Transaction.saveConfig).foldl Contents.perform c) := by
    refine keeps_foldl fun w hw => ?_
    obtain ⟨write, -, rfl⟩ := List.mem_map.mp hw
    exact .inl ⟨write, rfl⟩
  have hc₁ : (Log.run boot.start db).2.foldl Contents.perform c =
      ((configWrites codecs boot.args (c.storage keys) boot.env).map Transaction.saveConfig).foldl
        Contents.perform (port.foldl Contents.perform
          ((openingWrites boot c).foldl Contents.perform c)) := by
    rw [← hws, bootWrites, List.foldl_append, List.foldl_append]
  refine ⟨c', sk, hdb ▸ hrun.holds, ?_, hpublic, fun hnot =>
    ⟨(afterClear boot c).bindPort.getD boot.drawnPort, ?_, hstarts.atPort ctx addrs hend hnot⟩⟩
  · rw [hrun.kept.1, hc₁]
    refine (hconfig _ _).secretKey sk ?_
    rcases hport with rfl | rfl
    · exact hsk
    · unfold portWrites
      split <;> exact hsk
  · rw [hrun.kept.2, hc₁, hdrawn hnot]
    refine (hconfig _ _).bindPort _ ?_
    rw [portWrites]
    cases hold : (afterClear boot c).bindPort with
    | none => rfl
    | some p => exact (opening_bindPort boot c).trans hold

/-- Whatever starts without a reset come in between and wherever they are stopped, a daemon comes up
with the id of an earlier one whose key was saved, and at its port if neither was given one. -/
theorem endpoint_kept {earlier later : List (Boot keys)} {boot boot' : Boot keys} {ctx ctx' : Context}
    {addrs addrs' : BindAddrs} (hup : boot.stop = none) (hsaved : boot.env.secretSaved = true)
    (hctx : (databaseAfter earlier).started boot = .ok (ctx, addrs))
    (hlater : ∀ b ∈ later, b.args.resetStorage = false) (hkept : boot'.args.resetStorage = false)
    (hctx' : (databaseAfter (earlier ++ boot :: later)).started boot' = .ok (ctx', addrs')) :
    ctx'.me.nodeId = ctx.me.nodeId ∧ (¬ boot.NamesPort → ¬ boot'.NamesPort →
      ∃ port, addrs.AtPort port ∧ addrs'.AtPort port) := by
  obtain ⟨c, hc⟩ := holds_databaseAfter earlier
  obtain ⟨c₁, sk, h₁, hsk, hpublic, hport⟩ := up_records hc hup hsaved hctx
  obtain ⟨c₂, h₂, hkeeps⟩ := history_keeps h₁ hlater
  have hdb : databaseAfter (earlier ++ boot :: later) =
      Runs.exec Database.boot ((databaseAfter earlier).boot boot) later := by
    rw [databaseAfter, Runs.exec_append, Runs.exec_cons, databaseAfter]
  rw [hdb] at hctx'
  obtain ⟨hid, hat⟩ := started_uses h₂ hkept hctx'
  refine ⟨(hid sk (hkeeps.secretKey sk hsk)).trans hpublic, fun hnot hnot' => ?_⟩
  obtain ⟨port, hstored, haddrs⟩ := hport hnot
  exact ⟨port.toBitVec, haddrs, hat port (hkeeps.bindPort port hstored) hnot'⟩

end Refinement
namespace Sample

def hexText (id : EndpointId) : String :=
  .ofList ((List.range 64).map fun i => Nat.digitChar (id.toNat >>> (4 * (64-1-i)) % Nat.pow 2 4))

theorem hexText_injective : Function.Injective hexText := by
  have hvalues (id : EndpointId) : join (Nat.pow 2 4) ((hexText id).toList.map digitValue) = id.toNat := by
    rw [hexText, String.toList_ofList, List.map_map]
    refine Eq.trans (congrArg (join (Nat.pow 2 4)) (List.map_congr_left fun i _ => ?_))
      ((join_groups 4 64 id.toNat).trans (Nat.mod_eq_of_lt id.isLt))
    exact digitValue_digitChar (Nat.mod_lt _ (by decide))
  intro a b h
  rw [← BitVec.toNat_inj, ← hvalues a, h, hvalues b]

def alicesSecret : SecretKey :=
  ⟨bigEndian 32 0x9d61b19deffd5a60ba844af492ec2cc44449c5697b326919703bac031cae7f60, by simp⟩

def bobsSecret : SecretKey :=
  ⟨bigEndian 32 0x4ccd089b28ff96da9db6c346ec114e0f5b8a319f35aba624da8cf6ed4fb8a6fb, by simp⟩

def hexCodecs : Codecs := { codecs with endpointIdToString := hexText }

def sampleKeys : Keys hexCodecs where
  publicKey sk := if sk = alicesSecret then alice else if sk = bobsSecret then bob else 0
  text_injective := hexText_injective

def bindArgs : BindArgs where
  bind := some "10.0.0.1"
  bindInterface := none
  parseSocketAddr _ := none
  parseIpAddr := IpAddr.read

def primaryBoot (sk : SecretKey) (port : UInt16) (stop : Option Nat) : Boot sampleKeys where
  args := args
  bindArgs := bindArgs
  env := { startReadings with generatedKey := sampleKeys.publicKey sk }
  secretKey := sk
  drawn := rfl
  drawnPort := port
  relays := .ok ()
  interfaces := []
  bindEndpoint _ _ := .ok ()
  endpointAddr := startReadings.advertisedAddr
  advertised := rfl
  joined := .ok ()
  stop := stop
  events := [.save .byId none]

def firstBoot : Boot sampleKeys := primaryBoot alicesSecret 40000 none

def laterBoot (stop : Option Nat) : Boot sampleKeys := primaryBoot bobsSecret 50000 stop

theorem primaryBoot_no_port (sk : SecretKey) (port : UInt16) (stop : Option Nat) :
    ¬ (primaryBoot sk port stop).NamesPort := by
  rintro ⟨bind, addr, hbind, htarget⟩
  obtain rfl := Option.some.inj hbind
  have hip : bindArgs.parseBindTarget "10.0.0.1" = .ok (.ip (.v4 0x0a000001)) := by
    have hread : IpAddr.read "10.0.0.1" = some (.v4 0x0a000001) := by decide
    simp [BindArgs.parseBindTarget, bindArgs, hread]
  cases hip.symm.trans htarget

theorem endpoint_kept_alice :
    ∃ ctx addrs ctx' addrs',
      (databaseAfter ([] : List (Boot sampleKeys))).started firstBoot = .ok (ctx, addrs) ∧
      (databaseAfter [firstBoot, laterBoot (some 1)]).started (laterBoot none) = .ok (ctx', addrs') ∧
      ctx'.me.nodeId = ctx.me.nodeId ∧ ∃ port, addrs.AtPort port ∧ addrs'.AtPort port := by
  have hok {x : Except StartError (Context × BindAddrs)} (h : x.isOk = true) :
      ∃ ctx addrs, x = .ok (ctx, addrs) := by
    cases x with
    | error e => cases h
    | ok up => exact ⟨up.1, up.2, rfl⟩
  have hfirst : ((databaseAfter ([] : List (Boot sampleKeys))).started firstBoot).isOk = true := by
    decide +kernel
  have hthird : ((databaseAfter [firstBoot, laterBoot (some 1)]).started (laterBoot none)).isOk =
      true := by
    decide +kernel
  obtain ⟨ctx, addrs, hctx⟩ := hok hfirst
  obtain ⟨ctx', addrs', hctx'⟩ := hok hthird
  have hkept := @endpoint_kept _ _ [] [laterBoot (some 1)] _ _ _ _ _ _ rfl rfl hctx
    (by simp [laterBoot, primaryBoot, args]) rfl hctx'
  exact ⟨ctx, addrs, ctx', addrs', hctx, hctx', hkept.1,
    hkept.2 (primaryBoot_no_port _ _ _) (primaryBoot_no_port _ _ _)⟩

end Sample
end P2pDdns
