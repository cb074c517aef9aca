import P2pDdns.Commands

/-!
The database through a series of starts, each of which may stop after any of its
storage transactions, and the network credentials it holds: `topic` and `ticket_rnum`
are written one after the other.
-/

set_option autoImplicit false

namespace P2pDdns
open Std FiniteMaps

inductive StartWrite where
  | clear
  | secret (pk : EndpointId)
  | config (write : ConfigWrite)
  deriving DecidableEq

def Storage.startWrite (storage : Storage) : StartWrite → Storage
  | .clear => .clear
  | .secret pk => { storage with secret := some pk }
  | .config write => storage.saveConfig write

section Starts
variable (codecs : Codecs) (args : DaemonArgs) (storage : Storage) (env : StartReadings)

def afterReset : Storage := if args.resetStorage then Storage.clear else storage

/-- The transactions before the ticket: the reset and the new secret key. -/
def identityWrites : List StartWrite :=
  (if args.resetStorage then [.clear] else []) ++
    if (afterReset args storage).secret.isNone && env.secretSaved then
      [.secret (ownId args storage env)]
    else []

/-- The network ticket of a start with the transactions that record it. -/
def startTicket : Except String (Ticket × List ConfigWrite) := do
  let pk := ownId args storage env
  let argTicket ← parseArgTicket codecs args
  let me : Node :=
    { nodeId := pk, invitor := ((argTicket.map (·.invitor)).map (·.nodeId)).getD pk,
      addr := env.advertisedAddr, domain := args.domain.getD env.generatedDomain, services := ∅,
      lastHeartbeat := env.now }
  networkTicket args argTicket (afterReset args storage) me env

def configWrites : List ConfigWrite :=
  match startTicket codecs args storage env with
  | .ok (_, writes) => writes
  | .error _ => []

def startWrites : List StartWrite :=
  identityWrites args storage env ++ (configWrites codecs args storage env).map .config

variable {codecs args storage env}

theorem networkTicket_secret (args : DaemonArgs) (argTicket : Option Ticket) (storage : Storage)
    (me : Node) (env : StartReadings) :
    networkTicket args argTicket
        (if (afterReset args storage).secret.isNone && env.secretSaved then
          { afterReset args storage with secret := some (ownId args storage env) }
        else afterReset args storage) me env =
      networkTicket args argTicket (afterReset args storage) me env := by
  split <;> rfl

theorem foldl_config (storage : Storage) (writes : List ConfigWrite) :
    (writes.map StartWrite.config).foldl Storage.startWrite storage =
      writes.foldl Storage.saveConfig storage := by
  rw [List.foldl_map]
  rfl

theorem identityWrites_foldl (args : DaemonArgs) (storage : Storage) (env : StartReadings) :
    (identityWrites args storage env).foldl Storage.startWrite storage =
      if (afterReset args storage).secret.isNone && env.secretSaved then
        { afterReset args storage with secret := some (ownId args storage env) }
      else afterReset args storage := by
  unfold identityWrites afterReset
  split <;> split <;> rfl

theorem initNetwork_storage {ctx : Context} (h : initNetwork codecs args storage env = .ok ctx) :
    (∃ found, startTicket codecs args storage env = .ok found) ∧
      ctx.storage = (startWrites codecs args storage env).foldl Storage.startWrite storage := by
  simp only [startWrites, List.foldl_append, foldl_config, identityWrites_foldl, configWrites]
  unfold initNetwork at h
  cases hticket : parseArgTicket codecs args with
  | error e => simp [hticket, bind, Except.bind] at h
  | ok argTicket =>
    simp only [hticket, bind, Except.bind] at h
    split at h
    · contradiction
    · rename_i found hfound
      have hstart : startTicket codecs args storage env = .ok found := by
        simp only [startTicket, hticket, bind, Except.bind]
        exact (networkTicket_secret args argTicket storage _ env).symm.trans hfound
      obtain rfl := Except.ok.inj h
      rw [hstart]
      exact ⟨⟨found, rfl⟩, rfl⟩

theorem startTicket_of_error {e : String} (h : initNetwork codecs args storage env = .error e) :
    startTicket codecs args storage env = .error e := by
  unfold initNetwork at h
  simp only [startTicket]
  cases hticket : parseArgTicket codecs args with
  | error e => simpa [hticket, bind, Except.bind] using h
  | ok argTicket =>
    simp only [hticket, bind, Except.bind] at h ⊢
    split at h
    · rename_i e' hfound
      obtain rfl := Except.error.inj h
      exact (networkTicket_secret args argTicket storage _ env).symm.trans hfound
    · contradiction

theorem startTicket_writes {ticket : Ticket} {writes : List ConfigWrite}
    (h : startTicket codecs args storage env = .ok (ticket, writes)) :
    writes = [] ∨ writes = [.topic ticket.topic, .ticketRnum ticket.rnum] := by
  simp only [startTicket] at h
  cases hticket : parseArgTicket codecs args with
  | error e => simp [hticket, bind, Except.bind] at h
  | ok argTicket =>
    simp only [hticket, bind, Except.bind, networkTicket] at h
    split at h
    · split at h <;> cases h
      · exact .inl rfl
      · exact .inr rfl
    · split at h
      · cases h
        exact .inr rfl
      · split at h <;> cases h
        exact .inl rfl

end Starts

/-- One start: it stops after `stop` transactions, or goes on until it fails or until the
daemon that came up has executed `events`. -/
structure Attempt where
  args : DaemonArgs
  env : StartReadings
  stop : Option Nat
  events : List Event

section Attempts
variable (codecs : Codecs)

def Storage.attempt (storage : Storage) (a : Attempt) : Storage :=
  let writes := startWrites codecs a.args storage a.env
  match a.stop with
  | some k => (writes.take k).foldl Storage.startWrite storage
  | none =>
    match initNetwork codecs a.args storage a.env with
    | .ok ctx => ((⟨ctx, .new⟩ : Daemon).run codecs a.events).ctx.storage
    | .error _ => writes.foldl Storage.startWrite storage

def storageAfter (history : List Attempt) : Storage :=
  Runs.exec (Storage.attempt codecs) .clear history

def Records (storage : Storage) (a : Attempt) (ticket : Ticket) : Prop :=
  startTicket codecs a.args storage a.env =
    .ok (ticket, [.topic ticket.topic, .ticketRnum ticket.rnum])

/-- The attempt stops between the two writes of a ticket, after changing the topic and with
the `rnum` of another ticket in the database. -/
def Mixes (storage : Storage) (a : Attempt) : Prop :=
  a.stop = some ((identityWrites a.args storage a.env).length + 1) ∧
    ∃ ticket rnum, Records codecs storage a ticket ∧
      (afterReset a.args storage).topic ≠ some ticket.topic ∧
      (afterReset a.args storage).ticketRnum = some rnum ∧ rnum ≠ ticket.rnum

/-- The credentials in the database, if both are there, are those of a ticket some attempt
recorded. -/
def FromOneTicket (history : List Attempt) : Prop :=
  ∀ topic rnum, (storageAfter codecs history).topic = some topic →
    (storageAfter codecs history).ticketRnum = some rnum →
    ∃ earlier a later ticket, history = earlier ++ a :: later ∧
      Records codecs (storageAfter codecs earlier) a ticket ∧
      ticket.topic = topic ∧ ticket.rnum = rnum

variable {codecs}

/-! No event of a running daemon touches anything but the nodes. -/

section Frame

def Context.savedNodes (ctx : Context) (iter : IterOrder) : List Node :=
  ((iter.walk ctx.trustedNodes).filter fun it =>
    it.1 ≠ ctx.me.nodeId && isDaemonNode it.2).map (·.2)

theorem step_stored (d : Daemon) (e : Event) :
    (d.step codecs e).ctx.storage = d.ctx.storage ∨
    (∃ iter, e = .save iter none ∧ (d.step codecs e).ctx =
      d.ctx.withStored (insertAll (·.nodeId) d.ctx.storage.nodes (d.ctx.savedNodes iter))) ∨
    (∃ node, (d.step codecs e).ctx =
      (d.ctx.admitNode node).withStored (d.ctx.storage.nodes.insert node.nodeId node)) ∨
    (∃ nodeId, (d.step codecs e).ctx =
      (d.ctx.withoutNode nodeId).withStored (d.ctx.storage.nodes.erase nodeId)) := by
  cases e with
  | received signed env =>
    cases signed with
    | none => exact .inl rfl
    | some signed => exact .inl (receive_storage d.ctx signed env)
  | cleanup now iter => exact .inl rfl
  | save iter fault =>
    cases fault with
    | some fault => exact .inl rfl
    | none => exact .inr (.inl ⟨iter, rfl, rfl⟩)
  | authenticate authReq mode env =>
    left
    simp only [Daemon.step, authenticateAndRegister]
    split
    · rfl
    · split
      · split <;> rfl
      · rfl
  | command client cmd env =>
    simp only [Daemon.step, runCommand]
    split
    · cases cmd with
      | addNode ticket =>
        simp only [handleCommand]
        rcases @handleAddNode_cases codecs d ticket env with
          ⟨text, heq, -⟩ | ⟨node, -, ⟨fault, text, -, heq⟩ | ⟨text, -, heq⟩⟩ <;> rw [heq]
        · exact .inl rfl
        · exact .inl (admitNode_storage d.ctx node)
        · exact .inr (.inr (.inl ⟨node, rfl⟩))
      | removeNode id =>
        simp only [handleCommand]
        rcases @handleRemoveNode_cases codecs d id env with
          ⟨text, heq, -⟩ | ⟨nodeId, -, ⟨fault, text, -, heq⟩ | ⟨text, -, heq⟩⟩ <;> rw [heq]
        · exact .inl rfl
        · exact .inl rfl
        · exact .inr (.inr (.inr ⟨nodeId, rfl⟩))
      | query | status | getTicket | pause | resume | shutdown => exact .inl rfl
    · exact .inl rfl

theorem step_storage (d : Daemon) (e : Event) :
    ∃ nodes, (d.step codecs e).ctx.storage = { d.ctx.storage with nodes := nodes } := by
  rcases @step_stored codecs d e with h | ⟨iter, -, h⟩ | ⟨node, h⟩ | ⟨nodeId, h⟩ <;> rw [h]
  · exact ⟨_, rfl⟩
  · exact ⟨_, rfl⟩
  · refine ⟨d.ctx.storage.nodes.insert node.nodeId node, ?_⟩
    simp [Context.withStored]
  · exact ⟨_, rfl⟩

theorem run_storage (d : Daemon) (events : List Event) :
    ∃ nodes, (d.run codecs events).ctx.storage = { d.ctx.storage with nodes := nodes } := by
  refine Runs.invariant (I := fun t : Daemon => ∃ nodes, t.ctx.storage =
    { d.ctx.storage with nodes := nodes }) ?_ ⟨_, rfl⟩ events
  rintro t e ⟨nodes, ht⟩
  obtain ⟨nodes', hstep⟩ := @step_storage codecs t e
  exact ⟨nodes', by rw [hstep, ht]⟩

end Frame

/-! Which credentials an attempt leaves. -/

section Prefixes
variable {args : DaemonArgs} {storage : Storage} {env : StartReadings}

theorem identity_credentials {writes : List StartWrite}
    (h : ∀ w ∈ writes, ∀ c, w ≠ .config c) (storage : Storage) :
    let kept := writes.foldl Storage.startWrite storage
    (kept.topic = storage.topic ∧ kept.ticketRnum = storage.ticketRnum) ∨
      (kept.topic = none ∧ kept.ticketRnum = none) := by
  induction writes generalizing storage with
  | nil => exact .inl ⟨rfl, rfl⟩
  | cons w writes ih =>
    have hrest := ih (fun v hv => h v (List.mem_cons_of_mem w hv)) (storage.startWrite w)
    cases w with
    | clear => exact .inr (hrest.elim id id)
    | secret pk => exact hrest
    | config c => exact absurd rfl (h _ List.mem_cons_self c)

theorem mem_identityWrites {w : StartWrite} (h : w ∈ identityWrites args storage env)
    (c : ConfigWrite) : w ≠ .config c := by
  rintro rfl
  simp only [identityWrites, List.mem_append] at h
  rcases h with h | h <;> split at h <;> simp at h

theorem identityWrites_credentials (args : DaemonArgs) (storage : Storage) (env : StartReadings) :
    let opened := (identityWrites args storage env).foldl Storage.startWrite storage
    opened.topic = (afterReset args storage).topic ∧
      opened.ticketRnum = (afterReset args storage).ticketRnum := by
  rw [identityWrites_foldl]
  split <;> exact ⟨rfl, rfl⟩

theorem configWrites_cases (codecs : Codecs) (args : DaemonArgs) (storage : Storage)
    (env : StartReadings) :
    configWrites codecs args storage env = [] ∨
      ∃ ticket, startTicket codecs args storage env =
          .ok (ticket, [.topic ticket.topic, .ticketRnum ticket.rnum]) ∧
        configWrites codecs args storage env = [.topic ticket.topic, .ticketRnum ticket.rnum] := by
  unfold configWrites
  cases hstart : startTicket codecs args storage env with
  | error e => exact .inl rfl
  | ok found =>
    obtain ⟨ticket, writes⟩ := found
    rcases startTicket_writes hstart with rfl | rfl
    · exact .inl rfl
    · exact .inr ⟨ticket, rfl, rfl⟩

/-- After `k` transactions the credentials are the old ones, none, or those of the ticket,
with the old `rnum` if the start stopped before its last transaction. -/
theorem prefix_credentials (codecs : Codecs) (args : DaemonArgs) (storage : Storage)
    (env : StartReadings) (k : Nat) :
    let left := ((startWrites codecs args storage env).take k).foldl Storage.startWrite storage
    (left.topic = storage.topic ∧ left.ticketRnum = storage.ticketRnum) ∨
    (left.topic = none ∧ left.ticketRnum = none) ∨
    ∃ ticket, startTicket codecs args storage env =
        .ok (ticket, [.topic ticket.topic, .ticketRnum ticket.rnum]) ∧
      left.topic = some ticket.topic ∧
      (left.ticketRnum = some ticket.rnum ∨
        k = (identityWrites args storage env).length + 1 ∧
          left.ticketRnum = (afterReset args storage).ticketRnum) := by
  have hidentity := @identity_credentials ((identityWrites args storage env).take k)
    (fun w hw => mem_identityWrites (List.mem_of_mem_take hw)) storage
  have hopened := identityWrites_credentials args storage env
  simp only [startWrites, List.take_append, List.foldl_append]
  rcases configWrites_cases codecs args storage env with hnone | ⟨ticket, hstart, hwrites⟩
  · simp only [hnone, List.map_nil, List.take_nil, List.foldl_nil]
    exact hidentity.imp_right .inl
  · rw [hwrites]
    rcases Nat.lt_trichotomy k ((identityWrites args storage env).length + 1) with hk | rfl | hk
    · have hzero : k - (identityWrites args storage env).length = 0 := by omega
      rw [hzero]
      exact hidentity.imp_right .inl
    · rw [Nat.add_sub_cancel_left, List.take_of_length_le (by omega)]
      exact .inr (.inr ⟨ticket, hstart, rfl, .inr ⟨rfl, hopened.2⟩⟩)
    · rw [List.take_of_length_le (i := k - _) (by simp; omega)]
      exact .inr (.inr ⟨ticket, hstart, rfl, .inl rfl⟩)

end Prefixes

theorem attempt_prefix (codecs : Codecs) (storage : Storage) (a : Attempt) :
    ∃ k nodes,
      (a.stop = some k ∨ a.stop = none ∧ k = (startWrites codecs a.args storage a.env).length) ∧
      storage.attempt codecs a =
        { ((startWrites codecs a.args storage a.env).take k).foldl Storage.startWrite storage with
          nodes := nodes } := by
  unfold Storage.attempt
  cases hstop : a.stop with
  | some k => exact ⟨k, _, .inl rfl, rfl⟩
  | none =>
    refine ⟨(startWrites codecs a.args storage a.env).length, ?_⟩
    rw [List.take_length]
    cases hinit : initNetwork codecs a.args storage a.env with
    | error e => exact ⟨_, .inr ⟨rfl, rfl⟩, rfl⟩
    | ok ctx =>
      obtain ⟨nodes, hrun⟩ := @run_storage codecs ⟨ctx, .new⟩ a.events
      refine ⟨nodes, .inr ⟨rfl, rfl⟩, ?_⟩
      rw [← (initNetwork_storage hinit).2]
      exact hrun

theorem attempt_credentials (codecs : Codecs) (storage : Storage) (a : Attempt) :
    let left := storage.attempt codecs a
    (left.topic = storage.topic ∧ left.ticketRnum = storage.ticketRnum) ∨
    (left.topic = none ∧ left.ticketRnum = none) ∨
    ∃ ticket, Records codecs storage a ticket ∧ left.topic = some ticket.topic ∧
      (left.ticketRnum = some ticket.rnum ∨
        a.stop = some ((identityWrites a.args storage a.env).length + 1) ∧
          left.ticketRnum = (afterReset a.args storage).ticketRnum) := by
  obtain ⟨k, nodes, hstop, heq⟩ := attempt_prefix codecs storage a
  rw [heq]
  rcases prefix_credentials codecs a.args storage a.env k with
    h | h | ⟨ticket, hrecords, htopic, hrnum | ⟨hk, hrnum⟩⟩
  · exact .inl h
  · exact .inr (.inl h)
  · exact .inr (.inr ⟨ticket, hrecords, htopic, .inl hrnum⟩)
  · refine .inr (.inr ⟨ticket, hrecords, htopic, .inr ⟨?_, hrnum⟩⟩)
    rcases hstop with hstop | ⟨-, hlength⟩
    · rw [hstop, hk]
    · -- The last transaction is behind a start that was not stopped.
      simp [startWrites, configWrites, hrecords, hk] at hlength

/-- Started over and over, the daemon finds the credentials of one ticket as long as no start
stops between the two writes of a ticket over those of another. -/
theorem credentials_of_one_ticket {history : List Attempt}
    (h : Runs.Along (Storage.attempt codecs) (fun storage a => ¬ Mixes codecs storage a)
      .clear history) :
    ∀ before after, history = before ++ after → FromOneTicket codecs before := by
  rintro before after rfl
  have hbefore := (Runs.along_append (Storage.attempt codecs)).mp h |>.1
  clear h
  induction before using List.reverseRecOn with
  | nil => exact fun _ _ htopic => by simp [storageAfter, Storage.clear] at htopic
  | append_singleton before a ih =>
    rw [Runs.along_append] at hbefore
    have hold := ih hbefore.1
    have hmixes : ¬ Mixes codecs (storageAfter codecs before) a := hbefore.2.1
    have hlast : storageAfter codecs (before ++ [a]) = (storageAfter codecs before).attempt codecs a := by
      simp [storageAfter]
    intro topic rnum htopic hrnum
    rw [hlast] at htopic hrnum
    have hextend : (∃ earlier b later ticket, before = earlier ++ b :: later ∧
          Records codecs (storageAfter codecs earlier) b ticket ∧
          ticket.topic = topic ∧ ticket.rnum = rnum) →
        ∃ earlier b later ticket, before ++ [a] = earlier ++ b :: later ∧
          Records codecs (storageAfter codecs earlier) b ticket ∧
          ticket.topic = topic ∧ ticket.rnum = rnum := by
      rintro ⟨earlier, b, later, ticket, rfl, hticket⟩
      exact ⟨earlier, b, later ++ [a], ticket, by simp, hticket⟩
    have hreset : (afterReset a.args (storageAfter codecs before)).ticketRnum = some rnum →
        (storageAfter codecs before).ticketRnum = some rnum ∧
          (afterReset a.args (storageAfter codecs before)).topic =
            (storageAfter codecs before).topic := by
      unfold afterReset
      split
      · simp [Storage.clear]
      · exact fun h => ⟨h, rfl⟩
    rcases attempt_credentials codecs (storageAfter codecs before) a with
      ⟨hsame, hsame'⟩ | ⟨hgone, -⟩ | ⟨ticket, hrecords, hnew, hnew' | ⟨hstop, hnew'⟩⟩
    · exact hextend (hold topic rnum (hsame ▸ htopic) (hsame' ▸ hrnum))
    · rw [hgone] at htopic
      contradiction
    · rw [hnew, Option.some.injEq] at htopic
      rw [hnew', Option.some.injEq] at hrnum
      exact ⟨before, a, [], ticket, rfl, hrecords, htopic, hrnum⟩
    · -- Stopped in between: the old `rnum` is the ticket's or the topic is the old one.
      rw [hnew, Option.some.injEq] at htopic
      rw [hnew'] at hrnum
      by_cases heq : rnum = ticket.rnum
      · exact ⟨before, a, [], ticket, rfl, hrecords, htopic, heq.symm⟩
      · obtain ⟨hrnum', hsame⟩ := hreset hrnum
        refine hextend (hold topic rnum ?_ hrnum')
        by_contra hne
        refine hmixes ⟨hstop, ticket, rnum, hrecords, ?_, hrnum, heq⟩
        rwa [hsame, htopic]

end Attempts

namespace Sample

def eastTicket : Ticket := ⟨7, [7, 7], record alice "alice" [1] 990⟩
def westTicket : Ticket := ⟨8, [8, 8], record bob "bob" [2] 990⟩

def ticketCodecs : Codecs :=
  { codecs with
    base64Decode := fun text =>
      if text = "ZWFzdA" then .ok [101, 97, 115, 116]
      else if text = "d2VzdA" then .ok [119, 101, 115, 116]
      else codecs.base64Decode text
    ticketFromBytes := fun bytes =>
      if bytes = [101, 97, 115, 116] then .ok eastTicket
      else if bytes = [119, 101, 115, 116] then .ok westTicket
      else codecs.ticketFromBytes bytes }

def joins (text : String) (stop : Option Nat) : Attempt where
  args := { args with primary := false, ticket := some text }
  env := startReadings
  stop := stop
  events := []

end Sample

theorem credentials_of_one_ticket_east :
    FromOneTicket Sample.ticketCodecs [Sample.joins "ZWFzdA" none] := by
  have hstarts : Runs.Along (Storage.attempt Sample.ticketCodecs)
      (fun storage a => ¬Mixes Sample.ticketCodecs storage a) .clear
      [Sample.joins "ZWFzdA" none] :=
    ⟨fun h => by simp [Mixes, Sample.joins] at h, trivial⟩
  exact credentials_of_one_ticket hstarts _ [] rfl

/-- Moved to the western network, the daemon stops after writing the topic: the database
pairs it with the eastern `rnum`. -/
theorem credentials_mixed :
    ¬ ∀ history, FromOneTicket Sample.ticketCodecs history := by
  intro hclaim
  have hstarts := hclaim [Sample.joins "ZWFzdA" none, Sample.joins "d2VzdA" (some 1)] 8 [7, 7] rfl rfl
  obtain ⟨earlier, a, later, ticket, hhistory, hrecords, htopic, hrnum⟩ := hstarts
  match earlier, hhistory with
  | [], hhistory =>
    obtain ⟨rfl, -⟩ := List.cons.inj hhistory
    have heast : startTicket Sample.ticketCodecs (Sample.joins "ZWFzdA" none).args
        (storageAfter Sample.ticketCodecs []) Sample.startReadings =
        .ok (Sample.eastTicket, [.topic 7, .ticketRnum [7, 7]]) := rfl
    have hticket := heast.symm.trans hrecords
    simp only [Except.ok.injEq, Prod.mk.injEq] at hticket
    obtain ⟨rfl, -⟩ := hticket
    simp [Sample.eastTicket] at htopic
  | [b], hhistory =>
    simp only [List.cons_append, List.nil_append, List.cons.injEq] at hhistory
    obtain ⟨rfl, rfl, -⟩ := hhistory
    have hwest : startTicket Sample.ticketCodecs (Sample.joins "d2VzdA" (some 1)).args
        (storageAfter Sample.ticketCodecs [Sample.joins "ZWFzdA" none]) Sample.startReadings =
        .ok (Sample.westTicket, [.topic 8, .ticketRnum [8, 8]]) := rfl
    have hticket := hwest.symm.trans hrecords
    simp only [Except.ok.injEq, Prod.mk.injEq] at hticket
    obtain ⟨rfl, -⟩ := hticket
    simp [Sample.westTicket] at hrnum
  | b :: c :: earlier, hhistory => simp at hhistory

end P2pDdns
