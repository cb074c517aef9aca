import P2pDdns.Credentials
import P2pDdns.TrustTable

/-!
What a restart finds: the records in the database against the trusted table of the
daemon that wrote them.
-/

set_option autoImplicit false

namespace P2pDdns
open Std FiniteMaps

variable {codecs : Codecs}

def StorageKeyed (storage : Storage) : Prop :=
  ∀ (id : EndpointId) (node : Node), storage.nodes[id]? = some node → node.nodeId = id

def StorageSucceeds : Event → Prop
  | .save _ fault => fault = none
  | .command _ _ env => env.fault = none
  | _ => True

def StoredTrusted (d : Daemon) : Prop :=
  ∀ (id : EndpointId) (node : Node), d.ctx.storage.nodes[id]? = some node →
    id ≠ d.ctx.me.nodeId → isDaemonNode node = true → id ∈ d.ctx.trustedNodes

theorem mem_savedNodes {ctx : Context} {iter : IterOrder} {node : Node} :
    node ∈ ctx.savedNodes iter ↔ ∃ id : EndpointId, ctx.trustedNodes[id]? = some node ∧
      id ≠ ctx.me.nodeId ∧ isDaemonNode node = true := by
  simp [Context.savedNodes, and_assoc]

/-! Every writer files a record under its own id. -/

theorem saved_keyed {ctx : Context} (h : StorageKeyed ctx.storage) (nodes : List Node) :
    StorageKeyed (ctx.withStored (insertAll (·.nodeId) ctx.storage.nodes nodes)).storage := by
  intro id node hn
  rcases getElem?_insertAll_cases hn with ⟨-, hkey⟩ | hn
  · exact hkey
  · exact h id node hn

theorem step_keyed (d : Daemon) (e : Event) (h : StorageKeyed d.ctx.storage) :
    StorageKeyed (d.step codecs e).ctx.storage := by
  rcases @step_stored codecs d e with heq | ⟨iter, -, heq⟩ | ⟨node, heq⟩ | ⟨nodeId, heq⟩
  · rwa [heq]
  · rw [heq]
    exact saved_keyed h _
  · rw [heq]
    exact forall_insert h rfl
  · rw [heq]
    exact forall_erase h nodeId

theorem startWrites_keyed (writes : List StartWrite) {storage : Storage} (h : StorageKeyed storage) :
    StorageKeyed (writes.foldl Storage.startWrite storage) := by
  induction writes generalizing storage with
  | nil => exact h
  | cons w writes ih =>
    refine ih ?_
    cases w with
    | clear => exact fun id node hn => by simp [Storage.startWrite, Storage.clear] at hn
    | secret pk => exact h
    | config c => cases c <;> exact h

theorem attempt_keyed (storage : Storage) (a : Attempt) (h : StorageKeyed storage) :
    StorageKeyed (storage.attempt codecs a) := by
  unfold Storage.attempt
  cases a.stop with
  | some k => exact startWrites_keyed _ h
  | none =>
    cases hinit : initNetwork codecs a.args storage a.env with
    | error e => exact startWrites_keyed _ h
    | ok ctx =>
      refine Runs.invariant (I := fun d : Daemon => StorageKeyed d.ctx.storage) step_keyed ?_ a.events
      have hstart := startWrites_keyed (startWrites codecs a.args storage a.env) h
      rwa [← (initNetwork_storage hinit).2] at hstart

theorem storageAfter_keyed (history : List Attempt) : StorageKeyed (storageAfter codecs history) :=
  Runs.invariant attempt_keyed (fun id node hn => by simp [Storage.clear] at hn) history

/-! The daemons in the database stay trusted. -/

/-- A removal that fails in the database has no place in these runs. -/
theorem step_same_storage {d : Daemon} {e : Event} (hok : StorageSucceeds e)
    (h : (d.step codecs e).ctx.storage = d.ctx.storage) {id : EndpointId}
    (hid : id ∈ d.ctx.trustedNodes) (hstored : id ∈ d.ctx.storage.nodes) :
    id ∈ (d.step codecs e).ctx.trustedNodes := by
  by_cases hremove : ∃ client text env, e = .command client (.removeNode text) env
  · obtain ⟨client, text, env, rfl⟩ := hremove
    simp only [Daemon.step, runCommand, handleCommand] at h ⊢
    split
    · rename_i hperm
      rw [if_pos hperm] at h
      rcases @handleRemoveNode_cases codecs d text env with
        ⟨text', heq, -⟩ | ⟨nodeId, -, ⟨fault, text', hfault, heq⟩ | ⟨text', -, heq⟩⟩
      · rw [heq]
        exact hid
      · rw [hok] at hfault
        contradiction
      · rw [heq] at h ⊢
        have hne : nodeId ≠ id := by
          rintro rfl
          rw [← h] at hstored
          simp [respond, Context.withStored] at hstored
        simpa [respond, Context.withStored, Context.withoutNode, hne] using hid
    · exact hid
  · refine step_keeps_trust ?_ hid
    unfold Event.Removes
    split
    · exact fun _ => hremove ⟨_, _, _, rfl⟩
    · exact not_false

theorem step_storedTrusted {d : Daemon} (ht : TrustTable d.ctx) {e : Event}
    (hok : StorageSucceeds e) (h : StoredTrusted d) : StoredTrusted (d.step codecs e) := by
  have hme : (d.step codecs e).ctx.me = d.ctx.me := (changes_frame (step_changes codecs d e)).1
  intro id node hn hne hd
  rw [hme] at hne
  rcases @step_stored codecs d e with heq | ⟨iter, -, heq⟩ | ⟨added, heq⟩ | ⟨nodeId, heq⟩
  · rw [heq] at hn
    exact step_same_storage hok heq (h id node hn hne hd) (mem_of_getElem? hn)
  · rw [heq] at hn ⊢
    rcases getElem?_insertAll_cases hn with ⟨hsaved, hkey⟩ | hn
    · obtain ⟨i, hi, -, -⟩ := mem_savedNodes.mp hsaved
      obtain rfl : i = id := (ht.trustedKeyed i node hi).symm.trans hkey
      exact mem_of_getElem? hi
    · exact h id node hn hne hd
  · rw [heq] at hn ⊢
    rcases getElem?_insert_cases hn with ⟨rfl, rfl⟩ | ⟨-, hn⟩
    · have hmem := ht.mem_trustDaemonNode hne hd
      rwa [← Context.upsertActiveNode_trustedNodes _ added] at hmem
    · exact mem_trusted_admitNode added (h id node hn hne hd)
  · rw [heq] at hn ⊢
    obtain ⟨hne', hn⟩ := getElem?_erase_cases hn
    have hmem := h id node hn hne hd
    simpa [Context.withStored, Context.withoutNode, hne'] using hmem

/-! What a start puts into the database and takes out of it. -/

theorem mem_loadNodes {storage : Storage} {node : Node} :
    node ∈ storage.loadNodes ↔ ∃ id : EndpointId, storage.nodes[id]? = some node := by
  simp [Storage.loadNodes, ExtTreeMap.mem_toList_iff_getElem?_eq_some]

theorem start_storedTrusted (start : Start codecs) (h : StorageKeyed start.ctx.storage) :
    StoredTrusted start.daemon := by
  obtain ⟨argTicket, -, -, -, -, htrusted, -⟩ := initNetwork_ok start.started
  intro id node hn hne hd
  obtain rfl := h id node hn
  show node.nodeId ∈ start.ctx.trustedNodes
  rw [htrusted]
  exact mem_startTrustedNodes hd hne
    (.inl (mem_persistedDaemons.mpr ⟨mem_loadNodes.mpr ⟨_, hn⟩, hd, hne⟩))

/-- The database knows this daemon and its network. -/
structure Enrolled (storage : Storage) (pk : EndpointId) : Prop where
  secret : storage.secret = some pk
  topic : storage.topic ≠ none
  ticketRnum : storage.ticketRnum ≠ none

theorem networkTicket_enrolled {args : DaemonArgs} {argTicket : Option Ticket} {storage : Storage}
    {me : Node} {env : StartReadings} {ticket : Ticket} {writes : List ConfigWrite}
    (h : networkTicket args argTicket storage me env = .ok (ticket, writes)) :
    (writes.foldl Storage.saveConfig storage).topic ≠ none ∧
      (writes.foldl Storage.saveConfig storage).ticketRnum ≠ none := by
  unfold networkTicket at h
  split at h
  · split at h <;> cases h
    · rename_i htopic hrnum
      simp [htopic, hrnum]
    · simp [Storage.saveConfig]
  · split at h
    · cases h
      simp [Storage.saveConfig]
    · split at h <;> cases h
      rename_i htopic hrnum
      simp [htopic, hrnum]

theorem saveConfig_secret (writes : List ConfigWrite) (storage : Storage) :
    (writes.foldl Storage.saveConfig storage).secret = storage.secret := by
  induction writes generalizing storage with
  | nil => rfl
  | cons w writes ih =>
    rw [List.foldl_cons, ih]
    cases w <;> rfl

theorem start_enrolled (start : Start codecs) (hsaved : start.env.secretSaved = true) :
    Enrolled start.ctx.storage start.ctx.me.nodeId := by
  obtain ⟨⟨⟨ticket, writes⟩, hticket⟩, hstorage⟩ := initNetwork_storage start.started
  obtain ⟨-, -, -, -, -, -, -, hown⟩ := initNetwork_ok start.started
  rw [hstorage, hown, startWrites, List.foldl_append, foldl_config, configWrites, hticket]
  dsimp only
  have hsecret : ((identityWrites start.args start.storage start.env).foldl Storage.startWrite
      start.storage).secret = some (ownId start.args start.storage start.env) := by
    have hkey : ownId start.args start.storage start.env =
        (afterReset start.args start.storage).secret.getD start.env.generatedKey := rfl
    rw [identityWrites_foldl, hsaved, hkey]
    cases hkept : (afterReset start.args start.storage).secret <;> simp [hkept]
  have hrecorded : (writes.foldl Storage.saveConfig ((identityWrites start.args start.storage
        start.env).foldl Storage.startWrite start.storage)).topic ≠ none ∧
      (writes.foldl Storage.saveConfig ((identityWrites start.args start.storage
        start.env).foldl Storage.startWrite start.storage)).ticketRnum ≠ none := by
    rw [identityWrites_foldl]
    simp only [startTicket] at hticket
    cases hparse : parseArgTicket codecs start.args with
    | error e => simp [hparse, bind, Except.bind] at hticket
    | ok argTicket =>
      simp only [hparse, bind, Except.bind, ← networkTicket_secret start.args argTicket] at hticket
      exact networkTicket_enrolled hticket
  exact ⟨(saveConfig_secret _ _).trans hsecret, hrecorded.1, hrecorded.2⟩

theorem restart_trustedNodes {args : DaemonArgs} {storage : Storage} {pk : EndpointId}
    (h : Enrolled storage pk) (hticket : args.ticket = none) (hreset : args.resetStorage = false)
    (env : StartReadings) :
    ∃ ctx, initNetwork codecs args storage env = .ok ctx ∧
      ctx.trustedNodes = collectNodes (persistedDaemons pk storage.loadNodes) := by
  obtain ⟨topic, htopic⟩ := Option.ne_none_iff_exists'.mp h.topic
  obtain ⟨rnum, hrnum⟩ := Option.ne_none_iff_exists'.mp h.ticketRnum
  cases hinit : initNetwork codecs args storage env with
  | error e =>
    have herror := startTicket_of_error hinit
    simp only [startTicket, parseArgTicket, hticket, afterReset, hreset, networkTicket, bind,
      Except.bind] at herror
    split at herror <;> simp [htopic, hrnum] at herror
  | ok ctx =>
    refine ⟨ctx, rfl, ?_⟩
    obtain ⟨argTicket, hparse, -, hnodes, -, htrusted, -, hown⟩ := initNetwork_ok hinit
    obtain rfl : none = argTicket := by simpa [parseArgTicket, hticket] using hparse
    have hpk : ctx.me.nodeId = pk := by
      rw [hown, ownId, hreset]
      simp [h.secret]
    have hload : ctx.storage.loadNodes = storage.loadNodes := by
      simp [Storage.loadNodes, hnodes, hreset]
    rw [htrusted, hpk, hload]
    rfl

theorem getElem?_takenOver {storage : Storage} {pk : EndpointId} (h : StorageKeyed storage)
    {id : EndpointId} {node : Node} :
    (collectNodes (persistedDaemons pk storage.loadNodes))[id]? = some node ↔
      storage.nodes[id]? = some node ∧ isDaemonNode node = true ∧ id ≠ pk := by
  constructor
  · intro hn
    obtain ⟨hmem, rfl⟩ := getElem?_collectNodes hn
    obtain ⟨hload, hd, hne⟩ := mem_persistedDaemons.mp hmem
    obtain ⟨id, hn⟩ := mem_loadNodes.mp hload
    obtain rfl := h id node hn
    exact ⟨hn, hd, hne⟩
  · rintro ⟨hn, hd, hne⟩
    obtain rfl := h id node hn
    refine getElem?_insertAll_of_mem ?_
      (mem_persistedDaemons.mpr ⟨mem_loadNodes.mpr ⟨_, hn⟩, hd, hne⟩)
    intro other hother hid
    obtain ⟨i, hi⟩ := mem_loadNodes.mp (mem_persistedDaemons.mp hother).1
    obtain rfl := h i other hi
    rw [hid, hn] at hi
    exact (Option.some.inj hi).symm

theorem saved_takenOver {d : Daemon} (ht : TrustTable d.ctx) (hkeyed : StorageKeyed d.ctx.storage)
    (hstored : StoredTrusted d) (iter : IterOrder) :
    let saved := d.ctx.withStored
      (insertAll (·.nodeId) d.ctx.storage.nodes (d.ctx.savedNodes iter))
    collectNodes (persistedDaemons d.ctx.me.nodeId saved.storage.loadNodes) = d.ctx.trustedNodes := by
  have hsaved : ∀ {id : EndpointId} {node : Node}, d.ctx.trustedNodes[id]? = some node →
      (insertAll (·.nodeId) d.ctx.storage.nodes (d.ctx.savedNodes iter))[id]? = some node := by
    intro id node hn
    obtain rfl := ht.trustedKeyed id node hn
    have hmem : node ∈ d.ctx.savedNodes iter := mem_savedNodes.mpr
      ⟨_, hn, ht.ne_me (mem_of_getElem? hn), ht.trustedDaemons _ node hn⟩
    refine getElem?_insertAll_of_mem ?_ hmem
    intro other hother hid
    obtain ⟨i, hi, -⟩ := mem_savedNodes.mp hother
    obtain rfl := ht.trustedKeyed i other hi
    rw [hid, hn] at hi
    exact (Option.some.inj hi).symm
  apply ExtTreeMap.ext_getElem?
  intro id
  ext node
  rw [getElem?_takenOver (saved_keyed hkeyed _)]
  constructor
  · rintro ⟨hn, hd, hne⟩
    by_cases hmem : id ∈ d.ctx.trustedNodes
    · obtain ⟨held, hheld⟩ := exists_getElem? hmem
      obtain rfl := Option.some.inj ((hsaved hheld).symm.trans hn)
      exact hheld
    · rcases getElem?_insertAll_cases hn with ⟨hwritten, rfl⟩ | hold
      · obtain ⟨i, hi, -⟩ := mem_savedNodes.mp hwritten
        obtain rfl := ht.trustedKeyed i node hi
        exact absurd (mem_of_getElem? hi) hmem
      · exact absurd (hstored id node hold hne hd) hmem
  · intro hn
    exact ⟨hsaved hn, ht.trustedDaemons id node hn, ht.ne_me (mem_of_getElem? hn)⟩

/-- Right after a save, a restart on the database without a ticket comes up and trusts exactly
the records the daemon trusts. -/
theorem restart_trusts_same (history : List Attempt) (start : Start codecs)
    (hdatabase : start.storage = storageAfter codecs history)
    (hsaved : start.env.secretSaved = true) (events : List Event)
    (hok : ∀ e ∈ events, StorageSucceeds e) (iter : IterOrder) (args : DaemonArgs)
    (hticket : args.ticket = none) (hreset : args.resetStorage = false) (env : StartReadings) :
    let d := start.daemon.run codecs (events ++ [.save iter none])
    ∃ ctx, initNetwork codecs args d.ctx.storage env = .ok ctx ∧
      ctx.trustedNodes = d.ctx.trustedNodes := by
  let I (d : Daemon) : Prop := TrustTable d.ctx ∧ StorageKeyed d.ctx.storage ∧ StoredTrusted d ∧
    Enrolled d.ctx.storage d.ctx.me.nodeId
  have hstep : ∀ (d : Daemon) (e : Event), I d → StorageSucceeds e → I (d.step codecs e) := by
    rintro d e ⟨ht, hkeyed, htrusted, henrolled⟩ hsucceeds
    refine ⟨TrustTable.step d e ht, step_keyed d e hkeyed, step_storedTrusted ht hsucceeds htrusted, ?_⟩
    obtain ⟨nodes, hstorage⟩ := @step_storage codecs d e
    rw [hstorage, (changes_frame (step_changes codecs d e)).1]
    exact ⟨henrolled.secret, henrolled.topic, henrolled.ticketRnum⟩
  have hkeyed : StorageKeyed start.ctx.storage := by
    rw [(initNetwork_storage start.started).2, hdatabase]
    exact startWrites_keyed _ (storageAfter_keyed history)
  have hstart : I start.daemon := ⟨TrustTable.start start, hkeyed, start_storedTrusted start hkeyed,
    start_enrolled start hsaved⟩
  have hrun : Runs.Along (Daemon.step codecs) (fun _ e => StorageSucceeds e) start.daemon events :=
    Runs.along_of_forall _ hok
  obtain ⟨ht, hkeyed, htrusted, henrolled⟩ := Runs.invariant_along hstep hstart hrun
  have hlast : start.daemon.run codecs (events ++ [.save iter none]) =
      (start.daemon.run codecs events).step codecs (.save iter none) := by
    simp [Daemon.run]
  have henrolled' : Enrolled ((start.daemon.run codecs events).step codecs
      (.save iter none)).ctx.storage (start.daemon.run codecs events).ctx.me.nodeId :=
    ⟨henrolled.secret, henrolled.topic, henrolled.ticketRnum⟩
  rw [hlast]
  obtain ⟨ctx, hinit, hctx⟩ := @restart_trustedNodes codecs _ _ _ henrolled' hticket hreset env
  exact ⟨ctx, hinit, hctx.trans (saved_takenOver ht hkeyed htrusted iter)⟩

namespace Sample

def firstStart : Start Sample.codecs where
  args := args
  storage := .clear
  env := startReadings
  ctx := _
  started := rfl

def bobJoins : Event :=
  sends bob (.invited 6 [5] (.fromParts bob [.ip (sock 2)]) "bob" ∅ carol) 1001

end Sample

theorem restart_trusts_bob :
    let d := Sample.firstStart.daemon.run Sample.codecs ([Sample.bobJoins] ++ [.save .byId none])
    ∃ ctx, initNetwork Sample.codecs Sample.args d.ctx.storage Sample.startReadings = .ok ctx ∧
      ctx.trustedNodes = d.ctx.trustedNodes :=
  restart_trusts_same [] Sample.firstStart rfl rfl [Sample.bobJoins]
    (by simp [StorageSucceeds, Sample.bobJoins, Sample.sends]) .byId Sample.args rfl rfl
    Sample.startReadings

example : Sample.bob ∈ (Sample.firstStart.daemon.run Sample.codecs
    [Sample.bobJoins]).ctx.trustedNodes := by decide

end P2pDdns
