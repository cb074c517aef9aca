import P2pDdns.TrustTable

/-!
Records delivered in sync messages, in any order and any number of times. The newest
record of an id decides everything but the address; the address is decided too when
that record has an IP, or no record that counts has one.
-/

set_option autoImplicit false

namespace P2pDdns
open Std FiniteMaps NewestWins

abbrev Delivery := List (SignedMessage × Readings)

def Context.deliverOne (ctx : Context) (m : SignedMessage × Readings) : Context :=
  (ctx.receive m.1 m.2).1

def Context.deliver (ctx : Context) (messages : Delivery) : Context :=
  Runs.exec Context.deliverOne ctx messages

def Delivery.records (messages : Delivery) : List Node :=
  messages.flatMap fun m => m.1.message.nodes

/-- Passed sync messages whose records are daemons', neither the senders' nor the
receiver's, with addresses of their own, and of one id never two with one heartbeat. -/
structure Delivers (ctx : Context) (messages : Delivery) : Prop where
  passed : Runs.Along Context.deliverOne
    (fun ctx m => Passed ctx m.1 m.2 ∧ ∃ nodes, Syncs m.1 nodes) ctx messages
  daemons : ∀ node ∈ messages.records, isDaemonNode node = true
  others : ∀ node ∈ messages.records, node.nodeId ≠ ctx.me.nodeId
  thirdParties : ∀ node ∈ messages.records, ∀ m ∈ messages, node.nodeId ≠ m.1.sender
  owned : ∀ node ∈ messages.records, node.addr.id = node.nodeId
  distinct : ∀ a ∈ messages.records, ∀ b ∈ messages.records, a.nodeId = b.nodeId →
    a.lastHeartbeat = b.lastHeartbeat → a = b

def Delivery.recordsOf (messages : Delivery) (id : EndpointId) : List Node :=
  messages.records.filter (·.nodeId = id)

theorem records_cons (m : SignedMessage × Readings) (messages : Delivery) :
    Delivery.records (m :: messages) = m.1.message.nodes ++ Delivery.records messages := rfl

theorem recordsOf_cons (m : SignedMessage × Readings) (messages : Delivery) (id : EndpointId) :
    Delivery.recordsOf (m :: messages) id =
      m.1.message.nodes.filter (·.nodeId = id) ++ Delivery.recordsOf messages id := by
  rw [Delivery.recordsOf, records_cons, List.filter_append]
  rfl

/-- The records that count for an id leave no choice of address: the newest of them has an
IP, or none of them does. -/
def AddrDecided (held : Option Node) (offers : List Node) : Prop :=
  (∃ a ∈ offers, Beats Node.lastHeartbeat held a ∧ hasIpAddr a.addr = true ∧
    ∀ b ∈ offers, b.lastHeartbeat ≤ a.lastHeartbeat) ∨
  ∀ a ∈ offers, Beats Node.lastHeartbeat held a → hasIpAddr a.addr = false

theorem passed_sync (ctx : Context) {m : SignedMessage × Readings}
    (h : Passed ctx m.1 m.2 ∧ ∃ nodes, Syncs m.1 nodes) :
    ctx.deliverOne m = Context.syncNodes m.1.sender m.2.observed 0 m.1.message.nodes
      (ctx.refreshed m.1 m.2) := by
  obtain ⟨hpassed, nodes, hmsg⟩ := h
  have hstatus := status_passed.mpr hpassed
  rcases hmsg with hmsg | hmsg
  · simp [Context.deliverOne, receive_eq, hmsg, syncRequest_ctx, hstatus, Message.nodes]
  · simp [Context.deliverOne, receive_eq, hmsg, syncResponse_ctx, hstatus, Message.nodes]

/-- For an id that sends nothing itself, a delivery is its records absorbed in their order. -/
theorem getElem?_deliver {ctx : Context} {messages : Delivery} {id : EndpointId}
    (hkeyed : NodesKeyed ctx)
    (hpassed : Runs.Along Context.deliverOne
      (fun ctx m => Passed ctx m.1 m.2 ∧ ∃ nodes, Syncs m.1 nodes) ctx messages)
    (hdaemons : ∀ node ∈ messages.records, isDaemonNode node = true)
    (hothers : ∀ node ∈ messages.records, node.nodeId ≠ ctx.me.nodeId)
    (hid : ∀ m ∈ messages, id ≠ m.1.sender) :
    (ctx.deliver messages).nodes[id]? =
      absorbAll Node.lastHeartbeat replaceNode ctx.nodes[id]? (messages.recordsOf id) := by
  induction messages generalizing ctx with
  | nil => rfl
  | cons m messages ih =>
    have hone := passed_sync ctx hpassed.1
    have hsender := hid m List.mem_cons_self
    have hme : (ctx.deliverOne m).me = ctx.me := by
      rw [hone, syncNodes_me, refreshed_me]
    have hkeyed' : NodesKeyed (ctx.deliverOne m) := by
      rw [hone]
      exact (hkeyed.refreshed m.1 m.2).syncNodes _ _ _ _
    rw [records_cons] at hdaemons hothers
    have hrest := ih hkeyed' hpassed.2 (fun node hn => hdaemons node (List.mem_append_right _ hn))
      (fun node hn => by rw [hme]; exact hothers node (List.mem_append_right _ hn))
      (fun n hn => hid n (List.mem_cons_of_mem m hn))
    have hfilter : m.1.message.nodes.filter (considered ctx.me.nodeId id) =
        m.1.message.nodes.filter (·.nodeId = id) := by
      refine List.filter_congr fun node hn => ?_
      have hd := hdaemons node (List.mem_append_left _ hn)
      have hself := hothers node (List.mem_append_left _ hn)
      simp [considered, hd, hself]
    have hfirst : (ctx.deliverOne m).nodes[id]? =
        absorbAll Node.lastHeartbeat replaceNode ctx.nodes[id]?
          (m.1.message.nodes.filter (·.nodeId = id)) := by
      rw [hone, getElem?_syncNodes hsender, refreshed_nodes_ne hkeyed hsender, refreshed_me,
        hfilter]
    calc (ctx.deliver (m :: messages)).nodes[id]?
        = ((ctx.deliverOne m).deliver messages).nodes[id]? := rfl
      _ = absorbAll Node.lastHeartbeat replaceNode (ctx.deliverOne m).nodes[id]?
            (Delivery.recordsOf messages id) := hrest
      _ = absorbAll Node.lastHeartbeat replaceNode ctx.nodes[id]?
            (Delivery.recordsOf (m :: messages) id) := by
          rw [hfirst, recordsOf_cons, absorbAll_append]

theorem replaceNode_traceless {held : Option Node} {b c : Node} (hid : b.addr.id = c.addr.id)
    (hb : hasIpAddr b.addr = false) (hc : hasIpAddr c.addr = false)
    (hbeats : Beats Node.lastHeartbeat held b) (hlt : b.lastHeartbeat < c.lastHeartbeat) :
    absorb Node.lastHeartbeat replaceNode (absorb Node.lastHeartbeat replaceNode held b) c =
      absorb Node.lastHeartbeat replaceNode held c := by
  cases held with
  | none =>
    simp only [absorb, hlt, if_true, replaceNode_eq hlt, hc, Bool.false_eq_true, if_false]
    rw [mergeAddr_of_no_ip hb hc]
  | some old =>
    have hob := hbeats old rfl
    have hoc := hob.trans hlt
    have hbc : (replaceNode old b).lastHeartbeat < c.lastHeartbeat := by
      rwa [replaceNode_lastHeartbeat old b hob]
    simp only [absorb, hob, hoc, hbc, if_true, replaceNode_eq hbc, replaceNode_eq hoc, hc,
      Bool.false_eq_true, if_false]
    have haddr : (replaceNode old b).addr = mergeAddr old.addr b.addr := by
      simp [replaceNode_eq hob, hb]
    rw [haddr, mergeAddr_mergeAddr hid hb hc]

section Outcome
variable {ctx ctx' : Context} {messages messages' : Delivery} {id : EndpointId}

theorem mem_recordsOf {node : Node} :
    node ∈ messages.recordsOf id ↔ node ∈ messages.records ∧ node.nodeId = id := by
  simp [Delivery.recordsOf]

theorem offers_agree (id : EndpointId)
    (hsame : ∀ node, node ∈ messages.records ↔ node ∈ messages'.records) (node : Node) :
    node ∈ messages.recordsOf id ↔ node ∈ messages'.recordsOf id := by
  rw [mem_recordsOf, mem_recordsOf, hsame]

theorem Delivers.distinct_of (h : Delivers ctx messages) (id : EndpointId) :
    ∀ a ∈ messages.recordsOf id, ∀ b ∈ messages.recordsOf id,
      a.lastHeartbeat = b.lastHeartbeat → a = b := by
  intro a ha b hb heq
  obtain ⟨ha, hida⟩ := mem_recordsOf.mp ha
  obtain ⟨hb, hidb⟩ := mem_recordsOf.mp hb
  exact h.distinct a ha b hb (hida.trans hidb.symm) heq

theorem withoutAddr_newest (old a : Node) (h : old.lastHeartbeat < a.lastHeartbeat) :
    withoutAddr (replaceNode old a) = withoutAddr a := by
  rw [replaceNode_eq h]
  rfl

theorem absorbAll_hasIp {held : Option Node} {offers : List Node} {a : Node}
    (hip : hasIpAddr a.addr = true)
    (hnewest : ∀ b ∈ offers, b = a ∨ b.lastHeartbeat < a.lastHeartbeat) (ha : a ∈ offers)
    (hbeats : Beats Node.lastHeartbeat held a) :
    absorbAll Node.lastHeartbeat replaceNode held offers = some a := by
  have hreplace : ∀ old : Node, old.lastHeartbeat < a.lastHeartbeat → replaceNode old a = a := by
    intro old hlt
    rw [replaceNode_eq hlt, if_pos hip]
  have h := absorbAll_map replaceNode_lastHeartbeat (π := id) hreplace hnewest ha hbeats
  simpa using h

theorem Delivers.absorbAll_noIp (h : Delivers ctx messages) {held : Option Node} {a : Node}
    (hip : ∀ b ∈ messages.recordsOf id, Beats Node.lastHeartbeat held b →
      hasIpAddr b.addr = false)
    (hnewest : ∀ b ∈ messages.recordsOf id, b = a ∨ b.lastHeartbeat < a.lastHeartbeat)
    (ha : a ∈ messages.recordsOf id) (hbeats : Beats Node.lastHeartbeat held a) :
    absorbAll Node.lastHeartbeat replaceNode held (messages.recordsOf id) =
      absorb Node.lastHeartbeat replaceNode held a := by
  have howned : ∀ b ∈ messages.recordsOf id, b.addr.id = id := by
    intro b hb
    obtain ⟨hb, hidb⟩ := mem_recordsOf.mp hb
    exact (h.owned b hb).trans hidb
  refine absorbAll_traceless replaceNode_lastHeartbeat ?_ hnewest ha hbeats
  intro b hb c hc hbeatsb hlt
  have hbeatsc : Beats Node.lastHeartbeat held c := fun old hold => (hbeatsb old hold).trans hlt
  exact replaceNode_traceless ((howned b hb).trans (howned c hc).symm) (hip b hb hbeatsb)
    (hip c hc hbeatsc) hbeatsb hlt

/-- The order and the repetitions of a delivery leave everything but the address alone, and
the address too where it is decided. -/
theorem sync_order_independent (hkeyed : NodesKeyed ctx) (hkeyed' : NodesKeyed ctx')
    (hstart : ctx.nodes = ctx'.nodes) (h : Delivers ctx messages) (h' : Delivers ctx' messages')
    (hsame : ∀ node, node ∈ messages.records ↔ node ∈ messages'.records)
    (hid : ∀ m ∈ messages, id ≠ m.1.sender) (hid' : ∀ m ∈ messages', id ≠ m.1.sender) :
    (ctx.deliver messages).nodes[id]?.map withoutAddr =
      (ctx'.deliver messages').nodes[id]?.map withoutAddr ∧
    (AddrDecided ctx.nodes[id]? (messages.recordsOf id) →
      (ctx.deliver messages).nodes[id]? = (ctx'.deliver messages').nodes[id]?) := by
  have hoffers := offers_agree id hsame
  rw [getElem?_deliver hkeyed h.passed h.daemons h.others hid,
    getElem?_deliver hkeyed' h'.passed h'.daemons h'.others hid', ← hstart]
  rcases newest_or_covered ctx.nodes[id]? (h.distinct_of id) with
    hcovered | ⟨a, ha, hbeats, hnewest⟩
  · have hcovered' : ∀ b ∈ messages'.recordsOf id,
        Covers Node.lastHeartbeat ctx.nodes[id]? b.lastHeartbeat :=
      fun b hb => hcovered b ((hoffers b).mpr hb)
    rw [absorbAll_of_covers hcovered, absorbAll_of_covers hcovered']
    exact ⟨rfl, fun _ => rfl⟩
  · have ha' : a ∈ messages'.recordsOf id := (hoffers a).mp ha
    have hnewest' : ∀ b ∈ messages'.recordsOf id, b = a ∨ b.lastHeartbeat < a.lastHeartbeat :=
      fun b hb => hnewest b ((hoffers b).mpr hb)
    constructor
    · rw [absorbAll_map replaceNode_lastHeartbeat (withoutAddr_newest · a) hnewest ha hbeats,
        absorbAll_map replaceNode_lastHeartbeat (withoutAddr_newest · a) hnewest' ha' hbeats]
    · rintro (⟨top, htop, -, hip, hmax⟩ | hnoip)
      · have htop : top = a := by
          rcases hnewest top htop with heq | hlt
          · exact heq
          · have := hmax a ha
            omega
        subst htop
        rw [absorbAll_hasIp hip hnewest ha hbeats, absorbAll_hasIp hip hnewest' ha' hbeats]
      · rw [h.absorbAll_noIp hnoip hnewest ha hbeats,
          h'.absorbAll_noIp (fun b hb => hnoip b ((hoffers b).mpr hb)) hnewest' ha' hbeats]

end Outcome

namespace Sample

def bobSyncs (nodes : List Node) : Delivery :=
  [(⟨bob, .syncResponse nodes, 1001⟩, readings 1001)]

def carolReachable : Node := record carol "carol" [3] 1000
def carolUnreachable : Node := record carol "carol" [] 1001

def daemonOfBob : Context := (start [record bob "bob" [2] 900]).ctx

theorem daemonOfBob_keyed : NodesKeyed daemonOfBob := (TrustTable.start _).nodesKeyed

theorem bobSyncs_delivers :
    Delivers daemonOfBob (bobSyncs [carolReachable, carolUnreachable]) where
  passed := ⟨⟨⟨by decide, by decide⟩, _, .inr rfl⟩, trivial⟩
  daemons := by decide
  others := by decide
  thirdParties := by decide
  owned := by decide
  distinct := by decide

theorem bobSyncs_delivers_swapped :
    Delivers daemonOfBob (bobSyncs [carolUnreachable, carolReachable]) where
  passed := ⟨⟨⟨by decide, by decide⟩, _, .inr rfl⟩, trivial⟩
  daemons := by decide
  others := by decide
  thirdParties := by decide
  owned := by decide
  distinct := by decide

theorem bobSyncs_same (node : Node) :
    node ∈ (bobSyncs [carolReachable, carolUnreachable]).records ↔
      node ∈ (bobSyncs [carolUnreachable, carolReachable]).records := by
  simp [bobSyncs, Delivery.records, Message.nodes, or_comm]

end Sample

/-- Whether a record without an IP comes before or after an older one with an IP decides
whether the IP is kept. -/
theorem sync_order_matters :
    ¬ ∀ (ctx ctx' : Context) (messages messages' : Delivery) (id : EndpointId),
      NodesKeyed ctx → NodesKeyed ctx' → ctx.nodes = ctx'.nodes →
      Delivers ctx messages → Delivers ctx' messages' →
      (∀ node, node ∈ messages.records ↔ node ∈ messages'.records) →
      (∀ node ∈ messages.records, ∀ old, ctx.nodes[node.nodeId]? = some old →
        old.lastHeartbeat ≠ node.lastHeartbeat) →
      (∀ m ∈ messages, id ≠ m.1.sender) → (∀ m ∈ messages', id ≠ m.1.sender) →
      (ctx.deliver messages).nodes[id]? = (ctx'.deliver messages').nodes[id]? := by
  intro hclaim
  have hnew : ∀ node ∈ (Sample.bobSyncs [Sample.carolReachable, Sample.carolUnreachable]).records,
      Sample.daemonOfBob.nodes[node.nodeId]? = none := by decide
  have h := hclaim Sample.daemonOfBob Sample.daemonOfBob
    (Sample.bobSyncs [Sample.carolReachable, Sample.carolUnreachable])
    (Sample.bobSyncs [Sample.carolUnreachable, Sample.carolReachable]) Sample.carol
    Sample.daemonOfBob_keyed Sample.daemonOfBob_keyed rfl Sample.bobSyncs_delivers
    Sample.bobSyncs_delivers_swapped Sample.bobSyncs_same
    (fun node hn old hold => by rw [hnew node hn] at hold; contradiction) (by decide) (by decide)
  revert h
  decide

theorem sync_order_independent_swapped :
    (Sample.daemonOfBob.deliver
        (Sample.bobSyncs [Sample.carolReachable, Sample.carolUnreachable])).nodes[Sample.carol]?.map
        withoutAddr =
      (Sample.daemonOfBob.deliver
        (Sample.bobSyncs [Sample.carolUnreachable, Sample.carolReachable])).nodes[Sample.carol]?.map
        withoutAddr ∧
    (AddrDecided Sample.daemonOfBob.nodes[Sample.carol]?
        ((Sample.bobSyncs [Sample.carolReachable, Sample.carolUnreachable]).recordsOf Sample.carol) →
      (Sample.daemonOfBob.deliver
        (Sample.bobSyncs [Sample.carolReachable, Sample.carolUnreachable])).nodes[Sample.carol]? =
      (Sample.daemonOfBob.deliver
        (Sample.bobSyncs [Sample.carolUnreachable, Sample.carolReachable])).nodes[Sample.carol]?) :=
  sync_order_independent Sample.daemonOfBob_keyed Sample.daemonOfBob_keyed rfl
    Sample.bobSyncs_delivers Sample.bobSyncs_delivers_swapped Sample.bobSyncs_same (by decide)
    (by decide)

end P2pDdns
