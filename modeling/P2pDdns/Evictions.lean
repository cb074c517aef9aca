import P2pDdns.Clients

/-!
Two cleanups compared: the one that follows an admin session, with the record the
session put into the table, and the one there would have been without it.
-/

set_option autoImplicit false

namespace P2pDdns
open Std FiniteMaps

variable {codecs : Codecs}

def Context.Evicts (ctx : Context) (now : Nat) (iter : IterOrder) (id : EndpointId)
    (node : Node) : Prop :=
  ctx.nodes[id]? = some node ∧ isDaemonNode node = true ∧ (ctx.cleanup now iter).nodes[id]? = none

def Newest (nodes : List Node) (node : Node) : Prop :=
  ∀ other ∈ nodes, other.domain = node.domain → other.lastHeartbeat ≤ node.lastHeartbeat

/-- An equally new record of its domain is walked before it. -/
def TiedBehind (nodes : List Node) (node : Node) : Prop :=
  ∃ other, other.domain = node.domain ∧ other.nodeId ≠ node.nodeId ∧
    node.lastHeartbeat = other.lastHeartbeat ∧ [other, node].Sublist nodes

/-- Of the daemons newest in their domain, the walk `with'`, which has the client's record,
outranks those that the walk `without` does: by another record or by the client's. -/
def RanksAlike (client : Node) (without with' : List Node) : Prop :=
  ∀ node ∈ without, isDaemonNode node = true → Newest without node →
    (TiedBehind (with'.filter fun n => n.nodeId ≠ client.nodeId) node ∨
      Outranks with' client node ↔ TiedBehind without node)

def Context.withClient (ctx : Context) (client : Node) : Context :=
  { ctx with nodes := ctx.nodes.insert client.nodeId client }

section Ranks
variable {nodes : List Node} {node : Node}

theorem outranked_of_not_newest
    (hids : ∀ a ∈ nodes, ∀ b ∈ nodes, a.nodeId = b.nodeId → a = b) (hmem : node ∈ nodes)
    (h : ¬ Newest nodes node) : Outranked nodes node := by
  simp only [Newest, not_forall, Nat.not_le] at h
  obtain ⟨other, hother, hdomain, hlt⟩ := h
  refine ⟨other, hother, hdomain, fun hid => ?_, .inl hlt⟩
  obtain rfl := hids other hother node hmem hid
  exact absurd hlt (lt_irrefl _)

theorem outranked_iff_tiedBehind (h : Newest nodes node) :
    Outranked nodes node ↔ TiedBehind nodes node := by
  constructor
  · rintro ⟨other, hmem, hdomain, hne, hlt | ⟨heq, hpair⟩⟩
    · exact absurd (h other hmem hdomain) (by omega)
    · exact ⟨other, hdomain, hne, heq, hpair⟩
  · rintro ⟨other, hdomain, hne, heq, hpair⟩
    exact ⟨other, hpair.subset List.mem_cons_self, hdomain, hne, .inr ⟨heq, hpair⟩⟩

theorem outranked_joined {client : Node} {joined : List Node}
    (hjoined : ∀ n ∈ joined, n = client ∨ n ∈ nodes ∧ n.nodeId ≠ client.nodeId)
    (hnode : node.nodeId ≠ client.nodeId) (h : Newest nodes node) :
    Outranked joined node ↔
      TiedBehind (joined.filter fun n => n.nodeId ≠ client.nodeId) node ∨
        Outranks joined client node := by
  constructor
  · rintro ⟨other, hrank⟩
    obtain ⟨hmem, hdomain, hne, hwhere⟩ := hrank
    rcases hjoined other hmem with rfl | ⟨hother, hotherne⟩
    · exact .inr ⟨hmem, hdomain, hne, hwhere⟩
    · rcases hwhere with hlt | ⟨heq, hpair⟩
      · exact absurd (h other hother hdomain) (by omega)
      · refine .inl ⟨other, hdomain, hne, heq, ?_⟩
        simpa [hnode, hotherne] using hpair.filter fun n : Node => decide (n.nodeId ≠ client.nodeId)
  · rintro (⟨other, hdomain, hne, heq, hpair⟩ | hrank)
    · have hpair := hpair.trans List.filter_sublist
      exact ⟨other, hpair.subset List.mem_cons_self, hdomain, hne, .inr ⟨heq, hpair⟩⟩
    · exact ⟨client, hrank⟩

end Ranks

section Cleanups
variable {ctx : Context} {now : Nat} {iter : IterOrder} {id : EndpointId} {node client : Node}

theorem evicts_iff (hkeyed : NodesKeyed ctx) :
    ctx.Evicts now iter id node ↔ ctx.nodes[id]? = some node ∧ isDaemonNode node = true ∧
      (Unexpired now node → Outranked (ctx.nodesSnapshot now iter) node) := by
  refine and_congr_right fun hn => and_congr_right fun _ => ?_
  rw [Option.eq_none_iff_forall_not_mem]
  constructor
  · intro hgone hfresh
    by_contra hrank
    exact hgone node ((getElem?_cleanup hkeyed).mpr ⟨hn, hfresh, hrank⟩)
  · intro hrank kept hkept
    obtain ⟨hkept, hfresh, hnot⟩ := (getElem?_cleanup hkeyed).mp hkept
    obtain rfl := Option.some.inj (hn.symm.trans hkept)
    exact hnot (hrank hfresh)

theorem withClient_daemon (hnew : client.nodeId ∉ ctx.nodes) (hclient : isDaemonNode client = false) :
    ((ctx.withClient client).nodes[id]? = some node ∧ isDaemonNode node = true) ↔
      ctx.nodes[id]? = some node ∧ isDaemonNode node = true := by
  refine and_congr_left fun hd => ?_
  by_cases hid : client.nodeId = id
  · subst hid
    rw [Context.withClient, getElem?_insert_self, ExtTreeMap.getElem?_eq_none hnew]
    refine iff_of_false (fun h => ?_) (by simp)
    obtain rfl := Option.some.inj h
    simp [hd] at hclient
  · rw [Context.withClient, getElem?_insert_ne _ _ hid]

theorem mem_snapshot_withClient (hkeyed : NodesKeyed ctx) (hnew : client.nodeId ∉ ctx.nodes)
    (hclient : isDaemonNode client = false) :
    node ∈ (ctx.withClient client).nodesSnapshot now iter ↔
      node = client ∨ node ∈ ctx.nodesSnapshot now iter ∧ node.nodeId ≠ client.nodeId := by
  have hfresh : Unexpired now client := fun hd => by simp [hclient] at hd
  rw [mem_nodesSnapshot, mem_nodesSnapshot]
  constructor
  · rintro ⟨id, hn, hu⟩
    rcases getElem?_insert_cases hn with ⟨-, rfl⟩ | ⟨hid, hn⟩
    · exact .inl rfl
    · refine .inr ⟨⟨id, hn, hu⟩, ?_⟩
      rw [hkeyed id node hn]
      exact Ne.symm hid
  · rintro (rfl | ⟨⟨id, hn, hu⟩, hne⟩)
    · exact ⟨node.nodeId, getElem?_insert_self _ _ _, hfresh⟩
    · rw [hkeyed id node hn] at hne
      refine ⟨id, ?_, hu⟩
      rw [Context.withClient, getElem?_insert_ne _ _ hne.symm, hn]

theorem withClient_keyed (hkeyed : NodesKeyed ctx) (client : Node) :
    NodesKeyed (ctx.withClient client) :=
  forall_insert hkeyed rfl

/-- A client's record spares the daemons exactly if the newest of each domain rank alike. -/
theorem withClient_evicts_iff (hkeyed : NodesKeyed ctx) (hnew : client.nodeId ∉ ctx.nodes)
    (hclient : isDaemonNode client = false) :
    (∀ id node, (ctx.withClient client).Evicts now iter id node ↔ ctx.Evicts now iter id node) ↔
      RanksAlike client (ctx.nodesSnapshot now iter)
        ((ctx.withClient client).nodesSnapshot now iter) := by
  have hjoined : ∀ n ∈ (ctx.withClient client).nodesSnapshot now iter,
      n = client ∨ n ∈ ctx.nodesSnapshot now iter ∧ n.nodeId ≠ client.nodeId :=
    fun n => (mem_snapshot_withClient hkeyed hnew hclient).mp
  have hne : ∀ {id : EndpointId} {node : Node}, ctx.nodes[id]? = some node →
      node.nodeId ≠ client.nodeId := by
    rintro id node hn heq
    rw [hkeyed id node hn] at heq
    exact hnew (heq ▸ mem_of_getElem? hn)
  have hkeyed' := withClient_keyed hkeyed client
  simp only [evicts_iff hkeyed, evicts_iff hkeyed', ← and_assoc,
    withClient_daemon hnew hclient]
  constructor
  · intro hsame node hmem hd hnewest
    obtain ⟨id, hn, hfresh⟩ := mem_nodesSnapshot.mp hmem
    rw [← outranked_joined hjoined (hne hn) hnewest, ← outranked_iff_tiedBehind hnewest]
    simpa [hn, hd, hfresh] using hsame id node
  · intro halike id node
    refine and_congr_right fun ⟨hn, hd⟩ => ?_
    refine forall_congr' fun hfresh => ?_
    have hmem : node ∈ ctx.nodesSnapshot now iter := mem_nodesSnapshot.mpr ⟨id, hn, hfresh⟩
    by_cases hnewest : Newest (ctx.nodesSnapshot now iter) node
    · rw [outranked_joined hjoined (hne hn) hnewest, outranked_iff_tiedBehind hnewest]
      exact halike node hmem hd hnewest
    · -- A strictly newer rival outranks it in both walks.
      have hin : ∀ n ∈ ctx.nodesSnapshot now iter,
          n ∈ (ctx.withClient client).nodesSnapshot now iter := by
        intro n hn
        obtain ⟨i, hi, hu⟩ := mem_nodesSnapshot.mp hn
        exact (mem_snapshot_withClient hkeyed hnew hclient).mpr (.inr ⟨hn, hne hi⟩)
      have hnewest' : ¬ Newest ((ctx.withClient client).nodesSnapshot now iter) node :=
        fun h => hnewest fun other hother => h other (hin other hother)
      refine iff_of_true ?_ ?_
      · exact outranked_of_not_newest (nodesSnapshot_ids hkeyed') (hin node hmem) hnewest'
      · exact outranked_of_not_newest (nodesSnapshot_ids hkeyed) hmem hnewest

/-- Where the client's record leaves the walk of the others as it is, it spares the daemons
exactly if it outranks none that leads its domain. -/
theorem withClient_evicts_iff_of_walk (hkeyed : NodesKeyed ctx) (hnew : client.nodeId ∉ ctx.nodes)
    (hclient : isDaemonNode client = false)
    (hwalk : ((ctx.withClient client).nodesSnapshot now iter).filter
      (fun n => n.nodeId ≠ client.nodeId) = ctx.nodesSnapshot now iter) :
    (∀ id node, (ctx.withClient client).Evicts now iter id node ↔ ctx.Evicts now iter id node) ↔
      ∀ node ∈ ctx.nodesSnapshot now iter, isDaemonNode node = true →
        Outranks ((ctx.withClient client).nodesSnapshot now iter) client node →
        Outranked (ctx.nodesSnapshot now iter) node := by
  rw [withClient_evicts_iff hkeyed hnew hclient, RanksAlike, hwalk]
  refine forall_congr' fun node => forall_congr' fun hmem => forall_congr' fun _ => ?_
  by_cases hnewest : Newest (ctx.nodesSnapshot now iter) node
  · rw [outranked_iff_tiedBehind hnewest]
    simp [hnewest, or_iff_left_iff_imp]
  · simp [hnewest, outranked_of_not_newest (nodesSnapshot_ids hkeyed) hmem hnewest]

end Cleanups

/-- An accepted session leaves the evictions of the next cleanup as they were exactly if the
client was registered before, or the newest daemons of each domain rank alike with its record. -/
theorem session_evicts_same_iff {d : Daemon} (h : Reachable codecs d) {authReq : AuthRequest}
    {mode : AuthMode} {pk : EndpointId} (hallowed : authAllowed codecs d.ctx authReq mode = true)
    (hkey : clientKey codecs authReq = some pk) (hnew : pk ∉ d.ctx.nodes) (env : AuthReadings)
    (now : Nat) (iter : IterOrder) :
    (∀ id node, (authenticateAndRegister codecs d authReq mode env).1.ctx.Evicts now iter id node ↔
      d.ctx.Evicts now iter id node) ↔
    d.clients.isClientNode pk = true ∨
      let client := clientNode codecs d.ctx.me pk authReq env.recordNow
      RanksAlike client (d.ctx.nodesSnapshot now iter)
        ((d.ctx.withClient client).nodesSnapshot now iter) := by
  have hctx : (authenticateAndRegister codecs d authReq mode env).1.ctx =
      if d.clients.isClientNode pk then d.ctx
      else d.ctx.withClient (clientNode codecs d.ctx.me pk authReq env.recordNow) := by
    cases hregistered : d.clients.isClientNode pk <;>
      simp [authenticateAndRegister, hallowed, hkey, hregistered, Context.withClient, clientNode]
  rw [hctx]
  split
  · rename_i hregistered
    exact iff_of_true (fun _ _ => Iff.rfl) (.inl hregistered)
  · rename_i hregistered
    rw [or_iff_right hregistered]
    exact withClient_evicts_iff h.trustTable.nodesKeyed hnew (isDaemonNode_clientNode _ _ _ _ _)

theorem session_evicts_same_iff_dave :
    let d := (Sample.start [Sample.record Sample.bob "bob" [2] 950]).daemon
    (∀ id node, (authenticateAndRegister Sample.codecs d Sample.daveAsBob .allowLocalTicketless
        ⟨1000, 1000⟩).1.ctx.Evicts 1002 .byId id node ↔ d.ctx.Evicts 1002 .byId id node) ↔
    d.clients.isClientNode Sample.dave = true ∨
      let client := clientNode Sample.codecs d.ctx.me Sample.dave Sample.daveAsBob 1000
      RanksAlike client (d.ctx.nodesSnapshot 1002 .byId)
        ((d.ctx.withClient client).nodesSnapshot 1002 .byId) :=
  session_evicts_same_iff ⟨_, [], rfl⟩ (by decide) (by decide) (by decide) ⟨1000, 1000⟩ 1002 .byId

/-- Dave's session takes bob out of the table. -/
theorem session_evicts_namesake :
    ¬ ∀ (d : Daemon), Reachable Sample.codecs d →
      ∀ (authReq : AuthRequest) (mode : AuthMode) (pk : EndpointId) (env : AuthReadings)
        (now : Nat) (iter : IterOrder),
      authAllowed Sample.codecs d.ctx authReq mode = true →
      clientKey Sample.codecs authReq = some pk → pk ∉ d.ctx.nodes →
      ∀ id node,
        (authenticateAndRegister Sample.codecs d authReq mode env).1.ctx.Evicts now iter id node ↔
          d.ctx.Evicts now iter id node := by
  intro hclaim
  let bob := Sample.record Sample.bob "bob" [2] 950
  let d := (Sample.start [bob]).daemon
  have hsame := hclaim d ⟨_, [], rfl⟩ Sample.daveAsBob .allowLocalTicketless Sample.dave
    ⟨1000, 1000⟩ 1002 .byId (by decide) (by decide) (by decide) Sample.bob bob
  have hkept : (d.ctx.cleanup 1002 .byId).nodes[Sample.bob]? = some bob := by decide
  have hevicted := hsame.mp ⟨by decide, by decide, by decide⟩
  rw [hevicted.2.2] at hkept
  contradiction

end P2pDdns
