import P2pDdns.DuplicateDomains

/-!
The table a cleanup leaves: every domain has one record, nothing is expired, and nothing went
without a reason. Which of two equally new records of a domain stays is left to the order in
which the table is walked.
-/

set_option autoImplicit false

namespace P2pDdns
open Std FiniteMaps NewestWins

structure CleanedUp (now : Nat) (before after : Context) : Prop where
  fresh : ∀ (id : EndpointId) node, after.nodes[id]? = some node → Unexpired now node
  one_per_domain : ∀ (i j : EndpointId) a b, after.nodes[i]? = some a → after.nodes[j]? = some b →
    a.domain = b.domain → i = j
  removed : ∀ (id : EndpointId) node, before.nodes[id]? = some node → after.nodes[id]? = none →
    ¬ Unexpired now node ∨ ∃ (other : EndpointId) (node' : Node), after.nodes[other]? = some node' ∧
      node'.domain = node.domain ∧ node.lastHeartbeat ≤ node'.lastHeartbeat
  domains_kept : ∀ (id : EndpointId) node, before.nodes[id]? = some node → Unexpired now node →
    ∃ (other : EndpointId) (node' : Node), after.nodes[other]? = some node' ∧
      node'.domain = node.domain
  unchanged : ∀ (id : EndpointId) node, after.nodes[id]? = some node →
    before.nodes[id]? = some node
  trusted : after.trustedNodes = before.trustedNodes
  again : ∀ iter, after.cleanup now iter = after

theorem leader_cons {nodes : List Node} {node : Node}
    (hmax : ∀ other ∈ nodes, other.domain = node.domain →
      other.lastHeartbeat ≤ node.lastHeartbeat) :
    leader (node :: nodes) node.domain = some node := by
  rw [leader, List.filter_cons, if_pos (by simp), absorbAll_cons]
  apply absorbAll_of_covers
  intro other hother
  rw [List.mem_filter, decide_eq_true_eq] at hother
  exact ⟨node, rfl, hmax other hother.1 hother.2⟩

section Cleanup
variable {ctx : Context} {now : Nat} {iter : IterOrder}

theorem exists_survivor (iter : IterOrder) (hkeyed : NodesKeyed ctx) {id : EndpointId} {node : Node}
    (hn : ctx.nodes[id]? = some node) (hfresh : Unexpired now node) :
    ∃ (other : EndpointId) (node' : Node), (ctx.cleanup now iter).nodes[other]? = some node' ∧
      node'.domain = node.domain ∧ node.lastHeartbeat ≤ node'.lastHeartbeat := by
  have hmem : node ∈ ctx.nodesSnapshot now iter := mem_nodesSnapshot.mpr ⟨id, hn, hfresh⟩
  obtain ⟨best, hbest, hlead, hdomain, hmax⟩ := exists_leader hmem
  obtain ⟨other, hother, hfresh'⟩ := mem_nodesSnapshot.mp hbest
  refine ⟨other, best, (getElem?_cleanup hkeyed).mpr ⟨hother, hfresh', ?_⟩, hdomain,
    hmax node hmem rfl⟩
  rw [← leader_ne_iff (nodesSnapshot_ids hkeyed) (nodesSnapshot_nodup hkeyed) hbest, hdomain]
  rintro ⟨best', hlead', hne⟩
  obtain rfl := Option.some.inj (hlead.symm.trans hlead')
  exact hne rfl

theorem survivor_leads (hkeyed : NodesKeyed ctx) {id : EndpointId} {node : Node}
    (h : (ctx.cleanup now iter).nodes[id]? = some node) :
    ∃ best, leader (ctx.nodesSnapshot now iter) node.domain = some best ∧ best.nodeId = id := by
  obtain ⟨hn, hfresh, hrank⟩ := (getElem?_cleanup hkeyed).mp h
  have hmem : node ∈ ctx.nodesSnapshot now iter := mem_nodesSnapshot.mpr ⟨id, hn, hfresh⟩
  rw [← leader_ne_iff (nodesSnapshot_ids hkeyed) (nodesSnapshot_nodup hkeyed) hmem] at hrank
  obtain ⟨best, -, hlead, -⟩ := exists_leader hmem
  refine ⟨best, hlead, ?_⟩
  by_contra hne
  rw [← hkeyed id node hn] at hne
  exact hrank ⟨best, hlead, hne⟩

theorem survivors_distinct (hkeyed : NodesKeyed ctx) {i j : EndpointId} {a b : Node}
    (ha : (ctx.cleanup now iter).nodes[i]? = some a)
    (hb : (ctx.cleanup now iter).nodes[j]? = some b) (hdomain : a.domain = b.domain) : i = j := by
  obtain ⟨best, hlead, hi⟩ := survivor_leads hkeyed ha
  obtain ⟨best', hlead', hj⟩ := survivor_leads hkeyed hb
  rw [hdomain, hlead'] at hlead
  rw [← hi, ← hj, Option.some.inj hlead]

theorem cleanup_eq_self (hkeyed : NodesKeyed ctx)
    (hfresh : ∀ (id : EndpointId) node, ctx.nodes[id]? = some node → Unexpired now node)
    (hdomains : ∀ (i j : EndpointId) a b, ctx.nodes[i]? = some a → ctx.nodes[j]? = some b →
      a.domain = b.domain → i = j) :
    ctx.cleanup now iter = ctx := by
  have hnodes : (ctx.cleanup now iter).nodes = ctx.nodes := by
    refine ExtTreeMap.ext_getElem? fun id => Option.ext fun node => ?_
    rw [getElem?_cleanup hkeyed]
    constructor
    · exact fun h => h.1
    · intro hn
      refine ⟨hn, hfresh id node hn, ?_⟩
      rintro ⟨other, hmem, hdomain, hne, -⟩
      obtain ⟨id', hother, -⟩ := mem_nodesSnapshot.mp hmem
      have hid := hdomains id' id other node hother hn hdomain
      rw [hkeyed id' other hother, hkeyed id node hn] at hne
      exact hne hid
  rw [cleanup_eq] at hnodes ⊢
  exact congrArg (fun nodes => { ctx with nodes := nodes }) hnodes

end Cleanup

/-- A cleanup leaves a table without conflicts and removes nothing else. -/
theorem cleanup_conflict_free {ctx : Context} (hkeyed : NodesKeyed ctx) (now : Nat)
    (iter : IterOrder) : CleanedUp now ctx (ctx.cleanup now iter) := by
  have hkept {id : EndpointId} {node : Node}
      (h : (ctx.cleanup now iter).nodes[id]? = some node) := (getElem?_cleanup hkeyed).mp h
  have hkeyed' : NodesKeyed (ctx.cleanup now iter) := fun id node h => hkeyed id node (hkept h).1
  exact
    { fresh := fun id node h => (hkept h).2.1
      one_per_domain := fun i j a b => survivors_distinct hkeyed
      removed := fun id node hn _ => by
        by_cases hfresh : Unexpired now node
        · exact .inr (exists_survivor iter hkeyed hn hfresh)
        · exact .inl hfresh
      domains_kept := fun id node hn hfresh => by
        obtain ⟨other, node', hother, hdomain, -⟩ := exists_survivor iter hkeyed hn hfresh
        exact ⟨other, node', hother, hdomain⟩
      unchanged := fun id node h => (hkept h).1
      trusted := rfl
      again := fun _ => cleanup_eq_self hkeyed' (fun id node h => (hkept h).2.1)
        (fun i j a b => survivors_distinct hkeyed) }

/-! The order of the records. -/

/-- One record of each domain is newer than all others of it. -/
def NoTies (nodes : List Node) : Prop :=
  ∀ a ∈ nodes, ∀ b ∈ nodes, a ≠ b → a.domain = b.domain → a.lastHeartbeat = b.lastHeartbeat →
    ∃ c ∈ nodes, c.domain = a.domain ∧ a.lastHeartbeat < c.lastHeartbeat

theorem leader_perm {nodes nodes' : List Node} (hperm : nodes'.Perm nodes) (hties : NoTies nodes)
    {node : Node} (hmem : node ∈ nodes) :
    leader nodes' node.domain = leader nodes node.domain := by
  obtain ⟨best, hbest, hlead, hdomain, hmax⟩ := exists_leader hmem
  obtain ⟨best', hbest', hlead', hdomain', hmax'⟩ := exists_leader (hperm.mem_iff.mpr hmem)
  rw [hlead, hlead']
  by_contra hne
  rw [Option.some.injEq] at hne
  rw [hperm.mem_iff] at hbest'
  have hheartbeat : best'.lastHeartbeat = best.lastHeartbeat :=
    Nat.le_antisymm (hmax best' hbest' hdomain') (hmax' best (hperm.mem_iff.mpr hbest) hdomain)
  obtain ⟨c, hc, hcdomain, hlt⟩ :=
    hties best' hbest' best hbest hne (hdomain'.trans hdomain.symm) hheartbeat
  exact absurd (hmax c hc (hcdomain.trans hdomain')) (by omega)

section Front
variable {nodes : List Node} {a b : Node}

theorem not_removed_in_front (hinj : ∀ c ∈ nodes, c.nodeId = a.nodeId → c = a) (ha : a ∈ nodes)
    (hmax : ∀ other ∈ nodes, other.domain = a.domain → other.lastHeartbeat ≤ a.lastHeartbeat) :
    a.nodeId ∉ idsToRemoveForDuplicateDomains (a :: nodes.erase a) := by
  intro hremoved
  obtain ⟨a', ha', hid, best, hlead, hne⟩ := mem_idsToRemove.mp hremoved
  obtain rfl := hinj a' ((List.perm_cons_erase ha).mem_iff.mpr ha') hid
  rw [leader_cons fun other hother => hmax other (List.mem_of_mem_erase hother)] at hlead
  obtain rfl := Option.some.inj hlead
  exact hne rfl

theorem removed_behind (ha : a ∈ nodes) (hb : b ∈ nodes) (hid : b.nodeId ≠ a.nodeId)
    (hdomain : a.domain = b.domain)
    (hmax : ∀ other ∈ nodes, other.domain = b.domain → other.lastHeartbeat ≤ b.lastHeartbeat) :
    a.nodeId ∈ idsToRemoveForDuplicateDomains (b :: nodes.erase b) := by
  refine mem_idsToRemove.mpr ⟨a, (List.perm_cons_erase hb).mem_iff.mp ha, rfl, b, ?_, hid⟩
  rw [hdomain]
  exact leader_cons fun other hother => hmax other (List.mem_of_mem_erase hother)

end Front

/-- The records removed do not depend on their order exactly where no two records are the newest
of one domain. -/
theorem duplicates_deterministic_iff {nodes : List Node} (hids : (nodes.map Node.nodeId).Nodup) :
    (∀ nodes', nodes'.Perm nodes → ∀ id, id ∈ idsToRemoveForDuplicateDomains nodes' ↔
      id ∈ idsToRemoveForDuplicateDomains nodes) ↔ NoTies nodes := by
  constructor
  · intro hsame a ha b hb hne hdomain hheartbeat
    have hinj : ∀ c ∈ nodes, c.nodeId = a.nodeId → c = a :=
      fun c hc hid => List.inj_on_of_nodup_map hids hc ha hid
    by_contra hnone
    have hmax : ∀ other ∈ nodes, other.domain = a.domain →
        other.lastHeartbeat ≤ a.lastHeartbeat := by
      intro other hother hdomain'
      by_contra hlt
      exact hnone ⟨other, hother, hdomain', Nat.lt_of_not_le hlt⟩
    have hfront := not_removed_in_front hinj ha hmax
    rw [hdomain, hheartbeat] at hmax
    have hbehind := removed_behind ha hb (fun hid => hne (hinj b hb hid).symm) hdomain hmax
    rw [hsame _ (List.perm_cons_erase ha).symm] at hfront
    rw [hsame _ (List.perm_cons_erase hb).symm] at hbehind
    exact hfront hbehind
  · intro hties nodes' hperm id
    simp only [mem_idsToRemove, hperm.mem_iff]
    constructor
    · rintro ⟨node, hmem, hid, hbest⟩
      rw [leader_perm hperm hties hmem] at hbest
      exact ⟨node, hmem, hid, hbest⟩
    · rintro ⟨node, hmem, hid, hbest⟩
      rw [← leader_perm hperm hties hmem] at hbest
      exact ⟨node, hmem, hid, hbest⟩

namespace Sample

def namesakes : List Node := [record bob "db" [2] 1000, record carol "db" [3] 1000]

theorem namesakes_cleanedUp :
    CleanedUp 1001 (start namesakes).ctx ((start namesakes).ctx.cleanup 1001 .byId) :=
  cleanup_conflict_free (TrustTable.start _).nodesKeyed 1001 .byId

theorem namesakes_deterministic_iff :
    (∀ nodes', nodes'.Perm namesakes → ∀ id, id ∈ idsToRemoveForDuplicateDomains nodes' ↔
      id ∈ idsToRemoveForDuplicateDomains namesakes) ↔ NoTies namesakes :=
  duplicates_deterministic_iff (by decide)

/-- Two records as new as each other: whichever is seen first keeps the name. -/
theorem duplicates_depend_on_order :
    (namesakes.map Node.nodeId).Nodup ∧ namesakes.reverse.Perm namesakes ∧
      carol ∈ idsToRemoveForDuplicateDomains namesakes ∧
      carol ∉ idsToRemoveForDuplicateDomains namesakes.reverse := by
  refine ⟨by decide, List.reverse_perm _, by decide +kernel, by decide +kernel⟩

end Sample
end P2pDdns
