import P2pDdns.Interleaving
import P2pDdns.TrustTable

/-!
Which records a cleanup removes: those of daemons not heard of for the time to live, and
of the others all but one for each domain, the first in the walk of the newest.
-/

set_option autoImplicit false

namespace P2pDdns
open Std FiniteMaps NewestWins

def Outranks (nodes : List Node) (other node : Node) : Prop :=
  other ∈ nodes ∧ other.domain = node.domain ∧ other.nodeId ≠ node.nodeId ∧
    (node.lastHeartbeat < other.lastHeartbeat ∨
      node.lastHeartbeat = other.lastHeartbeat ∧ [other, node].Sublist nodes)

def Outranked (nodes : List Node) (node : Node) : Prop := ∃ other, Outranks nodes other node

/-- The record kept for a domain. -/
def leader (nodes : List Node) (domain : String) : Option Node :=
  absorbAll Node.lastHeartbeat (fun _ new => new) none (nodes.filter fun n => n.domain = domain)

/-- `by_domain` holds the leader of each domain. -/
theorem getElem?_noteBest (nodes : List Node) (domain : String) :
    (nodes.foldl noteBest ∅)[domain]? =
      (leader nodes domain).map fun n => (n.nodeId, n.lastHeartbeat) := by
  induction nodes using List.reverseRecOn with
  | nil => simp [leader, absorbAll]
  | append_singleton nodes node ih =>
    rw [List.foldl_append, List.foldl_cons, List.foldl_nil, leader, List.filter_append,
      absorbAll_append]
    by_cases hdomain : node.domain = domain
    · subst hdomain
      rw [leader] at ih
      cases hlead : absorbAll Node.lastHeartbeat (fun _ new => new) none
          (nodes.filter fun n => n.domain = node.domain) with
      | none =>
        rw [hlead, Option.map_none] at ih
        simp [noteBest, ih, absorbAll, absorb]
      | some best =>
        rw [hlead, Option.map_some] at ih
        by_cases hlt : best.lastHeartbeat < node.lastHeartbeat
        · simp [noteBest, ih, absorbAll, absorb, hlt]
        · simp [noteBest, ih, absorbAll, absorb, hlt]
    · have hskip : (nodes.foldl noteBest ∅ |> (noteBest · node))[domain]? =
          (nodes.foldl noteBest ∅)[domain]? := by
        simp only [noteBest]
        split
        · exact getElem?_insert_ne _ _ hdomain
        · split
          · exact getElem?_insert_ne _ _ hdomain
          · rfl
      simpa [hdomain, absorbAll, leader] using hskip.trans ih

theorem mem_idsToRemove {nodes : List Node} {id : EndpointId} :
    id ∈ idsToRemoveForDuplicateDomains nodes ↔
      ∃ node ∈ nodes, node.nodeId = id ∧
        ∃ best, leader nodes node.domain = some best ∧ best.nodeId ≠ node.nodeId := by
  simp only [idsToRemoveForDuplicateDomains, List.mem_filterMap, getElem?_noteBest]
  constructor
  · rintro ⟨node, hmem, hid⟩
    cases hlead : leader nodes node.domain with
    | none => simp [hlead] at hid
    | some best =>
      simp only [hlead, Option.map_some] at hid
      split at hid
      · rename_i hne
        exact ⟨node, hmem, Option.some.inj hid, best, hlead, hne⟩
      · contradiction
  · rintro ⟨node, hmem, rfl, best, hlead, hne⟩
    exact ⟨node, hmem, by simp [hlead, hne]⟩

theorem leader_first {nodes : List Node} {node : Node} (hmem : node ∈ nodes) :
    ∃ best ∈ nodes, leader nodes node.domain = some best ∧ best.domain = node.domain ∧
      ∀ other ∈ nodes, other.domain = node.domain → other = best ∨
        other.lastHeartbeat < best.lastHeartbeat ∨
        other.lastHeartbeat = best.lastHeartbeat ∧ [best, other].Sublist nodes := by
  have hoffered : node ∈ nodes.filter fun n => n.domain = node.domain := by simp [hmem]
  obtain ⟨best, before, after, hlead, hsplit, hbefore, hafter⟩ :=
    @absorbAll_first _ _ _ Node.lastHeartbeat _ (List.ne_nil_of_mem hoffered)
  have hsub : (before ++ best :: after).Sublist nodes := hsplit ▸ List.filter_sublist
  have hin : best ∈ nodes.filter fun n => n.domain = node.domain := by simp [hsplit]
  rw [List.mem_filter, decide_eq_true_eq] at hin
  refine ⟨best, hin.1, hlead, hin.2, fun other hother hdomain => ?_⟩
  have hsome : other ∈ before ++ best :: after := by
    rw [← hsplit]
    simp [hother, hdomain]
  rcases List.mem_append.mp hsome with h | h
  · exact .inr (.inl (hbefore other h))
  · rcases List.mem_cons.mp h with rfl | h
    · exact .inl rfl
    · rcases (hafter other h).lt_or_eq with hlt | heq
      · exact .inr (.inl hlt)
      · refine .inr (.inr ⟨heq, List.Sublist.trans ?_ hsub⟩)
        have hpair : [best, other].Sublist (best :: after) :=
          List.cons_sublist_cons.mpr (List.singleton_sublist.mpr h)
        exact hpair.trans (List.sublist_append_right before _)

theorem exists_leader {nodes : List Node} {node : Node} (hmem : node ∈ nodes) :
    ∃ best ∈ nodes, leader nodes node.domain = some best ∧ best.domain = node.domain ∧
      ∀ other ∈ nodes, other.domain = node.domain → other.lastHeartbeat ≤ best.lastHeartbeat := by
  obtain ⟨best, hbest, hlead, hdomain, hfirst⟩ := leader_first hmem
  refine ⟨best, hbest, hlead, hdomain, fun other hother hdomain' => ?_⟩
  rcases hfirst other hother hdomain' with rfl | hlt | ⟨heq, -⟩
  · exact le_rfl
  · exact hlt.le
  · exact heq.le

theorem leader_ne_iff {nodes : List Node}
    (hids : ∀ a ∈ nodes, ∀ b ∈ nodes, a.nodeId = b.nodeId → a = b) (hnodup : nodes.Nodup)
    {node : Node} (hmem : node ∈ nodes) :
    (∃ best, leader nodes node.domain = some best ∧ best.nodeId ≠ node.nodeId) ↔
      Outranked nodes node := by
  obtain ⟨best, hbest, hlead, hdomain, hfirst⟩ := leader_first hmem
  constructor
  · rintro ⟨other, hother, hne⟩
    obtain rfl := Option.some.inj (hlead.symm.trans hother)
    refine ⟨best, hbest, hdomain, hne, (hfirst node hmem rfl).resolve_left ?_⟩
    rintro rfl
    exact hne rfl
  · rintro ⟨other, hother, hdomain', hne, hrank⟩
    refine ⟨best, hlead, fun hid => ?_⟩
    obtain rfl := hids best hbest node hmem hid
    have hbehind := (hfirst other hother hdomain').resolve_left fun heq => hne (heq ▸ rfl)
    -- neither is newer, and only one of the two comes first
    rcases hrank with hlt | ⟨heq, hpair⟩
    · omega
    · rcases hbehind with hlt | ⟨-, hpair'⟩
      · omega
      · exact Interleaving.pair_sublist_asymm hnodup hpair' hpair

/-! What a cleanup leaves. -/

/-- A daemon is expired when it was not heard of for the time to live; a client never is. -/
def Unexpired (now : Nat) (node : Node) : Prop :=
  isDaemonNode node = true → now ≤ node.lastHeartbeat + STALE_NODE_TTL_SECS

/-- `stale_node_ids`, in the order of the walk. -/
def Context.staleNodeIds (ctx : Context) (now : Nat) (iter : IterOrder) : List EndpointId :=
  (iter.walk ctx.nodes).filterMap fun (id, node) =>
    if node.services.contains SERVICE_MARKER_CLIENT then none
    else if now - node.lastHeartbeat > STALE_NODE_TTL_SECS then some id
    else none

/-- `nodes_snapshot`: the unexpired records as they are walked. -/
def Context.nodesSnapshot (ctx : Context) (now : Nat) (iter : IterOrder) : List Node :=
  (iter.walk (eraseAll ctx.nodes (ctx.staleNodeIds now iter))).map (·.2)

section Cleanup
variable {ctx : Context} {now : Nat} {iter : IterOrder} {id : EndpointId} {node : Node}

theorem cleanup_eq (ctx : Context) (now : Nat) (iter : IterOrder) :
    ctx.cleanup now iter =
      { ctx with
        nodes := eraseAll (eraseAll ctx.nodes (ctx.staleNodeIds now iter))
          (idsToRemoveForDuplicateDomains (ctx.nodesSnapshot now iter)) } := rfl

theorem mem_staleNodeIds (h : ctx.nodes[id]? = some node) :
    id ∈ ctx.staleNodeIds now iter ↔ ¬ Unexpired now node := by
  have hentry : ∀ node', (id, node') ∈ iter.walk ctx.nodes ↔ node' = node := by
    intro node'
    rw [IterOrder.mem_walk, h, Option.some.injEq, eq_comm]
  have hkind : node.services.contains SERVICE_MARKER_CLIENT = !isDaemonNode node := by
    simp [isDaemonNode]
  simp only [Context.staleNodeIds, List.mem_filterMap, Prod.exists, Unexpired]
  constructor
  · rintro ⟨a, node', hwalk, hid⟩ hfresh
    split at hid
    · contradiction
    · rename_i hmarker
      split at hid
      · rename_i hstale
        obtain rfl := Option.some.inj hid
        obtain rfl := (hentry node').mp hwalk
        rw [hkind, Bool.not_eq_true, Bool.not_eq_false'] at hmarker
        have := hfresh hmarker
        omega
      · contradiction
  · intro hexpired
    rw [Classical.not_imp] at hexpired
    have hstale : STALE_NODE_TTL_SECS < now - node.lastHeartbeat := by omega
    exact ⟨id, node, (hentry node).mpr rfl, by simp [hkind, hexpired.1, hstale]⟩

theorem getElem?_unexpired :
    (eraseAll ctx.nodes (ctx.staleNodeIds now iter))[id]? = some node ↔
      ctx.nodes[id]? = some node ∧ Unexpired now node := by
  rw [getElem?_eraseAll]
  constructor
  · rintro ⟨hstale, hn⟩
    rw [mem_staleNodeIds hn, not_not] at hstale
    exact ⟨hn, hstale⟩
  · rintro ⟨hn, hfresh⟩
    exact ⟨fun h => (mem_staleNodeIds hn).mp h hfresh, hn⟩

theorem mem_nodesSnapshot :
    node ∈ ctx.nodesSnapshot now iter ↔
      ∃ id : EndpointId, ctx.nodes[id]? = some node ∧ Unexpired now node := by
  simp only [Context.nodesSnapshot, List.mem_map, Prod.exists, IterOrder.mem_walk,
    getElem?_unexpired]
  constructor
  · rintro ⟨id, n, h, rfl⟩
    exact ⟨id, h⟩
  · rintro ⟨id, h⟩
    exact ⟨id, node, h, rfl⟩

theorem nodesSnapshot_ids (hkeyed : NodesKeyed ctx) :
    ∀ a ∈ ctx.nodesSnapshot now iter, ∀ b ∈ ctx.nodesSnapshot now iter, a.nodeId = b.nodeId →
      a = b := by
  intro a ha b hb hid
  obtain ⟨i, ha, -⟩ := mem_nodesSnapshot.mp ha
  obtain ⟨j, hb, -⟩ := mem_nodesSnapshot.mp hb
  obtain rfl : i = j := (hkeyed i a ha).symm.trans (hid.trans (hkeyed j b hb))
  exact Option.some.inj (ha.symm.trans hb)

theorem nodesSnapshot_nodup (hkeyed : NodesKeyed ctx) : (ctx.nodesSnapshot now iter).Nodup := by
  have hwalk := List.pairwise_map.mp
    (iter.walk_keys_nodup (eraseAll ctx.nodes (ctx.staleNodeIds now iter)))
  refine List.pairwise_map.mpr (hwalk.imp_of_mem fun {a b} ha hb hne heq => hne ?_)
  have ha := hkeyed a.1 a.2 (getElem?_unexpired.mp (iter.mem_walk.mp ha)).1
  have hb := hkeyed b.1 b.2 (getElem?_unexpired.mp (iter.mem_walk.mp hb)).1
  rw [← ha, ← hb, heq]

/-- A record survives a cleanup if it has not expired and leads its domain. -/
theorem getElem?_cleanup (hkeyed : NodesKeyed ctx) :
    (ctx.cleanup now iter).nodes[id]? = some node ↔
      ctx.nodes[id]? = some node ∧ Unexpired now node ∧
        ¬ Outranked (ctx.nodesSnapshot now iter) node := by
  rw [cleanup_eq, getElem?_eraseAll, getElem?_unexpired, and_comm, and_assoc]
  refine and_congr_right fun hn => and_congr_right fun hfresh => not_congr ?_
  have hmem : node ∈ ctx.nodesSnapshot now iter := mem_nodesSnapshot.mpr ⟨id, hn, hfresh⟩
  rw [← leader_ne_iff (nodesSnapshot_ids hkeyed) (nodesSnapshot_nodup hkeyed) hmem,
    mem_idsToRemove]
  constructor
  · rintro ⟨n, hmem', hid, hlead⟩
    obtain rfl := nodesSnapshot_ids hkeyed n hmem' node hmem (hid.trans (hkeyed id node hn).symm)
    exact hlead
  · exact fun hlead => ⟨node, hmem, hkeyed id node hn, hlead⟩

end Cleanup

end P2pDdns
