import P2pDdns.HostsNames

/-!
Nodes that meet in the managed section: two at one address, whose names stand on its line in the
order the nodes come in, and two with one name.
-/

set_option autoImplicit false

namespace P2pDdns
open Std TextLines MarkedSections AppendedLists

/-! Nodes at one address. -/

def SameNames (here : EndpointAddr) (nodes : List Node) : Prop :=
  ∀ a ∈ nodes, ∀ b ∈ nodes, ∀ ip name name',
    Written here a ip name → Written here b ip name' → name = name'

section Orders
variable {windows : Bool} {here : EndpointAddr} {nodes order order' : List Node}
  {suffix : Option String}

theorem agree_of_sameNames (h : SameNames here nodes) : Agree (nodeEntries here nodes suffix) := by
  intro entry hentry entry' hentry' hkey
  obtain ⟨a, ha, ip, name, hwritten, rfl⟩ := mem_nodeEntries.mp hentry
  obtain ⟨b, hb, ip', name', hwritten', rfl⟩ := mem_nodeEntries.mp hentry'
  obtain rfl : ip = ip' := hkey
  rw [h a ha b hb ip name name' hwritten hwritten']

theorem SameNames.perm (h : SameNames here nodes) (hperm : order.Perm nodes) :
    SameNames here order :=
  fun a ha b hb => h a (hperm.mem_iff.mp ha) b (hperm.mem_iff.mp hb)

theorem nodesBuilder_perm (h : SameNames here nodes) (horder : order.Perm nodes) :
    nodesBuilder here order suffix = nodesBuilder here nodes suffix := by
  have hentries : (nodeEntries here order suffix).Perm (nodeEntries here nodes suffix) :=
    horder.filterMap _
  rw [nodesBuilder_eq, nodesBuilder_eq,
    collect_eq_of_perm hentries (agree_of_sameNames (h.perm horder))]

theorem nodesBuilder_eq_of_section
    (h : (nodesBuilder here order suffix).linesToInsert windows =
      (nodesBuilder here order' suffix).linesToInsert windows) :
    nodesBuilder here order suffix = nodesBuilder here order' suffix := by
  have hread := congrArg (fun lines => readSection (between lines)) h
  simp only [HostsBuilder.between_linesToInsert,
    HostsBuilder.readSection_entries (nodesBuilder_named here order suffix),
    HostsBuilder.readSection_entries (nodesBuilder_named here order' suffix),
    Option.some.injEq] at hread
  rw [nodesBuilder_eq, nodesBuilder_eq] at hread ⊢
  exact congrArg (HostsBuilder.mk HOSTS_TAG) hread

theorem exists_perm_cons_cons {a b : Node} (ha : a ∈ nodes) (hb : b ∈ nodes) (hne : a ≠ b) :
    ∃ rest, (a :: b :: rest).Perm nodes := by
  obtain ⟨front, back, rfl⟩ := List.append_of_mem ha
  have hb' : b ∈ front ++ back := by
    rcases List.mem_append.mp hb with hb | hb
    · exact List.mem_append_left _ hb
    · rcases List.mem_cons.mp hb with rfl | hb
      · exact absurd rfl hne
      · exact List.mem_append_right _ hb
  obtain ⟨front', back', hsplit⟩ := List.append_of_mem hb'
  refine ⟨front' ++ back', ?_⟩
  have hrest : (b :: (front' ++ back')).Perm (front ++ back) := by
    rw [hsplit]
    exact List.perm_middle.symm
  exact (hrest.cons a).trans List.perm_middle.symm

/-- The section is the same in any order of the nodes exactly if it has no line with names of
two nodes. -/
theorem sections_agree_iff :
    (∀ order order', order.Perm nodes → order'.Perm nodes →
      (nodesBuilder here order suffix).linesToInsert windows =
        (nodesBuilder here order' suffix).linesToInsert windows) ↔ SameNames here nodes := by
  constructor
  · intro h a ha b hb ip name name' hwritten hwritten'
    by_contra hne
    have hab : a ≠ b := by
      rintro rfl
      exact hne (Option.some.inj (hwritten.name.symm.trans hwritten'.name))
    -- The two nodes in front, in one order and in the other.
    obtain ⟨rest, hperm⟩ := exists_perm_cons_cons ha hb hab
    have hswap := nodesBuilder_eq_of_section
      (h _ _ hperm ((List.Perm.swap a b rest).trans hperm))
    rw [nodesBuilder_eq, nodesBuilder_eq, nodeEntries, nodeEntries,
      List.filterMap_cons_some (entryOf_written hwritten),
      List.filterMap_cons_some (entryOf_written hwritten'),
      List.filterMap_cons_some (entryOf_written hwritten'),
      List.filterMap_cons_some (entryOf_written hwritten)] at hswap
    have hnames := eq_of_collect_swap (congrArg HostsBuilder.hostnameMap hswap) rfl
      (by rw [length_hostnamesOf, length_hostnamesOf])
    exact hne (hostnamesOf_injective hnames)
  · intro h order order' horder horder'
    rw [nodesBuilder_perm h horder, nodesBuilder_perm h horder']

/-! A sync repeated in another order. -/

theorem Rewrites.not_kept {new lines lines' : List String} (h : Rewrites new lines true lines') :
    ¬Kept new lines := by
  intro hkept
  cases h with
  | replaced hsectioned hne =>
    rcases hkept with ⟨_, _, hsectioned'⟩ | ⟨-, hadjacent⟩
    · exact hne (hsectioned.unique hsectioned').2.1.symm
    · exact hsectioned.not_hasAdjacent (isEnd_of_isBegin HOSTS_TAG) hadjacent
  | created hunmarked =>
    rcases hkept with ⟨_, _, hsectioned⟩ | ⟨-, hadjacent⟩
    · exact hunmarked.not_sectioned hsectioned
    · exact hunmarked.not_hasAdjacent hadjacent
  | between hadjacent hne => exact hkept.not_hasAdjacent hne ⟨_, _, hadjacent⟩

theorem rewrites_kept_iff {new lines lines' : List String} {changed : Bool}
    (hnew : new = [] ∨ IsSection begins ends new) (h : Rewrites new lines changed lines') :
    Kept new lines' ↔ Settles new lines := by
  rw [← rewrites_settles_iff hnew h]
  refine (and_iff_left_of_imp fun hkept hchanged hsame => ?_).symm
  rw [hchanged, hsame] at h
  exact h.not_kept (hsame ▸ hkept)

variable {readings : HostsReadings} {writes : WriteReadings} {content content' : List UInt8}
  {lines : List String} {changed : Bool}

/-- The section is the same in any order of the nodes, and behind a sync in one order a sync in
another has nothing to write, exactly if no line has names of two nodes and the lines of the
file settle. -/
theorem sync_orders_iff (horder : order.Perm nodes)
    (hfirst : syncNodesToHosts windows readings writes here order suffix content =
      (.ok changed, content'))
    (hlines : readLines content = some lines) :
    ((∀ order order', order.Perm nodes → order'.Perm nodes →
        (nodesBuilder here order suffix).linesToInsert windows =
          (nodesBuilder here order' suffix).linesToInsert windows) ∧
      ∀ readings' writes' order', readings'.Passed → order'.Perm nodes →
        syncNodesToHosts windows readings' writes' here order' suffix content' =
          (.ok false, content')) ↔
      SameNames here nodes ∧
        Settles ((nodesBuilder here nodes suffix).linesToInsert windows) lines := by
  rw [sections_agree_iff]
  refine and_congr_right fun hsame => ?_
  have hbuilder : ∀ {order'}, order'.Perm nodes →
      nodesBuilder here order' suffix = nodesBuilder here nodes suffix :=
    fun hperm => nodesBuilder_perm hsame hperm
  obtain ⟨htag, hclean⟩ := nodesBuilder_spec here nodes suffix
  rw [syncNodesToHosts, hbuilder horder] at hfirst
  obtain ⟨found, lines', hfound, hlines', hrewrites, -⟩ := writeTo_rewrites htag hclean hfirst
  obtain rfl := Option.some.inj (hlines.symm.trans hfound)
  rw [← rewrites_kept_iff (linesToInsert_isSection htag) hrewrites]
  constructor
  · intro h
    have hagain := h readings writes nodes (writeTo_passed hfirst) (.refl nodes)
    exact ((writeTo_kept_iff htag hclean hlines').mp hagain).2
  · intro hkept readings' writes' order' hpassed horder'
    rw [syncNodesToHosts, hbuilder horder', writeTo_kept_iff htag hclean hlines']
    exact ⟨hpassed, hkept⟩

end Orders

/-! Nodes with one name. -/

def NamedOnce (lines : List String) : Prop :=
  (∀ line ∈ lines, (hostnamesOn line).Nodup) ∧
    lines.Pairwise fun line line' => (hostnamesOn line).Disjoint (hostnamesOn line')

/-- If both nodes are written, neither has a name of the other: their canonical names differ, and
none of them is the other with the suffix. -/
def NamesApart (here : EndpointAddr) (suffix : Option String) (a b : Node) : Prop :=
  ∀ ip name ip' name', Written here a ip name → Written here b ip' name' →
    name ≠ name' ∧ ∀ s, suffix.bind canonicalHostname = some s →
      name ≠ name' ++ "." ++ s ∧ name' ≠ name ++ "." ++ s

theorem namedOnce_iff {lines : List String} :
    NamedOnce lines ↔ (lines.flatMap hostnamesOn).Nodup :=
  List.nodup_flatMap.symm

theorem append_dot_inj {name name' suffix : String} :
    name ++ "." ++ suffix = name' ++ "." ++ suffix ↔ name = name' := by
  rw [String.append_left_inj, String.append_left_inj]

theorem hostnamesOf_disjoint_iff {suffix : Option String} {name name' : String} :
    (hostnamesOf suffix name).Disjoint (hostnamesOf suffix name') ↔
      name ≠ name' ∧ ∀ s, suffix = some s →
        name ≠ name' ++ "." ++ s ∧ name' ≠ name ++ "." ++ s := by
  simp only [List.Disjoint, mem_hostnamesOf]
  constructor
  · intro h
    refine ⟨fun hname => h (.inl rfl) (.inl hname), fun s hs => ⟨fun hname => ?_, fun hname => ?_⟩⟩
    · exact h (.inl rfl) (.inr ⟨s, hs, hname⟩)
    · exact h (.inr ⟨s, hs, hname⟩) (.inl rfl)
  · rintro ⟨hne, hsuffix⟩ found (rfl | ⟨s, hs, rfl⟩) (hfound | ⟨s', hs', hfound⟩)
    · exact hne hfound
    · exact (hsuffix s' hs').1 hfound
    · exact (hsuffix s hs).2 hfound.symm
    · obtain rfl := Option.some.inj (hs.symm.trans hs')
      exact hne (append_dot_inj.mp hfound)

/-- Each name of the section is on one line, once, exactly if no two nodes that are written have
a name in common. -/
theorem section_namedOnce_iff (windows : Bool) (here : EndpointAddr) (nodes : List Node)
    (suffix : Option String) :
    NamedOnce (between ((nodesBuilder here nodes suffix).linesToInsert windows)) ↔
      nodes.Pairwise (NamesApart here suffix) := by
  rw [HostsBuilder.between_linesToInsert, namedOnce_iff,
    HostsBuilder.hostnames_entries (nodesBuilder_named here nodes suffix),
    (nodesBuilder_hostnames here nodes suffix).nodup_iff, List.nodup_flatMap, nodeEntries,
    List.pairwise_filterMap]
  have hnodup : ∀ entry ∈ nodes.filterMap (entryOf here (suffix.bind canonicalHostname)),
      entry.2.Nodup := by
    intro entry hentry
    obtain ⟨node, -, ip, hostname, -, rfl⟩ := mem_nodeEntries.mp hentry
    exact hostnamesOf_nodup _ _
  rw [and_iff_right hnodup]
  refine List.Pairwise.iff fun a b => ?_
  simp only [entryOf_eq_some_iff]
  constructor
  · intro h ip name ip' name' ha hb
    exact hostnamesOf_disjoint_iff.mp
      (h _ ⟨ip, name, ha, rfl⟩ _ ⟨ip', name', hb, rfl⟩)
  · rintro h _ ⟨ip, name, ha, rfl⟩ _ ⟨ip', name', hb, rfl⟩
    exact hostnamesOf_disjoint_iff.mpr (h ip name ip' name' ha hb)

namespace Sample

def beta : Node := { alpha with nodeId := 3, domain := "beta" }

/-- Two nodes behind one address: the line has their names in the order they come in. -/
theorem sections_differ :
    [beta, alpha].Perm [alpha, beta] ∧
      (nodesBuilder here [alpha, beta] none).linesToInsert false ≠
        (nodesBuilder here [beta, alpha] none).linesToInsert false := by
  exact ⟨.swap alpha beta [], by decide⟩

theorem sync_orders_iff_localhost :
    ((∀ order order', order.Perm [alpha] → order'.Perm [alpha] →
        (nodesBuilder here order none).linesToInsert false =
          (nodesBuilder here order' none).linesToInsert false) ∧
      ∀ readings' writes' order', readings'.Passed → order'.Perm [alpha] →
        syncNodesToHosts false readings' writes' here order' none syncedHosts =
          (.ok false, syncedHosts)) := by
  have hlines : readLines plainHosts = some ["127.0.0.1 localhost"] := by decide
  have hunmarked : Unmarked begins ends ["127.0.0.1 localhost"] := by decide
  refine (sync_orders_iff (.refl [alpha]) alpha_synced hlines).mpr ⟨?_, ?_⟩
  · intro a ha b hb ip name name' hwritten hwritten'
    obtain rfl := List.mem_singleton.mp ha
    obtain rfl := List.mem_singleton.mp hb
    exact Option.some.inj (hwritten.name.symm.trans hwritten'.name)
  · rw [Settles, if_neg (by decide)]
    exact hunmarked.not_hasAdjacent

def capital : Node := { alpha with domain := "Db" }

def small : Node :=
  { alpha with nodeId := 3, addr := .fromParts 3 [.ip (.v4 0x0a000003 7777)], domain := "db" }

/-- Two nodes whose domains differ in the case of a letter are two lines with one name. -/
theorem name_on_two_lines :
    ([capital, small].map Node.domain).Nodup ∧
      ¬NamedOnce (between ((nodesBuilder here [capital, small] none).linesToInsert false)) := by
  rw [namedOnce_iff]
  decide +kernel

end Sample
end P2pDdns
