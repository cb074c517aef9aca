import P2pDdns.HostsSections

/-!
Calls on the hosts file one after the other: a call repeated, and any number of syncs with a
clearing behind them.
-/

set_option autoImplicit false

namespace P2pDdns
open Std TextLines MarkedSections

/-! A call repeated. -/

/-- With a section to write, no two markers are adjacent; without one, two are, or are left so
when the old section is taken out. -/
def Settles (new lines : List String) : Prop :=
  if new = [] then
    HasAdjacent begins ends lines ∨ ∃ before oldSection after,
      Sectioned begins ends lines before oldSection after ∧ HasAdjacent begins ends (before ++ after)
  else ¬HasAdjacent begins ends lines

theorem kept_nil_iff {lines : List String} : Kept [] lines ↔ HasAdjacent begins ends lines := by
  constructor
  · rintro (⟨before, after, h⟩ | ⟨-, h⟩)
    · exact absurd rfl h.ne_nil
    · exact h
  · exact fun h => .inr ⟨rfl, h⟩

theorem Kept.not_hasAdjacent {new lines : List String} (h : Kept new lines) (hne : new ≠ []) :
    ¬HasAdjacent begins ends lines := by
  rcases h with ⟨before, after, h⟩ | ⟨hempty, -⟩
  · exact h.not_hasAdjacent (isEnd_of_isBegin HOSTS_TAG)
  · exact absurd hempty hne

theorem rewrites_nil_settles_iff {lines lines' : List String} {changed : Bool}
    (h : Rewrites [] lines changed lines') :
    (Kept [] lines' ∧ (changed = true → lines' ≠ lines)) ↔ Settles [] lines := by
  have hdisjoint := isEnd_of_isBegin HOSTS_TAG
  rw [Settles, if_pos rfl, kept_nil_iff]
  cases h with
  | kept h =>
    rw [kept_nil_iff] at h
    exact iff_of_true ⟨h, by simp⟩ (.inl h)
  | @replaced before oldSection after h hne =>
    have hshort : before.map chomp ++ [] ++ after.map chomp ≠ lines := by
      intro heq
      have hlen := congrArg List.length heq
      have hpos := List.length_pos_of_ne_nil h.ne_nil
      rw [h.split] at hlen
      simp only [List.length_append, List.length_map, List.length_nil] at hlen
      omega
    rw [and_iff_left fun _ => hshort, List.append_nil, ← List.map_append, hasAdjacent_chomp,
      or_iff_right (h.not_hasAdjacent hdisjoint)]
    constructor
    · exact fun hadjacent => ⟨before, oldSection, after, h, hadjacent⟩
    · rintro ⟨before', oldSection', after', h', hadjacent⟩
      obtain ⟨rfl, -, rfl⟩ := h.unique h'
      exact hadjacent
  | created h =>
    have hfront : Unmarked begins ends ((padded lines).map chomp) :=
      unmarked_chomp.mpr (padded_unmarked h)
    rw [List.append_nil]
    refine iff_of_false (fun hkept => hfront.not_hasAdjacent hkept.1) ?_
    rintro (hadjacent | ⟨_, _, _, hsectioned, -⟩)
    · exact h.not_hasAdjacent hadjacent
    · exact h.not_sectioned hsectioned
  | between h hne => exact absurd rfl hne

theorem rewrites_section_settles_iff {new lines lines' : List String} {changed : Bool}
    (hnew : IsSection begins ends new) (h : Rewrites new lines changed lines') :
    (Kept new lines' ∧ (changed = true → lines' ≠ lines)) ↔ Settles new lines := by
  have hdisjoint := isEnd_of_isBegin HOSTS_TAG
  rw [Settles, if_neg hnew.ne_nil]
  cases h with
  | kept h => exact iff_of_true ⟨h, by simp⟩ (h.not_hasAdjacent hnew.ne_nil)
  | @replaced before oldSection after h hne =>
    have hsectioned := hnew.sectioned hdisjoint (unmarked_chomp.mpr h.unmarked) (after.map chomp)
    refine iff_of_true ⟨.inl ⟨_, _, hsectioned⟩, fun _ heq => ?_⟩ (h.not_hasAdjacent hdisjoint)
    rw [heq] at hsectioned
    exact hne (hsectioned.unique h).2.1
  | created h =>
    have hfront : Unmarked begins ends ((padded lines).map chomp) :=
      unmarked_chomp.mpr (padded_unmarked h)
    have hsectioned := hnew.sectioned hdisjoint hfront []
    rw [List.append_nil] at hsectioned
    refine iff_of_true ⟨.inl ⟨_, _, hsectioned⟩, fun _ heq => ?_⟩ h.not_hasAdjacent
    rw [heq] at hsectioned
    exact h.not_sectioned hsectioned
  | @between before after h hne =>
    have hadjacent : HasAdjacent begins ends (before.map chomp ++ new ++ after.map chomp) :=
      ⟨_, _, (h.map begins_chomp ends_chomp).insert hnew⟩
    exact iff_of_false (fun hkept => hkept.1.not_hasAdjacent hne hadjacent)
      (fun hnone => hnone ⟨_, _, h⟩)

theorem rewrites_settles_iff {new lines lines' : List String} {changed : Bool}
    (hnew : new = [] ∨ IsSection begins ends new) (h : Rewrites new lines changed lines') :
    (Kept new lines' ∧ (changed = true → lines' ≠ lines)) ↔ Settles new lines := by
  rcases hnew with rfl | hnew
  · exact rewrites_nil_settles_iff h
  · exact rewrites_section_settles_iff hnew h

section Repeated
variable {builder : HostsBuilder} {windows : Bool} {readings : HostsReadings}
  {writes : WriteReadings} {content : List UInt8} {lines : List String}

theorem writeTo_kept_iff (htag : builder.tag = HOSTS_TAG) (hclean : builder.Clean)
    (hlines : readLines content = some lines) :
    builder.writeTo windows readings writes content = (.ok false, content) ↔
      readings.Passed ∧ Kept (builder.linesToInsert windows) lines := by
  constructor
  · intro h
    refine ⟨writeTo_passed h, ?_⟩
    obtain ⟨found, lines', hfound, -, hrewrites, -⟩ := writeTo_rewrites htag hclean h
    obtain rfl := Option.some.inj (hlines.symm.trans hfound)
    cases hrewrites with
    | kept h => exact h
  · rintro ⟨hpassed, h⟩
    rw [HostsBuilder.writeTo_eq (readHosts_eq_ok_iff.mpr ⟨hpassed, hlines⟩),
      rewrite_of_kept htag h]

/-- A call that succeeds finds nothing to do when it is repeated, and reports a change only if
there was one, exactly if it gets to read the file again and the lines settle. -/
theorem write_again_iff {readings' : HostsReadings} {writes' : WriteReadings}
    {content' : List UInt8} {changed : Bool} (htag : builder.tag = HOSTS_TAG)
    (hclean : builder.Clean) (hlines : readLines content = some lines)
    (hfirst : builder.writeTo windows readings writes content = (.ok changed, content')) :
    (builder.writeTo windows readings' writes' content' = (.ok false, content') ∧
        (changed = true → readLines content' ≠ some lines)) ↔
      readings'.Passed ∧ Settles (builder.linesToInsert windows) lines := by
  obtain ⟨found, lines', hfound, hlines', hrewrites, -⟩ := writeTo_rewrites htag hclean hfirst
  obtain rfl := Option.some.inj (hlines.symm.trans hfound)
  rw [writeTo_kept_iff htag hclean hlines', hlines', ne_eq, Option.some.injEq, and_assoc,
    rewrites_settles_iff (linesToInsert_isSection htag) hrewrites]

end Repeated

namespace Sample

theorem alpha_synced :
    syncNodesToHosts false etcHosts swapped here [alpha] none plainHosts =
      (.ok true, syncedHosts) := by
  decide +kernel

theorem alpha_cleared :
    clearManagedHosts false etcHosts swapped syncedHosts = (.ok true, blankHosts) := by
  decide +kernel

theorem write_again_iff_localhost :
    (nodesBuilder here [alpha] none).writeTo false etcHosts swapped syncedHosts =
        (.ok false, syncedHosts) ∧
      (true = true → readLines syncedHosts ≠ some ["127.0.0.1 localhost"]) := by
  obtain ⟨htag, hclean⟩ := nodesBuilder_spec here [alpha] none
  have hlines : readLines plainHosts = some ["127.0.0.1 localhost"] := by decide
  have hunmarked : Unmarked begins ends ["127.0.0.1 localhost"] := by decide
  refine (write_again_iff htag hclean hlines alpha_synced).mpr ⟨etcHosts_passed, ?_⟩
  rw [Settles, if_neg (by decide)]
  exact hunmarked.not_hasAdjacent

/-- Clearing a file that has no section adds a blank line, and from then on reports a change
whenever it is repeated and makes none. -/
theorem clear_repeats :
    clearManagedHosts false etcHosts swapped plainHosts = (.ok true, blankHosts) ∧
      clearManagedHosts false etcHosts swapped blankHosts = (.ok true, blankHosts) := by
  decide +kernel

end Sample

/-! Syncs and a clearing. -/

structure SyncCall where
  readings : HostsReadings
  writes : WriteReadings
  here : EndpointAddr
  nodes : List Node
  suffix : Option String

def SyncCall.builder (call : SyncCall) : HostsBuilder :=
  nodesBuilder call.here call.nodes call.suffix

def syncAll (windows : Bool) : List SyncCall → List UInt8 → Option (List UInt8)
  | [], content => some content
  | call :: calls, content =>
    match syncNodesToHosts windows call.readings call.writes call.here call.nodes call.suffix
        content with
    | (.ok _, content') => syncAll windows calls content'
    | _ => none

inductive Synced : List (List String) → List String → List String → Prop where
  | done {lines : List String} : Synced [] lines lines
  | call {new lines lines' last : List String} {changed : Bool} {news : List (List String)} :
      (new = [] ∨ IsSection begins ends new) → Rewrites new lines changed lines' →
      Synced news lines' last → Synced (new :: news) lines last

theorem syncAll_synced {windows : Bool} {calls : List SyncCall} {content content' : List UInt8}
    {lines : List String} (h : syncAll windows calls content = some content')
    (hlines : readLines content = some lines) :
    ∃ last, readLines content' = some last ∧
      Synced (calls.map fun call => call.builder.linesToInsert windows) lines last := by
  induction calls generalizing content lines with
  | nil =>
    obtain rfl := Option.some.inj h
    exact ⟨lines, hlines, .done⟩
  | cons call calls ih =>
    rw [syncAll] at h
    split at h
    · rename_i changed next hcall
      obtain ⟨htag, hclean⟩ := nodesBuilder_spec call.here call.nodes call.suffix
      obtain ⟨found, lines', hfound, hlines', hrewrites, -⟩ :=
        writeTo_rewrites htag hclean hcall
      obtain rfl := Option.some.inj (hlines.symm.trans hfound)
      obtain ⟨last, hlast, hsynced⟩ := ih h hlines'
      exact ⟨last, hlast, .call (linesToInsert_isSection htag) hrewrites hsynced⟩
    · contradiction

/-- Lines behind some paddings and chompings. -/
inductive Worn (outer : List String) : List String → Prop where
  | same : Worn outer outer
  | afterChomp {lines : List String} : Worn outer lines → Worn outer (lines.map chomp)
  | afterPad {lines : List String} : Worn outer lines → Worn outer ((padded lines).map chomp)

theorem length_padded_le (lines : List String) : lines.length ≤ (padded lines).length := by
  rcases padded_cases lines with ⟨h, -⟩ | ⟨h, -⟩ <;> simp [h]

theorem size_padded (lines : List String) : size (padded lines) = size lines := by
  rcases padded_cases lines with ⟨h, -⟩ | ⟨h, -⟩ <;> simp [h, size]

theorem Worn.grows {outer lines : List String} (h : Worn outer lines) :
    outer.length ≤ lines.length ∧ size lines ≤ size outer := by
  induction h with
  | same => exact ⟨le_rfl, le_rfl⟩
  | @afterChomp lines _ ih =>
    have hsize := size_map_chomp_le lines
    exact ⟨by simpa using ih.1, by omega⟩
  | @afterPad lines _ ih =>
    have hsize := size_map_chomp_le (padded lines)
    have hlen := length_padded_le lines
    rw [size_padded] at hsize
    exact ⟨by rw [List.length_map]; omega, by omega⟩

theorem padded_eq_iff {lines : List String} : padded lines = lines ↔ EndsBlank lines := by
  rcases padded_cases lines with ⟨hpadded, hblank⟩ | ⟨hpadded, hblank⟩
  · exact iff_of_true hpadded hblank
  · exact iff_of_false (by simp [hpadded]) hblank

theorem Worn.eq_of_stable {outer lines : List String} (h : Worn outer lines)
    (hblank : EndsBlank outer) (hplain : Plain outer) : lines = outer := by
  induction h with
  | same => rfl
  | afterChomp _ ih => rw [ih, map_chomp_eq_iff.mpr hplain]
  | afterPad _ ih => rw [ih, padded_eq_iff.mpr hblank, map_chomp_eq_iff.mpr hplain]

/-- The lines outside the section, if there is at most one and no other marker. -/
def Outer (lines outer : List String) : Prop :=
  ∃ before section' after, Tidy begins ends lines before section' after ∧ outer = before ++ after

theorem rewrites_unmarked {new lines lines' : List String} {changed : Bool}
    (h : Rewrites new lines changed lines') (hunmarked : Unmarked begins ends lines) :
    lines' = (padded lines).map chomp ++ new := by
  cases h with
  | kept h =>
    rcases h with ⟨_, _, h⟩ | ⟨-, h⟩
    · exact absurd h hunmarked.not_sectioned
    · exact absurd h hunmarked.not_hasAdjacent
  | replaced h => exact absurd h hunmarked.not_sectioned
  | created => rfl
  | between h => exact absurd ⟨_, _, h⟩ hunmarked.not_hasAdjacent

theorem rewrites_sectioned {new lines lines' before oldSection after : List String}
    {changed : Bool} (h : Rewrites new lines changed lines')
    (hsection : Sectioned begins ends lines before oldSection after) :
    oldSection = new ∧ lines' = lines ∨
      lines' = before.map chomp ++ new ++ after.map chomp := by
  have hdisjoint := isEnd_of_isBegin HOSTS_TAG
  cases h with
  | kept h =>
    rcases h with ⟨_, _, h⟩ | ⟨-, h⟩
    · exact .inl ⟨(h.unique hsection).2.1, rfl⟩
    · exact absurd h (hsection.not_hasAdjacent hdisjoint)
  | replaced h =>
    obtain ⟨rfl, -, rfl⟩ := h.unique hsection
    exact .inr rfl
  | created h => exact absurd hsection h.not_sectioned
  | between h => exact absurd ⟨_, _, h⟩ (hsection.not_hasAdjacent hdisjoint)

theorem outer_of_unmarked {lines : List String} (h : Unmarked begins ends lines) :
    Outer lines lines :=
  ⟨lines, [], [], .unmarked h, (List.append_nil lines).symm⟩

theorem outer_around {before new after : List String}
    (hnew : new = [] ∨ IsSection begins ends new) (hbefore : Unmarked begins ends before)
    (hafter : Unmarked begins ends after) : Outer (before ++ new ++ after) (before ++ after) := by
  rcases hnew with rfl | hnew
  · rw [List.append_nil]
    exact outer_of_unmarked (unmarked_append.mpr ⟨hbefore, hafter⟩)
  · exact ⟨before, new, after, .section' hbefore hnew hafter, rfl⟩

theorem outer_append {new outer : List String} (hnew : new = [] ∨ IsSection begins ends new)
    (h : Unmarked begins ends outer) : Outer (outer ++ new) outer := by
  have hnone : Unmarked begins ends ([] : List String) := by simp [Unmarked]
  have haround : Outer (outer ++ new ++ []) (outer ++ []) := outer_around hnew h hnone
  rwa [List.append_nil, List.append_nil] at haround

/-- A call leaves the lines outside the section, worn, and clearing leaves nothing else. -/
theorem rewrites_outer {new lines lines' outer : List String} {changed : Bool}
    (hnew : new = [] ∨ IsSection begins ends new) (h : Rewrites new lines changed lines')
    (houter : Outer lines outer) :
    ∃ outer', Worn outer outer' ∧ Outer lines' outer' ∧ (new = [] → lines' = outer') := by
  obtain ⟨before, oldSection, after, htidy, rfl⟩ := houter
  cases htidy with
  | unmarked hunmarked =>
    rw [List.append_nil]
    obtain rfl := rewrites_unmarked h hunmarked
    have hfront := unmarked_chomp.mpr (padded_unmarked hunmarked)
    exact ⟨_, .afterPad .same, outer_append hnew hfront, by simp +contextual⟩
  | section' hbefore hold hafter =>
    have hsection := hold.sectioned (isEnd_of_isBegin HOSTS_TAG) hbefore after
    rcases rewrites_sectioned h hsection with ⟨rfl, rfl⟩ | rfl
    · exact ⟨_, .same, outer_around hnew hbefore hafter, fun hempty => absurd hempty hold.ne_nil⟩
    · refine ⟨_, .afterChomp .same, ?_, ?_⟩
      · rw [List.map_append]
        exact outer_around hnew (unmarked_chomp.mpr hbefore) (unmarked_chomp.mpr hafter)
      · rintro rfl
        simp

theorem Worn.trans {a b c : List String} (hab : Worn a b) (hbc : Worn b c) : Worn a c := by
  induction hbc with
  | same => exact hab
  | afterChomp _ ih => exact .afterChomp ih
  | afterPad _ ih => exact .afterPad ih

theorem synced_outer {news : List (List String)} {lines last outer : List String}
    (h : Synced news lines last) (houter : Outer lines outer) :
    ∃ outer', Worn outer outer' ∧ Outer last outer' := by
  induction h generalizing outer with
  | done => exact ⟨outer, .same, houter⟩
  | call hnew hrewrites _ ih =>
    obtain ⟨next, hworn, hnext, -⟩ := rewrites_outer hnew hrewrites houter
    obtain ⟨outer', hworn', houter'⟩ := ih hnext
    exact ⟨outer', hworn.trans hworn', houter'⟩

theorem rewrites_hasAdjacent {new lines lines' : List String} {changed : Bool}
    (hnew : new = [] ∨ IsSection begins ends new) (h : Rewrites new lines changed lines')
    (hadjacent : HasAdjacent begins ends lines) :
    HasAdjacent begins ends lines' ∧ lines'.length = lines.length + new.length ∧
      (new = [] → lines' = lines) := by
  have hdisjoint := isEnd_of_isBegin HOSTS_TAG
  cases h with
  | kept h =>
    rcases h with ⟨_, _, h⟩ | ⟨rfl, -⟩
    · exact absurd hadjacent (h.not_hasAdjacent hdisjoint)
    · exact ⟨hadjacent, rfl, fun _ => rfl⟩
  | replaced h => exact absurd hadjacent (h.not_hasAdjacent hdisjoint)
  | created h => exact absurd hadjacent h.not_hasAdjacent
  | between h hne =>
    refine ⟨⟨_, _, (h.map begins_chomp ends_chomp).insert (hnew.resolve_left hne)⟩, ?_, ?_⟩
    · rw [h.split]
      simp only [List.length_append, List.length_map]
      omega
    · exact fun hempty => absurd hempty hne

theorem synced_hasAdjacent {news : List (List String)} {lines last : List String}
    (h : Synced news lines last) (hadjacent : HasAdjacent begins ends lines) :
    HasAdjacent begins ends last ∧ lines.length ≤ last.length ∧
      (last = lines ↔ ∀ new ∈ news, new = []) := by
  induction h with
  | done => exact ⟨hadjacent, le_rfl, by simp⟩
  | @call new lines lines' last _ _ hnew hrewrites _ ih =>
    obtain ⟨hadjacent', hlen, hsame⟩ := rewrites_hasAdjacent hnew hrewrites hadjacent
    obtain ⟨hlast, hle, hiff⟩ := ih hadjacent'
    refine ⟨hlast, by omega, ?_⟩
    rw [List.forall_mem_cons]
    by_cases hempty : new = []
    · rw [and_iff_right hempty, ← hiff, hsame hempty]
    · have hpos := List.length_pos_of_ne_nil hempty
      refine iff_of_false (fun heq => ?_) (fun hall => hempty hall.1)
      rw [heq] at hle
      omega

/-- A file without markers gets its lines back exactly if none of them is ever padded or
chomped. -/
theorem cleared_unmarked_iff {new lines mid last : List String} {news : List (List String)}
    {changed : Bool} (hunmarked : Unmarked begins ends lines)
    (hsync : Synced (new :: news) lines mid) (hclear : Rewrites [] mid changed last) :
    last = lines ↔ EndsBlank lines ∧ Plain lines := by
  cases hsync with
  | call hnew hrewrites hrest =>
    obtain rfl := rewrites_unmarked hrewrites hunmarked
    have hfirst := outer_append hnew (unmarked_chomp.mpr (padded_unmarked hunmarked))
    obtain ⟨outer, hworn, houter⟩ := synced_outer hrest hfirst
    obtain ⟨outer', hworn', -, hlast⟩ := rewrites_outer (.inl rfl) hclear houter
    obtain rfl := hlast rfl
    have htotal := hworn.trans hworn'
    constructor
    · intro hsame
      obtain ⟨hlen, hsize⟩ := htotal.grows
      rw [hsame, List.length_map] at hlen
      rw [hsame] at hsize
      have hblank : EndsBlank lines := by
        rcases padded_cases lines with ⟨-, hblank⟩ | ⟨hpadded, -⟩
        · exact hblank
        · rw [hpadded, List.length_append, List.length_singleton] at hlen
          omega
      rw [padded_eq_iff.mpr hblank] at hsize
      exact ⟨hblank, plain_of_size_le hsize⟩
    · rintro ⟨hblank, hplain⟩
      exact ((Worn.same.afterPad).trans htotal).eq_of_stable hblank hplain

theorem rewrites_hasAdjacent_of_marked {new lines lines' : List String} {changed : Bool}
    (h : Rewrites new lines changed lines') (hnone : ¬HasSection begins ends lines)
    (hmarked : ¬Unmarked begins ends lines) : HasAdjacent begins ends lines := by
  cases h with
  | kept h =>
    rcases h with ⟨_, _, h⟩ | ⟨-, h⟩
    · exact absurd h.hasSection hnone
    · exact h
  | replaced h => exact absurd h.hasSection hnone
  | created h => exact absurd h hmarked
  | between h => exact ⟨_, _, h⟩

/-- A clearing behind syncs gives a file without a section its lines back if it has no markers,
ends with a blank line and no line ends in a carriage return; or if its markers are adjacent and
no sync had an entry to write. -/
theorem clear_restores_iff {windows : Bool} {calls : List SyncCall} {readings : HostsReadings}
    {writes : WriteReadings} {content synced last : List UInt8} {lines : List String}
    {changed : Bool} (hcalls : calls ≠ []) (hlines : readLines content = some lines)
    (hnone : ¬HasSection begins ends lines)
    (hsync : syncAll windows calls content = some synced)
    (hclear : clearManagedHosts windows readings writes synced = (.ok changed, last)) :
    readLines last = some lines ↔
      Unmarked begins ends lines ∧ EndsBlank lines ∧ Plain lines ∨
        HasAdjacent begins ends lines ∧
          ∀ call ∈ calls, call.builder.hostnameMap.isEmpty = true := by
  obtain ⟨mid, hmid, hsynced⟩ := syncAll_synced hsync hlines
  obtain ⟨found, lines', hfound, hlines', hrewrites, -⟩ :=
    writeTo_rewrites rfl (HostsBuilder.new_clean HOSTS_TAG) hclear
  obtain rfl := Option.some.inj (hmid.symm.trans hfound)
  have hempty : (HostsBuilder.new HOSTS_TAG).linesToInsert windows = [] := rfl
  rw [hempty] at hrewrites
  rw [hlines', Option.some.injEq]
  by_cases hunmarked : Unmarked begins ends lines
  · obtain ⟨call, rest, rfl⟩ := List.exists_cons_of_ne_nil hcalls
    rw [cleared_unmarked_iff hunmarked hsynced hrewrites]
    simp [hunmarked, hunmarked.not_hasAdjacent]
  · have hadjacent : HasAdjacent begins ends lines := by
      obtain ⟨call, rest, rfl⟩ := List.exists_cons_of_ne_nil hcalls
      cases hsynced with
      | call _ hfirst _ => exact rewrites_hasAdjacent_of_marked hfirst hnone hunmarked
    obtain ⟨hadjacentMid, -, hiff⟩ := synced_hasAdjacent hsynced hadjacent
    have hlast := (rewrites_hasAdjacent (.inl rfl) hrewrites hadjacentMid).2.2 rfl
    rw [hlast, hiff]
    simp [hunmarked, hadjacent, HostsBuilder.linesToInsert_eq_nil_iff]

namespace Sample

def syncCall (nodes : List Node) : SyncCall := ⟨etcHosts, swapped, here, nodes, none⟩

theorem clear_restores_iff_blank : readLines blankHosts = some ["127.0.0.1 localhost", ""] := by
  have hlines : readLines blankHosts = some ["127.0.0.1 localhost", ""] := by decide
  have hunmarked : Unmarked begins ends ["127.0.0.1 localhost", ""] := by decide
  have hnone : ¬HasSection begins ends ["127.0.0.1 localhost", ""] := by
    rintro ⟨b, e, hb, -, hsub⟩
    have hmem := hsub.subset List.mem_cons_self
    rw [(hunmarked b hmem).1] at hb
    contradiction
  have hsync : syncAll false [syncCall [alpha], syncCall [], syncCall [alpha]] blankHosts =
      some syncedHosts := by decide +kernel
  exact (clear_restores_iff (by simp) hlines hnone hsync alpha_cleared).mpr
    (.inl ⟨hunmarked, .inr rfl, by decide⟩)

/-- The blank line a first sync adds is still there behind the clearing. -/
theorem clear_leaves_blank :
    syncAll false [syncCall [alpha]] plainHosts = some syncedHosts ∧
      clearManagedHosts false etcHosts swapped syncedHosts = (.ok true, blankHosts) ∧
      readLines blankHosts ≠ readLines plainHosts := by
  refine ⟨?_, alpha_cleared, by decide⟩
  rw [syncAll, syncCall, alpha_synced]
  rfl

end Sample
end P2pDdns
