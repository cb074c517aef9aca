import P2pDdns.Hosts

/-!
What a successful call does to the lines of the hosts file: the managed section in place of
the old one, between the lines around it as they are read back.
-/

set_option autoImplicit false

namespace P2pDdns
open Std TextLines MarkedSections

def WriteReadings.Succeeded (writes : WriteReadings) : Prop :=
  writes.swapped = true ∨ writes.clobber = .written

def Kept (new lines : List String) : Prop :=
  (∃ before after, Sectioned begins ends lines before new after) ∨
    new = [] ∧ HasAdjacent begins ends lines

/-- From lines to lines by a call that succeeds, and whether it writes the file. -/
inductive Rewrites (new : List String) : List String → Bool → List String → Prop where
  | kept {lines : List String} : Kept new lines → Rewrites new lines false lines
  | replaced {lines before oldSection after : List String} :
      Sectioned begins ends lines before oldSection after → oldSection ≠ new →
      Rewrites new lines true (before.map chomp ++ new ++ after.map chomp)
  | created {lines : List String} : Unmarked begins ends lines →
      Rewrites new lines true ((padded lines).map chomp ++ new)
  | between {lines before after : List String} : Adjacent begins ends lines before after →
      new ≠ [] → Rewrites new lines true (before.map chomp ++ new ++ after.map chomp)

theorem begins_chomp (line : String) : begins (chomp line) = begins line := by
  rw [begins, isBegin, isBegin, trim_chomp]

theorem ends_chomp (line : String) : ends (chomp line) = ends line := by
  rw [ends, isEnd, isEnd, trim_chomp]

theorem unmarked_chomp {lines : List String} :
    Unmarked begins ends (lines.map chomp) ↔ Unmarked begins ends lines :=
  unmarked_map begins_chomp ends_chomp

theorem hasAdjacent_chomp {lines : List String} :
    HasAdjacent begins ends (lines.map chomp) ↔ HasAdjacent begins ends lines :=
  hasAdjacent_map (isEnd_of_isBegin HOSTS_TAG) begins_chomp ends_chomp

/-! The section of a builder. -/

theorem not_marker_of_head {line : String} {c : Char} (hc : c ≠ '#')
    (h : (trim line).toList.head? = some c) : begins line = false ∧ ends line = false := by
  have hne : ∀ marker : String, marker.toList.head? = some '#' → trim line ≠ marker := by
    rintro marker hmarker rfl
    exact hc (Option.some.inj (h.symm.trans hmarker))
  exact ⟨decide_eq_false (hne _ (by decide)), decide_eq_false (hne _ (by decide))⟩

section Builder
variable {builder : HostsBuilder} {windows : Bool}

theorem linesToInsert_isSection (htag : builder.tag = HOSTS_TAG) :
    builder.linesToInsert windows = [] ∨
      IsSection begins ends (builder.linesToInsert windows) := by
  rcases builder.linesToInsert_eq windows with ⟨hlines, -⟩ | ⟨hlines, -⟩
  · exact .inl hlines
  · refine .inr ⟨_, _, _, hlines, ?_, ?_, fun line hline => ?_⟩
    · rw [htag]
      decide
    · rw [htag]
      decide
    · obtain ⟨c, hc, hhead⟩ := HostsBuilder.entries_head hline
      exact not_marker_of_head (addressChar_spec hc).2.1 hhead

theorem linesToInsert_oneLine (htag : builder.tag = HOSTS_TAG) (hclean : builder.Clean) :
    ∀ line ∈ builder.linesToInsert windows, OneLine line := by
  rcases builder.linesToInsert_eq windows with ⟨hlines, -⟩ | ⟨hlines, -⟩
  · simp [hlines]
  · rw [hlines, htag]
    exact List.forall_mem_cons.mpr ⟨by decide, List.forall_mem_append.mpr
      ⟨HostsBuilder.entries_oneLine hclean, List.forall_mem_singleton.mpr (by decide)⟩⟩

/-! The lines a call leaves. -/

variable {readings : HostsReadings} {writes : WriteReadings} {content content' : List UInt8}
  {changed : Bool}

theorem writeContents_ok {new : List UInt8}
    (h : writeContents writes content new = (.ok changed, content')) :
    changed = true ∧ content' = new := by
  unfold writeContents at h
  split at h
  · simpa [eq_comm] using h
  · cases hclobber : writes.clobber <;> simp_all

theorem writeContents_succeeded (h : writes.Succeeded) (content new : List UInt8) :
    writeContents writes content new = (.ok true, new) := by
  rcases h with hswapped | hclobber
  · simp [writeContents, hswapped]
  · simp [writeContents, hclobber]

def EndsBlank (lines : List String) : Prop := lines = [] ∨ lines.getLast? = some ""

theorem padded_cases (lines : List String) :
    padded lines = lines ∧ EndsBlank lines ∨ padded lines = lines ++ [""] ∧ ¬EndsBlank lines := by
  unfold padded EndsBlank
  cases hlast : lines.getLast? with
  | none =>
    rw [List.getLast?_eq_none_iff] at hlast
    exact .inl ⟨by simp, .inl hlast⟩
  | some last =>
    have hne : lines ≠ [] := by
      rintro rfl
      simp at hlast
    by_cases hblank : last = ""
    · exact .inl ⟨by simp [hblank], .inr (by rw [hblank])⟩
    · exact .inr ⟨by simp [hblank], by simp [hne, hblank]⟩

theorem padded_unmarked {lines : List String} (h : Unmarked begins ends lines) :
    Unmarked begins ends (padded lines) := by
  rcases padded_cases lines with ⟨hpadded, -⟩ | ⟨hpadded, -⟩
  · rwa [hpadded]
  · rw [hpadded, unmarked_append]
    exact ⟨h, List.forall_mem_singleton.mpr (by decide)⟩

theorem padded_isLine {lines : List String} (h : ∀ line ∈ lines, IsLine line) :
    ∀ line ∈ padded lines, IsLine line := by
  rcases padded_cases lines with ⟨hpadded, -⟩ | ⟨hpadded, -⟩
  · rwa [hpadded]
  · rw [hpadded]
    exact List.forall_mem_append.mpr ⟨h, List.forall_mem_singleton.mpr List.not_mem_nil⟩

theorem readLines_around {before new after : List String} (hbefore : ∀ line ∈ before, IsLine line)
    (hnew : ∀ line ∈ new, OneLine line) (hafter : ∀ line ∈ after, IsLine line) :
    readLines (writeLines (before ++ new ++ after)) =
      some (before.map chomp ++ new ++ after.map chomp) := by
  have hlines : ∀ line ∈ before ++ new ++ after, IsLine line :=
    List.forall_mem_append.mpr ⟨List.forall_mem_append.mpr
      ⟨hbefore, fun line hline => (hnew line hline).isLine⟩, hafter⟩
  have hkept : new.map chomp = new :=
    map_chomp_eq_iff.mpr fun line hline => (hnew line hline).chomp
  rw [readLines_writeLines hlines, List.map_append, List.map_append, hkept]

theorem rewrite_of_kept (htag : builder.tag = HOSTS_TAG) {path : String} {lines : List String}
    (h : Kept (builder.linesToInsert windows) lines) :
    builder.rewrite windows path lines = .ok none := by
  rcases h with ⟨before, after, h⟩ | ⟨hempty, before, after, h⟩
  · rw [HostsBuilder.rewrite_sectioned htag h, if_pos rfl]
  · rw [HostsBuilder.rewrite_adjacent htag h, if_pos hempty.symm]

theorem rewrites_of_rewrite (htag : builder.tag = HOSTS_TAG) (hclean : builder.Clean)
    {path : String} {lines : List String} {outcome : Option (List String)}
    (hread : ∀ line ∈ lines, IsLine line)
    (h : builder.rewrite windows path lines = .ok outcome) :
    outcome = none ∧ Kept (builder.linesToInsert windows) lines ∨
      ∃ new lines', outcome = some new ∧ readLines (writeLines new) = some lines' ∧
        Rewrites (builder.linesToInsert windows) lines true lines' := by
  have hnew : ∀ line ∈ builder.linesToInsert windows, OneLine line :=
    linesToInsert_oneLine htag hclean
  rcases layout_cases (isEnd_of_isBegin HOSTS_TAG) lines with
    hunmarked | ⟨before, oldSection, after, hsection⟩ | ⟨before, after, hadjacent⟩ | hreversed | hlone
  · rw [HostsBuilder.rewrite_unmarked htag hunmarked] at h
    obtain rfl := Returned.ok.inj h
    refine .inr ⟨_, _, rfl, ?_, .created hunmarked⟩
    have hnone : ∀ line ∈ ([] : List String), IsLine line := by simp
    simpa using readLines_around (padded_isLine hread) hnew hnone
  · rw [HostsBuilder.rewrite_sectioned htag hsection] at h
    rw [hsection.split] at hread
    obtain ⟨hhead, hafter⟩ := List.forall_mem_append.mp hread
    obtain ⟨hbefore, -⟩ := List.forall_mem_append.mp hhead
    split at h
    · rename_i hsame
      exact .inl ⟨(Returned.ok.inj h).symm, .inl ⟨before, after, hsame ▸ hsection⟩⟩
    · rename_i hne
      obtain rfl := Returned.ok.inj h
      exact .inr ⟨_, _, rfl, readLines_around hbefore hnew hafter, .replaced hsection hne⟩
  · rw [HostsBuilder.rewrite_adjacent htag hadjacent] at h
    rw [hadjacent.split] at hread
    obtain ⟨hbefore, hafter⟩ := List.forall_mem_append.mp hread
    split at h
    · rename_i hempty
      exact .inl ⟨(Returned.ok.inj h).symm, .inr ⟨hempty.symm, before, after, hadjacent⟩⟩
    · rename_i hne
      obtain rfl := Returned.ok.inj h
      exact .inr ⟨_, _, rfl, readLines_around hbefore hnew hafter,
        .between hadjacent (Ne.symm hne)⟩
  · rw [HostsBuilder.rewrite_reversed htag hreversed] at h
    contradiction
  · rw [HostsBuilder.rewrite_lone htag hlone] at h
    contradiction

theorem writeTo_passed
    (h : builder.writeTo windows readings writes content = (.ok changed, content')) :
    readings.Passed := by
  cases hread : readHosts readings content with
  | err e => simp [HostsBuilder.writeTo, hread] at h
  | panicked => simp [HostsBuilder.writeTo, hread] at h
  | ok lines => exact (readHosts_eq_ok_iff.mp hread).1

/-- A call that succeeds leaves the file as it is, or rewrites its lines. -/
theorem writeTo_rewrites (htag : builder.tag = HOSTS_TAG) (hclean : builder.Clean)
    (h : builder.writeTo windows readings writes content = (.ok changed, content')) :
    ∃ lines lines', readLines content = some lines ∧ readLines content' = some lines' ∧
      Rewrites (builder.linesToInsert windows) lines changed lines' ∧
      (changed = false → content' = content) := by
  cases hread : readHosts readings content with
  | err e => simp [HostsBuilder.writeTo, hread] at h
  | panicked => simp [HostsBuilder.writeTo, hread] at h
  | ok lines =>
    have hlines := (readHosts_eq_ok_iff.mp hread).2
    rw [HostsBuilder.writeTo_eq hread] at h
    cases hrewrite : builder.rewrite windows readings.path lines with
    | err e => simp [hrewrite] at h
    | panicked => simp [hrewrite] at h
    | ok outcome =>
      rw [hrewrite] at h
      rcases rewrites_of_rewrite htag hclean (isLine_of_readLines hlines) hrewrite with
        ⟨rfl, hkept⟩ | ⟨new, lines', rfl, hnew, hrewrites⟩
      · obtain ⟨hchanged, rfl⟩ := Prod.mk.inj h
        obtain rfl := Returned.ok.inj hchanged
        exact ⟨lines, lines, hlines, hlines, .kept hkept, fun _ => rfl⟩
      · obtain ⟨rfl, rfl⟩ := writeContents_ok h
        exact ⟨lines, lines', hlines, hnew, hrewrites, by simp⟩

theorem writeTo_ok (hpassed : readings.Passed) (hwrites : writes.Succeeded) {lines : List String}
    (hread : readLines content = some lines) {outcome : Option (List String)}
    (h : builder.rewrite windows readings.path lines = .ok outcome) :
    ∃ changed content', builder.writeTo windows readings writes content = (.ok changed, content') := by
  rw [HostsBuilder.writeTo_eq (readHosts_eq_ok_iff.mpr ⟨hpassed, hread⟩), h]
  cases outcome with
  | none => exact ⟨false, content, rfl⟩
  | some new => exact ⟨true, writeLines new, writeContents_succeeded hwrites content _⟩

/-! The managed section in place of the old one. -/

/-- A sync puts its section in place of the old one, a new one behind all lines and at most a
blank one. The other lines stay as they are and where they are, and the file is written unless
it has that section already. -/
def OnlySectionReplaced (content : List UInt8) (before oldSection after new : List String)
    (result : Returned Bool × List UInt8) : Prop :=
  ∃ changed content' lines' outside blank behind,
    result = (.ok changed, content') ∧ readLines content' = some lines' ∧
      Tidy begins ends lines' (outside ++ blank) new behind ∧
      outside ++ behind = before ++ after ∧ (blank = [] ∨ blank = [""]) ∧
      (oldSection ≠ [] → outside = before ∧ blank = []) ∧
      (changed = false ↔ oldSection = new) ∧ (changed = false → content' = content)

theorem tidy_sectioned {lines before section' after : List String}
    (h : Tidy begins ends lines before section' after) (hne : section' ≠ []) :
    Sectioned begins ends lines before section' after := by
  cases h with
  | unmarked h => exact absurd rfl hne
  | section' hbefore hsection hafter =>
    exact hsection.sectioned (isEnd_of_isBegin HOSTS_TAG) hbefore after

section Replacement
variable {before oldSection after new blank : List String}

theorem onlySectionReplaced_iff_plain (hnew : IsSection begins ends new) (hne : oldSection ≠ new)
    (hbefore : Unmarked begins ends before) (hafter : Unmarked begins ends after)
    (hblank : blank = [] ∨ oldSection = [] ∧ blank = [""])
    (hread : readLines content' = some ((before ++ blank).map chomp ++ new ++ after.map chomp)) :
    OnlySectionReplaced content before oldSection after new (.ok true, content') ↔
      Plain (before ++ after) := by
  have hplainBlank : blank.map chomp = blank := by
    rcases hblank with rfl | ⟨-, rfl⟩ <;> rfl
  have hunmarkedBlank : Unmarked begins ends blank := by
    rcases hblank with rfl | ⟨-, rfl⟩
    · simp [Unmarked]
    · exact List.forall_mem_singleton.mpr (by decide)
  have hfront : Unmarked begins ends ((before ++ blank).map chomp) := by
    rw [unmarked_chomp, unmarked_append]
    exact ⟨hbefore, hunmarkedBlank⟩
  constructor
  · rintro ⟨changed, found, lines', outside, blank', behind, hresult, hlines, htidy, houtside, -⟩
    obtain ⟨-, rfl⟩ := Prod.mk.inj hresult
    obtain rfl := Option.some.inj (hread.symm.trans hlines)
    have hactual := hnew.sectioned (isEnd_of_isBegin HOSTS_TAG) hfront (after.map chomp)
    obtain ⟨hfrontEq, -, hbehind⟩ := hactual.unique (tidy_sectioned htidy hnew.ne_nil)
    obtain ⟨rfl, hafterEq⟩ := List.append_inj' houtside (by simp [hbehind])
    rw [List.map_append] at hfrontEq
    obtain ⟨hbeforeEq, -⟩ := List.append_inj hfrontEq (by simp)
    rw [plain_append, ← map_chomp_eq_iff, ← map_chomp_eq_iff]
    exact ⟨hbeforeEq.symm, hbehind.symm.trans hafterEq⟩
  · intro hplain
    obtain ⟨hplainBefore, hplainAfter⟩ := plain_append.mp hplain
    rw [List.map_append, map_chomp_eq_iff.mpr hplainBefore, hplainBlank,
      map_chomp_eq_iff.mpr hplainAfter] at hread
    refine ⟨true, content', _, before, blank, after, rfl, hread, .section' ?_ hnew hafter, rfl,
      ?_, ?_, by simp [hne], by simp⟩
    · exact unmarked_append.mpr ⟨hbefore, hunmarkedBlank⟩
    · exact hblank.imp_right And.right
    · intro hold
      exact ⟨rfl, hblank.resolve_right fun h => hold h.1⟩

theorem onlySectionReplaced_iff {lines lines' : List String} (hnew : IsSection begins ends new)
    (htidy : Tidy begins ends lines before oldSection after) (hlines : readLines content = some lines)
    (hlines' : readLines content' = some lines') (hrewrites : Rewrites new lines changed lines')
    (hkept : changed = false → content' = content) :
    OnlySectionReplaced content before oldSection after new (.ok changed, content') ↔
      oldSection = new ∨ Plain (before ++ after) := by
  cases htidy with
  | unmarked hunmarked =>
    have hne : [] ≠ new := Ne.symm hnew.ne_nil
    cases hrewrites with
    | kept h =>
      rcases h with ⟨_, _, h⟩ | ⟨hempty, -⟩
      · exact absurd h hunmarked.not_sectioned
      · exact absurd hempty hnew.ne_nil
    | replaced h => exact absurd h hunmarked.not_sectioned
    | between h => exact absurd ⟨_, _, h⟩ hunmarked.not_hasAdjacent
    | created =>
      have hnone : Unmarked begins ends ([] : List String) := by simp [Unmarked]
      rw [or_iff_right hne]
      rcases padded_cases before with ⟨hpadded, -⟩ | ⟨hpadded, -⟩
      · refine onlySectionReplaced_iff_plain hnew hne hunmarked hnone (.inl rfl) ?_
        simpa [hpadded] using hlines'
      · refine onlySectionReplaced_iff_plain hnew hne hunmarked hnone (.inr ⟨rfl, rfl⟩) ?_
        simpa [hpadded] using hlines'
  | section' hbefore hsection hafter =>
    have hsectioned := hsection.sectioned (isEnd_of_isBegin HOSTS_TAG) hbefore after
    cases hrewrites with
    | kept h =>
      rcases h with ⟨_, _, h⟩ | ⟨hempty, -⟩
      · obtain ⟨-, hsame, -⟩ := hsectioned.unique h
        refine iff_of_true ⟨false, content', _, before, [], after, rfl, hlines', ?_, rfl, .inl rfl,
          fun _ => ⟨rfl, rfl⟩, by simp [hsame], hkept⟩ (.inl hsame.symm)
        rw [List.append_nil, hsame]
        exact .section' hbefore hsection hafter
      · exact absurd hempty hnew.ne_nil
    | replaced h hne =>
      obtain ⟨rfl, rfl, rfl⟩ := hsectioned.unique h
      rw [or_iff_right hne]
      exact onlySectionReplaced_iff_plain hnew hne hbefore hafter (.inl rfl) (by simpa using hlines')
    | created h => exact absurd hsectioned h.not_sectioned
    | between h => exact absurd ⟨_, _, h⟩ (hsectioned.not_hasAdjacent (isEnd_of_isBegin HOSTS_TAG))

/-- On a file without markers or with one section, a call with an entry to write replaces the
section and nothing else exactly if it is there already or no line around it ends in a carriage
return. -/
theorem writeTo_replaces_section_iff (htag : builder.tag = HOSTS_TAG) (hclean : builder.Clean)
    (hpassed : readings.Passed) (hwrites : writes.Succeeded) {lines : List String}
    (hlines : readLines content = some lines)
    (htidy : Tidy begins ends lines before oldSection after)
    (hentries : builder.hostnameMap.isEmpty = false) :
    OnlySectionReplaced content before oldSection after (builder.linesToInsert windows)
        (builder.writeTo windows readings writes content) ↔
      oldSection = builder.linesToInsert windows ∨ Plain (before ++ after) := by
  have hnew : IsSection begins ends (builder.linesToInsert windows) := by
    refine (linesToInsert_isSection htag).resolve_left fun hempty => ?_
    rw [HostsBuilder.linesToInsert_eq_nil_iff, hentries] at hempty
    contradiction
  have hrewrite : ∃ outcome, builder.rewrite windows readings.path lines = .ok outcome := by
    cases htidy with
    | unmarked h => exact ⟨_, HostsBuilder.rewrite_unmarked htag h⟩
    | section' hbefore hsection hafter =>
      rw [HostsBuilder.rewrite_sectioned htag
        (hsection.sectioned (isEnd_of_isBegin HOSTS_TAG) hbefore after)]
      split
      · exact ⟨_, rfl⟩
      · exact ⟨_, rfl⟩
  obtain ⟨outcome, hrewrite⟩ := hrewrite
  obtain ⟨changed, content', hresult⟩ := writeTo_ok hpassed hwrites hlines hrewrite
  obtain ⟨found, lines', hfound, hlines', hrewrites, hkept⟩ := writeTo_rewrites htag hclean hresult
  obtain rfl := Option.some.inj (hlines.symm.trans hfound)
  rw [hresult]
  exact onlySectionReplaced_iff hnew htidy hlines hlines' hrewrites hkept

end Replacement
end Builder

theorem sync_replaces_section_iff {windows : Bool} {readings : HostsReadings}
    {writes : WriteReadings} {here : EndpointAddr} {nodes : List Node} {suffix : Option String}
    {content : List UInt8} {lines before oldSection after : List String}
    (hpassed : readings.Passed) (hwrites : writes.Succeeded)
    (hlines : readLines content = some lines)
    (htidy : Tidy begins ends lines before oldSection after)
    (hentries : (nodesBuilder here nodes suffix).hostnameMap.isEmpty = false) :
    OnlySectionReplaced content before oldSection after
        ((nodesBuilder here nodes suffix).linesToInsert windows)
        (syncNodesToHosts windows readings writes here nodes suffix content) ↔
      oldSection = (nodesBuilder here nodes suffix).linesToInsert windows ∨
        Plain (before ++ after) :=
  have hspec := nodesBuilder_spec here nodes suffix
  writeTo_replaces_section_iff hspec.1 hspec.2 hpassed hwrites hlines htidy hentries

namespace Sample

theorem sync_replaces_section_iff_localhost :
    OnlySectionReplaced plainHosts ["127.0.0.1 localhost"] [] []
      ((nodesBuilder here [alpha] none).linesToInsert false)
      (syncNodesToHosts false etcHosts swapped here [alpha] none plainHosts) :=
  (sync_replaces_section_iff etcHosts_passed (.inl rfl) (by decide) (.unmarked (by decide))
    (by decide)).mpr (.inr (by decide))

/-- A line whose ending is two carriage returns and a newline loses the first of them. -/
theorem sync_chomps_line :
    ¬OnlySectionReplaced (writeLines ["10.0.0.9 printer\r\r"]) ["10.0.0.9 printer\r"] [] []
      ((nodesBuilder here [alpha] none).linesToInsert false)
      (syncNodesToHosts false etcHosts swapped here [alpha] none
        (writeLines ["10.0.0.9 printer\r\r"])) := by
  obtain ⟨htag, hclean⟩ := nodesBuilder_spec here [alpha] none
  have hlines : readLines (writeLines ["10.0.0.9 printer\r\r"]) = some ["10.0.0.9 printer\r"] := by
    decide
  have htidy : Tidy begins ends ["10.0.0.9 printer\r"] ["10.0.0.9 printer\r"] [] [] :=
    .unmarked (by decide)
  rw [syncNodesToHosts, writeTo_replaces_section_iff htag hclean etcHosts_passed (.inl rfl) hlines
    htidy (by decide)]
  rintro (hsame | hplain)
  · exact absurd hsame (by decide)
  · exact absurd hplain (by decide)

end Sample
end P2pDdns
