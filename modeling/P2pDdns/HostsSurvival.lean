import P2pDdns.Hosts

/-!
Which hosts files a call comes back from, and what it does about markers that belong to
no section.
-/

set_option autoImplicit false

namespace P2pDdns
open Std TextLines MarkedSections

theorem writeContents_ne_panicked (writes : WriteReadings) (content new : List UInt8) :
    (writeContents writes content new).1 ≠ .panicked := by
  unfold writeContents
  split
  · simp
  · cases writes.clobber <;> simp

/-! Files no call comes to grief over. -/

/-- The call comes back. On a file with markers but no section it reports an error and leaves
the file as it is. -/
structure Survives (content : List UInt8) (result : Returned Bool × List UInt8) : Prop where
  returns : result.1 ≠ .panicked
  refuses : ∀ lines, readLines content = some lines → ¬Unmarked begins ends lines →
    ¬HasSection begins ends lines → (∃ e, result.1 = .err e) ∧ result.2 = content

/-- If there are markers of both kinds, the first that begins a section is before the first
that ends one, or right behind it with a section later on. -/
def InOrder (lines : List String) : Prop :=
  ∀ b e, lines.findIdx? begins = some b → lines.findIdx? ends = some e →
    b < e ∨ b = e + 1 ∧ HasSection begins ends lines

/-- The call ends before it reads the file, or the file can be read and is in order. -/
def Survivable (readings : HostsReadings) (content : List UInt8) : Prop :=
  readings.Refused ∨
    readings.Passed ∧ ∃ lines, readLines content = some lines ∧ InOrder lines

section Survival
variable {builder : HostsBuilder} {windows : Bool} {readings : HostsReadings}
  {content : List UInt8} {lines : List String}

theorem writeTo_panics_iff {writes : WriteReadings} (h : readHosts readings content = .ok lines) :
    (builder.writeTo windows readings writes content).1 = .panicked ↔
      builder.rewrite windows readings.path lines = .panicked := by
  rw [HostsBuilder.writeTo_eq h]
  cases builder.rewrite windows readings.path lines with
  | err e => simp
  | panicked => simp
  | ok new =>
    cases new with
    | none => simp
    | some new => simpa using writeContents_ne_panicked writes content (writeLines new)

theorem inOrder_of_sectioned {before oldSection after : List String}
    (h : Sectioned begins ends lines before oldSection after) : InOrder lines := by
  intro b e hb he
  obtain ⟨first, mid, last, rfl, -⟩ := h.bounds
  rw [h.indices.1, Option.some.injEq] at hb
  rw [h.indices.2, Option.some.injEq] at he
  simp only [List.length_cons, List.length_append] at he
  exact .inl (by omega)

theorem inOrder_iff_of_adjacent {before after : List String}
    (h : Adjacent begins ends lines before after) :
    InOrder lines ↔ HasSection begins ends lines := by
  obtain ⟨k, -, hend, hbegin⟩ := h.indices (isEnd_of_isBegin HOSTS_TAG)
  constructor
  · intro horder
    rcases horder (k+1) k hbegin hend with hlt | ⟨-, hsection⟩
    · omega
    · exact hsection
  · intro hsection b e hb he
    rw [hbegin, Option.some.injEq] at hb
    rw [hend, Option.some.injEq] at he
    exact .inr ⟨by omega, hsection⟩

theorem writeTo_adjacent_ok (htag : builder.tag = HOSTS_TAG)
    (h : readHosts readings content = .ok lines) {before after : List String}
    (hadjacent : Adjacent begins ends lines before after) {writes : WriteReadings}
    (hwrites : writes.swapped = true) :
    ∃ changed, (builder.writeTo windows readings writes content).1 = .ok changed := by
  rw [HostsBuilder.writeTo_eq h, HostsBuilder.rewrite_adjacent htag hadjacent]
  by_cases hempty : [] = builder.linesToInsert windows
  · rw [if_pos hempty]
    exact ⟨false, rfl⟩
  · rw [if_neg hempty]
    exact ⟨true, by simp [writeContents, hwrites]⟩

theorem survives_of_returns {result : Returned Bool × List UInt8}
    (hread : readLines content = some lines)
    (hlayout : Unmarked begins ends lines ∨ HasSection begins ends lines)
    (hreturns : result.1 ≠ .panicked) : Survives content result := by
  refine ⟨hreturns, fun found hfound hmarked hnone => ?_⟩
  obtain rfl := Option.some.inj (hread.symm.trans hfound)
  rcases hlayout with hunmarked | hsection
  · exact absurd hunmarked hmarked
  · exact absurd hsection hnone

theorem survives_unmarked (htag : builder.tag = HOSTS_TAG)
    (h : readHosts readings content = .ok lines) (hunmarked : Unmarked begins ends lines)
    (writes : WriteReadings) :
    Survives content (builder.writeTo windows readings writes content) := by
  refine survives_of_returns (readHosts_eq_ok_iff.mp h).2 (.inl hunmarked) ?_
  rw [ne_eq, writeTo_panics_iff h, HostsBuilder.rewrite_unmarked htag hunmarked]
  simp

theorem survives_sectioned (htag : builder.tag = HOSTS_TAG)
    (h : readHosts readings content = .ok lines) {before oldSection after : List String}
    (hsection : Sectioned begins ends lines before oldSection after) (writes : WriteReadings) :
    Survives content (builder.writeTo windows readings writes content) := by
  refine survives_of_returns (readHosts_eq_ok_iff.mp h).2 (.inr hsection.hasSection) ?_
  rw [ne_eq, writeTo_panics_iff h, HostsBuilder.rewrite_sectioned htag hsection]
  split <;> simp

theorem survives_adjacent_iff (htag : builder.tag = HOSTS_TAG)
    (h : readHosts readings content = .ok lines) {before after : List String}
    (hadjacent : Adjacent begins ends lines before after) :
    (∀ writes, Survives content (builder.writeTo windows readings writes content)) ↔
      HasSection begins ends lines := by
  have hread := (readHosts_eq_ok_iff.mp h).2
  constructor
  · intro hsurvives
    by_contra hnone
    have hmarked : ¬Unmarked begins ends lines := fun hunmarked =>
      hunmarked.not_hasAdjacent ⟨before, after, hadjacent⟩
    obtain ⟨changed, hok⟩ :
        ∃ changed, (builder.writeTo windows readings ⟨true, .written⟩ content).1 = .ok changed :=
      writeTo_adjacent_ok htag h hadjacent rfl
    obtain ⟨⟨e, herr⟩, -⟩ := (hsurvives _).refuses lines hread hmarked hnone
    rw [hok] at herr
    contradiction
  · intro hsection writes
    refine survives_of_returns hread (.inr hsection) ?_
    rw [ne_eq, writeTo_panics_iff h, HostsBuilder.rewrite_adjacent htag hadjacent]
    split <;> simp

theorem not_survives_reversed (htag : builder.tag = HOSTS_TAG)
    (h : readHosts readings content = .ok lines) (hreversed : Reversed begins ends lines)
    (writes : WriteReadings) :
    ¬Survives content (builder.writeTo windows readings writes content) := by
  intro hsurvives
  refine hsurvives.returns ?_
  rw [writeTo_panics_iff h, HostsBuilder.rewrite_reversed htag hreversed]

theorem survives_lone (htag : builder.tag = HOSTS_TAG)
    (h : readHosts readings content = .ok lines) (hlone : Lone begins ends lines)
    (writes : WriteReadings) :
    Survives content (builder.writeTo windows readings writes content) := by
  rw [HostsBuilder.writeTo_eq h, HostsBuilder.rewrite_lone htag hlone]
  exact ⟨by simp, fun _ _ _ _ => ⟨⟨_, rfl⟩, rfl⟩⟩

theorem survives_lines_iff (htag : builder.tag = HOSTS_TAG)
    (h : readHosts readings content = .ok lines) :
    (∀ writes, Survives content (builder.writeTo windows readings writes content)) ↔
      InOrder lines := by
  rcases layout_cases (isEnd_of_isBegin HOSTS_TAG) lines with
    hunmarked | ⟨before, oldSection, after, hsection⟩ | ⟨before, after, hadjacent⟩ | hreversed | hlone
  · refine iff_of_true (survives_unmarked htag h hunmarked) ?_
    intro b e hb _
    simp [hunmarked.indices.1] at hb
  · exact iff_of_true (survives_sectioned htag h hsection) (inOrder_of_sectioned hsection)
  · rw [survives_adjacent_iff htag h hadjacent, inOrder_iff_of_adjacent hadjacent]
  · refine iff_of_false
      (fun hsurvives => not_survives_reversed htag h hreversed ⟨true, .written⟩ (hsurvives _)) ?_
    intro horder
    obtain ⟨b, e, hb, he, hlt⟩ := hreversed
    rcases horder b e hb he with hbefore | ⟨hbehind, -⟩ <;> omega
  · refine iff_of_true (survives_lone htag h hlone) ?_
    intro b e hb he
    rcases hlone with ⟨-, hnone⟩ | ⟨hnone, -⟩
    · simp [hnone] at he
    · simp [hnone] at hb

theorem survives_iff (htag : builder.tag = HOSTS_TAG) :
    (∀ writes, Survives content (builder.writeTo windows readings writes content)) ↔
      Survivable readings content := by
  by_cases hrefused : readings.Refused
  · obtain ⟨e, he⟩ := @readHosts_refused readings content hrefused
    refine iff_of_true (fun writes => ?_) (.inl hrefused)
    rw [HostsBuilder.writeTo, he]
    exact ⟨by simp, fun _ _ _ _ => ⟨⟨e, rfl⟩, rfl⟩⟩
  · have hpanics (hread : readHosts readings content = .panicked) :
        ¬∀ writes, Survives content (builder.writeTo windows readings writes content) := by
      intro hsurvives
      refine (hsurvives ⟨true, .written⟩).returns ?_
      rw [HostsBuilder.writeTo, hread]
    by_cases hpassed : readings.Passed
    · cases hread : readLines content with
      | none =>
        have hreadHosts := @readHosts_passed readings content hpassed
        rw [hread] at hreadHosts
        refine iff_of_false (hpanics hreadHosts) ?_
        rintro (hrefused' | ⟨-, lines, hlines, -⟩)
        · exact hrefused hrefused'
        · rw [hread] at hlines
          contradiction
      | some lines =>
        rw [survives_lines_iff htag (readHosts_eq_ok_iff.mpr ⟨hpassed, hread⟩)]
        simp [Survivable, hrefused, hpassed, hread]
    · refine iff_of_false (hpanics (readHosts_failed hrefused hpassed)) ?_
      rintro (hrefused' | ⟨hpassed', -⟩)
      · exact hrefused hrefused'
      · exact hpassed hpassed'

/-- A sync and a clearing survive a file if the path is refused beforehand, or the file is UTF-8
and its markers are in order. -/
theorem hosts_calls_survive_iff (windows : Bool) (readings : HostsReadings) (here : EndpointAddr)
    (nodes : List Node) (suffix : Option String) (content : List UInt8) :
    ((∀ writes, Survives content
        (syncNodesToHosts windows readings writes here nodes suffix content)) ↔
      Survivable readings content) ∧
    ((∀ writes, Survives content (clearManagedHosts windows readings writes content)) ↔
      Survivable readings content) :=
  ⟨survives_iff (nodesBuilder_spec here nodes suffix).1, survives_iff rfl⟩

end Survival

/-- Clearing a file whose markers are the wrong way round, a line apart, panics. -/
theorem clear_reversed_panics :
    ¬Survives (writeLines ["# DO NOT EDIT p2p-ddns END", "", "# DO NOT EDIT p2p-ddns BEGIN"])
      (clearManagedHosts false Sample.etcHosts Sample.swapped
        (writeLines ["# DO NOT EDIT p2p-ddns END", "", "# DO NOT EDIT p2p-ddns BEGIN"])) := by
  intro h
  exact h.returns (by decide)

end P2pDdns
