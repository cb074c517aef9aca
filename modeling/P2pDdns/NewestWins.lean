import Mathlib.Data.List.Induction
import Mathlib.Data.Set.Finite.Lemmas

/-!
Replicas that keep, of the records they are offered, the newest one. A record
beats the one held when its stamp is larger; what is then kept may combine both.
-/

set_option autoImplicit false

namespace NewestWins

variable {α β : Type*} [LinearOrder β] (stamp : α → β) (combine : α → α → α)

def absorb (held : Option α) (a : α) : Option α :=
  match held with
  | none => some a
  | some old => if stamp old < stamp a then some (combine old a) else some old

def absorbAll (held : Option α) (offers : List α) : Option α :=
  offers.foldl (absorb stamp combine) held

/-- The record beats whatever is held. -/
def Beats (held : Option α) (a : α) : Prop := ∀ old, held = some old → stamp old < stamp a

/-- Something at least this new is held. -/
def Covers (held : Option α) (b : β) : Prop := ∃ old, held = some old ∧ b ≤ stamp old

variable {stamp combine}

@[simp] theorem absorbAll_cons (held : Option α) (a : α) (offers : List α) :
    absorbAll stamp combine held (a :: offers) =
      absorbAll stamp combine (absorb stamp combine held a) offers := rfl

theorem absorbAll_append (held : Option α) (offers more : List α) :
    absorbAll stamp combine held (offers ++ more) =
      absorbAll stamp combine (absorbAll stamp combine held offers) more :=
  List.foldl_append

theorem absorb_of_covers {held : Option α} {a : α} (h : Covers stamp held (stamp a)) :
    absorb stamp combine held a = held := by
  obtain ⟨old, rfl, hle⟩ := h
  simp [absorb, not_lt.mpr hle]

theorem beats_none (a : α) : Beats stamp none a := fun _ h => nomatch h

theorem beats_or_covers (held : Option α) (a : α) :
    Beats stamp held a ∨ Covers stamp held (stamp a) := by
  cases held with
  | none => exact .inl (beats_none a)
  | some old =>
    rcases lt_or_ge (stamp old) (stamp a) with h | h
    · left
      rintro _ ⟨⟩
      exact h
    · exact .inr ⟨old, rfl, h⟩

theorem lt_of_covers_of_beats {held : Option α} {b : β} {a : α} (hb : Covers stamp held b)
    (ha : Beats stamp held a) : b < stamp a := by
  obtain ⟨old, hold, hle⟩ := hb
  exact hle.trans_lt (ha old hold)

theorem beats_of_covers {held held' : Option α} {a : α}
    (h : ∀ b, Covers stamp held b → Covers stamp held' b) (ha : Beats stamp held' a) :
    Beats stamp held a :=
  fun old hold => lt_of_covers_of_beats (h _ ⟨old, hold, le_rfl⟩) ha

theorem absorbAll_of_covers {held : Option α} {offers : List α}
    (h : ∀ a ∈ offers, Covers stamp held (stamp a)) :
    absorbAll stamp combine held offers = held := by
  induction offers with
  | nil => rfl
  | cons a offers ih =>
    rw [absorbAll_cons, absorb_of_covers (h a List.mem_cons_self)]
    exact ih fun b hb => h b (List.mem_cons_of_mem a hb)

theorem absorbAll_first {offers : List α} (h : offers ≠ []) :
    ∃ a before after, absorbAll stamp (fun _ new => new) none offers = some a ∧
      offers = before ++ a :: after ∧ (∀ b ∈ before, stamp b < stamp a) ∧
      ∀ b ∈ after, stamp b ≤ stamp a := by
  induction offers using List.reverseRecOn with
  | nil => contradiction
  | append_singleton offers b ih =>
    rw [absorbAll_append]
    by_cases hoffers : offers = []
    · subst hoffers
      exact ⟨b, [], [], rfl, rfl, by simp, by simp⟩
    · obtain ⟨a, before, after, ha, rfl, hbefore, hafter⟩ := ih hoffers
      rw [ha]
      by_cases hlt : stamp a < stamp b
      · refine ⟨b, before ++ a :: after, [], by simp [absorbAll, absorb, hlt], rfl, ?_, by simp⟩
        intro c hc
        rcases List.mem_append.mp hc with hc | hc
        · exact (hbefore c hc).trans hlt
        · rcases List.mem_cons.mp hc with rfl | hc
          · exact hlt
          · exact (hafter c hc).trans_lt hlt
      · refine ⟨a, before, after ++ [b], by simp [absorbAll, absorb, hlt], by simp, hbefore, ?_⟩
        intro c hc
        rcases List.mem_append.mp hc with hc | hc
        · exact hafter c hc
        · obtain rfl := List.mem_singleton.mp hc
          exact not_lt.mp hlt

section Stamped
variable (hstamp : ∀ old a, stamp old < stamp a → stamp (combine old a) = stamp a)
include hstamp

theorem covers_absorb_self (held : Option α) (a : α) :
    Covers stamp (absorb stamp combine held a) (stamp a) := by
  cases held with
  | none => exact ⟨a, rfl, le_rfl⟩
  | some old =>
    by_cases h : stamp old < stamp a
    · exact ⟨combine old a, by simp [absorb, h], (hstamp old a h).ge⟩
    · exact ⟨old, by simp [absorb, h], not_lt.mp h⟩

theorem covers_absorb {held : Option α} {b : β} (a : α) (h : Covers stamp held b) :
    Covers stamp (absorb stamp combine held a) b := by
  obtain ⟨old, rfl, hle⟩ := h
  by_cases hlt : stamp old < stamp a
  · have hnew : b ≤ stamp (combine old a) := by
      rw [hstamp old a hlt]
      exact hle.trans hlt.le
    exact ⟨combine old a, by simp [absorb, hlt], hnew⟩
  · exact ⟨old, by simp [absorb, hlt], hle⟩

theorem absorbAll_stamp {held : Option α} {offers : List α} {new : α}
    (h : absorbAll stamp combine held offers = some new) :
    held = some new ∨ ∃ a ∈ offers, stamp new = stamp a := by
  induction offers generalizing held with
  | nil => exact .inl h
  | cons a offers ih =>
    rcases ih h with habsorbed | ⟨b, hb, hnew⟩
    · cases held with
      | none =>
        obtain rfl := Option.some.inj habsorbed
        exact .inr ⟨a, List.mem_cons_self, rfl⟩
      | some old =>
        simp only [absorb] at habsorbed
        split at habsorbed
        · rename_i hlt
          obtain rfl := Option.some.inj habsorbed
          exact .inr ⟨a, List.mem_cons_self, hstamp old a hlt⟩
        · exact .inl habsorbed
    · exact .inr ⟨b, List.mem_cons_of_mem a hb, hnew⟩

theorem beats_absorb {held : Option α} {a b : α} (hb : stamp b < stamp a)
    (h : Beats stamp held a) : Beats stamp (absorb stamp combine held b) a := by
  intro r hr
  cases held with
  | none =>
    obtain rfl := Option.some.inj hr
    exact hb
  | some old =>
    simp only [absorb] at hr
    split at hr
    · rename_i hlt
      obtain rfl := Option.some.inj hr
      rw [hstamp old b hlt]
      exact hb
    · exact h r hr

/-- The newest offer decides. Whatever holds once it is taken, from any state the offers
before it can lead to, holds at the end: later offers and repetitions change nothing. -/
theorem absorbAll_newest {P : Option α → Prop} {Q : α → Prop} {held : Option α} {offers : List α}
    {a : α} (hnewest : ∀ b ∈ offers, b = a ∨ stamp b < stamp a) (ha : a ∈ offers)
    (hbefore : ∀ held b, b ∈ offers → stamp b < stamp a → Beats stamp held a → P held →
      P (absorb stamp combine held b))
    (htake : ∀ held r, Beats stamp held a → P held → absorb stamp combine held a = some r → Q r)
    (hbeats : Beats stamp held a) (hheld : P held) :
    ∃ r, absorbAll stamp combine held offers = some r ∧ Q r := by
  induction offers generalizing held with
  | nil => simp at ha
  | cons b offers ih =>
    have hnewest' : ∀ c ∈ offers, c = a ∨ stamp c < stamp a :=
      fun c hc => hnewest c (List.mem_cons_of_mem b hc)
    rw [absorbAll_cons]
    rcases hnewest b List.mem_cons_self with rfl | hlt
    · obtain ⟨r, hr, hle⟩ := covers_absorb_self hstamp held b
      refine ⟨r, ?_, htake held r hbeats hheld hr⟩
      rw [hr]
      apply absorbAll_of_covers
      intro c hc
      refine ⟨r, rfl, le_trans ?_ hle⟩
      rcases hnewest' c hc with rfl | hc
      · exact le_rfl
      · exact hc.le
    · have ha' : a ∈ offers := by
        rcases List.mem_cons.mp ha with rfl | h
        · exact absurd hlt (lt_irrefl _)
        · exact h
      exact ih hnewest' ha'
        (fun held c hc => hbefore held c (List.mem_cons_of_mem b hc))
        (beats_absorb hstamp hlt hbeats)
        (hbefore held b List.mem_cons_self hlt hbeats hheld)

theorem absorbAll_map {γ : Type*} {π : α → γ} {held : Option α} {offers : List α} {a : α}
    (hπ : ∀ old, stamp old < stamp a → π (combine old a) = π a)
    (hnewest : ∀ b ∈ offers, b = a ∨ stamp b < stamp a) (ha : a ∈ offers)
    (hbeats : Beats stamp held a) : (absorbAll stamp combine held offers).map π = some (π a) := by
  have htake : ∀ held r, Beats stamp held a → True → absorb stamp combine held a = some r →
      π r = π a := by
    intro held r hbeats _ hr
    cases held with
    | none => rw [← Option.some.inj hr]
    | some old =>
      have hlt := hbeats old rfl
      simp only [absorb, hlt, if_true, Option.some.injEq] at hr
      rw [← hr, hπ old hlt]
  obtain ⟨r, hr, hproj⟩ := absorbAll_newest hstamp (P := fun _ => True) (Q := fun r => π r = π a)
    hnewest ha (fun _ _ _ _ _ _ => trivial) htake hbeats trivial
  rw [hr, Option.map_some, hproj]

/-- Where an offer in between leaves no trace, only the newest one counts. -/
theorem absorbAll_traceless {held : Option α} {offers : List α} {a : α}
    (htraceless : ∀ b ∈ offers, ∀ c ∈ offers, Beats stamp held b → stamp b < stamp c →
      absorb stamp combine (absorb stamp combine held b) c = absorb stamp combine held c)
    (hnewest : ∀ b ∈ offers, b = a ∨ stamp b < stamp a) (ha : a ∈ offers)
    (hbeats : Beats stamp held a) :
    absorbAll stamp combine held offers = absorb stamp combine held a := by
  let P : Option α → Prop := fun h =>
    h = held ∨ ∃ b ∈ offers, Beats stamp held b ∧ stamp b < stamp a ∧
      h = absorb stamp combine held b
  have hbefore : ∀ h b, b ∈ offers → stamp b < stamp a → Beats stamp h a → P h →
      P (absorb stamp combine h b) := by
    rintro h b hb hlt - (rfl | ⟨c, hc, hbeatsc, hltc, rfl⟩)
    · have hcase : Beats stamp h b ∨ Covers stamp h (stamp b) := beats_or_covers h b
      rcases hcase with hbb | hcov
      · exact .inr ⟨b, hb, hbb, hlt, rfl⟩
      · exact .inl (absorb_of_covers hcov)
    · right
      rcases lt_or_ge (stamp c) (stamp b) with hcb | hbc
      · have hbeatsb : Beats stamp held b := fun old hold => (hbeatsc old hold).trans hcb
        exact ⟨b, hb, hbeatsb, hlt, htraceless c hc b hb hbeatsc hcb⟩
      · obtain ⟨r, hr, hle⟩ := covers_absorb_self hstamp held c
        exact ⟨c, hc, hbeatsc, hltc, absorb_of_covers ⟨r, hr, hbc.trans hle⟩⟩
  have htake : ∀ h r, Beats stamp h a → P h → absorb stamp combine h a = some r →
      absorb stamp combine held a = some r := by
    rintro h r - (rfl | ⟨c, hc, hbeatsc, hltc, rfl⟩) hr
    · exact hr
    · rwa [htraceless c hc a ha hbeatsc hltc] at hr
  obtain ⟨r, hr, hheld⟩ := absorbAll_newest hstamp hnewest ha hbefore htake hbeats (.inl rfl)
  rw [hr, hheld]

end Stamped

theorem newest_or_covered (held : Option α) {offers : List α}
    (hdistinct : ∀ a ∈ offers, ∀ b ∈ offers, stamp a = stamp b → a = b) :
    (∀ a ∈ offers, Covers stamp held (stamp a)) ∨
    ∃ a ∈ offers, Beats stamp held a ∧ ∀ b ∈ offers, b = a ∨ stamp b < stamp a := by
  cases hoffers : offers with
  | nil => exact .inl (by simp)
  | cons c rest =>
    obtain ⟨a, ha, hmax⟩ := Set.exists_max_image {x | x ∈ offers} stamp (List.finite_toSet offers)
      ⟨c, by simp [hoffers]⟩
    rw [← hoffers]
    have hcase : Beats stamp held a ∨ Covers stamp held (stamp a) := beats_or_covers held a
    rcases hcase with hbeats | hcovers
    · refine .inr ⟨a, ha, hbeats, fun b hb => ?_⟩
      rcases (hmax b hb).eq_or_lt with heq | hlt
      · exact .inl (hdistinct b hb a ha heq)
      · exact .inr hlt
    · left
      obtain ⟨old, rfl, hle⟩ := hcovers
      exact fun b hb => ⟨old, rfl, (hmax b hb).trans hle⟩

end NewestWins
