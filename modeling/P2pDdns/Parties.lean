import P2pDdns.Runs

/-!
Several parties that take turns on one common state. A party changes the common state and its
own, never that of another; what happens is recorded with who did it.
-/

set_option autoImplicit false

namespace Parties

variable {ι σ τ δ ε α : Type*}

structure Shared (ι σ τ : Type*) where
  common : σ
  own : ι → τ

inductive Turn (ι δ ε : Type*) where
  | common (e : δ)
  | own (i : ι) (e : ε)

def doneBy [DecidableEq ι] (i : ι) (record : List (Option ι × α)) : List α :=
  (record.filter (·.1 = some i)).map (·.2)

section Runs
variable [DecidableEq ι] (alone : σ → δ → σ × List α) (act : σ → τ → ε → σ × τ × List α)

def step (s : Shared ι σ τ) : Turn ι δ ε → Shared ι σ τ × List (Option ι × α)
  | .common e => (⟨(alone s.common e).1, s.own⟩, (alone s.common e).2.map (none, ·))
  | .own i e =>
    let deed := act s.common (s.own i) e
    (⟨deed.1, Function.update s.own i deed.2.1⟩, deed.2.2.map (some i, ·))

def run : Shared ι σ τ → List (Turn ι δ ε) → Shared ι σ τ × List (Option ι × α)
  | s, [] => (s, [])
  | s, t :: ts =>
    let (s, done) := step alone act s t
    let (s, rest) := run s ts
    (s, done ++ rest)

variable {alone act} {s : Shared ι σ τ} {i : ι}

omit [DecidableEq ι] in
theorem map_snd_map (tag : Option ι) (done : List α) :
    (done.map (tag, ·)).map Prod.snd = done := by
  rw [List.map_map]
  exact List.map_id done

theorem doneBy_append (record record' : List (Option ι × α)) :
    doneBy i (record ++ record') = doneBy i record ++ doneBy i record' := by
  simp [doneBy]

theorem doneBy_map_of_ne {tag : Option ι} (h : tag ≠ some i) (done : List α) :
    doneBy i (done.map (tag, ·)) = [] := by
  simp [doneBy, List.filter_map, Function.comp_def, h]

theorem doneBy_map_self (done : List α) : doneBy i (done.map (some i, ·)) = done := by
  simp [doneBy, List.filter_map, Function.comp_def]

/-- What a party's own turns keep, whatever the common state, every run keeps. -/
theorem run_own {K : τ → List α → Prop}
    (hact : ∀ c own done e, K own done → K (act c own e).2.1 (done ++ (act c own e).2.2))
    {done : List α} (h : K (s.own i) done) (turns : List (Turn ι δ ε)) :
    K ((run alone act s turns).1.own i) (done ++ doneBy i (run alone act s turns).2) := by
  induction turns generalizing s done with
  | nil => simpa [run, doneBy] using h
  | cons t turns ih =>
    have hstep : K ((step alone act s t).1.own i) (done ++ doneBy i (step alone act s t).2) := by
      cases t with
      | common e =>
        rw [step, doneBy_map_of_ne (by simp), List.append_nil]
        exact h
      | own j e =>
        by_cases hj : j = i
        · subst hj
          simpa [step, doneBy_map_self] using hact s.common (s.own j) done e h
        · rw [step, doneBy_map_of_ne (by simpa using hj), List.append_nil]
          simpa [Function.update_of_ne (Ne.symm hj)] using h
    have hrest := ih hstep
    rwa [List.append_assoc, ← doneBy_append] at hrest

section Applied
variable {apply : σ → α → σ}
  (halone : ∀ c e, (alone c e).1 = (alone c e).2.foldl apply c)
  (hact : ∀ c own e, (act c own e).1 = (act c own e).2.2.foldl apply c)
include halone hact

theorem step_common (s : Shared ι σ τ) (t : Turn ι δ ε) :
    (step alone act s t).1.common = ((step alone act s t).2.map Prod.snd).foldl apply s.common := by
  cases t with
  | common e =>
    rw [step, map_snd_map]
    exact halone s.common e
  | own i e =>
    rw [step, map_snd_map]
    exact hact s.common (s.own i) e

/-- The common state is what the recorded deeds make of it. -/
theorem run_common (s : Shared ι σ τ) (turns : List (Turn ι δ ε)) :
    (run alone act s turns).1.common =
      ((run alone act s turns).2.map Prod.snd).foldl apply s.common := by
  induction turns generalizing s with
  | nil => rfl
  | cons t turns ih =>
    rw [run, ih, step_common halone hact, List.map_append, List.foldl_append]

/-- What holds of every deed at the common state it was done on. -/
theorem run_explained {P : σ → α → Prop}
    (hsingle : ∀ c e, ∃ a, (alone c e).2 = [a] ∧ P c a)
    (hdone : ∀ c own e, (act c own e).2.2 = [] ∨ ∃ a, (act c own e).2.2 = [a] ∧ P c a)
    (s : Shared ι σ τ) (turns : List (Turn ι δ ε)) :
    ∀ before a after, (run alone act s turns).2 = before ++ a :: after →
      P ((before.map Prod.snd).foldl apply s.common) a.2 := by
  induction turns generalizing s with
  | nil => simp [run]
  | cons t turns ih =>
    have hstep : (step alone act s t).2 = [] ∨
        ∃ tag a, (step alone act s t).2 = [(tag, a)] ∧ P s.common a := by
      cases t with
      | common e =>
        obtain ⟨a, ha, hP⟩ := hsingle s.common e
        exact .inr ⟨none, a, by rw [step, ha]; rfl, hP⟩
      | own i e =>
        rcases hdone s.common (s.own i) e with hnil | ⟨a, ha, hP⟩
        · exact .inl (by rw [step, hnil]; rfl)
        · exact .inr ⟨some i, a, by rw [step, ha]; rfl, hP⟩
    have hcommon := step_common halone hact s t
    intro before a after heq
    rw [run] at heq
    dsimp only at heq
    rcases hstep with hnil | ⟨tag, first, hfirst, hP⟩
    · rw [hnil] at heq hcommon
      have hlater := ih _ before a after heq
      rw [hcommon] at hlater
      exact hlater
    · rw [hfirst] at heq hcommon
      cases before with
      | nil =>
        obtain ⟨rfl, -⟩ := List.cons.inj heq
        exact hP
      | cons head before =>
        obtain ⟨rfl, hrest⟩ := List.cons.inj heq
        have hlater := ih (step alone act s t).1 before a after hrest
        rw [hcommon] at hlater
        exact hlater

end Applied
end Runs
end Parties
