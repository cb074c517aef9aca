import Mathlib.Data.List.Induction
import Mathlib.Logic.Relation

/-!
Runs of a deterministic transition system, and the rules its properties are
proved by: invariants, conditions on the steps of a run, the step at which
something changes, and steps made of smaller ones.
-/

set_option autoImplicit false

namespace Runs

variable {σ ε α : Type*} (step : σ → ε → σ)

def exec (s : σ) (events : List ε) : σ := events.foldl step s

@[simp] theorem exec_nil (s : σ) : exec step s [] = s := rfl

@[simp] theorem exec_cons (s : σ) (e : ε) (es : List ε) :
    exec step s (e :: es) = exec step (step s e) es := rfl

@[simp] theorem exec_append (s : σ) (es fs : List ε) :
    exec step s (es ++ fs) = exec step (exec step s es) fs := List.foldl_append

/-- Every event of the run satisfies the condition in the state it happens in. -/
def Along (C : σ → ε → Prop) : σ → List ε → Prop
  | _, [] => True
  | s, e :: es => C s e ∧ Along C (step s e) es

def Always (I : σ → Prop) (s : σ) (es : List ε) : Prop :=
  ∀ before after, es = before ++ after → I (exec step s before)

theorem always_nil {I : σ → Prop} {s : σ} : Always step I s [] ↔ I s := by
  constructor
  · exact fun h => h [] [] rfl
  · intro hs before after heq
    obtain ⟨rfl, rfl⟩ := List.append_eq_nil_iff.mp heq.symm
    exact hs

theorem always_cons {I : σ → Prop} {s : σ} {e : ε} {es : List ε} :
    Always step I s (e :: es) ↔ I s ∧ Always step I (step s e) es := by
  constructor
  · intro h
    refine ⟨h [] (e :: es) rfl, ?_⟩
    rintro before after rfl
    exact h (e :: before) after rfl
  · rintro ⟨hs, hes⟩ before after heq
    cases before with
    | nil => exact hs
    | cons b before =>
      obtain ⟨rfl, rfl⟩ := List.cons.inj heq
      exact hes before after rfl

theorem along_append {C : σ → ε → Prop} {s : σ} {es fs : List ε} :
    Along step C s (es ++ fs) ↔ Along step C s es ∧ Along step C (exec step s es) fs := by
  induction es generalizing s with
  | nil => simp [Along]
  | cons e es ih => simp [Along, ih, and_assoc]

theorem along_and {C : σ → ε → Prop} {D : ε → Prop} {s : σ} {es : List ε}
    (hC : Along step C s es) (hD : ∀ e ∈ es, D e) : Along step (fun s e => C s e ∧ D e) s es := by
  induction es generalizing s with
  | nil => trivial
  | cons e es ih =>
    exact ⟨⟨hC.1, hD e List.mem_cons_self⟩, ih hC.2 fun f hf => hD f (List.mem_cons_of_mem e hf)⟩

theorem along_of_forall {D : ε → Prop} {s : σ} {es : List ε} (hD : ∀ e ∈ es, D e) :
    Along step (fun _ e => D e) s es := by
  induction es generalizing s with
  | nil => trivial
  | cons e es ih => exact ⟨hD e List.mem_cons_self, ih fun f hf => hD f (List.mem_cons_of_mem e hf)⟩

variable {step}

/-- What every step meeting the condition preserves holds at the end of every run of such steps. -/
theorem invariant_along {I : σ → Prop} {C : σ → ε → Prop}
    (hstep : ∀ s e, I s → C s e → I (step s e)) {s : σ} {es : List ε}
    (hs : I s) (hrun : Along step C s es) : I (exec step s es) := by
  induction es generalizing s with
  | nil => exact hs
  | cons e es ih => exact ih (hstep s e hs hrun.1) hrun.2

/-- Where the condition is exactly what keeps the predicate in one step, it is exactly what
keeps it in a run. -/
theorem always_iff_along {J I : σ → Prop} {C : σ → ε → Prop}
    (hJ : ∀ s e, J s → J (step s e)) (hstep : ∀ s e, J s → I s → (I (step s e) ↔ C s e))
    {s : σ} {es : List ε} (hs : J s) :
    Always step I s es ↔ I s ∧ Along step C s es := by
  induction es generalizing s with
  | nil => simp [always_nil, Along]
  | cons e es ih =>
    rw [always_cons, ih (hJ s e hs)]
    constructor
    · rintro ⟨hI, hI', hes⟩
      exact ⟨hI, (hstep s e hs hI).mp hI', hes⟩
    · rintro ⟨hI, hC, hes⟩
      exact ⟨hI, (hstep s e hs hI).mpr hC, hes⟩

theorem invariant {I : σ → Prop} (hstep : ∀ s e, I s → I (step s e)) {s : σ}
    (hs : I s) (es : List ε) : I (exec step s es) := by
  induction es generalizing s with
  | nil => exact hs
  | cons e es ih => exact ih (hstep s e hs)

theorem exec_iff_or (step : σ → ε → σ) {P : σ → Prop} {W : ε → Prop} (s : σ) (es : List ε)
    (hstep : ∀ s, ∀ e ∈ es, (P (step s e) ↔ P s ∨ W e)) :
    P (exec step s es) ↔ P s ∨ ∃ e ∈ es, W e := by
  induction es generalizing s with
  | nil => simp
  | cons e es ih =>
    rw [exec_cons, ih (step s e), hstep s e List.mem_cons_self]
    · simp [or_assoc]
    · exact fun s f hf => hstep s f (List.mem_cons_of_mem e hf)

theorem exec_congr {f : σ → α} (hstep : ∀ s e, f (step s e) = f s) (s : σ) (es : List ε) :
    f (exec step s es) = f s :=
  invariant (I := fun t => f t = f s) (fun t e h => (hstep t e).trans h) rfl es

/-- If something holds at the end of a run and not at its start, a step of the run made it true. -/
theorem exists_turn {P : σ → Prop} {s : σ} {es : List ε} (h0 : ¬ P s)
    (h1 : P (exec step s es)) :
    ∃ before e after, es = before ++ e :: after ∧
      ¬ P (exec step s before) ∧ P (step (exec step s before) e) := by
  induction es generalizing s with
  | nil => exact absurd h1 h0
  | cons e es ih =>
    by_cases he : P (step s e)
    · exact ⟨[], e, es, rfl, h0, he⟩
    · obtain ⟨before, f, after, rfl, hb, ha⟩ := ih he h1
      exact ⟨e :: before, f, after, rfl, hb, ha⟩

/-- A component of the final state is the initial one, or the last step that changed it wrote it. -/
theorem exists_last_change (step : σ → ε → σ) (f : σ → α) (s : σ) (es : List ε) :
    f (exec step s es) = f s ∨ ∃ before e after, es = before ++ e :: after ∧
      f (step (exec step s before) e) ≠ f (exec step s before) ∧
      f (exec step s es) = f (step (exec step s before) e) := by
  induction es using List.reverseRecOn with
  | nil => exact .inl rfl
  | append_singleton es e ih =>
    by_cases he : f (step (exec step s es) e) = f (exec step s es)
    · have hlast : f (exec step s (es ++ [e])) = f (exec step s es) := by simpa using he
      rcases ih with h | ⟨before, g, after, rfl, hne, heq⟩
      · exact .inl (hlast.trans h)
      · exact .inr ⟨before, g, after ++ [e], by simp, hne, hlast.trans heq⟩
    · exact .inr ⟨es, e, [], rfl, he, by simp⟩

section Refinement
variable {micro : σ → ε → σ → σ → Prop}

theorem turn_of_micro {P : σ → Prop} {s : σ} {e : ε} {t : σ}
    (hchain : Relation.ReflTransGen (micro s e) s t) (h0 : ¬ P s) (h1 : P t) :
    ∃ u u', Relation.ReflTransGen (micro s e) s u ∧ micro s e u u' ∧ ¬ P u ∧ P u' := by
  induction hchain with
  | refl => exact absurd h1 h0
  | @tail u u' hu hstep ih =>
    by_cases hP : P u
    · exact ih hP
    · exact ⟨u, u', hu, hstep, hP, h1⟩

/-- The step of a run that turned a predicate on did it in one of its small steps. -/
theorem exists_micro_turn {P : σ → Prop}
    (hmicro : ∀ s e, Relation.ReflTransGen (micro s e) s (step s e)) {s : σ} {es : List ε}
    (h0 : ¬ P s) (h1 : P (exec step s es)) :
    ∃ before e after u u', es = before ++ e :: after ∧ ¬ P (exec step s before) ∧
      Relation.ReflTransGen (micro (exec step s before) e) (exec step s before) u ∧
      micro (exec step s before) e u u' ∧ ¬ P u ∧ P u' := by
  obtain ⟨before, e, after, rfl, hbefore, hafter⟩ := exists_turn h0 h1
  obtain ⟨u, u', hu, hstep, hPu, hPu'⟩ := turn_of_micro (hmicro _ e) hbefore hafter
  exact ⟨before, e, after, u, u', rfl, hbefore, hu, hstep, hPu, hPu'⟩

end Refinement
end Runs
