import P2pDdns.Runs

/-!
Entries that are lost unless they are vouched for again in time. A lease says what vouches for an
entry, what ends it for another reason than its age, and how recently an event demands that it was
vouched for; an entry whose every demand is met in time is never lost.
-/

set_option autoImplicit false

namespace Leases

variable {σ ε : Type*} {step : σ → ε → σ}

/-- `Vouched t s`: in `s` the entry is held and vouched for at the time `t` or later. -/
structure Lease (step : σ → ε → σ) where
  Inv : σ → Prop
  Vouched : Nat → σ → Prop
  Renews : σ → ε → Nat → Prop
  Ends : σ → ε → Prop
  /-- No reading of the event is before the time. -/
  ReadsFrom : Nat → ε → Prop
  demand : ε → Option Nat
  inv : ∀ s e, Inv s → Inv (step s e)
  mono : ∀ s t t', Vouched t s → t' ≤ t → Vouched t' s
  renewed : ∀ s e t, Inv s → Renews s e t → ReadsFrom t e → Vouched t (step s e)
  kept : ∀ s e t, Inv s → Vouched t s → ReadsFrom t e → ¬ Ends s e →
    (∀ d, demand e = some d → Vouched d s) → Vouched t (step s e)

namespace Lease
variable (lease : Lease step)

/-- An event of the run vouches for the entry at the time. -/
def Renewed (s : σ) (es : List ε) (t : Nat) : Prop :=
  ∃ before e after, es = before ++ e :: after ∧ lease.Renews (Runs.exec step s before) e t

theorem not_renewed_nil {s : σ} {t : Nat} : ¬ lease.Renewed s [] t := by
  rintro ⟨before, e, after, hes, -⟩
  simp at hes

theorem renewed_concat {s : σ} {es : List ε} {f : ε} {t : Nat} :
    lease.Renewed s (es ++ [f]) t ↔
      lease.Renewed s es t ∨ lease.Renews (Runs.exec step s es) f t := by
  constructor
  · rintro ⟨before, e, after, hes, hrenews⟩
    rcases List.eq_nil_or_concat after with rfl | ⟨after, g, rfl⟩
    · obtain ⟨rfl, hef⟩ := List.append_inj' hes rfl
      obtain rfl := List.singleton_inj.mp hef
      exact .inr hrenews
    · rw [List.concat_eq_append, ← List.cons_append, ← List.append_assoc] at hes
      exact .inl ⟨before, e, after, (List.append_inj' hes rfl).1, hrenews⟩
  · rintro (⟨before, e, after, rfl, hrenews⟩ | hrenews)
    · exact ⟨before, e, after ++ [f], by simp, hrenews⟩
    · exact ⟨es, f, [], rfl, hrenews⟩

/-- From the first time the entry is vouched for, time does not go back, nothing ends it, and
what an event demands was given. -/
structure InTime (s : σ) (es : List ε) : Prop where
  clock : ∀ before f after t, es = before ++ f :: after → lease.Renewed s (before ++ [f]) t →
    lease.ReadsFrom t f
  unended : ∀ before f after t, es = before ++ f :: after → lease.Renewed s before t →
    ¬ lease.Ends (Runs.exec step s before) f
  met : ∀ before f after t d, es = before ++ f :: after → lease.Renewed s before t →
    lease.demand f = some d → ∃ t', lease.Renewed s before t' ∧ d ≤ t'

variable {lease}

theorem InTime.init {s : σ} {es fs : List ε} (h : lease.InTime s (es ++ fs)) :
    lease.InTime s es where
  clock before f after t hes := h.clock before f (after ++ fs) t (by simp [hes])
  unended before f after t hes := h.unended before f (after ++ fs) t (by simp [hes])
  met before f after t d hes := h.met before f (after ++ fs) t d (by simp [hes])

/-- An entry that is vouched for in time is held, as recently vouched for as it ever was. -/
theorem InTime.vouched {s : σ} {es : List ε} (hs : lease.Inv s) (h : lease.InTime s es) :
    ∀ t, lease.Renewed s es t → lease.Vouched t (Runs.exec step s es) := by
  induction es using List.reverseRecOn with
  | nil => exact fun t hrenewed => absurd hrenewed lease.not_renewed_nil
  | append_singleton es f ih =>
    intro t hrenewed
    have hinv : lease.Inv (Runs.exec step s es) := Runs.invariant lease.inv hs es
    have hclock := h.clock es f [] t rfl hrenewed
    rw [Runs.exec_append, Runs.exec_cons, Runs.exec_nil]
    rcases lease.renewed_concat.mp hrenewed with hbefore | hrenews
    · refine lease.kept _ f t hinv (ih h.init t hbefore) hclock (h.unended es f [] t rfl hbefore) ?_
      intro d hd
      obtain ⟨t', hrenewed', hle⟩ := h.met es f [] t d rfl hbefore hd
      exact lease.mono _ t' d (ih h.init t' hrenewed') hle
    · exact lease.renewed _ f t hinv hrenews hclock

end Lease
end Leases
