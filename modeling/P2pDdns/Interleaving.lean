import P2pDdns.Runs

/-!
Two tasks over one shared state, each a program of atomic operations. What an
operation finds is passed on to the rest of its program; between two operations of a
task the other one may take any number of steps.
-/

set_option autoImplicit false

namespace Interleaving

/-- The next operation, and the rest of the program from the state it is executed in. -/
inductive Prog (σ ω α : Type) where
  | done : α → Prog σ ω α
  | act : ω → (σ → Prog σ ω α) → Prog σ ω α

namespace Prog
variable {σ ω α β : Type}

def bind : Prog σ ω α → (α → Prog σ ω β) → Prog σ ω β
  | done a, k => k a
  | act op next, k => act op fun s => (next s).bind k

instance : Monad (Prog σ ω) where
  pure := done
  bind := bind

theorem bind_assoc {γ : Type} (p : Prog σ ω α) (k : α → Prog σ ω β) (l : β → Prog σ ω γ) :
    p >>= k >>= l = p >>= fun a => k a >>= l := by
  induction p with
  | done a => rfl
  | act o next ih => exact congrArg (act o) (funext ih)

def op (o : ω) (find : σ → α) : Prog σ ω α := act o fun s => done (find s)

def exec (o : ω) : Prog σ ω Unit := op o fun _ => ()

section Alone
variable (apply : ω → σ → σ)

def run : Prog σ ω α → σ → α × σ
  | done a, s => (a, s)
  | act o next, s => (next s).run (apply o s)

@[simp] theorem run_pure (a : α) (s : σ) : run apply (pure a : Prog σ ω α) s = (a, s) := rfl

@[simp] theorem run_op (o : ω) (find : σ → α) (s : σ) :
    run apply (op o find) s = (find s, apply o s) := rfl

@[simp] theorem run_bind (p : Prog σ ω α) (k : α → Prog σ ω β) (s : σ) :
    run apply (p >>= k) s = run apply (k (run apply p s).1) (run apply p s).2 := by
  induction p generalizing s with
  | done a => rfl
  | act o next ih => exact ih s (apply o s)

end Alone

/-- Relying on `R` whenever an operation is executed, the program issues operations in `G`
only and ends with a result in `Q`. -/
def Issues (R : ω → σ → Prop) (G : ω → Prop) (Q : α → Prop) : Prog σ ω α → Prop
  | done a => Q a
  | act o next => G o ∧ ∀ s, R o s → (next s).Issues R G Q

/-- As long as the states meet `R`, the program issues operations in `G` only once `v` has
been executed, and then ends with a result in `Q`. -/
def Follows (R : σ → Prop) (v : ω) (G : ω → Prop) (Q : α → Prop) : Prog σ ω α → Prop
  | done _ => True
  | act o next => ∀ s, R s →
      (o = v → (next s).Issues (fun _ _ => True) G Q) ∧ (next s).Follows R v G Q

section Rules
variable {R : ω → σ → Prop} {S : σ → Prop} {v : ω} {G : ω → Prop} {Q : α → Prop} {Q' : β → Prop}

theorem issues_pure {a : α} (h : Q a) : Issues R G Q (pure a : Prog σ ω α) := h

theorem issues_op {o : ω} {find : σ → α} (ho : G o) (hfind : ∀ s, R o s → Q (find s)) :
    Issues R G Q (op o find : Prog σ ω α) := ⟨ho, hfind⟩

theorem issues_exec {o : ω} {P : Unit → Prop} (ho : G o) (h : P ()) :
    Issues R G P (exec o : Prog σ ω Unit) := ⟨ho, fun _ _ => h⟩

theorem Issues.weaken {P : α → Prop} {p : Prog σ ω α} (h : Issues R G P p) (hQ : ∀ a, P a → Q a) :
    Issues R G Q p := by
  induction p with
  | done a => exact hQ a h
  | act o next ih => exact ⟨h.1, fun s hs => ih s (h.2 s hs)⟩

theorem issues_bind {p : Prog σ ω α} {k : α → Prog σ ω β} (hp : Issues R G Q p)
    (hk : ∀ a, Q a → Issues R G Q' (k a)) : Issues R G Q' (p >>= k) := by
  induction p with
  | done a => exact hk a hp
  | act o next ih => exact ⟨hp.1, fun s hs => ih s (hp.2 s hs)⟩

theorem issues_then {p : Prog σ ω α} {k : α → Prog σ ω β} (hp : Issues R G (fun _ => True) p)
    (hk : ∀ a, Issues R G Q' (k a)) : Issues R G Q' (p >>= k) :=
  issues_bind hp fun a _ => hk a

theorem issues_any {o : ω} {find : σ → α} (ho : G o) :
    Issues R G (fun _ => True) (op o find : Prog σ ω α) := ⟨ho, fun _ _ => trivial⟩

theorem follows_op {o : ω} {find : σ → α} (h : ∀ s, S s → o = v → Q (find s)) :
    Follows S v G Q (op o find : Prog σ ω α) := fun s hs => ⟨h s hs, trivial⟩

/-- After `v` in the front, the back is only known to issue what it issues on a result in `Q`. -/
theorem follows_bind {p : Prog σ ω α} {k : α → Prog σ ω β} (hp : Follows S v G Q p)
    (hk : ∀ a, Q a → Issues (fun _ _ => True) G Q' (k a)) (hk' : ∀ a, Follows S v G Q' (k a)) :
    Follows S v G Q' (p >>= k) := by
  induction p with
  | done a => exact hk' a
  | act o next ih =>
    intro s hs
    obtain ⟨hafter, hnext⟩ := hp s hs
    exact ⟨fun ho => issues_bind (hafter ho) hk, ih s hnext⟩

end Rules
end Prog

inductive Side where
  | first
  | second
  deriving DecidableEq

variable {σ ω α β γ : Type} (apply : ω → σ → σ)

abbrev Trace (ω : Type) := List (Side × ω)

def effect (s : σ) (e : Side × ω) : σ := apply e.2 s

def after (s : σ) (t : Trace ω) : σ := Runs.exec (effect apply) s t

/-- From programs `p` and `q` and the state `s`, the trace leads to programs `p'` and `q'`. -/
inductive Steps : Prog σ ω α → Prog σ ω β → σ → Trace ω → Prog σ ω α → Prog σ ω β → Prop
  | refl {p : Prog σ ω α} {q : Prog σ ω β} {s : σ} : Steps p q s [] p q
  | first {o : ω} {next : σ → Prog σ ω α} {q : Prog σ ω β} {s : σ} {t : Trace ω}
      {p' : Prog σ ω α} {q' : Prog σ ω β} :
      Steps (next s) q (apply o s) t p' q' → Steps (.act o next) q s ((.first, o) :: t) p' q'
  | second {p : Prog σ ω α} {o : ω} {next : σ → Prog σ ω β} {s : σ} {t : Trace ω}
      {p' : Prog σ ω α} {q' : Prog σ ω β} :
      Steps p (next s) (apply o s) t p' q' → Steps p (.act o next) s ((.second, o) :: t) p' q'

/-- The trace is an interleaving of the two programs, both run to their end. -/
def Interleaves (p : Prog σ ω α) (q : Prog σ ω β) (s : σ) (t : Trace ω) : Prop :=
  ∃ a b, Steps apply p q s t (.done a) (.done b)

theorem sublist_through {ε : Type} {e : ε} {front back l l' : List ε} (hfront : e ∉ front)
    (hback : e ∉ back) :
    (l ++ e :: l').Sublist (front ++ e :: back) ↔ l.Sublist front ∧ l'.Sublist back := by
  constructor
  · intro h
    obtain ⟨m, m', heq, hm, hm'⟩ := List.sublist_append_iff.mp h
    rcases List.append_eq_append_iff.mp heq with ⟨n, rfl, hn⟩ | ⟨n, rfl, rfl⟩
    · cases n with
      | nil =>
        obtain rfl : e :: l' = m' := hn
        rw [List.append_nil] at hm
        exact ⟨hm, List.cons_sublist_cons.mp hm'⟩
      | cons a n =>
        obtain ⟨rfl, -⟩ := List.cons.inj hn
        exact absurd (hm.subset (by simp)) hfront
    · cases n with
      | nil =>
        rw [List.append_nil]
        exact ⟨hm, List.cons_sublist_cons.mp hm'⟩
      | cons a n =>
        have htail : (n ++ e :: l').Sublist back := hm'.tail
        exact absurd (htail.subset (by simp)) hback
  · rintro ⟨hl, hl'⟩
    exact hl.append (hl'.cons_cons e)

theorem pair_sublist_asymm {ε : Type} {a b : ε} {l : List ε} (hnodup : l.Nodup)
    (hab : [a, b].Sublist l) : ¬ [b, a].Sublist l := by
  intro hba
  obtain ⟨front, back, rfl⟩ := List.append_of_mem (hab.subset List.mem_cons_self)
  rw [List.nodup_append, List.nodup_cons] at hnodup
  have hfront : a ∉ front := fun h => hnodup.2.2 a h a List.mem_cons_self rfl
  have hback : a ∉ back := hnodup.2.1.1
  have hlate : [b].Sublist back := ((@sublist_through ε a front back [] [b] hfront hback).mp hab).2
  have hearly : [b].Sublist front :=
    ((@sublist_through ε a front back [b] [] hfront hback).mp hba).1
  exact hnodup.2.2 b (List.singleton_sublist.mp hearly) b
    (List.mem_cons_of_mem a (List.singleton_sublist.mp hlate)) rfl

variable {apply} {p p' : Prog σ ω α} {q q' : Prog σ ω β} {s : σ} {t : Trace ω}

@[simp] theorem after_cons (s : σ) (e : Side × ω) (t : Trace ω) :
    after apply s (e :: t) = after apply (apply e.2 s) t := rfl

@[simp] theorem after_append (s : σ) (t t' : Trace ω) :
    after apply s (t ++ t') = after apply (after apply s t) t' := Runs.exec_append _ s t t'

theorem Steps.second_reaches {q : Prog σ ω γ} {o : ω} {next : γ → σ → Prog σ ω β} {b : β}
    (h : Steps apply p (q >>= fun c => .act o (next c)) s t p' (.done b)) :
    ∃ front back pm c, t = front ++ (.second, o) :: back ∧
      Steps apply p q s front pm (.done c) ∧
      Steps apply pm (next c (after apply s front)) (apply o (after apply s front)) back p'
        (.done b) := by
  generalize hqk : (q >>= fun c => .act o (next c)) = qk at h
  generalize hq' : Prog.done b = q' at h
  induction h generalizing q with
  | refl =>
    rw [← hq'] at hqk
    cases q <;> contradiction
  | @first o₁ _ _ _ _ _ _ _ ih =>
    obtain ⟨front, back, pm, c, rfl, hfront, hback⟩ := ih hqk hq'
    exact ⟨(.first, o₁) :: front, back, pm, c, rfl, .first hfront, hback⟩
  | second hrest ih =>
    cases q with
    | done c =>
      obtain ⟨rfl, rfl⟩ := Prog.act.inj hqk
      exact ⟨[], _, _, c, rfl, .refl, hrest⟩
    | act o₁ rest =>
      obtain ⟨rfl, rfl⟩ := Prog.act.inj hqk
      obtain ⟨front, back, pm, c, rfl, hfront, hback⟩ := ih rfl hq'
      exact ⟨(.second, o₁) :: front, back, pm, c, rfl, .second hfront, hback⟩

/-- What the first task issues on its own it issues beside the second one, as long as an
invariant of both gives it what it relies on. -/
theorem Steps.issues {I : σ → Prop} {R : ω → σ → Prop} {G : ω → Prop} {Q : α → Prop}
    (h : Steps apply p q s t p' q') (hp : p.Issues R G Q)
    (hR : ∀ o s, (Side.first, o) ∈ t → I s → R o s)
    (hG : ∀ o s, G o → I s → I (apply o s))
    (hsecond : ∀ o s, (Side.second, o) ∈ t → I s → I (apply o s)) (hs : I s) :
    (∀ o, (Side.first, o) ∈ t → G o) ∧ p'.Issues R G Q ∧ I (after apply s t) := by
  induction h with
  | refl =>
    refine ⟨?_, hp, hs⟩
    intro o ho
    exact nomatch ho
  | first _ ih =>
    have hstep := hp.2 _ (hR _ _ List.mem_cons_self hs)
    obtain ⟨hissued, hp', hI⟩ := ih hstep
      (fun o s ho => hR o s (List.mem_cons_of_mem _ ho))
      (fun o s ho => hsecond o s (List.mem_cons_of_mem _ ho)) (hG _ _ hp.1 hs)
    refine ⟨?_, hp', hI⟩
    intro o ho
    cases ho with
    | head => exact hp.1
    | tail _ ho => exact hissued o ho
  | second _ ih =>
    obtain ⟨hissued, hp', hI⟩ := ih hp
      (fun o s ho => hR o s (List.mem_cons_of_mem _ ho))
      (fun o s ho => hsecond o s (List.mem_cons_of_mem _ ho))
      (hsecond _ _ List.mem_cons_self hs)
    refine ⟨?_, hp', hI⟩
    intro o ho
    cases ho with
    | tail _ ho => exact hissued o ho

theorem Steps.second_issues {G : ω → Prop} {Q : β → Prop} (h : Steps apply p q s t p' q')
    (hq : q.Issues (fun _ _ => True) G Q) : ∀ o, (Side.second, o) ∈ t → G o := by
  induction h with
  | refl =>
    intro o ho
    exact nomatch ho
  | first _ ih =>
    intro o ho
    cases ho with
    | tail _ ho => exact ih hq o ho
  | second _ ih =>
    intro o ho
    cases ho with
    | head => exact hq.1
    | tail _ ho => exact ih (hq.2 _ trivial) o ho

theorem Steps.follows {I : σ → Prop} {v : ω} {G : ω → Prop} {Q : α → Prop}
    (h : Steps apply p q s t p' q') (hp : p.Follows I v G Q) (hv : (Side.first, v) ∈ t)
    (hI : ∀ e ∈ t, ∀ s, I s → I (apply e.2 s)) (hs : I s) :
    p'.Issues (fun _ _ => True) G Q := by
  induction h with
  | refl => exact nomatch hv
  | first hrest ih =>
    obtain ⟨hafter, hnext⟩ := hp _ hs
    have hs' := hI _ List.mem_cons_self _ hs
    cases hv with
    | head =>
      exact (hrest.issues (I := fun _ => True) (hafter rfl) (fun _ _ _ _ => trivial)
        (fun _ _ _ _ => trivial) (fun _ _ _ _ => trivial) trivial).2.1
    | tail _ hv => exact ih hnext hv (fun e he => hI e (List.mem_cons_of_mem _ he)) hs'
  | second _ ih =>
    have hs' := hI _ List.mem_cons_self _ hs
    cases hv with
    | tail _ hv => exact ih hp hv (fun e he => hI e (List.mem_cons_of_mem _ he)) hs'

theorem Steps.first_waits {o : ω} {next : σ → Prog σ ω α}
    (h : Steps apply (.act o next) q s t p' q') (ho : (Side.first, o) ∉ t) :
    p' = .act o next := by
  generalize hp : Prog.act o next = p at h
  induction h with
  | refl => rfl
  | first _ _ =>
    obtain ⟨rfl, -⟩ := Prog.act.inj hp
    exact absurd List.mem_cons_self ho
  | second _ ih => exact ih (fun h => ho (List.mem_cons_of_mem _ h)) hp

/-! One task after the other. -/

theorem Steps.trans {p'' : Prog σ ω α} {q'' : Prog σ ω β} {t' : Trace ω}
    (h : Steps apply p q s t p' q') (h' : Steps apply p' q' (after apply s t) t' p'' q'') :
    Steps apply p q s (t ++ t') p'' q'' := by
  induction h with
  | refl => exact h'
  | first _ ih => exact .first (ih h')
  | second _ ih => exact .second (ih h')

theorem Steps.run_first (apply : ω → σ → σ) (p : Prog σ ω α) (q : Prog σ ω β) (s : σ) :
    ∃ t, Steps apply p q s t (.done (p.run apply s).1) q ∧
      after apply s t = (p.run apply s).2 ∧ ∀ e ∈ t, e.1 = .first := by
  induction p generalizing s with
  | done a => exact ⟨[], .refl, rfl, by simp⟩
  | act o next ih =>
    obtain ⟨t, hsteps, hafter, hfirst⟩ := ih s (apply o s)
    exact ⟨(.first, o) :: t, .first hsteps, hafter, List.forall_mem_cons.mpr ⟨rfl, hfirst⟩⟩

theorem Steps.run_second (apply : ω → σ → σ) (p : Prog σ ω α) (q : Prog σ ω β) (s : σ) :
    ∃ t, Steps apply p q s t p (.done (q.run apply s).1) ∧
      after apply s t = (q.run apply s).2 ∧ ∀ e ∈ t, e.1 = .second := by
  induction q generalizing s with
  | done b => exact ⟨[], .refl, rfl, by simp⟩
  | act o next ih =>
    obtain ⟨t, hsteps, hafter, hsecond⟩ := ih s (apply o s)
    exact ⟨(.second, o) :: t, .second hsteps, hafter, List.forall_mem_cons.mpr ⟨rfl, hsecond⟩⟩

def Leads (side : Side) (t : Trace ω) : Prop :=
  t.Pairwise fun e f => f.1 = side → e.1 = side

theorem leads_append {side : Side} {t' : Trace ω} (ht : ∀ e ∈ t, e.1 = side)
    (ht' : ∀ e ∈ t', e.1 ≠ side) : Leads side (t ++ t') := by
  refine List.pairwise_append.mpr ⟨?_, ?_, ?_⟩
  · exact List.pairwise_of_forall_mem_list fun e he _ _ _ => ht e he
  · exact List.pairwise_of_forall_mem_list fun _ _ f hf hside => absurd hside (ht' f hf)
  · exact fun e he _ _ _ => ht e he

theorem Leads.not_overtaken {side other : Side} (h : Leads side t) (hne : other ≠ side) {o o' : ω} :
    ¬ [(other, o), (side, o')].Sublist t := by
  intro hsub
  exact hne (List.Pairwise.forall_sublist h hsub rfl)

theorem interleaves_first_second (apply : ω → σ → σ) (p : Prog σ ω α) (q : Prog σ ω β) (s : σ) :
    ∃ t, Interleaves apply p q s t ∧ Leads .first t ∧
      after apply s t = (q.run apply (p.run apply s).2).2 := by
  obtain ⟨t, hp, hafter, ht⟩ := Steps.run_first apply p q s
  obtain ⟨t', hq, hafter', ht'⟩ := Steps.run_second apply
    (.done (p.run apply s).1 : Prog σ ω α) q (after apply s t)
  refine ⟨t ++ t', ⟨_, _, hp.trans hq⟩, leads_append ht ?_, ?_⟩
  · intro e he
    rw [ht' e he]
    exact nofun
  · rw [after_append, hafter', hafter]

theorem interleaves_second_first (apply : ω → σ → σ) (p : Prog σ ω α) (q : Prog σ ω β) (s : σ) :
    ∃ t, Interleaves apply p q s t ∧ Leads .second t ∧
      after apply s t = (p.run apply (q.run apply s).2).2 := by
  obtain ⟨t, hq, hafter, ht⟩ := Steps.run_second apply p q s
  obtain ⟨t', hp, hafter', ht'⟩ := Steps.run_first apply p
    (.done (q.run apply s).1 : Prog σ ω β) (after apply s t)
  refine ⟨t ++ t', ⟨_, _, hq.trans hp⟩, leads_append ht ?_, ?_⟩
  · intro e he
    rw [ht' e he]
    exact nofun
  · rw [after_append, hafter', hafter]

end Interleaving
