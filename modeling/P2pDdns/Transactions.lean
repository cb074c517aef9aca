import Mathlib.Data.List.Basic

/-!
Programs over a store that only write transactions change. A program is followed on an abstraction
of its store: what it ends with, and the transactions it commits. A crash leaves a first part of them.
-/

set_option autoImplicit false

namespace Transactions

/-- A store, and the transactions committed to it so far. -/
structure Log (σ ω : Type) where
  store : σ
  writes : List ω

abbrev Session (σ ω ε : Type) := ExceptT ε (StateM (Log σ ω))

section Programs
variable {σ ω ε α : Type}

def query (load : σ → Except ε α) : Session σ ω ε α := fun log => (load log.store, log)

def transact (perform : σ → ω → σ) (w : ω) : Session σ ω ε Unit :=
  fun log => (.ok (), ⟨perform log.store w, log.writes ++ [w]⟩)

def given (x : Except ε α) : Session σ ω ε α := fun log => (x, log)

def Log.run (m : Session σ ω ε α) (s : σ) : Except ε α × List ω :=
  let (x, log) := m ⟨s, []⟩
  (x, log.writes)

end Programs

section Rules
variable {σ τ ω ε α β : Type} {perform : σ → ω → σ} {simulate : τ → ω → τ} {R : σ → τ → Prop}

/-- The abstraction follows any transactions that it follows one by one. -/
theorem related_foldl (hsim : ∀ s t w, R s t → R (perform s w) (simulate t w)) {s : σ} {t : τ}
    (h : R s t) (ws : List ω) : R (ws.foldl perform s) (ws.foldl simulate t) := by
  induction ws generalizing s t with
  | nil => exact h
  | cons w ws ih => exact ih (hsim s t w h)

/-- On every store with this abstraction the program ends with `x` after it committed `ws`. -/
def Gives (perform : σ → ω → σ) (R : σ → τ → Prop) (t : τ) (m : Session σ ω ε α)
    (x : Except ε α) (ws : List ω) : Prop :=
  ∀ log : Log σ ω, R log.store t →
    m log = (x, ⟨ws.foldl perform log.store, log.writes ++ ws⟩)

namespace Gives
variable {t : τ} {m : Session σ ω ε α} {f : α → Session σ ω ε β}

theorem pure (t : τ) (a : α) :
    Gives perform R t (Pure.pure a : Session σ ω ε α) (.ok a) [] := by
  intro log _
  rw [List.foldl_nil, List.append_nil]
  rfl

theorem given (t : τ) (x : Except ε α) : Gives perform R t (given x) x [] := by
  intro log _
  simp [Transactions.given]

theorem transact (t : τ) (w : ω) :
    Gives perform R t (transact perform w : Session σ ω ε Unit) (.ok ()) [w] :=
  fun _ _ => rfl

theorem query {load : σ → Except ε α} {x : Except ε α} (h : ∀ s, R s t → load s = x) :
    Gives perform R t (query load) x [] := by
  intro log hlog
  simp [Transactions.query, h log.store hlog]

theorem bind (hsim : ∀ s t w, R s t → R (perform s w) (simulate t w)) {a : α} {y : Except ε β}
    {ws vs : List ω} (hm : Gives perform R t m (.ok a) ws)
    (hf : Gives perform R (ws.foldl simulate t) (f a) y vs) :
    Gives perform R t (m >>= f) y (ws ++ vs) := by
  intro log hlog
  have hnext := hf ⟨ws.foldl perform log.store, log.writes ++ ws⟩ (related_foldl hsim hlog ws)
  have hrun : (m >>= f) log = f a ⟨ws.foldl perform log.store, log.writes ++ ws⟩ := by
    simp only [Bind.bind, ExceptT.bind, ExceptT.mk, StateT.bind, hm log hlog]
    rfl
  rw [hrun, hnext, List.foldl_append, List.append_assoc]

theorem read (hsim : ∀ s t w, R s t → R (perform s w) (simulate t w)) {a : α} {y : Except ε β}
    {vs : List ω} (hm : Gives perform R t m (.ok a) []) (hf : Gives perform R t (f a) y vs) :
    Gives perform R t (m >>= f) y vs :=
  hm.bind hsim hf

theorem compute (hsim : ∀ s t w, R s t → R (perform s w) (simulate t w)) {a : α} {y : Except ε β}
    {ws : List ω} (hm : Gives perform R t m (.ok a) ws)
    (hf : Gives perform R (ws.foldl simulate t) (f a) y []) : Gives perform R t (m >>= f) y ws := by
  have hboth := hm.bind hsim hf
  rwa [List.append_nil] at hboth

theorem given_ok {a : α} {y : Except ε β} {ws : List ω} (hf : Gives perform R t (f a) y ws) :
    Gives perform R t (Transactions.given (.ok a) >>= f) y ws := hf

theorem fail {e : ε} {ws : List ω} (hm : Gives perform R t m (.error e) ws) :
    Gives perform R t (m >>= f) (.error e) ws := by
  intro log hlog
  simp only [Bind.bind, ExceptT.bind, ExceptT.mk, StateT.bind, hm log hlog]
  rfl

/-- On a new log the program's transactions are these. -/
theorem run_eq {x : Except ε α} {ws : List ω} (hm : Gives perform R t m x ws) {s : σ} (h : R s t) :
    Log.run m s = (x, ws) := by
  rw [Log.run, hm ⟨s, []⟩ h, List.nil_append]

end Gives
end Rules
end Transactions
