import P2pDdns.Runs

/-!
Parties that exchange messages through a network that keeps whatever was sent: a message may be
lost, delayed, reordered, or delivered any number of times. What a party may do depends on its
own state and on what was sent before; the surroundings may send messages of their own.
-/

set_option autoImplicit false

namespace Networks

variable {ι σ ε μ : Type*}

structure Config (ι σ μ : Type*) where
  party : ι → σ
  sent : List μ

inductive Turn (ι ε μ : Type*) where
  | acts (i : ι) (e : ε)
  | injects (m : μ)

variable [DecidableEq ι] (act : σ → ε → σ × List μ)

def Config.step (c : Config ι σ μ) : Turn ι ε μ → Config ι σ μ
  | .acts i e =>
    ⟨Function.update c.party i (act (c.party i) e).1, c.sent ++ (act (c.party i) e).2⟩
  | .injects m => ⟨c.party, c.sent ++ [m]⟩

/-- The turns that are allowed: `A` says what a party may do, `B` what the surroundings send. -/
def Config.Allows (A : List μ → σ → ε → Prop) (B : List μ → μ → Prop) (c : Config ι σ μ) :
    Turn ι ε μ → Prop
  | .acts i e => A c.sent (c.party i) e
  | .injects m => B c.sent m

/-- What a party may rely on of the messages sent, and has to guarantee of its own state and its
own messages. More messages take nothing away. -/
structure Guarantee (act : σ → ε → σ × List μ) (A : List μ → σ → ε → Prop)
    (B : List μ → μ → Prop) (P : List μ → σ → Prop) (Q : List μ → μ → Prop) : Prop where
  party_mono : ∀ sent more s, P sent s → P (sent ++ more) s
  message_mono : ∀ sent more m, Q sent m → Q (sent ++ more) m
  acts : ∀ sent s e, P sent s → (∀ m ∈ sent, Q sent m) → A sent s e →
    P (sent ++ (act s e).2) (act s e).1 ∧ ∀ m ∈ (act s e).2, Q (sent ++ (act s e).2) m
  injects : ∀ sent m, (∀ m ∈ sent, Q sent m) → B sent m → Q (sent ++ [m]) m

structure Holds (P : List μ → σ → Prop) (Q : List μ → μ → Prop) (c : Config ι σ μ) : Prop where
  parties : ∀ i, P c.sent (c.party i)
  messages : ∀ m ∈ c.sent, Q c.sent m

section
variable {act} {A : List μ → σ → ε → Prop} {B : List μ → μ → Prop} {P : List μ → σ → Prop}
  {Q : List μ → μ → Prop} {c : Config ι σ μ}

omit [DecidableEq ι] in
theorem Guarantee.messages_append (h : Guarantee act A B P Q) {sent more : List μ}
    (hsent : ∀ m ∈ sent, Q sent m) (hmore : ∀ m ∈ more, Q (sent ++ more) m) :
    ∀ m ∈ sent ++ more, Q (sent ++ more) m := by
  intro m hm
  rcases List.mem_append.mp hm with hm | hm
  · exact h.message_mono sent more m (hsent m hm)
  · exact hmore m hm

theorem Guarantee.step (h : Guarantee act A B P Q) (hc : Holds P Q c) {t : Turn ι ε μ}
    (hallows : c.Allows A B t) : Holds P Q (c.step act t) := by
  cases t with
  | acts i e =>
    obtain ⟨hparty, hmore⟩ := h.acts c.sent (c.party i) e (hc.parties i) hc.messages hallows
    refine ⟨fun j => ?_, h.messages_append hc.messages hmore⟩
    by_cases hj : j = i
    · subst hj
      simpa [Config.step] using hparty
    · simpa [Config.step, hj] using h.party_mono _ _ _ (hc.parties j)
  | injects m =>
    refine ⟨fun j => h.party_mono _ _ _ (hc.parties j), h.messages_append hc.messages ?_⟩
    intro m' hm'
    obtain rfl := List.mem_singleton.mp hm'
    exact h.injects _ _ hc.messages hallows

/-- In every run of allowed turns all guarantees hold at the end. -/
theorem Guarantee.run (h : Guarantee act A B P Q) (hc : Holds P Q c) {turns : List (Turn ι ε μ)}
    (hrun : Runs.Along (Config.step act) (Config.Allows A B) c turns) :
    Holds P Q (Runs.exec (Config.step act) c turns) :=
  Runs.invariant_along (I := Holds P Q) (fun _ _ hc hallows => h.step hc hallows) hc hrun

end
/-! A network in terms of another one: the parties are forgotten to parties of the other, and a
message stands for one of the other or for none. -/

section Simulation
variable {τ δ ν : Type*}

/-- The parties are those of the other network, and the messages stand for its messages. -/
structure Represents (state : τ → σ) (means : ν → Option μ) (d : Config ι τ ν)
    (c : Config ι σ μ) : Prop where
  parties : ∀ i, c.party i = state (d.party i)
  messages : ∀ m, m ∈ c.sent ↔ ∃ n ∈ d.sent, means n = some m

/-- Every allowed turn is one of the other network, or nothing new there. -/
structure Simulates (act : σ → ε → σ × List μ) (A : List μ → σ → ε → Prop)
    (B : List μ → μ → Prop) (act' : τ → δ → τ × List ν) (A' : List ν → τ → δ → Prop)
    (B' : List ν → ν → Prop) (state : τ → σ) (event : δ → ε) (means : ν → Option μ) : Prop where
  acts : ∀ sent s e, A' sent s e →
    (act (state s) (event e)).1 = state (act' s e).1 ∧
    ∀ m, m ∈ (act (state s) (event e)).2 ↔ ∃ n ∈ (act' s e).2, means n = some m
  allowed : ∀ sent sent' s e, (∀ m, m ∈ sent ↔ ∃ n ∈ sent', means n = some m) →
    A' sent' s e → A sent (state s) (event e)
  injects : ∀ sent sent' n m, (∀ m, m ∈ sent ↔ ∃ n ∈ sent', means n = some m) →
    B' sent' n → means n = some m → m ∈ sent ∨ B sent m

variable {act} {A : List μ → σ → ε → Prop} {B : List μ → μ → Prop} {act' : τ → δ → τ × List ν}
  {A' : List ν → τ → δ → Prop} {B' : List ν → ν → Prop} {state : τ → σ} {event : δ → ε}
  {means : ν → Option μ} {c : Config ι σ μ} {d : Config ι τ ν}

omit [DecidableEq ι] in
theorem exists_mem_append {sent more : List ν} {m : μ} :
    (∃ n ∈ sent ++ more, means n = some m) ↔
      (∃ n ∈ sent, means n = some m) ∨ ∃ n ∈ more, means n = some m := by
  simp only [List.mem_append, or_and_right, exists_or]

theorem Simulates.step (h : Simulates act A B act' A' B' state event means)
    (hr : Represents state means d c) {t : Turn ι δ ν} (hallows : d.Allows A' B' t) :
    ∃ turns : List (Turn ι ε μ), Runs.Along (Config.step act) (Config.Allows A B) c turns ∧
      Represents state means (d.step act' t) (Runs.exec (Config.step act) c turns) := by
  cases t with
  | acts i e =>
    refine ⟨[.acts i (event e)], ⟨?_, trivial⟩, ?_, ?_⟩
    · have hallowed := h.allowed c.sent d.sent (d.party i) e hr.messages hallows
      rwa [← hr.parties i] at hallowed
    · intro j
      by_cases hj : j = i
      · subst hj
        simpa [Config.step, hr.parties j] using (h.acts d.sent (d.party j) e hallows).1
      · simpa [Config.step, hj] using hr.parties j
    · intro m
      have hmore := (h.acts d.sent (d.party i) e hallows).2 m
      rw [← hr.parties i] at hmore
      rw [Runs.exec_cons, Runs.exec_nil, Config.step, Config.step, exists_mem_append,
        List.mem_append, hr.messages, hmore]
  | injects n =>
    have hnew : ∀ m, m ∈ c.sent ∨ means n = some m ↔ ∃ n' ∈ d.sent ++ [n], means n' = some m := by
      intro m
      simp only [exists_mem_append, hr.messages, List.mem_singleton, exists_eq_left]
    cases hn : means n with
    | none =>
      refine ⟨[], trivial, hr.parties, fun m => ?_⟩
      rw [Config.step, ← hnew m, hn]
      simp
    | some m₀ =>
      rcases h.injects c.sent d.sent n m₀ hr.messages hallows hn with hold | hallowed
      · refine ⟨[], trivial, hr.parties, fun m => ?_⟩
        rw [Config.step, ← hnew m, hn, Option.some.injEq]
        exact ⟨.inl, fun h => h.elim id fun heq => heq ▸ hold⟩
      · refine ⟨[.injects m₀], ⟨hallowed, trivial⟩, hr.parties, fun m => ?_⟩
        rw [Config.step, ← hnew m, hn, Option.some.injEq]
        simp [Config.step, eq_comm]

/-- Every run of allowed turns is one of the other network. -/
theorem Simulates.run (h : Simulates act A B act' A' B' state event means)
    (hr : Represents state means d c) {turns : List (Turn ι δ ν)}
    (hrun : Runs.Along (Config.step act') (Config.Allows A' B') d turns) :
    ∃ turns' : List (Turn ι ε μ), Runs.Along (Config.step act) (Config.Allows A B) c turns' ∧
      Represents state means (Runs.exec (Config.step act') d turns)
        (Runs.exec (Config.step act) c turns') := by
  induction turns generalizing c d with
  | nil => exact ⟨[], trivial, hr⟩
  | cons t turns ih =>
    obtain ⟨front, hfront, hr'⟩ := h.step hr hrun.1
    obtain ⟨back, hback, hr''⟩ := ih hr' hrun.2
    refine ⟨front ++ back, (Runs.along_append _).mpr ⟨hfront, hback⟩, ?_⟩
    rwa [Runs.exec_append]

end Simulation
end Networks
