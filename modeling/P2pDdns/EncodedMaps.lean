import P2pDdns.FiniteMaps

/-!
A finite map kept under written keys: what is stored reads as the map. Insertion and removal under
the written key keep that, and all entries read together are the entries of the map.
-/

set_option autoImplicit false

namespace EncodedMaps
open Std FiniteMaps

variable {κ ν σ β : Type*} [Ord κ] [TransOrd κ] [LawfulEqOrd κ] [Ord σ] [TransOrd σ] [LawfulEqOrd σ]

/-- Each stored entry is that of a key of the map, and reads as what the map has there. -/
structure Reads (key : κ → σ) (read : β → Option ν) (stored : ExtTreeMap σ β)
    (m : ExtTreeMap κ ν) : Prop where
  found : ∀ k : κ, stored[key k]?.bind read = m[k]?
  known : ∀ (s : σ) (b : β), stored[s]? = some b → ∃ k ∈ m, key k = s

namespace Reads
variable {key : κ → σ} {read : β → Option ν} {stored : ExtTreeMap σ β} {m m' : ExtTreeMap κ ν}

omit [LawfulEqOrd κ] [LawfulEqOrd σ] in
theorem empty (key : κ → σ) (read : β → Option ν) :
    Reads key read (∅ : ExtTreeMap σ β) (∅ : ExtTreeMap κ ν) := by
  constructor
  · intro k
    simp
  · intro s b h
    simp at h

omit [LawfulEqOrd σ] in
theorem unique (h : Reads key read stored m) (h' : Reads key read stored m') : m = m' := by
  apply ExtTreeMap.ext_getElem?
  intro k
  rw [← h.found k, h'.found k]

theorem insert (h : Reads key read stored m) (hkey : Function.Injective key) {k : κ} {v : ν} {b : β}
    (hread : read b = some v) : Reads key read (stored.insert (key k) b) (m.insert k v) := by
  constructor
  · intro a
    by_cases ha : k = a
    · subst ha
      rw [getElem?_insert_self, getElem?_insert_self, Option.bind_some, hread]
    · rw [getElem?_insert_ne _ _ ha, getElem?_insert_ne _ _ fun heq => ha (hkey heq), h.found]
  · intro s c hs
    rcases getElem?_insert_cases hs with ⟨rfl, -⟩ | ⟨-, hs⟩
    · exact ⟨k, by simp, rfl⟩
    · obtain ⟨a, ha, rfl⟩ := h.known s c hs
      exact ⟨a, by simp [ha], rfl⟩

theorem erase [DecidableEq κ] [DecidableEq σ] (h : Reads key read stored m)
    (hkey : Function.Injective key) (k : κ) :
    Reads key read (stored.erase (key k)) (m.erase k) := by
  constructor
  · intro a
    rw [getElem?_erase_eq, getElem?_erase_eq]
    by_cases ha : a = k
    · simp [ha]
    · rw [if_neg ha, if_neg fun heq => ha (hkey heq), h.found]
  · intro s c hs
    obtain ⟨hne, hs⟩ := getElem?_erase_cases hs
    obtain ⟨a, ha, rfl⟩ := h.known s c hs
    refine ⟨a, ?_, rfl⟩
    have hak : ¬ k = a := fun heq => hne (congrArg key heq)
    simp [hak, ha]

theorem insertAll (h : Reads key read stored m) (hkey : Function.Injective key) {ω : Type*}
    {keyOf : ω → κ} {write : ω → β} {value : ω → ν} (hread : ∀ w, read (write w) = some (value w))
    (ws : List ω) :
    Reads key read (ws.foldl (fun stored w => stored.insert (key (keyOf w)) (write w)) stored)
      (ws.foldl (fun m w => m.insert (keyOf w) (value w)) m) := by
  induction ws generalizing stored m with
  | nil => exact h
  | cons w ws ih => exact ih (h.insert hkey (hread w))

omit [LawfulEqOrd κ] [LawfulEqOrd σ] in
theorem readable (h : Reads key read stored m) {s : σ} {b : β} (hs : stored[s]? = some b) :
    ∃ k v, key k = s ∧ m[k]? = some v ∧ read b = some v := by
  obtain ⟨k, hk, rfl⟩ := h.known s b hs
  obtain ⟨v, hv⟩ := exists_getElem? hk
  have hfound := h.found k
  rw [hs, hv, Option.bind_some] at hfound
  exact ⟨k, v, rfl, hv, hfound⟩

end Reads

theorem mapM_readable {ε : Type*} {f : β → Except ε ν} {bs : List β}
    (h : ∀ b ∈ bs, ∃ v, f b = .ok v) :
    ∃ vs, bs.mapM f = .ok vs ∧ ∀ v, v ∈ vs ↔ ∃ b ∈ bs, f b = .ok v := by
  induction bs with
  | nil => exact ⟨[], rfl, by simp⟩
  | cons b bs ih =>
    obtain ⟨v, hv⟩ := h b List.mem_cons_self
    obtain ⟨vs, hvs, hmem⟩ := ih fun c hc => h c (List.mem_cons_of_mem b hc)
    refine ⟨v :: vs, ?_, fun w => ?_⟩
    · rw [List.mapM_cons, hv, hvs]
      rfl
    · simp only [List.mem_cons, hmem, exists_eq_or_imp, hv, Except.ok.injEq, @eq_comm _ w]

omit [LawfulEqOrd κ] in
theorem Reads.values {key : κ → σ} {read : β → Option ν} {stored : ExtTreeMap σ β}
    {m : ExtTreeMap κ ν} (h : Reads key read stored m) {ε : Type*} (error : ε) :
    ∃ vs, (stored.toList.mapM fun entry => (read entry.2).elim (Except.error error) Except.ok) =
        .ok vs ∧
      ∀ v, v ∈ vs ↔ ∃ k : κ, m[k]? = some v := by
  have hreadable : ∀ entry ∈ stored.toList,
      ∃ v, (read entry.2).elim (Except.error error) Except.ok = .ok v := by
    intro entry hentry
    rw [ExtTreeMap.mem_toList_iff_getElem?_eq_some] at hentry
    obtain ⟨k, v, -, -, hread⟩ := h.readable hentry
    exact ⟨v, by rw [hread]; rfl⟩
  obtain ⟨vs, hvs, hmem⟩ := mapM_readable hreadable
  refine ⟨vs, hvs, fun v => (hmem v).trans ?_⟩
  constructor
  · rintro ⟨⟨s, b⟩, hentry, hv⟩
    rw [ExtTreeMap.mem_toList_iff_getElem?_eq_some] at hentry
    obtain ⟨k, w, -, hw, hread⟩ := h.readable hentry
    rw [hread] at hv
    obtain rfl := Except.ok.inj hv
    exact ⟨k, hw⟩
  · rintro ⟨k, hk⟩
    have hfound := h.found k
    rw [hk] at hfound
    obtain ⟨b, hb, hread⟩ := Option.bind_eq_some_iff.mp hfound
    exact ⟨(key k, b), ExtTreeMap.mem_toList_iff_getElem?_eq_some.mpr hb, by rw [hread]; rfl⟩

theorem insertAll_values {keyOf : ν → κ} {m : ExtTreeMap κ ν}
    (hkeyed : ∀ (k : κ) (v : ν), m[k]? = some v → keyOf v = k) {vs : List ν}
    (hvs : ∀ v, v ∈ vs ↔ ∃ k : κ, m[k]? = some v) : FiniteMaps.insertAll keyOf ∅ vs = m := by
  apply ExtTreeMap.ext_getElem?
  intro k
  cases hk : m[k]? with
  | some v =>
    obtain rfl := hkeyed k v hk
    refine getElem?_insertAll_of_mem ?_ ((hvs v).mpr ⟨_, hk⟩)
    intro w hw heq
    obtain ⟨a, ha⟩ := (hvs w).mp hw
    rw [← hkeyed a w ha, heq, hk] at ha
    exact (Option.some.inj ha).symm
  | none =>
    refine (getElem?_insertAll_of_not_mem ?_).trans (by simp)
    rintro v hv rfl
    obtain ⟨a, ha⟩ := (hvs v).mp hv
    rw [hkeyed a v ha, ha] at hk
    contradiction

end EncodedMaps
