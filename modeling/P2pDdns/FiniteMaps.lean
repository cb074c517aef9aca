import Mathlib.Data.List.Basic
import Mathlib.Order.Compare
import Std.Data.ExtTreeMap

/-!
Looking an entry up after a list of keys was erased from a finite map, or after
a list of values was inserted, each under a key computed from it; and lists that
hold every value once.
-/

set_option autoImplicit false

namespace FiniteMaps
open Std

variable {κ ν : Type*} [Ord κ] [TransOrd κ] [LawfulEqOrd κ]

theorem getElem?_insert_self (m : ExtTreeMap κ ν) (k : κ) (v : ν) : (m.insert k v)[k]? = some v := by
  simp

theorem getElem?_insert_ne (m : ExtTreeMap κ ν) {k a : κ} (v : ν) (h : k ≠ a) :
    (m.insert k v)[a]? = m[a]? := by
  simp [ExtTreeMap.getElem?_insert, h]

theorem getElem?_insert_cases {m : ExtTreeMap κ ν} {k a : κ} {v w : ν}
    (h : (m.insert k v)[a]? = some w) : (k = a ∧ v = w) ∨ (k ≠ a ∧ m[a]? = some w) := by
  by_cases hk : k = a
  · subst hk
    rw [getElem?_insert_self] at h
    exact .inl ⟨rfl, Option.some.inj h⟩
  · rw [getElem?_insert_ne _ _ hk] at h
    exact .inr ⟨hk, h⟩

theorem getElem?_erase_cases {m : ExtTreeMap κ ν} {k a : κ} {w : ν}
    (h : (m.erase k)[a]? = some w) : k ≠ a ∧ m[a]? = some w := by
  by_cases hk : k = a
  · subst hk
    simp at h
  · simp only [ExtTreeMap.getElem?_erase, LawfulEqOrd.compare_eq_iff_eq, hk, if_false] at h
    exact ⟨hk, h⟩

theorem forall_insert {P : κ → ν → Prop} {m : ExtTreeMap κ ν} (h : ∀ a w, m[a]? = some w → P a w)
    {k : κ} {v : ν} (hv : P k v) : ∀ a w, (m.insert k v)[a]? = some w → P a w := by
  intro a w hw
  rcases getElem?_insert_cases hw with ⟨rfl, rfl⟩ | ⟨-, hw⟩
  · exact hv
  · exact h a w hw

theorem forall_erase {P : κ → ν → Prop} {m : ExtTreeMap κ ν} (h : ∀ a w, m[a]? = some w → P a w)
    (k : κ) : ∀ a w, (m.erase k)[a]? = some w → P a w :=
  fun a w hw => h a w (getElem?_erase_cases hw).2

theorem getElem?_erase_eq [DecidableEq κ] (m : ExtTreeMap κ ν) (k a : κ) :
    (m.erase k)[a]? = if a = k then none else m[a]? := by
  rw [ExtTreeMap.getElem?_erase]
  simp only [LawfulEqOrd.compare_eq_iff_eq, @eq_comm _ a]

omit [LawfulEqOrd κ] in
theorem mem_of_getElem? {m : ExtTreeMap κ ν} {k : κ} {v : ν} (h : m[k]? = some v) : k ∈ m := by
  rw [ExtTreeMap.mem_iff_isSome_getElem?, h]
  rfl

omit [LawfulEqOrd κ] in
theorem exists_getElem? {m : ExtTreeMap κ ν} {k : κ} (h : k ∈ m) : ∃ v, m[k]? = some v := by
  rw [ExtTreeMap.mem_iff_isSome_getElem?] at h
  exact Option.isSome_iff_exists.mp h

theorem insert_eq_self_iff {m : ExtTreeMap κ ν} {k : κ} {v : ν} :
    m.insert k v = m ↔ m[k]? = some v := by
  constructor
  · intro h
    rw [← h]
    exact getElem?_insert_self _ _ _
  · intro h
    apply ExtTreeMap.ext_getElem?
    intro a
    by_cases ha : k = a
    · subst ha
      rw [getElem?_insert_self, h]
    · exact getElem?_insert_ne _ _ ha

theorem erase_eq_self_iff {m : ExtTreeMap κ ν} {k : κ} : m.erase k = m ↔ k ∉ m := by
  constructor
  · intro h hmem
    rw [← h] at hmem
    simp at hmem
  · intro h
    apply ExtTreeMap.ext_getElem?
    intro a
    rw [ExtTreeMap.getElem?_erase]
    split
    · rename_i ha
      rw [LawfulEqOrd.compare_eq_iff_eq] at ha
      subst ha
      exact (ExtTreeMap.getElem?_eq_none h).symm
    · rfl

theorem ofList_toList [DecidableEq κ] (m : ExtTreeMap κ ν) : ExtTreeMap.ofList m.toList = m := by
  apply ExtTreeMap.ext_getElem?
  intro k
  cases hk : m[k]? with
  | some v =>
    exact ExtTreeMap.getElem?_ofList_of_mem ReflCmp.compare_self m.distinct_keys_toList
      (ExtTreeMap.mem_toList_iff_getElem?_eq_some.mpr hk)
  | none =>
    apply ExtTreeMap.getElem?_ofList_of_contains_eq_false
    rw [List.contains_eq_mem, decide_eq_false_iff_not]
    intro hmem
    obtain ⟨⟨a, v⟩, hentry, rfl⟩ := List.mem_map.mp hmem
    rw [ExtTreeMap.mem_toList_iff_getElem?_eq_some.mp hentry] at hk
    contradiction

def insertAll (key : ν → κ) (m : ExtTreeMap κ ν) (vs : List ν) : ExtTreeMap κ ν :=
  vs.foldl (fun m v => m.insert (key v) v) m

theorem getElem?_insertAll_cases {key : ν → κ} {m : ExtTreeMap κ ν} {vs : List ν} {a : κ} {w : ν}
    (h : (insertAll key m vs)[a]? = some w) : (w ∈ vs ∧ key w = a) ∨ m[a]? = some w := by
  induction vs generalizing m with
  | nil => exact .inr h
  | cons v vs ih =>
    rcases ih h with ⟨hmem, hkey⟩ | hm
    · exact .inl ⟨List.mem_cons_of_mem v hmem, hkey⟩
    · rcases getElem?_insert_cases hm with ⟨hk, rfl⟩ | ⟨-, hm⟩
      · exact .inl ⟨List.mem_cons_self, hk⟩
      · exact .inr hm

theorem mem_insertAll {key : ν → κ} {m : ExtTreeMap κ ν} {vs : List ν} {a : κ} :
    a ∈ insertAll key m vs ↔ a ∈ m ∨ ∃ v ∈ vs, key v = a := by
  induction vs generalizing m with
  | nil => simp [insertAll]
  | cons v vs ih =>
    have hrec := ih (m := m.insert (key v) v)
    rw [ExtTreeMap.mem_insert, LawfulEqOrd.compare_eq_iff_eq] at hrec
    constructor
    · intro h
      rcases hrec.mp h with (h | h) | ⟨w, hw, h⟩
      · exact .inr ⟨v, List.mem_cons_self, h⟩
      · exact .inl h
      · exact .inr ⟨w, List.mem_cons_of_mem v hw, h⟩
    · rintro (h | ⟨w, hw, h⟩)
      · exact hrec.mpr (.inl (.inr h))
      · rcases List.mem_cons.mp hw with rfl | hw
        · exact hrec.mpr (.inl (.inl h))
        · exact hrec.mpr (.inr ⟨w, hw, h⟩)

theorem getElem?_insertAll_of_not_mem {key : ν → κ} {m : ExtTreeMap κ ν} {vs : List ν} {a : κ}
    (h : ∀ v ∈ vs, key v ≠ a) : (insertAll key m vs)[a]? = m[a]? := by
  induction vs generalizing m with
  | nil => rfl
  | cons v vs ih =>
    refine (ih fun w hw => h w (List.mem_cons_of_mem v hw)).trans ?_
    exact getElem?_insert_ne _ _ (h v List.mem_cons_self)

theorem getElem?_insertAll_of_mem {key : ν → κ} {m : ExtTreeMap κ ν} {vs : List ν} {v : ν}
    (hkeys : ∀ w ∈ vs, key w = key v → w = v) (h : v ∈ vs) :
    (insertAll key m vs)[key v]? = some v := by
  induction vs generalizing m with
  | nil => simp at h
  | cons w vs ih =>
    have hrest : ∀ u ∈ vs, key u = key v → u = v :=
      fun u hu => hkeys u (List.mem_cons_of_mem w hu)
    by_cases hv : v ∈ vs
    · exact ih hrest hv
    · obtain rfl : v = w := (List.mem_cons.mp h).resolve_right hv
      have hlast : (insertAll key (m.insert (key v) v) vs)[key v]? = (m.insert (key v) v)[key v]? :=
        getElem?_insertAll_of_not_mem fun u hu heq => hv (hrest u hu heq ▸ hu)
      exact hlast.trans (getElem?_insert_self _ _ _)

def eraseAll (m : ExtTreeMap κ ν) (ks : List κ) : ExtTreeMap κ ν :=
  ks.foldl (fun m k => m.erase k) m

theorem getElem?_eraseAll {m : ExtTreeMap κ ν} {ks : List κ} {a : κ} {w : ν} :
    (eraseAll m ks)[a]? = some w ↔ a ∉ ks ∧ m[a]? = some w := by
  induction ks generalizing m with
  | nil => simp [eraseAll]
  | cons k ks ih =>
    have hrec := ih (m := m.erase k)
    constructor
    · intro h
      obtain ⟨hks, hm⟩ := hrec.mp h
      obtain ⟨hk, hm⟩ := getElem?_erase_cases hm
      exact ⟨by simp [hks, Ne.symm hk], hm⟩
    · rintro ⟨hks, hm⟩
      simp only [List.mem_cons, not_or] at hks
      refine hrec.mpr ⟨hks.2, ?_⟩
      simpa [ExtTreeMap.getElem?_erase, Ne.symm hks.1] using hm

/-! A list in which every value found is written down once. -/

section Found
variable {α : Type} [BEq α] [LawfulBEq α]

theorem foldl_addNew_nodup {found more : List α} (h : found.Nodup) :
    (more.foldl (fun found a => if found.contains a then found else found ++ [a]) found).Nodup := by
  induction more generalizing found with
  | nil => exact h
  | cons a more ih =>
    rw [List.foldl_cons]
    split
    · exact ih h
    · rename_i hnew
      rw [List.contains_iff_mem] at hnew
      refine ih (List.nodup_append.mpr ⟨h, List.pairwise_singleton _ a, ?_⟩)
      intro b hb c hc
      rw [List.mem_singleton] at hc
      rintro rfl
      exact hnew (hc ▸ hb)

theorem mem_foldl_addNew {found more : List α} {b : α} :
    b ∈ more.foldl (fun found a => if found.contains a then found else found ++ [a]) found ↔
      b ∈ found ∨ b ∈ more := by
  induction more generalizing found with
  | nil => simp
  | cons a more ih =>
    rw [List.foldl_cons, ih, List.mem_cons]
    split
    · rename_i hold
      rw [List.contains_iff_mem] at hold
      constructor
      · exact Or.imp_right .inr
      · rintro (h | rfl | h)
        · exact .inl h
        · exact .inl hold
        · exact .inr h
    · rw [List.mem_append, List.mem_singleton, or_assoc]

end Found

end FiniteMaps
