import Mathlib.Data.List.Nodup
import P2pDdns.FiniteMaps

/-!
A finite map filled from a list of entries, each appending its values to those its key has
already: what the map holds under a key, when the order of the entries matters, and when a
value occurs twice.
-/

set_option autoImplicit false

namespace AppendedLists
open Std FiniteMaps

section Collect
variable {κ β : Type*} [Ord κ] [TransOrd κ]

def append (m : ExtTreeMap κ (List β)) (entry : κ × List β) : ExtTreeMap κ (List β) :=
  m.insert entry.1 (m.getD entry.1 [] ++ entry.2)

def collect (entries : List (κ × List β)) : ExtTreeMap κ (List β) := entries.foldl append ∅

def under [DecidableEq κ] (k : κ) (entries : List (κ × List β)) : List β :=
  (entries.filter fun entry => entry.1 = k).flatMap Prod.snd

omit [Ord κ] [TransOrd κ] in
theorem under_cons [DecidableEq κ] (k : κ) (entry : κ × List β) (entries : List (κ × List β)) :
    under k (entry :: entries) =
      if entry.1 = k then entry.2 ++ under k entries else under k entries := by
  by_cases hk : entry.1 = k <;> simp [under, hk]

omit [Ord κ] [TransOrd κ] in
theorem under_eq_nil [DecidableEq κ] {k : κ} {entries : List (κ × List β)}
    (h : k ∉ entries.map Prod.fst) : under k entries = [] := by
  have hnone : entries.filter (fun entry => decide (entry.1 = k)) = [] := by
    rw [List.filter_eq_nil_iff]
    intro entry hentry heq
    exact h (of_decide_eq_true heq ▸ List.mem_map_of_mem hentry)
  rw [under, hnone, List.flatMap_nil]

def values (m : ExtTreeMap κ (List β)) : List β := m.toList.flatMap Prod.snd

variable [LawfulEqOrd κ]

theorem getElem?_append [DecidableEq κ] (m : ExtTreeMap κ (List β)) (entry : κ × List β) (k : κ) :
    (append m entry)[k]? =
      if entry.1 = k then some (m.getD k [] ++ entry.2) else m[k]? := by
  split
  · rename_i hk
    rw [append, hk, getElem?_insert_self]
  · rename_i hk
    rw [append, getElem?_insert_ne _ _ hk]

theorem getElem?_foldl_append [DecidableEq κ] (entries : List (κ × List β))
    (m : ExtTreeMap κ (List β)) (k : κ) :
    (entries.foldl append m)[k]? =
      if k ∈ entries.map Prod.fst then some (m.getD k [] ++ under k entries) else m[k]? := by
  induction entries generalizing m with
  | nil => simp
  | cons entry entries ih =>
    rw [List.foldl_cons, ih, ExtTreeMap.getD_eq_getD_getElem?, getElem?_append, under_cons]
    simp only [List.map_cons, List.mem_cons]
    by_cases hk : entry.1 = k
    · by_cases hmem : k ∈ entries.map Prod.fst
      · simp [hk, hmem]
      · simp [hk, hmem, under_eq_nil hmem]
    · have hne : k ≠ entry.1 := Ne.symm hk
      simp only [hk, hne, if_false, false_or, ← ExtTreeMap.getD_eq_getD_getElem?]

theorem getElem?_collect [DecidableEq κ] (entries : List (κ × List β)) (k : κ) :
    (collect entries)[k]? =
      if k ∈ entries.map Prod.fst then some (under k entries) else none := by
  rw [collect, getElem?_foldl_append]
  simp

/-! The order of the entries. -/

/-- Entries with one key have the same values. -/
def Agree (entries : List (κ × List β)) : Prop :=
  ∀ a ∈ entries, ∀ b ∈ entries, a.1 = b.1 → a.2 = b.2

omit [Ord κ] [TransOrd κ] [LawfulEqOrd κ] in
theorem under_eq_of_perm [DecidableEq κ] {entries entries' : List (κ × List β)}
    (hperm : entries.Perm entries') (h : Agree entries) (k : κ) :
    under k entries = under k entries' := by
  induction hperm with
  | nil => rfl
  | @cons entry as bs _ ih =>
    have has : Agree as := fun a ha b hb =>
      h a (List.mem_cons_of_mem entry ha) b (List.mem_cons_of_mem entry hb)
    rw [under_cons, under_cons, ih has]
  | swap a b entries =>
    simp only [under_cons]
    by_cases ha : a.1 = k
    · by_cases hb : b.1 = k
      · have hsame : a.2 = b.2 := h a (by simp) b (by simp) (ha.trans hb.symm)
        simp [ha, hb, hsame]
      · simp [ha, hb]
    · simp [ha]
  | @trans as bs cs hab _ ih₁ ih₂ =>
    have hbs : Agree bs := fun a ha b hb => h a (hab.mem_iff.mpr ha) b (hab.mem_iff.mpr hb)
    exact (ih₁ h).trans (ih₂ hbs)

theorem collect_eq_of_perm [DecidableEq κ] {entries entries' : List (κ × List β)}
    (hperm : entries.Perm entries') (h : Agree entries) : collect entries = collect entries' := by
  apply ExtTreeMap.ext_getElem?
  intro k
  rw [getElem?_collect, getElem?_collect, under_eq_of_perm hperm h]
  simp only [(hperm.map Prod.fst).mem_iff]

theorem eq_of_collect_swap [DecidableEq κ] {a b : κ × List β} {rest : List (κ × List β)}
    (h : collect (a :: b :: rest) = collect (b :: a :: rest)) (hkey : a.1 = b.1)
    (hlen : a.2.length = b.2.length) : a.2 = b.2 := by
  have hunder := congrArg (fun m => m[b.1]?) h
  simp only [getElem?_collect, List.map_cons, List.mem_cons, under_cons, hkey, true_or, if_true,
    Option.some.injEq] at hunder
  exact (List.append_inj hunder hlen).1

/-! The values of all keys. -/

omit [LawfulEqOrd κ] in
theorem toList_nodup (m : ExtTreeMap κ (List β)) : m.toList.Nodup := by
  apply m.distinct_keys_toList.imp
  rintro a b hab rfl
  exact hab ReflCmp.compare_self

theorem values_perm (m : ExtTreeMap κ (List β)) (k : κ) :
    (values m).Perm (m.getD k [] ++ values (m.erase k)) := by
  rw [ExtTreeMap.getD_eq_getD_getElem?]
  cases hk : m[k]? with
  | none =>
    have hnot : k ∉ m := by
      rw [ExtTreeMap.mem_iff_isSome_getElem?, hk]
      simp
    rw [erase_eq_self_iff.mpr hnot]
    exact .refl _
  | some old =>
    have hperm : m.toList.Perm ((k, old) :: (m.erase k).toList) := by
      rw [List.perm_ext_iff_of_nodup (toList_nodup m)]
      · rintro ⟨a, as⟩
        rw [List.mem_cons, ExtTreeMap.mem_toList_iff_getElem?_eq_some,
          ExtTreeMap.mem_toList_iff_getElem?_eq_some, ExtTreeMap.getElem?_erase, Prod.mk.injEq]
        by_cases ha : k = a
        · subst ha
          simp [hk, eq_comm]
        · simp [ha, Ne.symm ha]
      · rw [List.nodup_cons]
        refine ⟨?_, toList_nodup _⟩
        rw [ExtTreeMap.mem_toList_iff_getElem?_eq_some]
        simp
    exact hperm.flatMap_right Prod.snd

theorem values_append (m : ExtTreeMap κ (List β)) (entry : κ × List β) :
    (values (append m entry)).Perm (values m ++ entry.2) := by
  have herase : (append m entry).erase entry.1 = m.erase entry.1 := by
    apply ExtTreeMap.ext_getElem?
    intro a
    by_cases ha : entry.1 = a
    · simp [append, ha]
    · simp [append, ExtTreeMap.getElem?_erase, ExtTreeMap.getElem?_insert, ha]
  have hget : (append m entry).getD entry.1 [] = m.getD entry.1 [] ++ entry.2 := by
    simp [append]
  have hnew := values_perm (append m entry) entry.1
  rw [herase, hget] at hnew
  refine hnew.trans (List.Perm.trans ?_ ((values_perm m entry.1).symm.append_right entry.2))
  rw [List.append_assoc, List.append_assoc]
  exact List.perm_append_comm.append_left _

theorem values_collect (entries : List (κ × List β)) :
    (values (collect entries)).Perm (entries.flatMap Prod.snd) := by
  have hfold : ∀ m : ExtTreeMap κ (List β),
      (values (entries.foldl append m)).Perm (values m ++ entries.flatMap Prod.snd) := by
    induction entries with
    | nil => simp
    | cons entry entries ih =>
      intro m
      rw [List.foldl_cons, List.flatMap_cons, ← List.append_assoc]
      exact (ih _).trans ((values_append m entry).append_right _)
  have hempty : values (∅ : ExtTreeMap κ (List β)) = [] := by
    rw [values, ExtTreeMap.toList_eq_nil_iff.mpr rfl, List.flatMap_nil]
  have hall := hfold ∅
  rwa [hempty, List.nil_append] at hall

/-! A map as its own entries. -/

theorem under_toList [DecidableEq κ] (m : ExtTreeMap κ (List β)) (k : κ) :
    under k m.toList = m.getD k [] := by
  rw [ExtTreeMap.getD_eq_getD_getElem?]
  cases hk : m[k]? with
  | none =>
    refine under_eq_nil fun hmem => ?_
    obtain ⟨⟨k', v⟩, hentry, rfl⟩ := List.mem_map.mp hmem
    rw [ExtTreeMap.mem_toList_iff_getElem?_eq_some.mp hentry] at hk
    contradiction
  | some v =>
    have hone : (m.toList.filter fun entry => entry.1 = k).Perm [(k, v)] := by
      rw [List.perm_ext_iff_of_nodup ((toList_nodup m).filter _) (by simp)]
      rintro ⟨k', v'⟩
      rw [List.mem_filter, ExtTreeMap.mem_toList_iff_getElem?_eq_some, decide_eq_true_eq,
        List.mem_singleton, Prod.mk.injEq]
      constructor
      · rintro ⟨hget, rfl⟩
        rw [hk] at hget
        exact ⟨rfl, (Option.some.inj hget).symm⟩
      · rintro ⟨rfl, rfl⟩
        exact ⟨hk, rfl⟩
    rw [under, List.perm_singleton.mp hone]
    simp

theorem mem_map_fst_toList {m : ExtTreeMap κ (List β)} {k : κ} :
    k ∈ m.toList.map Prod.fst ↔ m[k]?.isSome = true := by
  rw [List.mem_map]
  constructor
  · rintro ⟨⟨k', v⟩, hentry, rfl⟩
    rw [ExtTreeMap.mem_toList_iff_getElem?_eq_some.mp hentry]
    rfl
  · intro h
    obtain ⟨v, hv⟩ := Option.isSome_iff_exists.mp h
    exact ⟨(k, v), ExtTreeMap.mem_toList_iff_getElem?_eq_some.mpr hv, rfl⟩

theorem collect_eq [DecidableEq κ] {entries : List (κ × List β)} {m : ExtTreeMap κ (List β)}
    (hkeys : ∀ k, k ∈ entries.map Prod.fst ↔ k ∈ m.toList.map Prod.fst)
    (hunder : ∀ k, under k entries = under k m.toList) : collect entries = m := by
  apply ExtTreeMap.ext_getElem?
  intro k
  rw [getElem?_collect, hunder, under_toList, ExtTreeMap.getD_eq_getD_getElem?]
  simp only [hkeys, mem_map_fst_toList]
  cases m[k]? with
  | none => rfl
  | some v => rfl

def spread (entries : List (κ × List β)) : List (κ × List β) :=
  entries.flatMap fun entry => entry.2.map fun v => (entry.1, [v])

omit [Ord κ] [TransOrd κ] [LawfulEqOrd κ] in
theorem under_append [DecidableEq κ] (k : κ) (xs ys : List (κ × List β)) :
    under k (xs ++ ys) = under k xs ++ under k ys := by
  simp [under]

omit [Ord κ] [TransOrd κ] [LawfulEqOrd κ] in
theorem under_spread [DecidableEq κ] (k : κ) (entries : List (κ × List β)) :
    under k (spread entries) = under k entries := by
  have hone : ∀ entry : κ × List β, under k (entry.2.map fun v => (entry.1, [v])) =
      if entry.1 = k then entry.2 else [] := by
    rintro ⟨k', vs⟩
    dsimp only
    induction vs with
    | nil => simp [under]
    | cons v vs ih =>
      rw [List.map_cons, under_cons, ih]
      split
      · rfl
      · rfl
  induction entries with
  | nil => rfl
  | cons entry entries ih =>
    have hspread : spread (entry :: entries) =
        (entry.2.map fun v => (entry.1, [v])) ++ spread entries := List.flatMap_cons
    rw [hspread, under_append, ih, hone, under_cons]
    split
    · rfl
    · rfl

omit [Ord κ] [TransOrd κ] [LawfulEqOrd κ] in
theorem mem_map_fst_spread {k : κ} {entries : List (κ × List β)}
    (hne : ∀ entry ∈ entries, entry.2 ≠ []) :
    k ∈ (spread entries).map Prod.fst ↔ k ∈ entries.map Prod.fst := by
  simp only [spread, List.mem_map, List.mem_flatMap]
  constructor
  · rintro ⟨_, ⟨entry, hentry, v, -, rfl⟩, rfl⟩
    exact ⟨entry, hentry, rfl⟩
  · rintro ⟨entry, hentry, rfl⟩
    obtain ⟨v, vs, hv⟩ := List.exists_cons_of_ne_nil (hne entry hentry)
    exact ⟨(entry.1, [v]), ⟨entry, hentry, v, by simp [hv], rfl⟩, rfl⟩

end Collect
end AppendedLists
