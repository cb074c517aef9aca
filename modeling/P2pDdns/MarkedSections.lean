import Mathlib.Data.List.Basic

/-!
Lists with marked sections: the first elements that begin and end one, where they can lie
relative to each other, and what taking out the range between them leaves.
-/

set_option autoImplicit false

namespace MarkedSections

variable {α : Type*}

/-- The elements `i` to `j - 1` and the others, if that is a range of the list. -/
def drain? (l : List α) (i j : Nat) : Option (List α × List α) :=
  if i ≤ j ∧ j ≤ l.length then some ((l.take j).drop i, l.take i ++ l.drop j) else none

def insertAt (l : List α) (i : Nat) (new : List α) : List α := l.take i ++ new ++ l.drop i

theorem drain?_append (before section' after : List α) :
    drain? (before ++ section' ++ after) before.length (before.length + section'.length) =
      some (section', before ++ after) := by
  have hlen : before.length + section'.length = (before ++ section').length := by simp
  rw [drain?, if_pos (by simp), hlen, List.take_left, List.drop_left, List.drop_left]
  simp

theorem insertAt_append (before after new : List α) :
    insertAt (before ++ after) before.length new = before ++ new ++ after := by
  simp [insertAt]

theorem findIdx?_split {p : α → Bool} {before : List α} {a : α} (after : List α)
    (hbefore : ∀ x ∈ before, p x = false) (ha : p a = true) :
    (before ++ a :: after).findIdx? p = some before.length := by
  rw [List.findIdx?_append, List.findIdx?_eq_none_iff.mpr hbefore, List.findIdx?_cons, if_pos ha]
  simp

theorem exists_split {p : α → Bool} {l : List α} {i : Nat} (h : l.findIdx? p = some i) :
    ∃ before a after, l = before ++ a :: after ∧ before.length = i ∧ p a = true ∧
      ∀ x ∈ before, p x = false := by
  induction l generalizing i with
  | nil => simp at h
  | cons x xs ih =>
    rw [List.findIdx?_cons] at h
    split at h
    · rename_i hx
      obtain rfl := Option.some.inj h
      exact ⟨[], x, xs, rfl, rfl, hx, by simp⟩
    · rename_i hx
      obtain ⟨j, hj, rfl⟩ := Option.map_eq_some_iff.mp h
      obtain ⟨before, a, after, rfl, rfl, ha, hbefore⟩ := ih hj
      exact ⟨x :: before, a, after, rfl, rfl, ha, by simpa [hx] using hbefore⟩

section Layouts
variable (isBegin isEnd : α → Bool)

def Unmarked (l : List α) : Prop := ∀ x ∈ l, isBegin x = false ∧ isEnd x = false

instance (l : List α) : Decidable (Unmarked isBegin isEnd l) :=
  inferInstanceAs (Decidable (∀ x ∈ l, _))

/-- An element that begins a section is followed later by one that ends it. -/
def HasSection (l : List α) : Prop := ∃ b e, isBegin b = true ∧ isEnd e = true ∧ [b, e].Sublist l

/-- The first section is `section'`, from the first element that begins one to the first that
ends one. -/
structure Sectioned (l before section' after : List α) : Prop where
  split : l = before ++ section' ++ after
  unmarked : Unmarked isBegin isEnd before
  bounds : ∃ b mid e, section' = b :: (mid ++ [e]) ∧ isBegin b = true ∧ isEnd e = true ∧
    ∀ x ∈ b :: mid, isEnd x = false

/-- The first element that begins a section is right behind the first that ends one. -/
structure Adjacent (l before after : List α) : Prop where
  split : l = before ++ after
  ends : ∃ pre e, before = pre ++ [e] ∧ isEnd e = true ∧ Unmarked isBegin isEnd pre
  begins : ∃ b rest, after = b :: rest ∧ isBegin b = true

/-- The first element that begins a section is further behind the first that ends one. -/
def Reversed (l : List α) : Prop :=
  ∃ b e, l.findIdx? isBegin = some b ∧ l.findIdx? isEnd = some e ∧ e + 1 < b

def IsSection (section' : List α) : Prop :=
  ∃ b mid e, section' = b :: (mid ++ [e]) ∧ isBegin b = true ∧ isEnd e = true ∧
    Unmarked isBegin isEnd mid

/-- At most one section, and no other marker. -/
inductive Tidy : List α → List α → List α → List α → Prop where
  | unmarked {l : List α} : Unmarked isBegin isEnd l → Tidy l l [] []
  | section' {before section' after : List α} : Unmarked isBegin isEnd before →
      IsSection isBegin isEnd section' → Unmarked isBegin isEnd after →
      Tidy (before ++ section' ++ after) before section' after

def HasAdjacent (l : List α) : Prop := ∃ before after, Adjacent isBegin isEnd l before after

def Lone (l : List α) : Prop :=
  (∃ b, l.findIdx? isBegin = some b) ∧ l.findIdx? isEnd = none ∨
    l.findIdx? isBegin = none ∧ ∃ e, l.findIdx? isEnd = some e

variable {isBegin isEnd} {l before section' after : List α}

theorem Unmarked.indices (h : Unmarked isBegin isEnd l) :
    l.findIdx? isBegin = none ∧ l.findIdx? isEnd = none :=
  ⟨List.findIdx?_eq_none_iff.mpr fun x hx => (h x hx).1,
    List.findIdx?_eq_none_iff.mpr fun x hx => (h x hx).2⟩

theorem unmarked_append {l₁ l₂ : List α} :
    Unmarked isBegin isEnd (l₁ ++ l₂) ↔ Unmarked isBegin isEnd l₁ ∧ Unmarked isBegin isEnd l₂ :=
  List.forall_mem_append

theorem Sectioned.indices (h : Sectioned isBegin isEnd l before section' after) :
    l.findIdx? isBegin = some before.length ∧
      l.findIdx? isEnd = some (before.length + section'.length - 1) := by
  obtain ⟨b, mid, e, rfl, hb, he, hmid⟩ := h.bounds
  rw [h.split]
  constructor
  · have hsplit := findIdx?_split (p := isBegin) (mid ++ [e] ++ after)
      (fun x hx => (h.unmarked x hx).1) hb
    simpa using hsplit
  · have hnot : ∀ x ∈ before ++ b :: mid, isEnd x = false := by
      intro x hx
      rcases List.mem_append.mp hx with hx | hx
      · exact (h.unmarked x hx).2
      · exact hmid x hx
    have hsplit := findIdx?_split after hnot he
    simpa [Nat.add_assoc] using hsplit

theorem Adjacent.indices (hdisjoint : ∀ x, isBegin x = true → isEnd x = false)
    (h : Adjacent isBegin isEnd l before after) :
    ∃ k, before.length = k + 1 ∧ l.findIdx? isEnd = some k ∧ l.findIdx? isBegin = some (k+1) := by
  obtain ⟨pre, e, rfl, he, hpre⟩ := h.ends
  obtain ⟨b, rest, rfl, hb⟩ := h.begins
  rw [h.split]
  refine ⟨pre.length, by simp, ?_, ?_⟩
  · have hsplit := findIdx?_split (b :: rest) (fun x hx => (hpre x hx).2) he
    simpa using hsplit
  · have hnot : ∀ x ∈ pre ++ [e], isBegin x = false := by
      intro x hx
      rcases List.mem_append.mp hx with hx | hx
      · exact (hpre x hx).1
      · obtain rfl := List.mem_singleton.mp hx
        by_contra hbegin
        rw [Bool.not_eq_false] at hbegin
        rw [hdisjoint x hbegin] at he
        contradiction
    simpa using findIdx?_split rest hnot hb

theorem Sectioned.hasSection (h : Sectioned isBegin isEnd l before section' after) :
    HasSection isBegin isEnd l := by
  obtain ⟨b, mid, e, rfl, hb, he, -⟩ := h.bounds
  refine ⟨b, e, hb, he, ?_⟩
  rw [h.split, List.append_assoc]
  refine List.Sublist.trans ?_ (List.sublist_append_right before _)
  refine List.Sublist.trans ?_ (List.sublist_append_left _ after)
  exact List.cons_sublist_cons.mpr (List.sublist_append_right mid [e])

theorem split_at_end {k e : Nat} (hend : l.findIdx? isEnd = some e)
    (hbegin : l.findIdx? isBegin = some k) :
    ∃ pre x post, l = pre ++ x :: post ∧ pre.length = e ∧ isEnd x = true ∧
      (∀ y ∈ pre, isEnd y = false) ∧
      (pre.findIdx? isBegin = some k ∧ k < e ∨
        (∀ y ∈ pre, isBegin y = false) ∧
          ∃ j, (x :: post).findIdx? isBegin = some j ∧ k = j + e) := by
  obtain ⟨pre, x, post, rfl, rfl, hx, hpre⟩ := exists_split hend
  refine ⟨pre, x, post, rfl, rfl, hx, hpre, ?_⟩
  rw [List.findIdx?_append] at hbegin
  cases hfirst : pre.findIdx? isBegin with
  | some i =>
    rw [hfirst] at hbegin
    obtain rfl := Option.some.inj hbegin
    obtain ⟨before, b, after, rfl, rfl, -⟩ := exists_split hfirst
    exact .inl ⟨rfl, by simp⟩
  | none =>
    rw [hfirst, Option.none_or, Option.map_eq_some_iff] at hbegin
    obtain ⟨j, hj, rfl⟩ := hbegin
    exact .inr ⟨List.findIdx?_eq_none_iff.mp hfirst, j, hj, rfl⟩

theorem layout_cases (hdisjoint : ∀ x, isBegin x = true → isEnd x = false) (l : List α) :
    Unmarked isBegin isEnd l ∨
      (∃ before section' after, Sectioned isBegin isEnd l before section' after) ∨
      (∃ before after, Adjacent isBegin isEnd l before after) ∨ Reversed isBegin isEnd l ∨
      Lone isBegin isEnd l := by
  cases hbegin : l.findIdx? isBegin with
  | none =>
    cases hend : l.findIdx? isEnd with
    | none =>
      left
      exact fun x hx =>
        ⟨List.findIdx?_eq_none_iff.mp hbegin x hx, List.findIdx?_eq_none_iff.mp hend x hx⟩
    | some e => exact .inr (.inr (.inr (.inr (.inr ⟨hbegin, e, hend⟩))))
  | some k =>
    cases hend : l.findIdx? isEnd with
    | none => exact .inr (.inr (.inr (.inr (.inl ⟨⟨k, hbegin⟩, hend⟩))))
    | some e =>
      right
      obtain ⟨pre, x, post, rfl, rfl, hx, hpre, hwhere⟩ := split_at_end hend hbegin
      have hxbegin : isBegin x = false := by
        by_contra h
        rw [Bool.not_eq_false] at h
        rw [hdisjoint x h] at hx
        contradiction
      rcases hwhere with ⟨hfirst, -⟩ | ⟨hnone, j, hj, rfl⟩
      · obtain ⟨before, b, mid, rfl, -, hb, hbefore⟩ := exists_split hfirst
        refine .inl ⟨before, b :: (mid ++ [x]), post, ⟨by simp, ?_, b, mid, x, rfl, hb, hx, ?_⟩⟩
        · exact fun y hy => ⟨hbefore y hy, hpre y (List.mem_append_left _ hy)⟩
        · exact fun y hy => hpre y (List.mem_append_right _ hy)
      · rw [List.findIdx?_cons, hxbegin] at hj
        obtain ⟨i, hi, rfl⟩ := Option.map_eq_some_iff.mp hj
        obtain ⟨before, b, after, rfl, rfl, hb, -⟩ := exists_split hi
        right
        cases before with
        | nil =>
          exact .inl ⟨pre ++ [x], b :: after, ⟨by simp, ⟨pre, x, rfl, hx,
            fun y hy => ⟨hnone y hy, hpre y hy⟩⟩, b, after, rfl, hb⟩⟩
        | cons y before => exact .inr (.inl ⟨_, _, hbegin, hend, by simp; omega⟩)

theorem adjacent_iff_indices (hdisjoint : ∀ x, isBegin x = true → isEnd x = false) {l : List α} :
    HasAdjacent isBegin isEnd l ↔
      ∃ k, l.findIdx? isEnd = some k ∧ l.findIdx? isBegin = some (k+1) := by
  constructor
  · rintro ⟨before, after, h⟩
    obtain ⟨k, -, hend, hbegin⟩ := h.indices hdisjoint
    exact ⟨k, hend, hbegin⟩
  · rintro ⟨k, hend, hbegin⟩
    rcases layout_cases hdisjoint l with h | ⟨before, section', after, h⟩ | h | h | h
    · simp [h.indices.1] at hbegin
    · obtain ⟨b, mid, e, rfl, -⟩ := h.bounds
      have hb := h.indices.1.symm.trans hbegin
      have he := h.indices.2.symm.trans hend
      simp only [Option.some.injEq, List.length_cons, List.length_append] at hb he
      omega
    · exact h
    · obtain ⟨b, e, hb, he, hlt⟩ := h
      have hb' := hb.symm.trans hbegin
      have he' := he.symm.trans hend
      simp only [Option.some.injEq] at hb' he'
      omega
    · rcases h with ⟨-, hnone⟩ | ⟨hnone, -⟩
      · simp [hnone] at hend
      · simp [hnone] at hbegin

theorem hasAdjacent_map (hdisjoint : ∀ x, isBegin x = true → isEnd x = false) {f : α → α}
    (hbegin : ∀ x, isBegin (f x) = isBegin x) (hend : ∀ x, isEnd (f x) = isEnd x) {l : List α} :
    HasAdjacent isBegin isEnd (l.map f) ↔ HasAdjacent isBegin isEnd l := by
  rw [adjacent_iff_indices hdisjoint, adjacent_iff_indices hdisjoint, List.findIdx?_map,
    List.findIdx?_map, funext hbegin (f := isBegin ∘ f), funext hend (f := isEnd ∘ f)]

theorem unmarked_map {f : α → α} (hbegin : ∀ x, isBegin (f x) = isBegin x)
    (hend : ∀ x, isEnd (f x) = isEnd x) {l : List α} :
    Unmarked isBegin isEnd (l.map f) ↔ Unmarked isBegin isEnd l := by
  simp only [Unmarked, List.forall_mem_map, hbegin, hend]

theorem Adjacent.map {f : α → α} (hbegin : ∀ x, isBegin (f x) = isBegin x)
    (hend : ∀ x, isEnd (f x) = isEnd x) (h : Adjacent isBegin isEnd l before after) :
    Adjacent isBegin isEnd (l.map f) (before.map f) (after.map f) := by
  obtain ⟨pre, e, rfl, he, hpre⟩ := h.ends
  obtain ⟨b, rest, rfl, hb⟩ := h.begins
  exact ⟨by simp [h.split],
    ⟨pre.map f, f e, by simp, (hend e).trans he, (unmarked_map hbegin hend).mpr hpre⟩,
    ⟨f b, rest.map f, by simp, (hbegin b).trans hb⟩⟩

theorem Unmarked.not_hasAdjacent (h : Unmarked isBegin isEnd l) : ¬HasAdjacent isBegin isEnd l := by
  rintro ⟨before, after, hadjacent⟩
  obtain ⟨pre, e, rfl, he, -⟩ := hadjacent.ends
  have hmem : e ∈ l := hadjacent.split ▸ by simp
  simp [(h e hmem).2] at he

theorem Unmarked.not_sectioned (h : Unmarked isBegin isEnd l) :
    ¬Sectioned isBegin isEnd l before section' after := by
  intro hsection
  simpa [h.indices.1] using hsection.indices.1

theorem Sectioned.not_hasAdjacent (hdisjoint : ∀ x, isBegin x = true → isEnd x = false)
    (h : Sectioned isBegin isEnd l before section' after) : ¬HasAdjacent isBegin isEnd l := by
  intro hadjacent
  obtain ⟨k, hend, hbegin⟩ := (adjacent_iff_indices hdisjoint).mp hadjacent
  obtain ⟨b, mid, e, rfl, -⟩ := h.bounds
  have hb := h.indices.1.symm.trans hbegin
  have he := h.indices.2.symm.trans hend
  simp only [Option.some.injEq, List.length_cons, List.length_append] at hb he
  omega

theorem Sectioned.ne_nil (h : Sectioned isBegin isEnd l before section' after) : section' ≠ [] := by
  obtain ⟨b, mid, e, rfl, -⟩ := h.bounds
  simp

theorem Sectioned.unique {before₂ section₂ after₂ : List α}
    (h : Sectioned isBegin isEnd l before section' after)
    (h₂ : Sectioned isBegin isEnd l before₂ section₂ after₂) :
    before₂ = before ∧ section₂ = section' ∧ after₂ = after := by
  have hbegin := Option.some.inj (h₂.indices.1.symm.trans h.indices.1)
  have hend := Option.some.inj (h₂.indices.2.symm.trans h.indices.2)
  have hpos := List.length_pos_of_ne_nil h.ne_nil
  have hpos₂ := List.length_pos_of_ne_nil h₂.ne_nil
  have hsplit := h₂.split.symm.trans h.split
  rw [List.append_assoc, List.append_assoc] at hsplit
  obtain ⟨hbefore, hrest⟩ := List.append_inj hsplit hbegin
  obtain ⟨hsection, hafter⟩ := List.append_inj hrest (by omega)
  exact ⟨hbefore, hsection, hafter⟩

theorem IsSection.ne_nil (h : IsSection isBegin isEnd section') : section' ≠ [] := by
  obtain ⟨b, mid, e, rfl, -⟩ := h
  simp

theorem IsSection.sectioned (hdisjoint : ∀ x, isBegin x = true → isEnd x = false)
    (h : IsSection isBegin isEnd section') (hbefore : Unmarked isBegin isEnd before)
    (after : List α) :
    Sectioned isBegin isEnd (before ++ section' ++ after) before section' after := by
  obtain ⟨b, mid, e, hsection, hb, he, hmid⟩ := h
  exact ⟨rfl, hbefore, b, mid, e, hsection, hb, he,
    List.forall_mem_cons.mpr ⟨hdisjoint b hb, fun x hx => (hmid x hx).2⟩⟩

theorem Adjacent.insert (h : Adjacent isBegin isEnd l before after)
    (hsection : IsSection isBegin isEnd section') :
    Adjacent isBegin isEnd (before ++ section' ++ after) before (section' ++ after) := by
  obtain ⟨b, mid, e, rfl, hb, -⟩ := hsection
  exact ⟨List.append_assoc .., h.ends, b, mid ++ [e] ++ after, rfl, hb⟩

end Layouts
end MarkedSections
