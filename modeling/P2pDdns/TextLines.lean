import Mathlib.Data.List.DropRight

/-!
Text files as sequences of lines: bytes read line by line, each line decoded as UTF-8
and stripped of its ending, and lines written back with a newline after each.
-/

set_option autoImplicit false

namespace TextLines

/-! Lists cut after each separator. -/

section Prepend
variable {α : Type*}

def prepend (xs : List α) : List (List α) → List (List α)
  | [] => [xs]
  | piece :: pieces => (xs ++ piece) :: pieces

theorem flatten_prepend (xs : List α) (pieces : List (List α)) :
    (prepend xs pieces).flatten = xs ++ pieces.flatten := by
  cases pieces <;> simp [prepend]

theorem prepend_prepend (xs ys : List α) (pieces : List (List α)) :
    prepend xs (prepend ys pieces) = prepend (xs ++ ys) pieces := by
  cases pieces <;> simp [prepend]

end Prepend

section Cut
variable {α β : Type*} [DecidableEq α] {sep : α}

def cutAfter (sep : α) : List α → List (List α)
  | [] => []
  | a :: as => if a = sep then [a] :: cutAfter sep as else prepend [a] (cutAfter sep as)

theorem flatten_cutAfter (as : List α) : (cutAfter sep as).flatten = as := by
  induction as with
  | nil => rfl
  | cons a as ih =>
    unfold cutAfter
    split
    · simp [ih]
    · simp [flatten_prepend, ih]

theorem cutAfter_append {xs : List α} (hne : xs ≠ []) (h : sep ∉ xs) (as : List α) :
    cutAfter sep (xs ++ as) = prepend xs (cutAfter sep as) := by
  induction xs with
  | nil => exact absurd rfl hne
  | cons x xs ih =>
    simp only [List.mem_cons, not_or] at h
    rw [List.cons_append, cutAfter, if_neg (Ne.symm h.1)]
    by_cases hxs : xs = []
    · rw [hxs, List.nil_append]
    · rw [ih hxs h.2, prepend_prepend, List.singleton_append]

theorem mem_cutAfter {as piece : List α} (h : piece ∈ cutAfter sep as) :
    ∃ body, sep ∉ body ∧ (piece = body ++ [sep] ∨ piece = body) := by
  induction as generalizing piece with
  | nil => simp [cutAfter] at h
  | cons a as ih =>
    unfold cutAfter at h
    split at h
    · rename_i ha
      rcases List.mem_cons.mp h with rfl | h
      · exact ⟨[], List.not_mem_nil, .inl (by rw [ha, List.nil_append])⟩
      · exact ih h
    · rename_i ha
      cases hrest : cutAfter sep as with
      | nil =>
        rw [hrest, prepend, List.mem_singleton] at h
        exact ⟨[a], by simpa using Ne.symm ha, .inr h⟩
      | cons first rest =>
        rw [hrest] at h ih
        rcases List.mem_cons.mp h with rfl | h
        · obtain ⟨body, hbody, hfirst⟩ := ih List.mem_cons_self
          refine ⟨a :: body, by simp [hbody, Ne.symm ha], ?_⟩
          rcases hfirst with rfl | rfl
          · exact .inl rfl
          · exact .inr rfl
        · exact ih (List.mem_cons_of_mem first h)

theorem cutAfter_terminated {lines : List (List α)} (h : ∀ line ∈ lines, sep ∉ line) :
    cutAfter sep (lines.flatMap (· ++ [sep])) = lines.map (· ++ [sep]) := by
  induction lines with
  | nil => rfl
  | cons line lines ih =>
    have hrest : cutAfter sep ([sep] ++ lines.flatMap (· ++ [sep])) =
        [sep] :: lines.map (· ++ [sep]) := by
      rw [List.singleton_append, cutAfter, if_pos rfl, ih fun l hl => h l (List.mem_cons_of_mem line hl)]
    rw [List.flatMap_cons, List.append_assoc, List.map_cons]
    by_cases hline : line = []
    · rw [hline, List.nil_append, List.nil_append, hrest]
    · rw [cutAfter_append hline (h line List.mem_cons_self), hrest, prepend]

theorem cutAfter_flatMap [DecidableEq β] {code : α → List β} {sep' : β} (hsep : code sep = [sep'])
    (hother : ∀ a, a ≠ sep → code a ≠ [] ∧ sep' ∉ code a) (as : List α) :
    cutAfter sep' (as.flatMap code) = (cutAfter sep as).map fun piece => piece.flatMap code := by
  induction as with
  | nil => rfl
  | cons a as ih =>
    rw [List.flatMap_cons, cutAfter]
    split
    · rename_i ha
      rw [ha, hsep, List.singleton_append, cutAfter, if_pos rfl, ih, List.map_cons]
      simp [hsep]
    · rename_i ha
      obtain ⟨hne, hnot⟩ := hother a ha
      rw [cutAfter_append hne hnot, ih]
      cases cutAfter sep as <;> simp [prepend]

end Cut

/-! Text as UTF-8. -/

def encode (s : String) : List UInt8 := s.toList.flatMap String.utf8EncodeChar

def decode (bytes : List UInt8) : Option String := String.fromUTF8? bytes.toByteArray

theorem toByteArray_encode (s : String) : (encode s).toByteArray = s.toByteArray := by
  have hbytes := String.toByteArray_ofList (l := s.toList)
  rw [String.ofList_toList] at hbytes
  rw [hbytes]
  rfl

theorem decode_eq_some_iff {bytes : List UInt8} {s : String} :
    decode bytes = some s ↔ bytes = encode s := by
  rw [← List.toByteArray_inj, toByteArray_encode, decode, String.fromUTF8?]
  constructor
  · intro h
    split at h
    · obtain rfl := Option.some.inj h
      rfl
    · contradiction
  · intro h
    rw [dif_pos (h ▸ s.isValidUTF8), Option.some.injEq, ← String.toByteArray_inj]
    exact h

@[simp] theorem decode_encode (s : String) : decode (encode s) = some s :=
  decode_eq_some_iff.mpr rfl

theorem encode_append (s t : String) : encode (s ++ t) = encode s ++ encode t := by
  simp [encode]

theorem byte_not_mem_encodeChar {b : UInt8} {c : Char} (hb : b.toNat < 128)
    (h : c.toNat ≠ b.toNat) : b ∉ String.utf8EncodeChar c := by
  have hval : c.val.toNat ≠ b.toNat := h
  have hbyte : ∀ n : Nat, n % 256 ≠ b.toNat → b ≠ UInt8.ofNat n := by
    intro n hn heq
    have hmod := congrArg UInt8.toNat heq
    rw [UInt8.toNat_ofNat'] at hmod
    exact hn hmod.symm
  -- Every byte of a longer code is at least 128.
  fun_cases String.utf8EncodeChar <;>
    simp only [List.mem_cons, List.not_mem_nil, or_false, not_or]
  case case1 v hv => exact hbyte v (by omega)
  case case2 v => exact ⟨hbyte _ (by omega), hbyte _ (by omega)⟩
  case case3 v => exact ⟨hbyte _ (by omega), hbyte _ (by omega), hbyte _ (by omega)⟩
  case case4 v =>
    exact ⟨hbyte _ (by omega), hbyte _ (by omega), hbyte _ (by omega), hbyte _ (by omega)⟩

theorem newline_not_mem_encodeChar {c : Char} (h : c ≠ '\n') :
    (10 : UInt8) ∉ String.utf8EncodeChar c :=
  byte_not_mem_encodeChar (by decide) fun hc => h (Char.toNat_inj.mp hc)

/-- Cutting bytes after newlines cuts the text after newlines. -/
theorem cutAfter_encode (s : String) :
    cutAfter 10 (encode s) =
      (cutAfter '\n' s.toList).map fun piece => encode (String.ofList piece) := by
  have hother : ∀ c : Char, c ≠ '\n' →
      String.utf8EncodeChar c ≠ [] ∧ (10 : UInt8) ∉ String.utf8EncodeChar c :=
    fun c hc => ⟨String.utf8EncodeChar_ne_nil, newline_not_mem_encodeChar hc⟩
  rw [encode, cutAfter_flatMap (by decide) hother]
  simp [encode]

/-! Lines. -/

/-- Without the last character, if that is a carriage return. -/
def chomp (s : String) : String :=
  if s.toList.getLast? = some '\r' then String.ofList s.toList.dropLast else s

def Plain (lines : List String) : Prop := ∀ line ∈ lines, chomp line = line

instance (lines : List String) : Decidable (Plain lines) :=
  inferInstanceAs (Decidable (∀ line ∈ lines, _))

theorem map_chomp_eq_iff {lines : List String} : lines.map chomp = lines ↔ Plain lines := by
  induction lines with
  | nil => simp [Plain]
  | cons line lines ih =>
    rw [List.map_cons, List.cons.injEq, ih]
    simp [Plain]

theorem plain_append {l₁ l₂ : List String} : Plain (l₁ ++ l₂) ↔ Plain l₁ ∧ Plain l₂ :=
  List.forall_mem_append

def size (lines : List String) : Nat := (lines.flatMap String.toList).length

theorem length_chomp_le (s : String) : (chomp s).toList.length ≤ s.toList.length := by
  unfold chomp
  split
  · simp
  · exact le_rfl

theorem chomp_eq_of_length {s : String} (h : s.toList.length ≤ (chomp s).toList.length) :
    chomp s = s := by
  unfold chomp at h ⊢
  split at h
  · rename_i hlast
    obtain ⟨init, hinit⟩ := List.getLast?_eq_some_iff.mp hlast
    rw [String.toList_ofList, hinit, List.dropLast_concat, List.length_append,
      List.length_singleton] at h
    omega
  · exact if_neg ‹_›

theorem size_map_chomp_le (lines : List String) : size (lines.map chomp) ≤ size lines := by
  induction lines with
  | nil => exact le_rfl
  | cons line lines ih =>
    have hline := length_chomp_le line
    simp only [size, List.map_cons, List.flatMap_cons, List.length_append] at ih ⊢
    omega

theorem plain_of_size_le {lines : List String} (h : size lines ≤ size (lines.map chomp)) :
    Plain lines := by
  induction lines with
  | nil => simp [Plain]
  | cons line lines ih =>
    have hline := length_chomp_le line
    have hrest := size_map_chomp_le lines
    simp only [size, List.map_cons, List.flatMap_cons, List.length_append] at h hrest ih
    exact List.forall_mem_cons.mpr ⟨chomp_eq_of_length (by omega), ih (by omega)⟩

/-- Without the newline and a carriage return before it, if it ends in a newline. -/
def stripEnding (s : String) : String :=
  if s.toList.getLast? = some '\n' then chomp (String.ofList s.toList.dropLast) else s

/-- The lines of a file as they are read, `none` if one of them is not UTF-8. -/
def readLines (content : List UInt8) : Option (List String) :=
  (cutAfter 10 content).mapM fun piece => (decode piece).map stripEnding

def writeLines (lines : List String) : List UInt8 := lines.flatMap fun line => encode line ++ [10]

def linesOf (s : String) : List String :=
  (cutAfter '\n' s.toList).map fun piece => stripEnding (String.ofList piece)

theorem readLines_encode (s : String) : readLines (encode s) = some (linesOf s) := by
  rw [readLines, cutAfter_encode, linesOf]
  induction cutAfter '\n' s.toList with
  | nil => rfl
  | cons piece pieces ih => simp [ih]

theorem flatten_of_mapM {pieces : List (List UInt8)} {lines : List String}
    (h : (pieces.mapM fun piece => (decode piece).map stripEnding) = some lines) :
    ∃ s, pieces.flatten = encode s := by
  induction pieces generalizing lines with
  | nil => exact ⟨"", by decide⟩
  | cons piece pieces ih =>
    simp only [List.mapM_cons, Option.pure_def, Option.bind_eq_bind, Option.bind_eq_some_iff,
      Option.map_eq_some_iff] at h
    obtain ⟨_, ⟨first, hfirst, -⟩, rest, hrest, -⟩ := h
    obtain ⟨s, hs⟩ := ih hrest
    refine ⟨first ++ s, ?_⟩
    rw [List.flatten_cons, hs, decode_eq_some_iff.mp hfirst, encode_append]

/-- A file can be read exactly if it is UTF-8 as a whole. -/
theorem readLines_eq (content : List UInt8) : readLines content = (decode content).map linesOf := by
  cases hdecode : decode content with
  | some s =>
    obtain rfl := decode_eq_some_iff.mp hdecode
    exact readLines_encode s
  | none =>
    rw [Option.map_none, Option.eq_none_iff_forall_ne_some]
    intro lines hlines
    obtain ⟨s, hs⟩ := flatten_of_mapM hlines
    rw [flatten_cutAfter] at hs
    rw [decode_eq_some_iff.mpr hs] at hdecode
    contradiction

def IsLine (s : String) : Prop := '\n' ∉ s.toList

theorem chomp_isLine {s : String} (h : IsLine s) : IsLine (chomp s) := by
  unfold chomp
  split
  · rw [IsLine, String.toList_ofList]
    exact fun hmem => h (List.dropLast_subset _ hmem)
  · exact h

theorem stripEnding_isLine {body : List Char} (h : '\n' ∉ body) {piece : List Char}
    (hpiece : piece = body ++ ['\n'] ∨ piece = body) :
    IsLine (stripEnding (String.ofList piece)) := by
  rcases hpiece with rfl | rfl
  · have hstrip : stripEnding (String.ofList (body ++ ['\n'])) = chomp (String.ofList body) := by
      simp [stripEnding]
    rw [hstrip]
    exact chomp_isLine (by simpa [IsLine] using h)
  · have hlast : piece.getLast? ≠ some '\n' := fun hl => h (List.mem_of_getLast? hl)
    simpa [stripEnding, hlast, IsLine] using h

theorem isLine_of_readLines {content : List UInt8} {lines : List String}
    (h : readLines content = some lines) : ∀ line ∈ lines, IsLine line := by
  rw [readLines_eq, Option.map_eq_some_iff] at h
  obtain ⟨s, -, rfl⟩ := h
  intro line hline
  obtain ⟨piece, hpiece, rfl⟩ := List.mem_map.mp hline
  obtain ⟨body, hbody, hends⟩ := mem_cutAfter hpiece
  exact stripEnding_isLine hbody hends

theorem writeLines_eq (lines : List String) :
    writeLines lines =
      encode (String.ofList ((lines.map String.toList).flatMap (· ++ ['\n']))) := by
  have hnewline : String.utf8EncodeChar '\n' = [10] := by decide
  induction lines with
  | nil => decide
  | cons line lines ih =>
    rw [writeLines, List.flatMap_cons, ← writeLines, ih]
    simp [encode, hnewline]

theorem readLines_writeLines {lines : List String} (h : ∀ line ∈ lines, IsLine line) :
    readLines (writeLines lines) = some (lines.map chomp) := by
  have hlines : ∀ line ∈ lines.map String.toList, '\n' ∉ line := by
    simpa [IsLine] using h
  rw [writeLines_eq, readLines_encode, linesOf, String.toList_ofList, cutAfter_terminated hlines]
  simp [stripEnding, Function.comp_def]

def OneLine (s : String) : Prop := '\r' ∉ s.toList ∧ '\n' ∉ s.toList

instance (s : String) : Decidable (OneLine s) := inferInstanceAs (Decidable (_ ∧ _))

theorem OneLine.isLine {s : String} (h : OneLine s) : IsLine s := h.2

theorem OneLine.chomp {s : String} (h : OneLine s) : chomp s = s :=
  if_neg fun hlast => h.1 (List.mem_of_getLast? hlast)

theorem OneLine.append {s t : String} (hs : OneLine s) (ht : OneLine t) : OneLine (s ++ t) := by
  simp [OneLine, String.toList_append, hs.1, hs.2, ht.1, ht.2]

theorem mem_intercalate {α : Type*} {sep : List α} {pieces : List (List α)} {a : α}
    (h : a ∈ sep.intercalate pieces) : a ∈ sep ∨ ∃ piece ∈ pieces, a ∈ piece := by
  induction pieces with
  | nil => simp [List.intercalate_nil] at h
  | cons piece pieces ih =>
    by_cases hne : pieces = []
    · rw [hne, List.intercalate_singleton] at h
      exact .inr ⟨piece, List.mem_cons_self, h⟩
    · rw [List.intercalate_cons_of_ne_nil hne, List.mem_append, List.mem_append] at h
      rcases h with (h | h) | h
      · exact .inr ⟨piece, List.mem_cons_self, h⟩
      · exact .inl h
      · rcases ih h with h | ⟨other, hother, h⟩
        · exact .inl h
        · exact .inr ⟨other, List.mem_cons_of_mem piece hother, h⟩

theorem OneLine.intercalate {sep : String} {pieces : List String} (hsep : OneLine sep)
    (h : ∀ piece ∈ pieces, OneLine piece) : OneLine (sep.intercalate pieces) := by
  rw [OneLine, String.toList_intercalate]
  have hpiece : ∀ c, (∀ piece ∈ pieces, c ∉ piece.toList) → ¬∃ piece ∈ pieces.map String.toList,
      c ∈ piece := by
    rintro c hc ⟨piece, hpiece, hmem⟩
    obtain ⟨s, hs, rfl⟩ := List.mem_map.mp hpiece
    exact hc s hs hmem
  constructor
  · exact fun hmem => (mem_intercalate hmem).elim hsep.1 (hpiece _ fun piece hp => (h piece hp).1)
  · exact fun hmem => (mem_intercalate hmem).elim hsep.2 (hpiece _ fun piece hp => (h piece hp).2)

/-! Text without the white space around it. -/

/-- Unicode `White_Space`. -/
def isWhitespace (c : Char) : Bool :=
  let n := c.toNat
  (9 ≤ n && n ≤ 13) || n = 0x20 || n = 0x85 || n = 0xa0 || n = 0x1680 ||
    (0x2000 ≤ n && n ≤ 0x200a) || n = 0x2028 || n = 0x2029 || n = 0x202f || n = 0x205f || n = 0x3000

def trim (s : String) : String :=
  .ofList ((s.toList.dropWhile isWhitespace).rdropWhile isWhitespace)

theorem rdropWhile_dropWhile_dropLast {α : Type*} {p : α → Bool} {l : List α} {a : α}
    (hlast : l.getLast? = some a) (ha : p a = true) :
    (l.dropLast.dropWhile p).rdropWhile p = (l.dropWhile p).rdropWhile p := by
  obtain ⟨init, rfl⟩ := List.getLast?_eq_some_iff.mp hlast
  rw [List.dropLast_concat, List.dropWhile_append]
  split
  · rename_i hempty
    rw [List.isEmpty_iff.mp hempty, List.dropWhile_cons_of_pos ha, List.dropWhile_nil]
  · rw [List.rdropWhile_concat_pos _ _ _ ha]

@[simp] theorem trim_chomp (s : String) : trim (chomp s) = trim s := by
  unfold chomp
  split
  · rename_i hlast
    rw [trim, trim, String.toList_ofList, rdropWhile_dropWhile_dropLast hlast (by decide)]
  · rfl

theorem head?_trim {s : String} {c : Char} (h : s.toList.head? = some c)
    (hc : isWhitespace c = false) : (trim s).toList.head? = some c := by
  obtain ⟨rest, hs⟩ := List.head?_eq_some_iff.mp h
  have hkept : [c].rdropWhile isWhitespace = [c] := by
    rw [List.rdropWhile_singleton, if_neg (by simpa using hc)]
  rw [trim, String.toList_ofList, hs, List.dropWhile_cons_of_neg (by simpa using hc),
    ← List.singleton_append, List.rdropWhile, List.reverse_append, List.dropWhile_append]
  split
  · rw [List.rdropWhile] at hkept
    rw [hkept]
    rfl
  · simp

end TextLines
