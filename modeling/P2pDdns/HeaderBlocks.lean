import Mathlib.Data.List.Infix
import P2pDdns.TextLines

/-!
Headers of text protocols: lines that end in CR LF, up to a blank one that is looked for in the
bytes; the words, fields and numerals on a line.
-/

set_option autoImplicit false

namespace HeaderBlocks
open TextLines

/-! Where a pattern first occurs. -/

section Position
variable {α : Type*} [DecidableEq α] {pattern as xs : List α} {n : Nat}

def position (pattern : List α) : List α → Option Nat
  | [] => if pattern = [] then some 0 else none
  | a :: as => if pattern <+: a :: as then some 0 else (position pattern as).map (· + 1)

theorem position_of_prefix (h : pattern <+: as) : position pattern as = some 0 := by
  cases as with
  | nil => rw [position, if_pos (List.prefix_nil.mp h)]
  | cons a as => rw [position, if_pos h]

theorem position_cons (a : α) (h : ¬ pattern <+: a :: as) :
    position pattern (a :: as) = (position pattern as).map (· + 1) := by
  rw [position, if_neg h]

theorem position_le (h : position pattern as = some n) : n + pattern.length ≤ as.length := by
  induction as generalizing n with
  | nil =>
    rw [position, Option.ite_none_right_eq_some, Option.some.injEq] at h
    obtain ⟨rfl, rfl⟩ := h
    exact Nat.le_refl _
  | cons a as ih =>
    rw [position] at h
    split at h
    · rename_i hpre
      obtain rfl := Option.some.inj h
      rw [Nat.zero_add]
      exact hpre.length_le
    · obtain ⟨m, hm, rfl⟩ := Option.map_eq_some_iff.mp h
      have hle := ih hm
      rw [List.length_cons]
      omega

theorem position_take (hpattern : pattern ≠ []) (h : position pattern as = some n) (k : Nat) :
    position pattern (as.take k) = if n + pattern.length ≤ k then some n else none := by
  have hpos := List.length_pos_of_ne_nil hpattern
  have hnil : position pattern [] = none := if_neg hpattern
  induction as generalizing n k with
  | nil =>
    rw [hnil] at h
    contradiction
  | cons a as ih =>
    cases k with
    | zero => rw [List.take_zero, hnil, if_neg (by omega)]
    | succ k =>
      rw [List.take_succ_cons]
      rw [position] at h
      split at h
      · rename_i hpre
        obtain rfl := Option.some.inj h
        split
        · rename_i hlen
          apply position_of_prefix
          rw [← List.take_succ_cons, List.prefix_take_iff]
          exact ⟨hpre, by omega⟩
        · rename_i hlen
          rw [Option.eq_none_iff_forall_ne_some]
          intro m hm
          have hle := position_le hm
          have htake := List.length_take_le k as
          rw [List.length_cons] at hle
          omega
      · rename_i hpre
        obtain ⟨m, hm, rfl⟩ := Option.map_eq_some_iff.mp h
        have hpre' : ¬ pattern <+: a :: as.take k := by
          rw [← List.take_succ_cons, List.prefix_take_iff]
          exact fun hboth => hpre hboth.1
        rw [position_cons a hpre', ih hm]
        split
        · rw [if_pos (by omega)]
          rfl
        · rw [if_neg (by omega)]
          rfl

theorem position_extend (h : position pattern as = some n) (bs : List α) :
    position pattern (as ++ bs) = some n := by
  induction as generalizing n with
  | nil =>
    rw [position, Option.ite_none_right_eq_some, Option.some.injEq] at h
    obtain ⟨rfl, rfl⟩ := h
    exact position_of_prefix List.nil_prefix
  | cons a as ih =>
    rw [position] at h
    split at h
    · rename_i hpre
      rw [← h]
      exact position_of_prefix (hpre.trans (List.prefix_append _ bs))
    · rename_i hpre
      obtain ⟨m, hm, rfl⟩ := Option.map_eq_some_iff.mp h
      have hle := position_le hm
      have hlen : pattern.length ≤ (a :: as).length := by
        rw [List.length_cons]
        omega
      have hpre' : ¬ pattern <+: a :: (as ++ bs) := fun hlonger =>
        hpre (List.prefix_of_prefix_length_le hlonger (List.prefix_append (a :: as) bs) hlen)
      rw [List.cons_append, position_cons a hpre', ih hm]
      rfl

theorem position_eq_none_of_append {bs : List α} (h : position pattern (as ++ bs) = none) :
    position pattern as = none := by
  rw [Option.eq_none_iff_forall_ne_some]
  intro n hn
  rw [position_extend hn bs] at h
  contradiction

theorem position_append {b : α} {bs : List α} (h : b ∉ xs) (as : List α) :
    position (b :: bs) (xs ++ as) = (position (b :: bs) as).map (· + xs.length) := by
  induction xs with
  | nil => simp
  | cons x xs ih =>
    rw [List.mem_cons, not_or] at h
    obtain ⟨hx, hxs⟩ := h
    have hpre : ¬ b :: bs <+: x :: (xs ++ as) := fun hpre => hx (List.cons_prefix_cons.mp hpre).1
    rw [List.cons_append, position_cons x hpre, ih hxs, Option.map_map]
    congr 1

end Position

/-! Texts cut at pairs. -/

section Pairs
variable {α : Type*} [DecidableEq α] {x y : α} {xs : List α} {lines : List (List α)}

def splitPair (x y : α) : List α → List (List α)
  | a :: b :: as =>
    if a = x ∧ b = y then [] :: splitPair x y as else prepend [a] (splitPair x y (b :: as))
  | as => [as]

theorem splitPair_cons {a : α} (h : a ≠ x) (as : List α) :
    splitPair x y (a :: as) = prepend [a] (splitPair x y as) := by
  cases as with
  | nil => rfl
  | cons b as => rw [splitPair, if_neg (fun hab => h hab.1)]

theorem splitPair_append (h : x ∉ xs) (as : List α) :
    splitPair x y (xs ++ x :: y :: as) = xs :: splitPair x y as := by
  induction xs with
  | nil => rw [List.nil_append, splitPair, if_pos ⟨rfl, rfl⟩]
  | cons a xs ih =>
    rw [List.mem_cons, not_or] at h
    obtain ⟨ha, hxs⟩ := h
    rw [List.cons_append, splitPair_cons (Ne.symm ha), ih hxs]
    rfl

theorem splitPair_ne_nil (x y : α) (as : List α) : splitPair x y as ≠ [] := by
  have hprepend (xs : List α) (pieces : List (List α)) : prepend xs pieces ≠ [] := by
    cases pieces <;> exact List.cons_ne_nil _ _
  match as with
  | [] => exact List.cons_ne_nil _ _
  | [a] => exact List.cons_ne_nil _ _
  | a :: b :: as =>
    rw [splitPair]
    split
    · exact List.cons_ne_nil _ _
    · exact hprepend _ _

theorem splitPair_intercalate (hne : lines ≠ []) (h : ∀ line ∈ lines, x ∉ line) (as : List α) :
    splitPair x y ([x, y].intercalate lines ++ x :: y :: as) = lines ++ splitPair x y as := by
  induction lines with
  | nil => contradiction
  | cons line lines ih =>
    obtain ⟨hline, hlines⟩ := List.forall_mem_cons.mp h
    by_cases hrest : lines = []
    · rw [hrest, List.intercalate_singleton, splitPair_append hline]
      rfl
    · rw [List.intercalate_cons_of_ne_nil hrest, List.append_assoc, List.append_assoc,
        List.cons_append, List.cons_append, List.nil_append, splitPair_append hline,
        ih hrest hlines, List.cons_append]

theorem position_intercalate (hxy : x ≠ y) (hne : lines ≠ [])
    (h : ∀ line ∈ lines, line ≠ [] ∧ x ∉ line) (as : List α) :
    position [x, y, x, y] ([x, y].intercalate lines ++ x :: y :: x :: y :: as) =
      some ([x, y].intercalate lines).length := by
  induction lines with
  | nil => contradiction
  | cons line lines ih =>
    obtain ⟨hline, hlines⟩ := List.forall_mem_cons.mp h
    by_cases hrest : lines = []
    · have hpre : [x, y, x, y] <+: x :: y :: x :: y :: as := ⟨as, rfl⟩
      rw [hrest, List.intercalate_singleton, position_append hline.2, position_of_prefix hpre,
        Option.map_some, Nat.zero_add]
    · have ih := ih hrest hlines
      rw [List.intercalate_cons_of_ne_nil hrest, List.append_assoc, List.append_assoc,
        position_append hline.2]
      generalize hothers : [x, y].intercalate lines = others at *
      -- The next line starts with something else than the first of the pair.
      have hstart : ¬ [x, y] <+: others ++ x :: y :: x :: y :: as := by
        obtain ⟨next, later, rfl⟩ := List.exists_cons_of_ne_nil hrest
        obtain ⟨⟨hnext, hmem⟩, -⟩ := List.forall_mem_cons.mp hlines
        obtain ⟨c, cs, rfl⟩ := List.exists_cons_of_ne_nil hnext
        have hcons : ∃ tail, others = c :: tail := by
          rw [← hothers]
          by_cases hlater : later = []
          · exact ⟨cs, by rw [hlater, List.intercalate_singleton]⟩
          · exact ⟨_, by rw [List.intercalate_cons_of_ne_nil hlater, List.append_assoc,
              List.cons_append]⟩
        obtain ⟨tail, rfl⟩ := hcons
        exact fun hpre => List.ne_of_not_mem_cons hmem (List.cons_prefix_cons.mp hpre).1
      have hfirst : ¬ [x, y, x, y] <+: x :: y :: (others ++ x :: y :: x :: y :: as) := by
        intro hpre
        exact hstart (List.cons_prefix_cons.mp (List.cons_prefix_cons.mp hpre).2).2
      have hsecond : ¬ [x, y, x, y] <+: y :: (others ++ x :: y :: x :: y :: as) :=
        fun hpre => hxy (List.cons_prefix_cons.mp hpre).1
      rw [List.cons_append, List.cons_append, List.nil_append, position_cons x hfirst,
        position_cons y hsecond, ih]
      simp [Nat.add_comm, Nat.add_left_comm]

end Pairs

/-! Headers as text and as bytes. -/

theorem length_encode_le (s : String) : (encode s).length ≤ 4 * s.toList.length := by
  rw [encode]
  induction s.toList with
  | nil => exact Nat.zero_le _
  | cons c cs ih =>
    have hc := c.utf8Size_le_four
    rw [List.flatMap_cons, List.length_append, String.length_utf8EncodeChar, List.length_cons]
    omega

section Header
variable {line : String} {lines : List String}

def splitLines (s : String) : List String := (splitPair '\r' '\n' s.toList).map String.ofList

def header (lines : List String) : String := "\r\n".intercalate lines ++ "\r\n\r\n"

def blankLine : List UInt8 := [13, 10, 13, 10]

def HeaderLine (line : String) : Prop := line ≠ "" ∧ '\r' ∉ line.toList

instance (line : String) : Decidable (HeaderLine line) := inferInstanceAs (Decidable (_ ∧ _))

theorem headerLine_append {s t : String} (hne : s ≠ "") (hs : OneLine s) (ht : OneLine t) :
    HeaderLine (s ++ t) := by
  refine ⟨fun hnil => hne ?_, (hs.append ht).1⟩
  rw [← String.toList_inj, String.toList_append, String.toList_empty, List.append_eq_nil_iff] at hnil
  exact String.toList_inj.mp hnil.1

theorem splitLines_header (hne : lines ≠ []) (h : ∀ line ∈ lines, HeaderLine line) :
    splitLines (header lines) = lines ++ ["", ""] := by
  have hlines : ∀ line ∈ lines.map String.toList, '\r' ∉ line :=
    List.forall_mem_map.mpr fun line hline => (h line hline).2
  have htoList : (header lines).toList =
      ['\r', '\n'].intercalate (lines.map String.toList) ++ '\r' :: '\n' :: ['\r', '\n'] := by
    rw [header, String.toList_append, String.toList_intercalate]
    rfl
  rw [splitLines, htoList, splitPair_intercalate (by simpa using hne) hlines]
  simp [splitPair, Function.comp_def]

theorem encode_header (lines : List String) :
    encode (header lines) = encode ("\r\n".intercalate lines) ++ blankLine := by
  rw [header, encode_append]
  rfl

theorem length_header (lines : List String) :
    (encode (header lines)).length = (encode ("\r\n".intercalate lines)).length + 4 := by
  rw [encode_header, List.length_append]
  rfl

theorem drop_header (lines : List String) (rest : List UInt8) :
    (encode (header lines) ++ rest).drop ((encode ("\r\n".intercalate lines)).length + 4) =
      rest := by
  rw [encode_header]
  exact List.drop_left' (by simp [blankLine])

theorem encode_intercalate (sep : String) (lines : List String) :
    encode (sep.intercalate lines) = (encode sep).intercalate (lines.map encode) := by
  induction lines with
  | nil => rw [String.intercalate_nil]; rfl
  | cons line lines ih =>
    by_cases hrest : lines = []
    · simp [hrest]
    · have hmap : lines.map encode ≠ [] := by simpa using hrest
      rw [String.intercalate_cons_of_ne_nil hrest, List.map_cons,
        List.intercalate_cons_of_ne_nil hmap, encode_append, encode_append, ih]

theorem encode_header_lines (hne : lines ≠ []) :
    encode (header lines) = lines.flatMap (fun line => encode line ++ [13, 10]) ++ [13, 10] := by
  have hcrlf : encode "\r\n" = [13, 10] := by decide
  have hjoined : encode ("\r\n".intercalate lines) ++ [13, 10] =
      lines.flatMap fun line => encode line ++ [13, 10] := by
    induction lines with
    | nil => contradiction
    | cons line lines ih =>
      by_cases hrest : lines = []
      · rw [hrest, String.intercalate_singleton, List.flatMap_singleton]
      · rw [List.flatMap_cons, ← ih hrest, String.intercalate_cons_of_ne_nil hrest,
          encode_append, encode_append, hcrlf, List.append_assoc]
  rw [encode_header, ← hjoined, List.append_assoc]
  rfl

theorem HeaderLine.encode (h : HeaderLine line) :
    TextLines.encode line ≠ [] ∧ 13 ∉ TextLines.encode line := by
  constructor
  · intro hnil
    refine h.1 (String.toList_inj.mp (List.eq_nil_iff_forall_not_mem.mpr fun c hc => ?_))
    exact String.utf8EncodeChar_ne_nil (List.flatMap_eq_nil_iff.mp hnil c hc)
  · intro hmem
    obtain ⟨c, hc, hbyte⟩ := List.mem_flatMap.mp hmem
    have hne : c ≠ '\r' := fun heq => h.2 (heq ▸ hc)
    exact byte_not_mem_encodeChar (by decide) (fun heq => hne (Char.toNat_inj.mp heq)) hbyte

theorem position_header (hne : lines ≠ []) (h : ∀ line ∈ lines, HeaderLine line)
    (rest : List UInt8) :
    position blankLine (encode (header lines) ++ rest) =
      some (encode ("\r\n".intercalate lines)).length := by
  have hcodes : ∀ code ∈ lines.map encode, code ≠ [] ∧ 13 ∉ code :=
    List.forall_mem_map.mpr fun line hline => (h line hline).encode
  have hcrlf : encode "\r\n" = [13, 10] := by decide
  have hfound := position_intercalate (x := 13) (y := 10) (by decide) (by simpa using hne) hcodes
    rest
  rw [encode_header, encode_intercalate, hcrlf, List.append_assoc]
  exact hfound

theorem head?_linesOf (h : OneLine line) (s : String) :
    (linesOf (line ++ "\r\n" ++ s)).head? = some line := by
  have htoList : (line ++ "\r\n" ++ s).toList = (line.toList ++ ['\r']) ++ '\n' :: s.toList := by
    simp
  have hmem : '\n' ∉ line.toList ++ ['\r'] := by simpa using h.2
  rw [linesOf, htoList, cutAfter_append (by simp) hmem, cutAfter, if_pos rfl, prepend,
    List.map_cons, List.head?_cons, Option.some.injEq]
  simp [stripEnding, chomp]

end Header

/-! Words and fields. -/

def splitWhitespace (s : String) : List String :=
  ((s.toList.splitOnP isWhitespace).filter (· ≠ [])).map String.ofList

def Word (s : String) : Prop := s ≠ "" ∧ ∀ c ∈ s.toList, isWhitespace c = false

theorem word_of_all {s : String} (hne : s ≠ "")
    (h : (s.toList.all fun c => !isWhitespace c) = true) : Word s :=
  ⟨hne, fun c hc => by simpa using List.all_eq_true.mp h c hc⟩

theorem oneLine_of_visible {s : String} (h : ∀ c ∈ s.toList, isWhitespace c = false) : OneLine s :=
  ⟨fun hmem => absurd (h _ hmem) (by decide), fun hmem => absurd (h _ hmem) (by decide)⟩

theorem splitWhitespace_append {word : String} (h : Word word) (s : String) :
    splitWhitespace (word ++ " " ++ s) = word :: splitWhitespace s := by
  have hne : word.toList ≠ [] := fun hnil => h.1 (String.toList_inj.mp hnil)
  have htoList : (word ++ " " ++ s).toList = word.toList ++ ' ' :: s.toList := by simp
  rw [splitWhitespace, htoList, List.splitOnP_append_cons_of_forall_mem h.2 _ (by decide),
    List.filter_cons_of_pos (by simpa using hne), List.map_cons, String.ofList_toList]
  rfl

def splitOnce (c : Char) (s : String) : Option (String × String) :=
  if c ∈ s.toList then
    some (.ofList (s.toList.takeWhile (· ≠ c)), .ofList (s.toList.dropWhile (· ≠ c)).tail)
  else none

def field (key value : String) : String := key ++ ":" ++ (" " ++ value)

theorem length_encode_field (key value : String) :
    (encode (field key value)).length = (encode key).length + 2 + (encode value).length := by
  have hcolon : (encode ":").length = 1 := by decide
  have hspace : (encode " ").length = 1 := by decide
  simp only [field, encode_append, List.length_append, hcolon, hspace]
  omega

theorem splitOnce_append {key : String} (h : ':' ∉ key.toList) (value : String) :
    splitOnce ':' (key ++ ":" ++ value) = some (key, value) := by
  have hall : ∀ c ∈ key.toList, decide (c ≠ ':') = true :=
    fun c hc => decide_eq_true fun heq => h (heq ▸ hc)
  have htoList : (key ++ ":" ++ value).toList = key.toList ++ ':' :: value.toList := by simp
  rw [splitOnce, htoList, if_pos (by simp), List.takeWhile_append_of_pos hall,
    List.dropWhile_append_of_pos hall]
  simp

theorem trim_space {s : String} (h : ∀ c ∈ s.toList, isWhitespace c = false) :
    trim (" " ++ s) = s := by
  have hdrop : s.toList.dropWhile isWhitespace = s.toList := by
    rw [List.dropWhile_eq_self_iff]
    exact fun hpos => by simp [h _ (List.getElem_mem hpos)]
  have hrdrop : s.toList.rdropWhile isWhitespace = s.toList := by
    rw [List.rdropWhile_eq_self_iff]
    exact fun hne => by simp [h _ (List.getLast_mem hne)]
  have htoList : (" " ++ s).toList = ' ' :: s.toList := by simp
  rw [trim, htoList, List.dropWhile_cons_of_pos (by decide), hdrop, hrdrop, String.ofList_toList]

/-! Numerals, of numbers below a bound. -/

inductive ParseIntError where
  | empty
  | invalidDigit
  | posOverflow
  deriving DecidableEq, Repr

def readDigit (bound n : Nat) (c : Char) : Except ParseIntError Nat :=
  if c.isDigit then
    if 10 * n + (c.toNat - '0'.toNat) < bound then .ok (10 * n + (c.toNat - '0'.toNat))
    else .error .posOverflow
  else .error .invalidDigit

def parseUnsigned (bound : Nat) (s : String) : Except ParseIntError Nat :=
  match s.toList with
  | [] => .error .empty
  | ['+'] => .error .invalidDigit
  | '+' :: digits => digits.foldlM (readDigit bound) 0
  | digits => digits.foldlM (readDigit bound) 0

theorem digitChar_spec {d : Nat} (h : d < 10) :
    d.digitChar.isDigit = true ∧ d.digitChar.toNat - '0'.toNat = d := by
  revert d
  decide

theorem readDigit_digitChar {bound n d : Nat} (hd : d < 10) (h : 10 * n + d < bound) :
    readDigit bound n d.digitChar = .ok (10 * n + d) := by
  rw [readDigit, if_pos (digitChar_spec hd).1, (digitChar_spec hd).2, if_pos h]

theorem foldlM_toDigits {bound n : Nat} (h : n < bound) :
    (Nat.toDigits 10 n).foldlM (readDigit bound) 0 = .ok n := by
  induction n using Nat.strongRecOn with
  | ind n ih =>
    rw [Nat.toDigits_eq_if (by decide)]
    split
    · rename_i hn
      rw [List.foldlM_cons, readDigit_digitChar hn (by omega)]
      simp
    · have hlast : readDigit bound (n / 10) (n % 10).digitChar = .ok (10 * (n / 10) + n % 10) :=
        readDigit_digitChar (by omega) (by omega)
      rw [List.foldlM_append, ih (n / 10) (by omega) (by omega)]
      rw [Nat.div_add_mod] at hlast
      simp [bind, Except.bind, hlast, pure, Except.pure]

theorem isWhitespace_digit {c : Char} (h : c.isDigit = true) : isWhitespace c = false := by
  obtain ⟨hlow, hhigh⟩ := Char.isDigit_iff_toNat.mp h
  have hlow : 48 ≤ c.toNat := hlow
  have hhigh : c.toNat ≤ 57 := hhigh
  simp only [isWhitespace, Bool.or_eq_false_iff, Bool.and_eq_false_imp, decide_eq_false_iff_not,
    decide_eq_true_eq]
  omega

theorem word_toString (n : Nat) : Word (toString n) := by
  rw [Word, Nat.toString_eq_ofList_toDigits, String.toList_ofList]
  refine ⟨?_, fun c hc => isWhitespace_digit (Nat.isDigit_of_mem_toDigits (by decide) (by decide) hc)⟩
  exact fun hnil => Nat.toDigits_ne_nil (String.ofList_inj.mp hnil)

theorem toString_oneLine (n : Nat) : OneLine (toString n) := oneLine_of_visible (word_toString n).2

theorem parseUnsigned_toString {bound n : Nat} (h : n < bound) :
    parseUnsigned bound (toString n) = .ok n := by
  have hdigits := foldlM_toDigits h
  rw [parseUnsigned, Nat.toString_eq_ofList_toDigits, String.toList_ofList]
  have hplus : '+' ∉ Nat.toDigits 10 n := fun hmem =>
    absurd (Nat.isDigit_of_mem_toDigits (by decide) (by decide) hmem) (by decide)
  have hne : Nat.toDigits 10 n ≠ [] := Nat.toDigits_ne_nil
  generalize Nat.toDigits 10 n = digits at *
  split
  · contradiction
  · exact absurd List.mem_cons_self hplus
  · exact absurd List.mem_cons_self hplus
  · exact hdigits

end HeaderBlocks
