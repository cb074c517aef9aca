import Mathlib.Data.List.Basic
import P2pDdns.TextLines

/-!
Values as bytes one behind the other: a writer and a reader that takes one value off the front,
for numbers of variable length, byte sequences and text behind their length, options, pairs and
tagged unions.
-/

set_option autoImplicit false

namespace WireFormats
open TextLines

/-- What is written is read back, whatever stands behind it. -/
structure Format (α : Type) where
  write : α → List UInt8
  read : List UInt8 → Option (α × List UInt8)
  read_write : ∀ a rest, read (write a ++ rest) = some (a, rest)

namespace Format
variable {α β : Type}

/-- The value in front; bytes behind it are ignored. -/
def decode (format : Format α) (bytes : List UInt8) : Option α := (format.read bytes).map Prod.fst

theorem decode_write (format : Format α) (a : α) : format.decode (format.write a) = some a := by
  have h := format.read_write a []
  rw [List.append_nil] at h
  rw [decode, h]
  rfl

/-- No value's bytes are a proper beginning of another's. -/
theorem append_inj (format : Format α) {a b : α} {as bs : List UInt8}
    (h : format.write a ++ as = format.write b ++ bs) : a = b ∧ as = bs := by
  have hread := congrArg format.read h
  rw [format.read_write, format.read_write] at hread
  exact Prod.mk.inj (Option.some.inj hread)

theorem write_injective (format : Format α) {a b : α} (h : format.write a = format.write b) :
    a = b := by
  have happend : format.write a ++ [] = format.write b ++ [] := by rw [h]
  exact (format.append_inj happend).1

/-! One format from others. -/

def iso (format : Format α) (f : α → β) (g : β → α) (h : ∀ b, f (g b) = b) : Format β where
  write b := format.write (g b)
  read bytes := (format.read bytes).map fun found => (f found.1, found.2)
  read_write b rest := by simp [format.read_write, h]

def pair (first : Format α) (second : Format β) : Format (α × β) where
  write p := first.write p.1 ++ second.write p.2
  read bytes :=
    (first.read bytes).bind fun found =>
      (second.read found.2).map fun found' => ((found.1, found'.1), found'.2)
  read_write p rest := by simp [first.read_write, second.read_write, List.append_assoc]

def refine (format : Format α) (f : α → Option β) (g : β → α) (h : ∀ b, f (g b) = some b) :
    Format β where
  write b := format.write (g b)
  read bytes := (format.read bytes).bind fun found => (f found.1).map fun b => (b, found.2)
  read_write b rest := by simp [format.read_write, h]

end Format

/-! Numbers: seven bits a byte, the lowest first, a mark on each but the last. -/

/-- In at most `k+1` bytes. -/
def writeVarint : Nat → Nat → List UInt8
  | 0, n => [.ofNat n]
  | k+1, n => if n < 128 then [.ofNat n] else .ofNat (n % 128 + 128) :: writeVarint k (n / 128)

/-- From at most `k+1` bytes, the last possible of which holds at most `last`. -/
def readVarint (last : Nat) : Nat → List UInt8 → Option (Nat × List UInt8)
  | _, [] => none
  | 0, b :: bs => if b.toNat ≤ last then some (b.toNat, bs) else none
  | k+1, b :: bs =>
    if b.toNat < 128 then some (b.toNat, bs)
    else (readVarint last k bs).map fun found => (b.toNat - 128 + 128 * found.1, found.2)

def varintBound (last : Nat) : Nat → Nat
  | 0 => last + 1
  | k+1 => 128 * varintBound last k

theorem toNat_ofNat {n : Nat} (h : n < 256) : (UInt8.ofNat n).toNat = n := by
  rw [UInt8.toNat_ofNat']
  exact Nat.mod_eq_of_lt h

theorem readVarint_writeVarint {last k n : Nat} (hlast : last < 128) (hn : n < varintBound last k)
    (rest : List UInt8) : readVarint last k (writeVarint k n ++ rest) = some (n, rest) := by
  induction k generalizing n with
  | zero =>
    rw [varintBound] at hn
    rw [writeVarint, List.singleton_append, readVarint, toNat_ofNat (by omega), if_pos (by omega)]
  | succ k ih =>
    rw [varintBound] at hn
    rw [writeVarint]
    split
    · rename_i hsmall
      rw [List.singleton_append, readVarint, toNat_ofNat (by omega), if_pos hsmall]
    · have hdiv : n / 128 < varintBound last k := by omega
      have hmod : n % 128 + 128 - 128 + 128 * (n / 128) = n := by omega
      rw [List.cons_append, readVarint, toNat_ofNat (by omega), if_neg (by omega), ih hdiv,
        Option.map_some, hmod]

def readLength : List UInt8 → Option (Nat × List UInt8)
  | [] => none
  | b :: bs =>
    if b.toNat < 128 then some (b.toNat, bs)
    else (readLength bs).map fun found => (b.toNat - 128 + 128 * found.1, found.2)

theorem readLength_writeVarint {k n : Nat} (hn : n < varintBound 127 k) (rest : List UInt8) :
    readLength (writeVarint k n ++ rest) = some (n, rest) := by
  induction k generalizing n with
  | zero =>
    rw [varintBound] at hn
    rw [writeVarint, List.singleton_append, readLength, toNat_ofNat (by omega), if_pos hn]
  | succ k ih =>
    rw [varintBound] at hn
    rw [writeVarint]
    split
    · rename_i hsmall
      rw [List.singleton_append, readLength, toNat_ofNat (by omega), if_pos hsmall]
    · have hdiv : n / 128 < varintBound 127 k := by omega
      have hmod : n % 128 + 128 - 128 + 128 * (n / 128) = n := by omega
      rw [List.cons_append, readLength, toNat_ofNat (by omega), if_neg (by omega), ih hdiv,
        Option.map_some, hmod]

theorem lt_varintBound (n : Nat) : n < varintBound 127 n := by
  induction n with
  | zero => decide
  | succ n ih =>
    rw [varintBound]
    omega

def length : Format Nat where
  write n := writeVarint n n
  read := readLength
  read_write n rest := readLength_writeVarint (lt_varintBound n) rest

def u64 : Format UInt64 where
  write n := writeVarint 9 n.toNat
  read bytes := (readVarint 1 9 bytes).map fun found => (.ofNat found.1, found.2)
  read_write n rest := by
    have hn : n.toNat < varintBound 1 9 := n.toNat_lt
    simp [readVarint_writeVarint (by decide) hn]

def u32 : Format UInt32 where
  write n := writeVarint 4 n.toNat
  read bytes := (readVarint 15 4 bytes).map fun found => (.ofNat found.1, found.2)
  read_write n rest := by
    have hn : n.toNat < varintBound 15 4 := n.toNat_lt
    simp [readVarint_writeVarint (by decide) hn]

def u16 : Format UInt16 where
  write n := writeVarint 2 n.toNat
  read bytes := (readVarint 3 2 bytes).map fun found => (.ofNat found.1, found.2)
  read_write n rest := by
    have hn : n.toNat < varintBound 3 2 := n.toNat_lt
    simp [readVarint_writeVarint (by decide) hn]

/-! The tag of a variant, a number of 32 bits. -/

def writeTag (i : Nat) : List UInt8 := writeVarint 4 i

def readTag (bytes : List UInt8) : Option (Nat × List UInt8) := readVarint 15 4 bytes

theorem readTag_writeTag {i : Nat} (h : i < 4294967296) (rest : List UInt8) :
    readTag (writeTag i ++ rest) = some (i, rest) :=
  readVarint_writeVarint (by decide) h rest

def Format.either {α β : Type} (first : Format α) (second : Format β) : Format (α ⊕ β) where
  write
    | .inl a => writeTag 0 ++ first.write a
    | .inr b => writeTag 1 ++ second.write b
  read bytes :=
    match readTag bytes with
    | some (0, rest) => (first.read rest).map fun found => (.inl found.1, found.2)
    | some (1, rest) => (second.read rest).map fun found => (.inr found.1, found.2)
    | _ => none
  read_write value rest := by
    cases value <;>
      simp [readTag_writeTag, List.append_assoc, first.read_write, second.read_write]

/-! Numbers of a fixed number of bytes, the lowest first or the highest. -/

def littleEndian : Nat → Nat → List UInt8
  | 0, _ => []
  | k+1, n => .ofNat (n % 256) :: littleEndian k (n / 256)

def ofLittleEndian : List UInt8 → Nat
  | [] => 0
  | b :: bs => b.toNat + 256 * ofLittleEndian bs

def bigEndian (k n : Nat) : List UInt8 := (littleEndian k n).reverse

def ofBigEndian (bytes : List UInt8) : Nat := ofLittleEndian bytes.reverse

def fixedBound : Nat → Nat
  | 0 => 1
  | k+1 => 256 * fixedBound k

@[simp] theorem length_littleEndian (k n : Nat) : (littleEndian k n).length = k := by
  induction k generalizing n with
  | zero => rfl
  | succ k ih => rw [littleEndian, List.length_cons, ih]

@[simp] theorem length_bigEndian (k n : Nat) : (bigEndian k n).length = k := by
  rw [bigEndian, List.length_reverse, length_littleEndian]

theorem ofLittleEndian_littleEndian (k n : Nat) :
    ofLittleEndian (littleEndian k n) = n % fixedBound k := by
  induction k generalizing n with
  | zero => rw [littleEndian, ofLittleEndian, fixedBound, Nat.mod_one]
  | succ k ih =>
    rw [littleEndian, ofLittleEndian, ih, fixedBound, toNat_ofNat (Nat.mod_lt n (by decide)),
      Nat.mod_mul]

theorem ofBigEndian_bigEndian (k n : Nat) : ofBigEndian (bigEndian k n) = n % fixedBound k := by
  rw [ofBigEndian, bigEndian, List.reverse_reverse, ofLittleEndian_littleEndian]

def fixed (k : Nat) : Format { n : Nat // n < fixedBound k } where
  write n := bigEndian k n
  read bytes :=
    if k ≤ bytes.length then
      if h : ofBigEndian (bytes.take k) < fixedBound k then
        some (⟨ofBigEndian (bytes.take k), h⟩, bytes.drop k)
      else none
    else none
  read_write n rest := by
    have hn : ofBigEndian (bigEndian k n) = n := by
      rw [ofBigEndian_bigEndian]
      exact Nat.mod_eq_of_lt n.property
    simp [List.take_left', List.drop_left', hn, n.property]

/-! Sequences of bytes and of other values, text, and one value or none. -/

def byteSeq : Format (List UInt8) where
  write bs := length.write bs.length ++ bs
  read bytes :=
    (length.read bytes).bind fun found =>
      if found.1 ≤ found.2.length then some (found.2.take found.1, found.2.drop found.1) else none
  read_write bs rest := by simp [List.append_assoc, length.read_write]

def text : Format String := byteSeq.refine decode encode decode_encode

theorem length_toList_le_write (s : String) : s.toList.length ≤ (text.write s).length := by
  have hchars (cs : List Char) : cs.length ≤ (cs.flatMap String.utf8EncodeChar).length := by
    induction cs with
    | nil => exact Nat.zero_le _
    | cons c cs ih =>
      have hc := c.utf8Size_pos
      rw [List.flatMap_cons, List.length_append, String.length_utf8EncodeChar, List.length_cons]
      omega
  have hwrite : text.write s = length.write (encode s).length ++ encode s := rfl
  rw [hwrite, List.length_append]
  exact (hchars s.toList).trans (Nat.le_add_left _ _)

def boolean : Format Bool where
  write b := if b then [1] else [0]
  read
    | 0 :: bytes => some (false, bytes)
    | 1 :: bytes => some (true, bytes)
    | _ => none
  read_write b rest := by cases b <;> rfl

def readMany {α : Type} (format : Format α) : Nat → List UInt8 → Option (List α × List UInt8)
  | 0, bytes => some ([], bytes)
  | n+1, bytes =>
    (format.read bytes).bind fun found =>
      (readMany format n found.2).map fun rest => (found.1 :: rest.1, rest.2)

theorem readMany_flatMap {α : Type} (format : Format α) (as : List α) (rest : List UInt8) :
    readMany format as.length (as.flatMap format.write ++ rest) = some (as, rest) := by
  induction as with
  | nil => rfl
  | cons a as ih => simp [readMany, List.append_assoc, format.read_write, ih]

def sequence {α : Type} (format : Format α) : Format (List α) where
  write as := length.write as.length ++ as.flatMap format.write
  read bytes := (length.read bytes).bind fun found => readMany format found.1 found.2
  read_write as rest := by simp [List.append_assoc, length.read_write, readMany_flatMap]

def optional {α : Type} (format : Format α) : Format (Option α) where
  write
    | none => [0]
    | some a => 1 :: format.write a
  read
    | 0 :: bytes => some (none, bytes)
    | 1 :: bytes => (format.read bytes).map fun found => (some found.1, found.2)
    | _ => none
  read_write a rest := by
    cases a with
    | none => rfl
    | some a => simp [format.read_write]

end WireFormats
