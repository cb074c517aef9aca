import Mathlib.Data.List.Basic

/-!
Bytes as text in base64: six bits a character, the highest first, with nothing to fill up the last
group.
-/

set_option autoImplicit false

namespace Base64

/-! Characters. -/

def charsFrom (c : Char) (n : Nat) : List Char := (List.range n).map fun i => .ofNat (c.toNat + i)

def alphabet : List Char := charsFrom 'A' 26 ++ charsFrom 'a' 26 ++ charsFrom '0' 10 ++ ['+', '/']

def symbol (n : Nat) : Char := alphabet.getD n 'A'

def value (c : Char) : Option Nat := alphabet.idxOf? c

theorem value_symbol {n : Nat} (h : n < 64) : value (symbol n) = some n := by
  revert n
  decide

theorem mapM_value {ns : List Nat} (h : ∀ n ∈ ns, n < 64) :
    (ns.map symbol).mapM value = some ns := by
  induction ns with
  | nil => rfl
  | cons n ns ih =>
    obtain ⟨hn, hns⟩ := List.forall_mem_cons.mp h
    rw [List.map_cons, List.mapM_cons, value_symbol hn, ih hns]
    rfl

/-! Six bits at a time. -/

/-- Three bytes are four groups of bits; the last group is filled up with zeros. -/
def sextets : List UInt8 → List Nat
  | a :: b :: c :: rest =>
    a.toNat / 4 :: (a.toNat % 4 * 16 + b.toNat / 16) :: (b.toNat % 16 * 4 + c.toNat / 64) ::
      c.toNat % 64 :: sextets rest
  | [a, b] => [a.toNat / 4, a.toNat % 4 * 16 + b.toNat / 16, b.toNat % 16 * 4]
  | [a] => [a.toNat / 4, a.toNat % 4 * 16]
  | [] => []

/-- What fills up the last group has to be zero. -/
def ofSextets : List Nat → Option (List UInt8)
  | w :: x :: y :: z :: rest =>
    (ofSextets rest).map fun bytes =>
      .ofNat (w * 4 + x / 16) :: .ofNat (x % 16 * 16 + y / 4) :: .ofNat (y % 4 * 64 + z) :: bytes
  | [w, x, y] =>
    if y % 4 = 0 then some [.ofNat (w * 4 + x / 16), .ofNat (x % 16 * 16 + y / 4)] else none
  | [w, x] => if x % 16 = 0 then some [.ofNat (w * 4 + x / 16)] else none
  | [_] => none
  | [] => some []

theorem sextets_lt (bytes : List UInt8) : ∀ n ∈ sextets bytes, n < 64 := by
  induction bytes using sextets.induct with
  | case1 a b c rest ih =>
    have ha := a.toNat_lt
    have hb := b.toNat_lt
    have hc := c.toNat_lt
    rw [sextets, List.forall_mem_cons, List.forall_mem_cons, List.forall_mem_cons,
      List.forall_mem_cons]
    exact ⟨by omega, by omega, by omega, by omega, ih⟩
  | case2 a b =>
    have ha := a.toNat_lt
    have hb := b.toNat_lt
    rw [sextets, List.forall_mem_cons, List.forall_mem_cons, List.forall_mem_singleton]
    exact ⟨by omega, by omega, by omega⟩
  | case3 a =>
    have ha := a.toNat_lt
    rw [sextets, List.forall_mem_cons, List.forall_mem_singleton]
    exact ⟨by omega, by omega⟩
  | case4 => exact List.forall_mem_nil _

theorem byte_eq {a : UInt8} {n : Nat} (h : n = a.toNat) : UInt8.ofNat n = a := by
  rw [h, UInt8.ofNat_toNat]

theorem ofSextets_sextets (bytes : List UInt8) : ofSextets (sextets bytes) = some bytes := by
  induction bytes using sextets.induct with
  | case1 a b c rest ih =>
    have hb := b.toNat_lt
    have hc := c.toNat_lt
    have h₁ := @byte_eq a (a.toNat / 4 * 4 + (a.toNat % 4 * 16 + b.toNat / 16) / 16) (by omega)
    have h₂ := @byte_eq b ((a.toNat % 4 * 16 + b.toNat / 16) % 16 * 16 +
      (b.toNat % 16 * 4 + c.toNat / 64) / 4) (by omega)
    have h₃ := @byte_eq c ((b.toNat % 16 * 4 + c.toNat / 64) % 4 * 64 + c.toNat % 64) (by omega)
    rw [sextets, ofSextets, ih, h₁, h₂, h₃, Option.map_some]
  | case2 a b =>
    have hb := b.toNat_lt
    have h₁ := @byte_eq a (a.toNat / 4 * 4 + (a.toNat % 4 * 16 + b.toNat / 16) / 16) (by omega)
    have h₂ := @byte_eq b ((a.toNat % 4 * 16 + b.toNat / 16) % 16 * 16 + b.toNat % 16 * 4 / 4)
      (by omega)
    rw [sextets, ofSextets, if_pos (by omega), h₁, h₂]
  | case3 a =>
    have h₁ := @byte_eq a (a.toNat / 4 * 4 + a.toNat % 4 * 16 / 16) (by omega)
    rw [sextets, ofSextets, if_pos (by omega), h₁]
  | case4 => rfl

/-! Texts. -/

def encode (bytes : List UInt8) : String := .ofList ((sextets bytes).map symbol)

def decode (text : String) : Option (List UInt8) := (text.toList.mapM value).bind ofSextets

theorem decode_encode (bytes : List UInt8) : decode (encode bytes) = some bytes := by
  rw [decode, encode, String.toList_ofList, mapM_value (sextets_lt bytes), Option.bind_some,
    ofSextets_sextets]

theorem encode_injective {bytes bytes' : List UInt8} (h : encode bytes = encode bytes') :
    bytes = bytes' := by
  have hdecode := congrArg decode h
  rw [decode_encode, decode_encode] at hdecode
  exact Option.some.inj hdecode

example : encode [77, 97, 110, 77, 97] = "TWFuTWE" := by decide

end Base64
