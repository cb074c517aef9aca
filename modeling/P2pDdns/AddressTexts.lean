import Mathlib.Data.List.Induction
import P2pDdns.HostEntries

/-!
Addresses read back from their text, as the reader of a hosts file does: decimal octets, or
hexadecimal segments of which one run of zeroes may be left out.
-/

set_option autoImplicit false

namespace P2pDdns
open TextLines

/-! Numerals. -/

def digitValue (c : Char) : Nat :=
  if c.isDigit then c.toNat - '0'.toNat
  else if c.toNat < 'a'.toNat then 16
  else c.toNat - 'a'.toNat + 10

def readDigit (base : Nat) (n : Option Nat) (c : Char) : Option Nat :=
  n.bind fun n => if digitValue c < base then some (base*n + digitValue c) else none

def readNumeral (base : Nat) (text : List Char) : Option Nat :=
  if text = [] then none else text.foldl (readDigit base) (some 0)

theorem digitValue_digitChar {n : Nat} (h : n < 16) : digitValue (Nat.digitChar n) = n := by
  revert n
  decide

theorem foldl_readDigit_toDigits {base n : Nat} (hbase : 1 < base) (hbase' : base ≤ 16) :
    (Nat.toDigits base n).foldl (readDigit base) (some 0) = some n := by
  induction n using Nat.strongRecOn with
  | ind n ih =>
    rw [Nat.toDigits_eq_if hbase]
    split
    · rename_i hn
      have hvalue : digitValue n.digitChar = n := digitValue_digitChar (by omega)
      simp [readDigit, hvalue, hn]
    · rename_i hn
      have hlt : n / base < n := Nat.div_lt_self (by omega) hbase
      have hmod : n % base < base := Nat.mod_lt n (by omega)
      have hvalue : digitValue (n % base).digitChar = n % base := digitValue_digitChar (by omega)
      rw [List.foldl_append, ih (n / base) hlt]
      simp [readDigit, hvalue, hmod, Nat.div_add_mod]

theorem readNumeral_toDigits {base n : Nat} (hbase : 1 < base) (hbase' : base ≤ 16) :
    readNumeral base (Nat.toDigits base n) = some n := by
  rw [readNumeral, if_neg Nat.toDigits_ne_nil, foldl_readDigit_toDigits hbase hbase']

theorem mapM_readNumeral {base : Nat} (hbase : 1 < base) (hbase' : base ≤ 16) (numbers : List Nat) :
    (numbers.map (Nat.toDigits base)).mapM (readNumeral base) = some numbers := by
  induction numbers with
  | nil => rfl
  | cons n numbers ih =>
    simp [readNumeral_toDigits hbase hbase', ih]

def join (base : Nat) (digits : List Nat) : Nat := digits.foldl (fun n d => base*n + d) 0

/-- The lowest `k` groups of `b` bits of a number, joined again. -/
theorem join_groups (b k n : Nat) :
    join (Nat.pow 2 b) ((List.range k).map fun i => n >>> (b * (k-1-i)) % Nat.pow 2 b) =
      n % Nat.pow 2 (b*k) := by
  simp only [Nat.pow_eq]
  induction k generalizing n with
  | zero => simp [join, Nat.mod_one]
  | succ k ih =>
    -- all groups but the last are those of the number without its lowest one
    have hfront : ((List.range k).map fun i => n >>> (b * (k+1-1-i)) % Nat.pow 2 b) =
        (List.range k).map fun i => (n >>> b) >>> (b * (k-1-i)) % Nat.pow 2 b := by
      refine List.map_congr_left fun i hi => ?_
      have hi' := List.mem_range.mp hi
      rw [← Nat.shiftRight_add, show k+1-1-i = k-1-i + 1 by omega, Nat.mul_succ, Nat.add_comm b]
    have hlast : n >>> (b * (k+1-1-k)) = n := by simp
    simp only [Nat.pow_eq] at hfront
    rw [List.range_succ, List.map_append, hfront, List.map_singleton, hlast, join,
      List.foldl_append, ← join, ih, List.foldl_cons, List.foldl_nil, Nat.shiftRight_eq_div_pow,
      Nat.mul_succ, Nat.add_comm (b*k), Nat.pow_add, Nat.mod_mul, Nat.add_comm]

theorem join_octets (a : BitVec 32) : join 256 (octets a) = a.toNat :=
  (join_groups 8 4 a.toNat).trans (Nat.mod_eq_of_lt a.isLt)

theorem join_segments (a : BitVec 128) : join 65536 (segments a) = a.toNat :=
  (join_groups 16 8 a.toNat).trans (Nat.mod_eq_of_lt a.isLt)

/-! Addresses. -/

def readIpv4 (text : List Char) : Option (BitVec 32) :=
  match (text.splitOn '.').mapM (readNumeral 10) with
  | none => none
  | some octets =>
    if octets.length = 4 ∧ octets.all (· < 256) then some (.ofNat 32 (join 256 octets)) else none

/-- Where a run of segments is left out, the text has an empty piece between its colons. -/
def readSegments (text : List Char) : Option (List Nat) :=
  let pieces := text.splitOn ':'
  let front := pieces.takeWhile (· ≠ [])
  let back := pieces.dropWhile (· ≠ [])
  match front.mapM (readNumeral 16), (back.dropWhile (· = [])).mapM (readNumeral 16) with
  | some before, some after =>
    if back = [] then some before
    else some (before ++ List.replicate (8 - before.length - after.length) 0 ++ after)
  | _, _ => none

def readIpv6 (text : List Char) : Option (BitVec 128) :=
  if '.' ∈ text then
    if text.take 7 = "::ffff:".toList then
      (readIpv4 (text.drop 7)).map fun a => .ofNat 128 (0xffff * 4294967296 + a.toNat)
    else none
  else
    match readSegments text with
    | none => none
    | some segments =>
      if segments.length = 8 ∧ segments.all (· < 65536) then some (.ofNat 128 (join 65536 segments))
      else none

def IpAddr.read (text : String) : Option IpAddr :=
  if ':' ∈ text.toList then (readIpv6 text.toList).map .v6 else (readIpv4 text.toList).map .v4

theorem toDigits_not_mem {base n : Nat} {c : Char} (hbase : 1 < base) (hbase' : base ≤ 16)
    (h : digitValue c ≥ 16) : c ∉ Nat.toDigits base n := by
  induction n using Nat.strongRecOn with
  | ind n ih =>
    have hdigit : ∀ d, d < 16 → c ≠ Nat.digitChar d := by
      rintro d hd rfl
      rw [digitValue_digitChar hd] at h
      omega
    rw [Nat.toDigits_eq_if hbase]
    split
    · rename_i hn
      simpa using hdigit n (by omega)
    · rename_i hn
      have hlt : n / base < n := Nat.div_lt_self (by omega) hbase
      have hmod : n % base < base := Nat.mod_lt n (by omega)
      simpa using ⟨ih (n / base) hlt, hdigit (n % base) (by omega)⟩

theorem readIpv4_ipv4Text (a : BitVec 32) : readIpv4 (ipv4Text a) = some a := by
  have hdot : ∀ piece ∈ (octets a).map decimal, '.' ∉ piece :=
    List.forall_mem_map.mpr fun n _ => toDigits_not_mem (by decide) (by decide) (by decide)
  have hsplit : (ipv4Text a).splitOn '.' = (octets a).map decimal :=
    List.splitOn_intercalate '.' hdot (by simp [octets])
  have hread : ((octets a).map decimal).mapM (readNumeral 10) = some (octets a) :=
    mapM_readNumeral (by decide) (by decide) (octets a)
  have hsmall : (octets a).all (· < 256) = true := by
    rw [List.all_eq_true]
    intro n hn
    obtain ⟨i, -, rfl⟩ := List.mem_map.mp hn
    exact decide_eq_true (Nat.mod_lt _ (by decide))
  rw [readIpv4, hsplit, hread]
  dsimp only
  rw [if_pos ⟨by simp [octets], hsmall⟩, join_octets, BitVec.ofNat_toNat, BitVec.setWidth_eq]

/-! Runs of zero segments. -/

/-- The elements of a span are there and are zero. -/
structure Zeroes (segments : List Nat) (span : Span) : Prop where
  inside : span.start + span.len ≤ segments.length
  zero : ∀ i, span.start ≤ i → i < span.start + span.len → segments[i]? = some 0

theorem Zeroes.concat {segments : List Nat} {span : Span} (h : Zeroes segments span) (n : Nat) :
    Zeroes (segments ++ [n]) span where
  inside := by
    have hinside := h.inside
    rw [List.length_append]
    omega
  zero := by
    intro i hlow hhigh
    have hinside := h.inside
    rw [List.getElem?_append_left (by omega)]
    exact h.zero i hlow hhigh

def Found (segments : List Nat) (found : Span × Span) : Prop :=
  Zeroes segments found.1 ∧ Zeroes segments found.2 ∧
    (found.2.len ≠ 0 → found.2.start + found.2.len = segments.length)

theorem zeroes_empty (segments : List Nat) : Zeroes segments ⟨0, 0⟩ :=
  ⟨Nat.zero_le _, fun i hlow hhigh => absurd hhigh (by simp)⟩

theorem noteSegment_found {segments : List Nat} {found : Span × Span} (h : Found segments found)
    (n : Nat) : Found (segments ++ [n]) (noteSegment found (n, segments.length)) := by
  obtain ⟨hlongest, hcurrent, hend⟩ := h
  rw [noteSegment]
  split
  · rename_i hnull
    have hn : n = 0 := hnull
    have hrun : Zeroes (segments ++ [n])
        { start := if found.2.len = 0 then segments.length else found.2.start,
          len := found.2.len + 1 } := by
      constructor
      · simp only [List.length_append, List.length_singleton]
        have hinside := hcurrent.inside
        split <;> omega
      · intro i hlow hhigh
        simp only at hlow hhigh
        by_cases hlast : i = segments.length
        · rw [hlast, List.getElem?_concat_length, hn]
        · split at hlow
          · rename_i hzero
            simp only [hzero] at hhigh
            simp only [if_true] at hhigh
            omega
          · rename_i hzero
            have hlength := hend hzero
            simp only [hzero, if_false] at hhigh
            exact (hcurrent.concat n).zero i hlow (by omega)
    refine ⟨?_, hrun, fun _ => ?_⟩
    · dsimp only
      split
      · exact hrun
      · exact hlongest.concat n
    · simp only [List.length_append, List.length_singleton]
      split
      · rename_i hzero
        rw [hzero]
      · rename_i hzero
        have hlength := hend hzero
        omega
  · exact ⟨hlongest.concat n, zeroes_empty _, fun h => absurd rfl h⟩

theorem longestZeroes_zeroes (segments : List Nat) : Zeroes segments (longestZeroes segments) := by
  have hfound : Found segments (segments.zipIdx.foldl noteSegment (⟨0, 0⟩, ⟨0, 0⟩)) := by
    induction segments using List.reverseRecOn with
    | nil => exact ⟨zeroes_empty [], zeroes_empty [], fun h => absurd rfl h⟩
    | append_singleton segments n ih =>
      rw [List.zipIdx_append, List.foldl_append]
      simpa using noteSegment_found ih n
  exact hfound.1

theorem Zeroes.split {segments : List Nat} {span : Span} (h : Zeroes segments span) :
    segments = segments.take span.start ++ List.replicate span.len 0 ++
      segments.drop (span.start + span.len) := by
  have hmid : (segments.drop span.start).take span.len = List.replicate span.len 0 := by
    rw [List.eq_replicate_iff]
    have hinside := h.inside
    constructor
    · rw [List.length_take, List.length_drop]
      omega
    · intro n hn
      obtain ⟨i, hi⟩ := List.mem_iff_getElem?.mp hn
      rw [List.getElem?_take] at hi
      split at hi
      · rename_i hlt
        rw [List.getElem?_drop, h.zero _ (by omega) (by omega)] at hi
        exact (Option.some.inj hi).symm
      · contradiction
  rw [← hmid, List.append_assoc, ← List.drop_drop, List.take_append_drop, List.take_append_drop]

/-! Segments with and without a run left out. -/

theorem intercalate_append {sep : List Char} {xs ys : List (List Char)} (hxs : xs ≠ [])
    (hys : ys ≠ []) :
    sep.intercalate (xs ++ ys) = sep.intercalate xs ++ sep ++ sep.intercalate ys := by
  induction xs with
  | nil => exact absurd rfl hxs
  | cons x xs ih =>
    by_cases hnil : xs = []
    · rw [hnil, List.singleton_append, List.intercalate_cons_of_ne_nil hys,
        List.intercalate_singleton, List.append_assoc]
    · rw [List.cons_append, List.intercalate_cons_of_ne_nil (by simp [hnil]), ih hnil,
        List.intercalate_cons_of_ne_nil hnil]
      simp only [List.append_assoc]

def chunkPieces (chunk : List Nat) : List (List Char) :=
  if chunk = [] then [[]] else chunk.map hex

theorem intercalate_chunkPieces (chunk : List Nat) :
    [':'].intercalate (chunkPieces chunk) = fmtSubslice chunk := by
  unfold chunkPieces
  split
  · rename_i h
    rw [h]
    rfl
  · rfl

theorem chunkPieces_ne_nil (chunk : List Nat) : chunkPieces chunk ≠ [] := by
  unfold chunkPieces
  split
  · simp
  · simpa

theorem hex_ne_nil (n : Nat) : hex n ≠ [] := Nat.toDigits_ne_nil

theorem colon_not_mem_hex (n : Nat) : ':' ∉ hex n :=
  toDigits_not_mem (by decide) (by decide) (by decide)

theorem colon_not_mem_chunkPieces (chunk : List Nat) : ∀ piece ∈ chunkPieces chunk, ':' ∉ piece := by
  unfold chunkPieces
  split
  · simp
  · exact List.forall_mem_map.mpr fun n _ => colon_not_mem_hex n

theorem takeWhile_hex (chunk : List Nat) (rest : List (List Char)) :
    (chunk.map hex ++ rest).takeWhile (· ≠ []) = chunk.map hex ++ rest.takeWhile (· ≠ []) := by
  exact List.takeWhile_append_of_pos (List.forall_mem_map.mpr fun n _ => decide_eq_true (hex_ne_nil n))

theorem dropWhile_hex (chunk : List Nat) (rest : List (List Char)) :
    (chunk.map hex ++ rest).dropWhile (· ≠ []) = rest.dropWhile (· ≠ []) := by
  exact List.dropWhile_append_of_pos (List.forall_mem_map.mpr fun n _ => decide_eq_true (hex_ne_nil n))

theorem mapM_hex (chunk : List Nat) : (chunk.map hex).mapM (readNumeral 16) = some chunk :=
  mapM_readNumeral (by decide) (by decide) chunk

theorem readSegments_fmtSubslice {chunk : List Nat} (hne : chunk ≠ []) :
    readSegments (fmtSubslice chunk) = some chunk := by
  have hsplit : (fmtSubslice chunk).splitOn ':' = chunk.map hex := by
    rw [← intercalate_chunkPieces, List.splitOn_intercalate ':' (colon_not_mem_chunkPieces chunk)
      (chunkPieces_ne_nil chunk), chunkPieces, if_neg hne]
  have hfront := takeWhile_hex chunk []
  have hback := dropWhile_hex chunk []
  rw [List.append_nil] at hfront hback
  rw [readSegments, hsplit, hfront, hback, List.takeWhile_nil, List.dropWhile_nil, List.append_nil,
    mapM_hex]
  rfl

theorem readSegments_compressed (before after : List Nat) :
    readSegments (fmtSubslice before ++ "::".toList ++ fmtSubslice after) =
      some (before ++ List.replicate (8 - before.length - after.length) 0 ++ after) := by
  have htext : fmtSubslice before ++ "::".toList ++ fmtSubslice after =
      [':'].intercalate (chunkPieces before ++ ([] :: chunkPieces after)) := by
    rw [intercalate_append (chunkPieces_ne_nil before) (by simp),
      List.intercalate_cons_of_ne_nil (chunkPieces_ne_nil after), intercalate_chunkPieces,
      intercalate_chunkPieces]
    simp
  have hcolon : ∀ piece ∈ chunkPieces before ++ ([] :: chunkPieces after), ':' ∉ piece :=
    List.forall_mem_append.mpr ⟨colon_not_mem_chunkPieces before,
      List.forall_mem_cons.mpr ⟨by simp, colon_not_mem_chunkPieces after⟩⟩
  have hsplit := List.splitOn_intercalate ':' hcolon (by simp)
  have hafter : (chunkPieces after).dropWhile (· = []) = after.map hex := by
    unfold chunkPieces
    split
    · rename_i h
      simp [h]
    · rename_i h
      obtain ⟨n, rest, rfl⟩ := List.exists_cons_of_ne_nil h
      rw [List.map_cons, List.dropWhile_cons_of_neg (by simpa using hex_ne_nil n)]
  -- In front of the run there is one empty piece, or none if the text starts with it.
  have hfront : (chunkPieces before ++ ([] :: chunkPieces after)).takeWhile (· ≠ []) =
      before.map hex := by
    unfold chunkPieces
    split
    · rename_i h
      simp [h]
    · rw [takeWhile_hex]
      simp
  have hback : ∃ rest, (chunkPieces before ++ ([] :: chunkPieces after)).dropWhile (· ≠ []) =
      [] :: rest ∧ rest.dropWhile (· = []) = after.map hex := by
    by_cases h : before = []
    · refine ⟨[] :: chunkPieces after, by simp [chunkPieces, h], ?_⟩
      rw [List.dropWhile_cons_of_pos (by simp), hafter]
    · refine ⟨chunkPieces after, ?_, hafter⟩
      rw [chunkPieces, if_neg h, dropWhile_hex]
      simp
  obtain ⟨rest, hback, hrest⟩ := hback
  rw [readSegments, htext, hsplit, hfront, hback, List.dropWhile_cons_of_pos (by simp), hrest,
    mapM_hex, mapM_hex]
  rfl

/-! The text of an address. -/

theorem dot_not_mem_fmtSubslice (chunk : List Nat) : '.' ∉ fmtSubslice chunk := by
  intro hmem
  rcases mem_intercalate hmem with hmem | ⟨piece, hpiece, hmem⟩
  · exact absurd hmem (by decide)
  · obtain ⟨n, -, rfl⟩ := List.mem_map.mp hpiece
    exact toDigits_not_mem (by decide) (by decide) (by decide) hmem

theorem colon_not_mem_ipv4Text (a : BitVec 32) : ':' ∉ ipv4Text a := by
  intro hmem
  rcases mem_intercalate hmem with hmem | ⟨piece, hpiece, hmem⟩
  · exact absurd hmem (by decide)
  · obtain ⟨n, -, rfl⟩ := List.mem_map.mp hpiece
    exact toDigits_not_mem (by decide) (by decide) (by decide) hmem

theorem dot_mem_ipv4Text (a : BitVec 32) : '.' ∈ ipv4Text a := by
  have hpieces : (octets a).map decimal ≠ [] := by simp [octets]
  obtain ⟨piece, pieces, h⟩ := List.exists_cons_of_ne_nil hpieces
  have hrest : pieces ≠ [] := by
    rintro rfl
    have hlen := congrArg List.length h
    simp [octets] at hlen
  rw [ipv4Text, h, List.intercalate_cons_of_ne_nil hrest]
  simp

theorem colon_mem_ipv6Text (a : BitVec 128) : ':' ∈ ipv6Text a := by
  unfold ipv6Text
  split
  · simp
  · dsimp only
    split
    · simp
    · have hpieces : (segments a).map hex ≠ [] := by simp [segments]
      obtain ⟨piece, pieces, h⟩ := List.exists_cons_of_ne_nil hpieces
      have hrest : pieces ≠ [] := by
        rintro rfl
        have hlen := congrArg List.length h
        simp [segments] at hlen
      rw [fmtSubslice, h, List.intercalate_cons_of_ne_nil hrest]
      simp

theorem readSegments_ipv6Text {a : BitVec 128} (h : ¬a >>> 32 = 0xffff) :
    '.' ∉ ipv6Text a ∧ readSegments (ipv6Text a) = some (segments a) := by
  rw [ipv6Text, if_neg h]
  dsimp only
  split
  · have hsplit := (longestZeroes_zeroes (segments a)).split
    have hinside := (longestZeroes_zeroes (segments a)).inside
    have hlength : (segments a).length = 8 := by simp [segments]
    generalize longestZeroes (segments a) = span at *
    refine ⟨?_, ?_⟩
    · simp only [List.mem_append, not_or]
      exact ⟨⟨dot_not_mem_fmtSubslice _, by decide⟩, dot_not_mem_fmtSubslice _⟩
    · rw [readSegments_compressed]
      have hrun : 8 - ((segments a).take span.start).length -
          ((segments a).drop (span.start + span.len)).length = span.len := by
        rw [List.length_take, List.length_drop]
        omega
      rw [hrun, ← hsplit]
  · exact ⟨dot_not_mem_fmtSubslice _, readSegments_fmtSubslice (by simp [segments])⟩

theorem mapped_toNat {a : BitVec 128} (h : a >>> 32 = 0xffff) :
    0xffff * 4294967296 + (a.setWidth 32).toNat = a.toNat := by
  have hhigh := congrArg BitVec.toNat h
  simp only [BitVec.toNat_ushiftRight, Nat.shiftRight_eq_div_pow, BitVec.toNat_setWidth] at hhigh ⊢
  simp at hhigh
  omega

theorem readIpv6_ipv6Text (a : BitVec 128) : readIpv6 (ipv6Text a) = some a := by
  by_cases h : a >>> 32 = 0xffff
  · have htext : ipv6Text a = "::ffff:".toList ++ ipv4Text (a.setWidth 32) := if_pos h
    have hdot : '.' ∈ ipv6Text a := by
      rw [htext]
      exact List.mem_append_right _ (dot_mem_ipv4Text _)
    have htake : (ipv6Text a).take 7 = "::ffff:".toList := by
      rw [htext, List.take_left' (by decide)]
    have hdrop : (ipv6Text a).drop 7 = ipv4Text (a.setWidth 32) := by
      rw [htext, List.drop_left' (by decide)]
    rw [readIpv6, if_pos hdot, if_pos htake, hdrop, readIpv4_ipv4Text, Option.map_some,
      mapped_toNat h, BitVec.ofNat_toNat, BitVec.setWidth_eq]
  · obtain ⟨hdot, hread⟩ := readSegments_ipv6Text h
    have hsmall : (segments a).all (· < 65536) = true := by
      rw [List.all_eq_true]
      intro n hn
      obtain ⟨i, -, rfl⟩ := List.mem_map.mp hn
      exact decide_eq_true (Nat.mod_lt _ (by decide))
    rw [readIpv6, if_neg hdot, hread]
    dsimp only
    rw [if_pos ⟨by simp [segments], hsmall⟩, join_segments, BitVec.ofNat_toNat, BitVec.setWidth_eq]

/-- The text of an address is read back as that address. -/
theorem IpAddr.read_toText (ip : IpAddr) : IpAddr.read ip.toText = some ip := by
  cases ip with
  | v4 a =>
    rw [read, toText, String.toList_ofList, if_neg (colon_not_mem_ipv4Text a), readIpv4_ipv4Text]
    rfl
  | v6 a =>
    rw [read, toText, String.toList_ofList, if_pos (colon_mem_ipv6Text a), readIpv6_ipv6Text]
    rfl

theorem IpAddr.toText_injective {ip ip' : IpAddr} (h : ip.toText = ip'.toText) : ip = ip' := by
  have hread := congrArg IpAddr.read h
  rw [read_toText, read_toText] at hread
  exact Option.some.inj hread

/-! Socket addresses. -/

def SocketAddr.toText : SocketAddr → String
  | .v4 addr port => s!"{(IpAddr.v4 addr).toText}:{port.toNat}"
  | .v6 addr port _ scopeId =>
    if scopeId = 0 then s!"[{(IpAddr.v6 addr).toText}]:{port.toNat}"
    else s!"[{(IpAddr.v6 addr).toText}%{scopeId.toNat}]:{port.toNat}"

def socketChars : List Char := "0123456789abcdef.:[]%".toList

theorem SocketAddr.toText_chars (sock : SocketAddr) : sock.toText.toList ⊆ socketChars := by
  have hsub : addressChars ⊆ socketChars := by decide
  have hip (ip : IpAddr) : ip.toText.toList ⊆ socketChars :=
    List.Subset.trans ip.toText_chars hsub
  have hnumber (n : Nat) : (toString n).toList ⊆ socketChars := by
    rw [Nat.toString_eq_ofList_toDigits, String.toList_ofList]
    exact List.Subset.trans (toDigits_chars (by decide) (by decide)) hsub
  have hpieces {s t : String} (hs : s.toList ⊆ socketChars) (ht : t.toList ⊆ socketChars) :
      (s ++ t).toList ⊆ socketChars := by
    rw [String.toList_append]
    exact List.append_subset.mpr ⟨hs, ht⟩
  have hcolon : ":".toList ⊆ socketChars := by decide
  have hopen : "[".toList ⊆ socketChars := by decide
  have hclose : "]:".toList ⊆ socketChars := by decide
  have hscope : "%".toList ⊆ socketChars := by decide
  unfold toText
  split
  · exact hpieces (hpieces (hip _) hcolon) (hnumber _)
  · split
    · exact hpieces (hpieces (hpieces hopen (hip _)) hclose) (hnumber _)
    · exact hpieces (hpieces (hpieces (hpieces (hpieces hopen (hip _)) hscope) (hnumber _)) hclose)
        (hnumber _)

theorem SocketAddr.toText_word (sock : SocketAddr) :
    ∀ c ∈ sock.toText.toList, isWhitespace c = false := by
  have hall : (socketChars.all fun c => !isWhitespace c) = true := by decide
  exact fun c hc => by simpa using List.all_eq_true.mp hall c (sock.toText_chars hc)

theorem length_intercalate_le (sep : List Char) {pieces : List (List Char)} {k : Nat}
    (h : ∀ piece ∈ pieces, piece.length ≤ k) :
    (sep.intercalate pieces).length ≤ pieces.length * (k + sep.length) := by
  induction pieces with
  | nil => simp
  | cons piece pieces ih =>
    obtain ⟨hpiece, hpieces⟩ := List.forall_mem_cons.mp h
    have ih := ih hpieces
    rw [List.length_cons, Nat.succ_mul]
    by_cases hrest : pieces = []
    · rw [hrest, List.intercalate_singleton]
      omega
    · rw [List.intercalate_cons_of_ne_nil hrest, List.length_append, List.length_append]
      omega

theorem length_decimal_le {n : Nat} (h : n < 10000000000) : (decimal n).length ≤ 10 :=
  (Nat.length_toDigits_le_iff (by decide) (by decide)).mpr h

theorem length_ipv4Text_le (a : BitVec 32) : (ipv4Text a).length ≤ 44 := by
  have hoctets : ∀ n ∈ octets a, n < 10000000000 := by
    simp [octets]
    omega
  exact length_intercalate_le ['.']
    (List.forall_mem_map.mpr fun n hn => length_decimal_le (hoctets n hn))

theorem length_fmtSubslice_le {chunk : List Nat} (h : ∀ n ∈ chunk, n < 65536) :
    (fmtSubslice chunk).length ≤ chunk.length * 5 := by
  have hpieces : ∀ piece ∈ chunk.map hex, piece.length ≤ 4 :=
    List.forall_mem_map.mpr fun n hn =>
      (Nat.length_toDigits_le_iff (by decide) (by decide)).mpr (h n hn)
  have hle := length_intercalate_le [':'] hpieces
  rwa [List.length_map] at hle

theorem length_ipv6Text_le (a : BitVec 128) : (ipv6Text a).length ≤ 82 := by
  have hsegments : ∀ n ∈ segments a, n < 65536 := by
    simp [segments]
    omega
  have hlength : (segments a).length = 8 := rfl
  unfold ipv6Text
  split
  · have hv4 := length_ipv4Text_le (a.setWidth 32)
    have hmapped : "::ffff:".toList.length = 7 := by decide
    rw [List.length_append]
    omega
  · dsimp only
    generalize longestZeroes (segments a) = zeroes
    split
    · have hbefore := length_fmtSubslice_le fun n hn =>
        hsegments n (List.mem_of_mem_take (i := zeroes.start) hn)
      have hafter := length_fmtSubslice_le fun n hn =>
        hsegments n (List.mem_of_mem_drop (i := zeroes.start + zeroes.len) hn)
      have hcolons : "::".toList.length = 2 := by decide
      rw [List.length_take] at hbefore
      rw [List.length_drop] at hafter
      rw [List.length_append, List.length_append]
      omega
    · have hall := length_fmtSubslice_le hsegments
      omega

theorem IpAddr.length_toText_le (ip : IpAddr) : ip.toText.toList.length ≤ 82 := by
  cases ip with
  | v4 a =>
    rw [toText, String.toList_ofList]
    exact (length_ipv4Text_le a).trans (by decide)
  | v6 a =>
    rw [toText, String.toList_ofList]
    exact length_ipv6Text_le a

theorem SocketAddr.length_toText_le (sock : SocketAddr) : sock.toText.toList.length ≤ 107 := by
  have hnumber {n : Nat} (h : n < 10000000000) : (toString n).toList.length ≤ 10 := by
    rw [Nat.toString_eq_ofList_toDigits, String.toList_ofList]
    exact length_decimal_le h
  have hpieces {s t : String} {k l : Nat} (hs : s.toList.length ≤ k) (ht : t.toList.length ≤ l) :
      (s ++ t).toList.length ≤ k + l := by
    rw [String.toList_append, List.length_append]
    exact Nat.add_le_add hs ht
  have hcolon : ":".toList.length ≤ 1 := by decide
  have hopen : "[".toList.length ≤ 1 := by decide
  have hclose : "]:".toList.length ≤ 2 := by decide
  have hscope : "%".toList.length ≤ 1 := by decide
  unfold toText
  split
  · rename_i addr port
    have hport : (toString port.toNat).toList.length ≤ 10 := hnumber (by omega)
    exact (hpieces (hpieces (IpAddr.length_toText_le _) hcolon) hport).trans (by decide)
  · rename_i addr port _ scopeId
    have hport : (toString port.toNat).toList.length ≤ 10 := hnumber (by omega)
    have hid : (toString scopeId.toNat).toList.length ≤ 10 := hnumber (by omega)
    split
    · exact (hpieces (hpieces (hpieces hopen (IpAddr.length_toText_le _)) hclose) hport).trans
        (by decide)
    · exact (hpieces (hpieces (hpieces (hpieces (hpieces hopen (IpAddr.length_toText_le _)) hscope)
        hid) hclose) hport).trans (by decide)

end P2pDdns
