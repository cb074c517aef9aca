import P2pDdns.BestAddress
import P2pDdns.Nodes
import P2pDdns.TextLines

/-!
The section of the hosts file the program manages: addresses and host names as text, and the
lines made of them between two markers.
-/

set_option autoImplicit false

namespace P2pDdns
open Std TextLines

def HOSTS_TAG : String := "p2p-ddns"

/-! Addresses in order and as text. -/

/-- V4 before V6, each by its octets. -/
def IpAddr.key : IpAddr → List Nat
  | .v4 a => [4, a.toNat]
  | .v6 a => [6, a.toNat]

theorem IpAddr.key_injective {a b : IpAddr} (h : a.key = b.key) : a = b := by
  cases a <;> cases b <;> simp_all [key, BitVec.toNat_inj]

instance : Ord IpAddr := ⟨fun a b => compare a.key b.key⟩

instance : TransOrd IpAddr where
  eq_swap := @fun a b => OrientedCmp.eq_swap (a := a.key) (b := b.key)
  isLE_trans := @fun a b c => TransCmp.isLE_trans (a := a.key) (b := b.key) (c := c.key)

instance : LawfulEqOrd IpAddr where
  compare_self := @fun a => ReflCmp.compare_self (a := a.key)
  eq_of_compare := @fun a b h =>
    IpAddr.key_injective (LawfulEqCmp.eq_of_compare (a := a.key) (b := b.key) h)

def octets (a : BitVec 32) : List Nat :=
  (List.range 4).map fun i => a.toNat >>> (8 * (3-i)) % 256

def segments (a : BitVec 128) : List Nat :=
  (List.range 8).map fun i => a.toNat >>> (16 * (7-i)) % 65536

def decimal (n : Nat) : List Char := Nat.toDigits 10 n

def hex (n : Nat) : List Char := Nat.toDigits 16 n

def ipv4Text (a : BitVec 32) : List Char := ['.'].intercalate ((octets a).map decimal)

structure Span where
  start : Nat
  len : Nat
  deriving DecidableEq

def noteSegment (found : Span × Span) (segment : Nat × Nat) : Span × Span :=
  if segment.1 = 0 then
    let current : Span :=
      { start := if found.2.len = 0 then segment.2 else found.2.start, len := found.2.len + 1 }
    (if current.len > found.1.len then current else found.1, current)
  else (found.1, ⟨0, 0⟩)

def longestZeroes (segments : List Nat) : Span :=
  (segments.zipIdx.foldl noteSegment (⟨0, 0⟩, ⟨0, 0⟩)).1

def fmtSubslice (chunk : List Nat) : List Char := [':'].intercalate (chunk.map hex)

def ipv6Text (a : BitVec 128) : List Char :=
  if a >>> 32 = 0xffff then "::ffff:".toList ++ ipv4Text (a.setWidth 32)
  else
    let zeroes := longestZeroes (segments a)
    if zeroes.len > 1 then
      fmtSubslice ((segments a).take zeroes.start) ++ "::".toList ++
        fmtSubslice ((segments a).drop (zeroes.start + zeroes.len))
    else fmtSubslice (segments a)

def IpAddr.toText : IpAddr → String
  | .v4 a => .ofList (ipv4Text a)
  | .v6 a => .ofList (ipv6Text a)

example : (IpAddr.v6 0xfe80000000000000000000000000000a).toText = "fe80::a" := by decide

/-! Host names. -/

def trimEndMatches (s : String) (c : Char) : String := .ofList (s.toList.rdropWhile (· = c))

def toAsciiLowercase (s : String) : String := .ofList (s.toList.map Char.toLower)

def isValidHostnameLabel (label : String) : Bool :=
  if label.isEmpty || label.utf8ByteSize > 63 then false
  else if label.toList.head? = some '-' || label.toList.getLast? = some '-' then false
  else label.toList.all fun ch => ch.isAlphanum || ch = '-'

def canonicalHostname (name : String) : Option String :=
  let trimmed := toAsciiLowercase (trimEndMatches (trim name) '.')
  if trimmed.isEmpty || trimmed.utf8ByteSize > 253 then none
  else if !((trimmed.toList.splitOn '.').map String.ofList).all isValidHostnameLabel then none
  else some trimmed

def recordIpForLocal (remote here : EndpointAddr) : Option IpAddr :=
  let best := bestEndpointAddrForLocal remote here
  best.ipAddrs.head?.map SocketAddr.ip

def beginMarker (tag : String) : String := "# DO NOT EDIT " ++ tag ++ " BEGIN"

def endMarker (tag : String) : String := "# DO NOT EDIT " ++ tag ++ " END"

structure HostsBuilder where
  tag : String
  hostnameMap : ExtTreeMap IpAddr (List String)

namespace HostsBuilder

def new (tag : String) : HostsBuilder := ⟨tag, ∅⟩

def addHostnames (builder : HostsBuilder) (ip : IpAddr) (hostnames : List String) : HostsBuilder :=
  { builder with
    hostnameMap := builder.hostnameMap.insert ip ((builder.hostnameMap.getD ip []) ++ hostnames) }

/-- The lines of one address; Windows takes one host name a line. -/
def entryLines (windows : Bool) (entry : IpAddr × List String) : List String :=
  if windows then entry.2.map fun hostname => entry.1.toText ++ " " ++ hostname
  else [entry.1.toText ++ " " ++ " ".intercalate entry.2]

def linesToInsert (builder : HostsBuilder) (windows : Bool) : List String :=
  if builder.hostnameMap.isEmpty then []
  else beginMarker builder.tag ::
    (builder.hostnameMap.toList.flatMap (entryLines windows) ++ [endMarker builder.tag])

end HostsBuilder

/-! What the texts are made of. -/

def addressChars : List Char := "0123456789abcdef.:".toList

theorem digitChar_mem {n : Nat} (h : n < 16) : Nat.digitChar n ∈ addressChars := by
  revert n
  decide

theorem toDigits_chars {b n : Nat} (hb : 1 < b) (hb' : b ≤ 16) :
    Nat.toDigits b n ⊆ addressChars := by
  induction n using Nat.strongRecOn with
  | ind n ih =>
    rw [Nat.toDigits_eq_if hb]
    split
    · rename_i hn
      exact List.forall_mem_singleton.mpr (digitChar_mem (by omega))
    · rename_i hn
      have hlt : n / b < n := Nat.div_lt_self (by omega) hb
      have hmod : n % b < b := Nat.mod_lt n (by omega)
      exact List.append_subset.mpr
        ⟨ih (n / b) hlt, List.forall_mem_singleton.mpr (digitChar_mem (by omega))⟩

theorem intercalate_chars {sep : List Char} {pieces : List (List Char)}
    (hsep : sep ⊆ addressChars) (h : ∀ piece ∈ pieces, piece ⊆ addressChars) :
    sep.intercalate pieces ⊆ addressChars := by
  intro c hc
  rcases mem_intercalate hc with hc | ⟨piece, hpiece, hc⟩
  · exact hsep hc
  · exact h piece hpiece hc

theorem ipv4Text_chars (a : BitVec 32) : ipv4Text a ⊆ addressChars :=
  intercalate_chars (by decide)
    (List.forall_mem_map.mpr fun n _ => toDigits_chars (by decide) (by decide))

theorem fmtSubslice_chars (chunk : List Nat) : fmtSubslice chunk ⊆ addressChars :=
  intercalate_chars (by decide)
    (List.forall_mem_map.mpr fun n _ => toDigits_chars (by decide) (by decide))

theorem ipv6Text_chars (a : BitVec 128) : ipv6Text a ⊆ addressChars := by
  unfold ipv6Text
  split
  · exact List.append_subset.mpr ⟨by decide, ipv4Text_chars _⟩
  · dsimp only
    split
    · exact List.append_subset.mpr ⟨List.append_subset.mpr
        ⟨fmtSubslice_chars _, by decide⟩, fmtSubslice_chars _⟩
    · exact fmtSubslice_chars _

theorem intercalate_ne_nil {α : Type*} {sep piece : List α} {pieces : List (List α)}
    (h : piece ≠ []) : sep.intercalate (piece :: pieces) ≠ [] := by
  by_cases hpieces : pieces = []
  · rw [hpieces, List.intercalate_singleton]
    exact h
  · rw [List.intercalate_cons_of_ne_nil hpieces]
    simp [h]

theorem ipv4Text_ne_nil (a : BitVec 32) : ipv4Text a ≠ [] :=
  intercalate_ne_nil Nat.toDigits_ne_nil

theorem ipv6Text_ne_nil (a : BitVec 128) : ipv6Text a ≠ [] := by
  unfold ipv6Text
  split
  · simp
  · dsimp only
    split
    · simp
    · exact intercalate_ne_nil Nat.toDigits_ne_nil

theorem IpAddr.toText_chars (ip : IpAddr) : ip.toText.toList ⊆ addressChars := by
  cases ip with
  | v4 a => simpa [toText] using ipv4Text_chars a
  | v6 a => simpa [toText] using ipv6Text_chars a

theorem IpAddr.toText_ne_nil (ip : IpAddr) : ip.toText.toList ≠ [] := by
  cases ip with
  | v4 a => simpa [toText] using ipv4Text_ne_nil a
  | v6 a => simpa [toText] using ipv6Text_ne_nil a

theorem addressChar_spec {c : Char} (h : c ∈ addressChars) :
    isWhitespace c = false ∧ c ≠ '#' ∧ c ≠ '\r' ∧ c ≠ '\n' := by
  have hall : addressChars.all (fun c =>
      !isWhitespace c && c != '#' && c != '\r' && c != '\n') = true := by decide
  simpa [and_assoc] using List.all_eq_true.mp hall c h

theorem IpAddr.toText_oneLine (ip : IpAddr) : OneLine ip.toText :=
  ⟨fun hmem => (addressChar_spec (ip.toText_chars hmem)).2.2.1 rfl,
    fun hmem => (addressChar_spec (ip.toText_chars hmem)).2.2.2 rfl⟩

theorem isValidHostnameLabel_chars {label : String} (h : isValidHostnameLabel label = true) :
    ∀ c ∈ label.toList, (c.isAlphanum || c = '-') = true := by
  unfold isValidHostnameLabel at h
  split at h
  · contradiction
  · split at h
    · contradiction
    · exact List.all_eq_true.mp h

theorem labels_chars {name : String}
    (h : ∀ label ∈ name.toList.splitOn '.', isValidHostnameLabel (.ofList label) = true) :
    ∀ c ∈ name.toList, (c.isAlphanum || c = '-') = true ∨ c = '.' := by
  intro c hc
  rw [← @List.intercalate_splitOn Char name.toList _ _ '.'] at hc
  rcases mem_intercalate hc with hc | ⟨label, hlabel, hc⟩
  · exact .inr (List.mem_singleton.mp hc)
  · exact .inl (isValidHostnameLabel_chars (h label hlabel) c (by rwa [String.toList_ofList]))

theorem canonicalHostname_chars {name hostname : String}
    (h : canonicalHostname name = some hostname) :
    ∀ c ∈ hostname.toList, (c.isAlphanum || c = '-') = true ∨ c = '.' := by
  simp only [canonicalHostname, Option.ite_none_left_eq_some, Bool.not_eq_true', Bool.not_eq_false,
    List.all_map, List.all_eq_true, Option.some.injEq] at h
  obtain ⟨-, hlabels, rfl⟩ := h
  exact labels_chars hlabels

theorem canonicalHostname_oneLine {name hostname : String}
    (h : canonicalHostname name = some hostname) : OneLine hostname := by
  have hchars := canonicalHostname_chars h
  constructor
  · exact fun hmem => absurd (hchars _ hmem) (by decide)
  · exact fun hmem => absurd (hchars _ hmem) (by decide)

namespace HostsBuilder
variable {builder : HostsBuilder} {windows : Bool}

def hostnames (builder : HostsBuilder) : List String := builder.hostnameMap.toList.flatMap Prod.snd

def Clean (builder : HostsBuilder) : Prop := ∀ hostname ∈ builder.hostnames, OneLine hostname

theorem mem_hostnames {hostname : String} :
    hostname ∈ builder.hostnames ↔
      ∃ (ip : IpAddr) (names : List String), builder.hostnameMap[ip]? = some names ∧ hostname ∈ names := by
  simp only [hostnames, List.mem_flatMap, Prod.exists, ExtTreeMap.mem_toList_iff_getElem?_eq_some]

theorem new_clean (tag : String) : (new tag).Clean := by
  intro hostname h
  obtain ⟨ip, names, hget, -⟩ := mem_hostnames.mp h
  simp [new] at hget

theorem addHostnames_clean (h : builder.Clean) (ip : IpAddr) {hostnames : List String}
    (hnames : ∀ hostname ∈ hostnames, OneLine hostname) :
    (builder.addHostnames ip hostnames).Clean := by
  intro hostname hmem
  obtain ⟨other, names, hget, hname⟩ := mem_hostnames.mp hmem
  rw [addHostnames, ExtTreeMap.getElem?_insert] at hget
  split at hget
  · obtain rfl := Option.some.inj hget
    rcases List.mem_append.mp hname with hname | hname
    · cases hold : builder.hostnameMap[ip]? with
      | none => simp [ExtTreeMap.getD_eq_getD_getElem?, hold] at hname
      | some old =>
        rw [ExtTreeMap.getD_eq_getD_getElem?, hold] at hname
        exact h hostname (mem_hostnames.mpr ⟨ip, old, hold, hname⟩)
    · exact hnames hostname hname
  · exact h hostname (mem_hostnames.mpr ⟨other, names, hget, hname⟩)

def entries (builder : HostsBuilder) (windows : Bool) : List String :=
  builder.hostnameMap.toList.flatMap (entryLines windows)

theorem entryLines_eq {entry : IpAddr × List String} {line : String}
    (h : line ∈ entryLines windows entry) :
    ∃ rest, line = entry.1.toText ++ " " ++ rest ∧
      (rest ∈ entry.2 ∨ rest = " ".intercalate entry.2) := by
  unfold entryLines at h
  split at h
  · obtain ⟨hostname, hmem, rfl⟩ := List.mem_map.mp h
    exact ⟨hostname, rfl, .inl hmem⟩
  · exact ⟨_, List.mem_singleton.mp h, .inr rfl⟩

theorem entries_oneLine (h : builder.Clean) : ∀ line ∈ builder.entries windows, OneLine line := by
  intro line hline
  obtain ⟨entry, hentry, hline⟩ := List.mem_flatMap.mp hline
  have hnames : ∀ hostname ∈ entry.2, OneLine hostname := fun hostname hmem =>
    h hostname (List.mem_flatMap.mpr ⟨entry, hentry, hmem⟩)
  have hspace : OneLine " " := by decide
  obtain ⟨rest, rfl, hrest | rfl⟩ := entryLines_eq hline
  · exact ((entry.1.toText_oneLine.append hspace).append (hnames rest hrest))
  · exact ((entry.1.toText_oneLine.append hspace).append (hspace.intercalate hnames))

theorem entries_head {line : String} (h : line ∈ builder.entries windows) :
    ∃ c ∈ addressChars, (trim line).toList.head? = some c := by
  obtain ⟨entry, -, hline⟩ := List.mem_flatMap.mp h
  obtain ⟨rest, rfl, -⟩ := entryLines_eq hline
  obtain ⟨c, tail, hc⟩ := List.exists_cons_of_ne_nil entry.1.toText_ne_nil
  have hmem : c ∈ addressChars := entry.1.toText_chars (hc ▸ List.mem_cons_self)
  exact ⟨c, hmem, head?_trim (by simp [String.toList_append, hc]) (addressChar_spec hmem).1⟩

theorem linesToInsert_eq (builder : HostsBuilder) (windows : Bool) :
    builder.linesToInsert windows = [] ∧ builder.hostnameMap.isEmpty = true ∨
      builder.linesToInsert windows =
        beginMarker builder.tag :: (builder.entries windows ++ [endMarker builder.tag]) ∧
        builder.hostnameMap.isEmpty = false := by
  cases hempty : builder.hostnameMap.isEmpty <;> simp [linesToInsert, hempty, entries]

theorem linesToInsert_eq_nil_iff :
    builder.linesToInsert windows = [] ↔ builder.hostnameMap.isEmpty = true := by
  rcases linesToInsert_eq builder windows with ⟨hlines, hempty⟩ | ⟨hlines, hempty⟩ <;>
    simp [hlines, hempty]

end HostsBuilder
end P2pDdns
