import P2pDdns.AddressChoice
import P2pDdns.HostsNames

/-!
What the managed section promises its readers: whether the address of a node can be reached from
here, and whether every name is a valid one.
-/

set_option autoImplicit false

namespace P2pDdns
open Std TextLines AppendedLists

/-! What stands on the lines. -/

section Lines
variable (windows : Bool) {here : EndpointAddr} {nodes : List Node} (suffix : Option String)
  {ip : IpAddr} {name : String}

theorem HostsBuilder.mem_map_fst_pairs {builder : HostsBuilder} (h : builder.Named) :
    ip ∈ (builder.pairs windows).map Prod.fst ↔ ip ∈ builder.hostnameMap.toList.map Prod.fst := by
  cases windows with
  | false => rfl
  | true => exact mem_map_fst_spread fun entry hentry => (h entry hentry).1

theorem address_published_iff :
    (∃ line ∈ between ((nodesBuilder here nodes suffix).linesToInsert windows),
      (fields line).head? = some ip.toText) ↔
    ∃ node ∈ nodes, ∃ hostname, Written here node ip hostname := by
  have hnamed := nodesBuilder_named here nodes suffix
  have hlines : (∃ line ∈ between ((nodesBuilder here nodes suffix).linesToInsert windows),
      (fields line).head? = some ip.toText) ↔
        ip ∈ ((nodesBuilder here nodes suffix).pairs windows).map Prod.fst := by
    rw [HostsBuilder.between_linesToInsert, HostsBuilder.entries_eq]
    simp only [List.mem_map]
    constructor
    · rintro ⟨_, ⟨pair, hpair, rfl⟩, hhead⟩
      obtain ⟨hne, hnames⟩ := HostsBuilder.pairs_named hnamed pair hpair
      rw [fields_entry hne hnames, List.head?_cons, Option.some.injEq] at hhead
      exact ⟨pair, hpair, IpAddr.toText_injective hhead⟩
    · rintro ⟨pair, hpair, rfl⟩
      obtain ⟨hne, hnames⟩ := HostsBuilder.pairs_named hnamed pair hpair
      exact ⟨_, ⟨pair, hpair, rfl⟩, by rw [fields_entry hne hnames, List.head?_cons]⟩
  rw [hlines, HostsBuilder.mem_map_fst_pairs windows hnamed, mem_map_fst_toList, nodesBuilder_eq,
    getElem?_collect]
  have hkeys : (if ip ∈ (nodeEntries here nodes suffix).map Prod.fst then
      some (under ip (nodeEntries here nodes suffix)) else none).isSome = true ↔
        ip ∈ (nodeEntries here nodes suffix).map Prod.fst := by
    split <;> simp_all
  rw [hkeys, List.mem_map]
  simp only [mem_nodeEntries]
  constructor
  · rintro ⟨_, ⟨node, hnode, ip, hostname, hwritten, rfl⟩, rfl⟩
    exact ⟨node, hnode, hostname, hwritten⟩
  · rintro ⟨node, hnode, hostname, hwritten⟩
    exact ⟨_, ⟨node, hnode, ip, hostname, hwritten, rfl⟩, rfl⟩

theorem name_published_iff :
    (∃ line ∈ between ((nodesBuilder here nodes suffix).linesToInsert windows),
      name ∈ hostnamesOn line) ↔
    ∃ node ∈ nodes, ∃ ip hostname, Written here node ip hostname ∧
      name ∈ hostnamesOf (suffix.bind canonicalHostname) hostname := by
  rw [← List.mem_flatMap, HostsBuilder.between_linesToInsert,
    HostsBuilder.hostnames_entries (nodesBuilder_named here nodes suffix),
    (nodesBuilder_hostnames here nodes suffix).mem_iff, List.mem_flatMap]
  simp only [mem_nodeEntries]
  constructor
  · rintro ⟨_, ⟨node, hnode, ip, hostname, hwritten, rfl⟩, hname⟩
    exact ⟨node, hnode, ip, hostname, hwritten, hname⟩
  · rintro ⟨node, hnode, ip, hostname, hwritten, hname⟩
    exact ⟨_, ⟨node, hnode, ip, hostname, hwritten, rfl⟩, hname⟩

end Lines

/-! Addresses that can be reached. -/

/-- The node is to be published: it is no client, has a valid name, and lists an IP. -/
structure ToPublish (node : Node) : Prop where
  notClient : node.services.contains SERVICE_MARKER_CLIENT = false
  named : canonicalHostname node.domain ≠ none
  listed : node.addr.ipAddrs ≠ []

/-- No line has a local-only address, and a node that has no other is left out. -/
structure ReachableSection (windows : Bool) (here : EndpointAddr) (nodes : List Node)
    (suffix : Option String) : Prop where
  address : ∀ line ∈ between ((nodesBuilder here nodes suffix).linesToInsert windows),
    ∀ ip : IpAddr, (fields line).head? = some ip.toText → isLocalOnlyIp ip = false
  omitted : ∀ front node back, nodes = front ++ node :: back → LocalOnly node.addr →
    (nodesBuilder here nodes suffix).linesToInsert windows =
      (nodesBuilder here (front ++ back) suffix).linesToInsert windows

section Addresses
variable {windows : Bool} {remote here : EndpointAddr} {node : Node} {nodes : List Node}
  {suffix : Option String} {ip : IpAddr} {hostname : String}

theorem bestEndpointAddrForLocal_reachable (hhere : ¬ LocalOnly here) :
    LocalOnly remote ∧ bestEndpointAddrForLocal remote here = remote ∨
      ¬ LocalOnly remote ∧ ∃ sock, isLocalOnlyIp sock.ip = false ∧
        bestEndpointAddrForLocal remote here = .fromParts remote.id [.ip sock] := by
  have heligible (sock : SocketAddr) :
      Eligible remote here sock ↔ sock ∈ remote.ipAddrs ∧ isLocalOnlyIp sock.ip = false := by
    rw [Eligible, or_iff_right hhere]
  by_cases hremote : LocalOnly remote
  · refine .inl ⟨hremote, bestEndpointAddrForLocal_none fun sock hsock => ?_⟩
    obtain ⟨hmem, hreach⟩ := (heligible sock).mp hsock
    rw [hremote sock hmem] at hreach
    contradiction
  · have hne : here.ipAddrs ≠ [] := by
      intro hnil
      exact hhere fun sock hsock => by simp [hnil] at hsock
    have hsome : ∃ sock, Eligible remote here sock := by
      simpa only [LocalOnly, not_forall, exists_prop, Bool.not_eq_true, ← heligible] using hremote
    obtain ⟨sock, hoptimal, hbest⟩ := bestEndpointAddrForLocal_some hne hsome
    exact .inr ⟨hremote, sock, ((heligible sock).mp hoptimal.eligible).2, hbest⟩

theorem recordIpForLocal_localOnly (hhere : ¬ LocalOnly here)
    (h : recordIpForLocal remote here = some ip) :
    isLocalOnlyIp ip = true ↔ LocalOnly remote := by
  obtain ⟨sock, hhead, rfl⟩ := Option.map_eq_some_iff.mp h
  have hmem := List.mem_of_mem_head? hhead
  rcases @bestEndpointAddrForLocal_reachable remote here hhere with
    ⟨hremote, hbest⟩ | ⟨hremote, other, hreach, hbest⟩
  · rw [hbest] at hmem
    exact iff_of_true (hremote sock hmem) hremote
  · rw [hbest] at hmem
    obtain rfl : sock = other := by simpa using hmem
    exact iff_of_false (by simp [hreach]) hremote

theorem exists_recordIp (hhere : ¬ LocalOnly here) (hlisted : remote.ipAddrs ≠ []) :
    ∃ ip, recordIpForLocal remote here = some ip := by
  have hne : (bestEndpointAddrForLocal remote here).ipAddrs ≠ [] := by
    rcases @bestEndpointAddrForLocal_reachable remote here hhere with
      ⟨-, hbest⟩ | ⟨-, sock, -, hbest⟩
    · rwa [hbest]
    · rw [hbest]
      exact List.ne_nil_of_mem (a := sock) (by simp)
  obtain ⟨sock, rest, hcons⟩ := List.exists_cons_of_ne_nil hne
  exact ⟨sock.ip, by simp [recordIpForLocal, hcons]⟩

theorem written_iff (hhere : ¬ LocalOnly here) :
    (∃ ip hostname, Written here node ip hostname) ↔ ToPublish node := by
  constructor
  · rintro ⟨ip, hostname, hwritten⟩
    refine ⟨hwritten.notClient, by simp [hwritten.name], fun hnil => ?_⟩
    have hremote : LocalOnly node.addr := fun sock hsock => by simp [hnil] at hsock
    have haddress := hwritten.address
    rcases @bestEndpointAddrForLocal_reachable node.addr here hhere with ⟨-, hbest⟩ | ⟨hnot, -⟩
    · simp [recordIpForLocal, hbest, hnil] at haddress
    · exact hnot hremote
  · rintro ⟨hclient, hnamed, hlisted⟩
    obtain ⟨ip, hip⟩ := exists_recordIp hhere hlisted
    obtain ⟨hostname, hname⟩ := Option.ne_none_iff_exists'.mp hnamed
    exact ⟨ip, hostname, hclient, hip, hname⟩

theorem omit_unwritten {front back : List Node}
    (h : ∀ ip hostname, ¬ Written here node ip hostname) :
    nodesBuilder here (front ++ node :: back) suffix =
      nodesBuilder here (front ++ back) suffix := by
  refine nodesBuilder_skip ?_
  rw [Option.eq_none_iff_forall_not_mem]
  intro entry hentry
  obtain ⟨ip, hostname, hwritten, -⟩ := entryOf_eq_some_iff.mp hentry
  exact h ip hostname hwritten

end Addresses

/-- From a machine that others can reach, the section promises only addresses that can be
reached exactly if every node to be published has one. -/
theorem hosts_reachable_iff {here : EndpointAddr}
    (hhere : ∃ sock ∈ here.ipAddrs, isLocalOnlyIp sock.ip = false) (windows : Bool)
    (nodes : List Node) (suffix : Option String) :
    ReachableSection windows here nodes suffix ↔
      ∀ node ∈ nodes, ToPublish node →
        ∃ sock ∈ node.addr.ipAddrs, isLocalOnlyIp sock.ip = false := by
  have hsome (addr : EndpointAddr) :
      (∃ sock ∈ addr.ipAddrs, isLocalOnlyIp sock.ip = false) ↔ ¬ LocalOnly addr := by
    simp [LocalOnly]
  rw [hsome] at hhere
  simp only [hsome]
  constructor
  · intro hreach node hnode hpublish hlocal
    obtain ⟨ip, hostname, hwritten⟩ := (written_iff hhere).mpr hpublish
    obtain ⟨line, hline, hhead⟩ := (address_published_iff windows suffix).mpr
      ⟨node, hnode, hostname, hwritten⟩
    have hip := hreach.address line hline ip hhead
    rw [(recordIpForLocal_localOnly hhere hwritten.address).mpr hlocal] at hip
    contradiction
  · intro hnodes
    refine ⟨fun line hline ip hhead => ?_, ?_⟩
    · obtain ⟨node, hnode, hostname, hwritten⟩ :=
        (address_published_iff windows suffix).mp ⟨line, hline, hhead⟩
      rw [Bool.eq_false_iff, ne_eq, recordIpForLocal_localOnly hhere hwritten.address]
      exact hnodes node hnode ((written_iff hhere).mp ⟨ip, hostname, hwritten⟩)
    · rintro front node back rfl hlocal
      rw [omit_unwritten fun ip hostname hwritten => hnodes node (by simp)
        ((written_iff hhere).mp ⟨ip, hostname, hwritten⟩) hlocal]

/-! Names that are valid. -/

structure IsCanonical (name : String) : Prop where
  length : name.utf8ByteSize ≤ 253
  labels : ∀ label ∈ name.toList.splitOn '.', isValidHostnameLabel (.ofList label) = true
  lower : ∀ c ∈ name.toList, c.isUpper = false

section Canonical
variable {name hostname : String}

theorem canonicalHostname_isCanonical (h : canonicalHostname name = some hostname) :
    IsCanonical hostname := by
  simp only [canonicalHostname, Option.ite_none_left_eq_some, Bool.or_eq_true, decide_eq_true_eq,
    not_or, Nat.not_lt, Bool.not_eq_true', Bool.not_eq_false, List.all_map, List.all_eq_true,
    Option.some.injEq] at h
  obtain ⟨⟨-, hlength⟩, hlabels, rfl⟩ := h
  refine ⟨hlength, hlabels, fun c hc => ?_⟩
  rw [toAsciiLowercase, String.toList_ofList] at hc
  obtain ⟨d, -, rfl⟩ := List.mem_map.mp hc
  exact isUpper_toLower d

theorem toLower_of_not_isUpper {c : Char} (h : c.isUpper = false) : c.toLower = c := by
  have hrange : ¬ (c.val ≥ 'A'.val ∧ c.val ≤ 'Z'.val) := of_decide_eq_false h
  exact dif_neg hrange

theorem not_isWhitespace_of_isAlphanum {c : Char} (h : c.isAlphanum = true) :
    isWhitespace c = false := by
  have halnum : c.isAlphanum = (c.isUpper || c.isLower || c.isDigit) := rfl
  rw [halnum, Bool.or_eq_true, Bool.or_eq_true] at h
  have hrange : 48 ≤ c.toNat ∧ c.toNat ≤ 122 := by
    rcases h with (hupper | hlower) | hdigit
    · have hval : 65 ≤ c.toNat ∧ c.toNat ≤ 90 := isUpper_iff.mp hupper
      omega
    · have hlower' : c.isLower = (decide (c.val ≥ 'a'.val) && decide (c.val ≤ 'z'.val)) := rfl
      rw [hlower', Bool.and_eq_true, decide_eq_true_eq, decide_eq_true_eq] at hlower
      have hlow : 97 ≤ c.toNat := UInt32.le_iff_toNat_le.mp hlower.1
      have hhigh : c.toNat ≤ 122 := UInt32.le_iff_toNat_le.mp hlower.2
      omega
    · have hval : 48 ≤ c.toNat ∧ c.toNat ≤ 57 := Char.isDigit_iff_toNat.mp hdigit
      omega
  simp only [isWhitespace, Bool.or_eq_false_iff, Bool.and_eq_false_iff, decide_eq_false_iff_not]
  omega

theorem IsCanonical.ne_empty (h : IsCanonical name) : name.toList ≠ [] := by
  intro hnil
  have hlabel := h.labels [] (by rw [hnil]; exact List.mem_singleton_self _)
  revert hlabel
  decide

theorem IsCanonical.not_isWhitespace (h : IsCanonical name) :
    ∀ c ∈ name.toList, isWhitespace c = false := by
  intro c hc
  have hchar := labels_chars h.labels c hc
  rw [Bool.or_eq_true, decide_eq_true_eq] at hchar
  rcases hchar with (hchar | rfl) | rfl
  · exact not_isWhitespace_of_isAlphanum hchar
  · decide
  · decide

theorem IsCanonical.getLast_ne (h : IsCanonical name) : name.toList.getLast h.ne_empty ≠ '.' := by
  intro hlast
  have hsplit := List.dropLast_append_getLast h.ne_empty
  rw [hlast] at hsplit
  have hlabel := h.labels [] (by
    rw [← hsplit, List.splitOn_append_cons_self]
    simp)
  revert hlabel
  decide

theorem IsCanonical.fixed (h : IsCanonical name) : canonicalHostname name = some name := by
  have hspace : trim name = name := by
    have hfront : name.toList.dropWhile isWhitespace = name.toList :=
      List.dropWhile_eq_self_iff.mpr fun hl => by
        simp [h.not_isWhitespace _ (List.getElem_mem hl)]
    have hback : name.toList.rdropWhile isWhitespace = name.toList :=
      List.rdropWhile_eq_self_iff.mpr fun hl => by
        simp [h.not_isWhitespace _ (List.getLast_mem hl)]
    rw [trim, hfront, hback, String.ofList_toList]
  have hdots : trimEndMatches name '.' = name := by
    have hkept : name.toList.rdropWhile (· = '.') = name.toList :=
      List.rdropWhile_eq_self_iff.mpr fun _ => by simpa using h.getLast_ne
    rw [trimEndMatches, hkept, String.ofList_toList]
  have hlower : toAsciiLowercase name = name := by
    have hsame : name.toList.map Char.toLower = name.toList :=
      (List.map_congr_left fun c hc => toLower_of_not_isUpper (h.lower c hc)).trans (List.map_id _)
    rw [toAsciiLowercase, hsame, String.ofList_toList]
  have hne : name.isEmpty = false := by
    rw [Bool.eq_false_iff, ne_eq, String.isEmpty_iff]
    rintro rfl
    exact h.ne_empty rfl
  have hlabels : ((name.toList.splitOn '.').map String.ofList).all isValidHostnameLabel = true := by
    rw [List.all_map, List.all_eq_true]
    exact h.labels
  simp [canonicalHostname, hspace, hdots, hlower, hne, hlabels, h.length]

theorem canonicalHostname_self_iff : canonicalHostname name = some name ↔ IsCanonical name :=
  ⟨canonicalHostname_isCanonical, IsCanonical.fixed⟩

theorem IsCanonical.append_iff {suffix : String} (hname : IsCanonical name)
    (hsuffix : IsCanonical suffix) :
    IsCanonical (name ++ "." ++ suffix) ↔ name.utf8ByteSize + 1 + suffix.utf8ByteSize ≤ 253 := by
  have hsize : (name ++ "." ++ suffix).utf8ByteSize =
      name.utf8ByteSize + 1 + suffix.utf8ByteSize := by
    rw [String.utf8ByteSize_append, String.utf8ByteSize_append]
    rfl
  have hjoined : (name ++ "." ++ suffix).toList = name.toList ++ '.' :: suffix.toList := by
    simp
  rw [← hsize]
  refine ⟨IsCanonical.length, fun hlength => ⟨hlength, fun label hlabel => ?_, fun c hc => ?_⟩⟩
  · rw [hjoined, List.splitOn_append_cons_self] at hlabel
    rcases List.mem_append.mp hlabel with hlabel | hlabel
    · exact hname.labels label hlabel
    · exact hsuffix.labels label hlabel
  · rw [hjoined, List.mem_append, List.mem_cons] at hc
    rcases hc with hc | rfl | hc
    · exact hname.lower c hc
    · decide
    · exact hsuffix.lower c hc

end Canonical

/-- Every name of the section is its own canonical form exactly if no name gets too long with the
suffix behind it. -/
theorem published_canonical_iff (windows : Bool) (here : EndpointAddr) (nodes : List Node)
    (suffix : Option String) :
    (∀ line ∈ between ((nodesBuilder here nodes suffix).linesToInsert windows),
      ∀ name ∈ hostnamesOn line, canonicalHostname name = some name) ↔
    ∀ node ∈ nodes, ∀ ip hostname, Written here node ip hostname →
      ∀ s, suffix.bind canonicalHostname = some s →
        hostname.utf8ByteSize + 1 + s.utf8ByteSize ≤ 253 := by
  have hsuffix : ∀ s, suffix.bind canonicalHostname = some s → IsCanonical s := by
    intro s hs
    obtain ⟨text, -, htext⟩ := Option.bind_eq_some_iff.mp hs
    exact canonicalHostname_isCanonical htext
  constructor
  · intro hvalid node hnode ip hostname hwritten s hs
    obtain ⟨line, hline, hname⟩ := (name_published_iff windows suffix).mpr
      ⟨node, hnode, ip, hostname, hwritten, mem_hostnamesOf.mpr (.inr ⟨s, hs, rfl⟩)⟩
    have hjoined := canonicalHostname_self_iff.mp (hvalid line hline _ hname)
    exact ((canonicalHostname_isCanonical hwritten.name).append_iff (hsuffix s hs)).mp hjoined
  · intro hlength line hline name hname
    obtain ⟨node, hnode, ip, hostname, hwritten, hmem⟩ :=
      (name_published_iff windows suffix).mp ⟨line, hline, hname⟩
    have hhostname := canonicalHostname_isCanonical hwritten.name
    rw [canonicalHostname_self_iff]
    rcases mem_hostnamesOf.mp hmem with rfl | ⟨s, hs, rfl⟩
    · exact hhostname
    · exact (hhostname.append_iff (hsuffix s hs)).mpr
        (hlength node hnode ip hostname hwritten s hs)

namespace Sample

def loopback : Node :=
  { alpha with addr := .fromParts 2 [.ip (.v4 0x7f000001 7777)] }

theorem here_reachable : ∃ sock ∈ here.ipAddrs, isLocalOnlyIp sock.ip = false := by decide

theorem alpha_reachable_iff :
    ReachableSection false here [alpha] none ↔ ∀ node ∈ [alpha], ToPublish node →
      ∃ sock ∈ node.addr.ipAddrs, isLocalOnlyIp sock.ip = false :=
  hosts_reachable_iff here_reachable false [alpha] none

/-- The name of another machine is given to this one. -/
theorem loopback_published :
    ¬ ∀ (here : EndpointAddr) (nodes : List Node) (suffix : Option String),
      (∃ sock ∈ here.ipAddrs, isLocalOnlyIp sock.ip = false) →
      ReachableSection false here nodes suffix := by
  intro hclaim
  have hreach := hclaim here [loopback] none here_reachable
  have hlocal := hreach.address "127.0.0.1 alpha" (by decide) (.v4 0x7f000001) (by decide)
  revert hlocal
  decide

def longLabel : String := .ofList (List.replicate 63 'a')

def longName : String := longLabel ++ "." ++ longLabel

theorem longLabel_size : longLabel.utf8ByteSize = 63 := by decide +kernel

theorem longLabel_canonical : IsCanonical longLabel := by
  have hletters : longLabel.toList = List.replicate 63 'a' := String.toList_ofList
  have hone : longLabel.toList.splitOn '.' = [longLabel.toList] := by
    rw [hletters]
    rfl
  refine ⟨by rw [longLabel_size]; decide, fun label hlabel => ?_, fun c hc => ?_⟩
  · rw [hone, List.mem_singleton] at hlabel
    rw [hlabel, String.ofList_toList]
    decide +kernel
  · rw [hletters] at hc
    rw [List.eq_of_mem_replicate hc]
    decide

theorem longName_size : longName.utf8ByteSize = 127 := by
  rw [longName, String.utf8ByteSize_append, String.utf8ByteSize_append, longLabel_size]
  rfl

theorem longName_canonical : IsCanonical longName :=
  (longLabel_canonical.append_iff longLabel_canonical).mpr (by simp [longLabel_size])

/-- A name and a suffix of 127 characters each are valid, and make one of 255 together. -/
theorem long_name_published :
    ¬ ∀ (nodes : List Node) (suffix : Option String),
      ∀ line ∈ between ((nodesBuilder here nodes suffix).linesToInsert false),
        ∀ name ∈ hostnamesOn line, canonicalHostname name = some name := by
  intro hclaim
  have hname := longName_canonical.fixed
  have hwritten : Written here { alpha with domain := longName } (.v4 0x0a000002) longName :=
    ⟨by decide, by decide, hname⟩
  have hjoined : longName ++ "." ++ longName ∈
      hostnamesOf ((some longName).bind canonicalHostname) longName := by
    rw [Option.bind_some, hname]
    exact mem_hostnamesOf.mpr (.inr ⟨longName, rfl, rfl⟩)
  obtain ⟨line, hline, hmem⟩ := (name_published_iff false (some longName)).mpr
    ⟨_, List.mem_singleton_self _, _, _, hwritten, hjoined⟩
  have hfixed := hclaim _ _ line hline _ hmem
  have hlength := (longName_canonical.append_iff longName_canonical).mp
    (canonicalHostname_isCanonical hfixed)
  rw [longName_size] at hlength
  exact absurd hlength (by decide)

end Sample

end P2pDdns
