import Mathlib.Data.List.Nodup
import P2pDdns.AddressTexts
import P2pDdns.AppendedLists
import P2pDdns.HostsRuns

/-!
The names of the managed section: which nodes put which names on which line, whether the order
of the nodes shows in it, and whether a name can stand in it twice.
-/

set_option autoImplicit false

namespace P2pDdns
open Std TextLines MarkedSections AppendedLists

/-! Host names by their characters. -/

def isHostnameChar (c : Char) : Bool := c.isLower || c.isDigit || c = '-' || c = '.'

theorem isUpper_iff {c : Char} : c.isUpper = true ↔ 65 ≤ c.val.toNat ∧ c.val.toNat ≤ 90 := by
  have hupper : c.isUpper = decide (c.val ≥ 'A'.val ∧ c.val ≤ 'Z'.val) := rfl
  rw [hupper, decide_eq_true_eq]
  exact and_congr UInt32.le_iff_toNat_le UInt32.le_iff_toNat_le

theorem isUpper_toLower (c : Char) : c.toLower.isUpper = false := by
  rw [Bool.eq_false_iff, ne_eq, isUpper_iff]
  by_cases h : c.val ≥ 'A'.val ∧ c.val ≤ 'Z'.val
  · have hlow : 65 ≤ c.val.toNat := UInt32.le_iff_toNat_le.mp h.1
    have hhigh : c.val.toNat ≤ 90 := UInt32.le_iff_toNat_le.mp h.2
    have hval : c.toLower.val = c.val + 32 := congrArg Char.val (dif_pos h)
    have hnat : (c.val + 32).toNat = c.val.toNat + 32 := by
      rw [UInt32.toNat_add]
      exact Nat.mod_eq_of_lt (show c.val.toNat + 32 < 4294967296 by omega)
    rw [hval, hnat]
    omega
  · have hsame : c.toLower = c := dif_neg h
    rw [hsame]
    rintro ⟨hlow, hhigh⟩
    exact h ⟨UInt32.le_iff_toNat_le.mpr hlow, UInt32.le_iff_toNat_le.mpr hhigh⟩

theorem isHostnameChar_toLower {c : Char}
    (h : (c.toLower.isAlphanum || c.toLower = '-') = true ∨ c.toLower = '.') :
    isHostnameChar c.toLower = true := by
  have hupper := isUpper_toLower c
  rcases h with h | h
  · have halnum : c.toLower.isAlphanum =
        (c.toLower.isUpper || c.toLower.isLower || c.toLower.isDigit) := rfl
    rw [halnum, hupper, Bool.false_or] at h
    rw [isHostnameChar, h, Bool.true_or]
  · simp [isHostnameChar, h]

def IsHostname (name : String) : Prop :=
  name ≠ "" ∧ ∀ c ∈ name.toList, isHostnameChar c = true

theorem canonicalHostname_isHostname {name hostname : String}
    (h : canonicalHostname name = some hostname) : IsHostname hostname := by
  have hchars := canonicalHostname_chars h
  simp only [canonicalHostname, Option.ite_none_left_eq_some, Bool.or_eq_true, not_or,
    Option.some.injEq] at h
  obtain ⟨⟨hne, -⟩, -, rfl⟩ := h
  refine ⟨by simpa using hne, fun c hc => ?_⟩
  have hlow := hchars c hc
  rw [toAsciiLowercase, String.toList_ofList] at hc
  obtain ⟨d, -, rfl⟩ := List.mem_map.mp hc
  exact isHostnameChar_toLower hlow

/-! The names of one node. -/

theorem append_dot_ne (name suffix : String) : name ++ "." ++ suffix ≠ name := by
  intro h
  have hlen := congrArg (fun s : String => s.toList.length) h
  simp only [String.toList_append, List.length_append] at hlen
  have hdot : ".".toList.length = 1 := rfl
  omega

theorem mem_hostnamesOf {suffix : Option String} {hostname name : String} :
    name ∈ hostnamesOf suffix hostname ↔
      name = hostname ∨ ∃ s, suffix = some s ∧ name = hostname ++ "." ++ s := by
  cases suffix with
  | none =>
    rw [hostnamesOf, ExtTreeSet.mem_toList, ExtTreeSet.mem_insert, LawfulEqCmp.compare_eq_iff_eq]
    simp [eq_comm]
  | some s =>
    rw [hostnamesOf, ExtTreeSet.mem_toList, ExtTreeSet.mem_insert, ExtTreeSet.mem_insert,
      LawfulEqCmp.compare_eq_iff_eq, LawfulEqCmp.compare_eq_iff_eq]
    simp [or_comm, @eq_comm _ name]

theorem hostnamesOf_nodup (suffix : Option String) (hostname : String) :
    (hostnamesOf suffix hostname).Nodup := by
  have htoList : ∀ names : ExtTreeSet String, names.toList.Nodup := by
    intro names
    apply names.distinct_toList.imp
    rintro a b hab rfl
    exact hab ReflCmp.compare_self
  cases suffix with
  | none => exact htoList _
  | some s => exact htoList _

theorem length_hostnamesOf (suffix : Option String) (hostname : String) :
    (hostnamesOf suffix hostname).length = if suffix.isSome then 2 else 1 := by
  cases suffix with
  | none =>
    have hperm : (hostnamesOf none hostname).Perm [hostname] := by
      rw [List.perm_ext_iff_of_nodup (hostnamesOf_nodup none hostname) (by simp)]
      simp [mem_hostnamesOf]
    exact hperm.length_eq
  | some s =>
    have hperm : (hostnamesOf (some s) hostname).Perm [hostname, hostname ++ "." ++ s] := by
      rw [List.perm_ext_iff_of_nodup (hostnamesOf_nodup _ _)
        (by simpa using Ne.symm (append_dot_ne hostname s))]
      simp [mem_hostnamesOf]
    exact hperm.length_eq

theorem hostnamesOf_injective {suffix : Option String} {hostname hostname' : String}
    (h : hostnamesOf suffix hostname = hostnamesOf suffix hostname') : hostname = hostname' := by
  have hleft : hostname ∈ hostnamesOf suffix hostname' := h ▸ mem_hostnamesOf.mpr (.inl rfl)
  have hright : hostname' ∈ hostnamesOf suffix hostname := h ▸ mem_hostnamesOf.mpr (.inl rfl)
  rcases mem_hostnamesOf.mp hleft with heq | ⟨s, -, heq⟩
  · exact heq
  · rcases mem_hostnamesOf.mp hright with heq' | ⟨s', -, heq'⟩
    · exact heq'.symm
    · have hlen := congrArg (fun s : String => s.toList.length) heq
      have hlen' := congrArg (fun s : String => s.toList.length) heq'
      simp only [String.toList_append, List.length_append] at hlen hlen'
      have hdot : ".".toList.length = 1 := rfl
      omega

theorem hostnamesOf_isHostname {suffix : Option String} {hostname : String}
    (hsuffix : ∀ s, suffix = some s → IsHostname s) (hname : IsHostname hostname) :
    ∀ name ∈ hostnamesOf suffix hostname, IsHostname name := by
  intro name hmem
  rcases mem_hostnamesOf.mp hmem with rfl | ⟨s, hs, rfl⟩
  · exact hname
  · refine ⟨by simp, fun c hc => ?_⟩
    simp only [String.toList_append, List.mem_append] at hc
    rcases hc with (hc | hc) | hc
    · exact hname.2 c hc
    · have hdot : ".".toList.all isHostnameChar = true := by decide
      exact List.all_eq_true.mp hdot c hc
    · exact (hsuffix s hs).2 c hc

/-! The nodes that are written. -/

/-- A node that is written: it is no client, has an address for this machine and a valid name. -/
structure Written (here : EndpointAddr) (node : Node) (ip : IpAddr) (hostname : String) : Prop where
  notClient : node.services.contains SERVICE_MARKER_CLIENT = false
  address : recordIpForLocal node.addr here = some ip
  name : canonicalHostname node.domain = some hostname

def entryOf (here : EndpointAddr) (suffix : Option String) (node : Node) :
    Option (IpAddr × List String) :=
  if node.services.contains SERVICE_MARKER_CLIENT then none
  else
    match recordIpForLocal node.addr here, canonicalHostname node.domain with
    | some ip, some hostname => some (ip, hostnamesOf suffix hostname)
    | _, _ => none

section Entries
variable {here : EndpointAddr} {suffix : Option String} {node : Node} {ip : IpAddr}
  {hostname : String} {nodes : List Node}

theorem entryOf_eq_some_iff {entry : IpAddr × List String} :
    entryOf here suffix node = some entry ↔
      ∃ ip hostname, Written here node ip hostname ∧ entry = (ip, hostnamesOf suffix hostname) := by
  constructor
  · intro h
    unfold entryOf at h
    split at h
    · contradiction
    · rename_i hclient
      split at h
      · rename_i ip hostname hip hname
        exact ⟨ip, hostname, ⟨Bool.not_eq_true _ ▸ hclient, hip, hname⟩, (Option.some.inj h).symm⟩
      · contradiction
  · rintro ⟨ip, hostname, ⟨hclient, hip, hname⟩, rfl⟩
    simp [entryOf, hclient, hip, hname]

theorem entryOf_written (h : Written here node ip hostname) :
    entryOf here suffix node = some (ip, hostnamesOf suffix hostname) :=
  entryOf_eq_some_iff.mpr ⟨ip, hostname, h, rfl⟩

theorem addNode_eq (builder : HostsBuilder) :
    addNode here suffix builder node =
      match entryOf here suffix node with
      | none => builder
      | some entry => { builder with hostnameMap := append builder.hostnameMap entry } := by
  unfold addNode entryOf
  split
  · rfl
  · cases recordIpForLocal node.addr here with
    | none => rfl
    | some ip =>
      cases canonicalHostname node.domain with
      | none => rfl
      | some hostname => rfl

def nodeEntries (here : EndpointAddr) (nodes : List Node) (suffix : Option String) :
    List (IpAddr × List String) :=
  nodes.filterMap (entryOf here (suffix.bind canonicalHostname))

theorem nodesBuilder_eq (here : EndpointAddr) (nodes : List Node) (suffix : Option String) :
    nodesBuilder here nodes suffix = ⟨HOSTS_TAG, collect (nodeEntries here nodes suffix)⟩ := by
  have hfold : ∀ builder : HostsBuilder,
      nodes.foldl (addNode here (suffix.bind canonicalHostname)) builder =
        ⟨builder.tag, (nodeEntries here nodes suffix).foldl append builder.hostnameMap⟩ := by
    induction nodes with
    | nil => exact fun _ => rfl
    | cons node nodes ih =>
      intro builder
      rw [List.foldl_cons, ih, addNode_eq]
      cases hentry : entryOf here (suffix.bind canonicalHostname) node with
      | none => rw [nodeEntries, nodeEntries, List.filterMap_cons_none hentry]
      | some entry => rw [nodeEntries, nodeEntries, List.filterMap_cons_some hentry, List.foldl_cons]
  exact hfold (.new HOSTS_TAG)

theorem nodesBuilder_hostnames (here : EndpointAddr) (nodes : List Node) (suffix : Option String) :
    (nodesBuilder here nodes suffix).hostnames.Perm
      ((nodeEntries here nodes suffix).flatMap Prod.snd) := by
  rw [nodesBuilder_eq]
  exact values_collect _

theorem nodesBuilder_skip {front back : List Node}
    (h : entryOf here (suffix.bind canonicalHostname) node = none) :
    nodesBuilder here (front ++ node :: back) suffix =
      nodesBuilder here (front ++ back) suffix := by
  rw [nodesBuilder_eq, nodesBuilder_eq, nodeEntries, nodeEntries, List.filterMap_append,
    List.filterMap_append, List.filterMap_cons_none h]

theorem mem_nodeEntries {entry : IpAddr × List String} :
    entry ∈ nodeEntries here nodes suffix ↔
      ∃ node ∈ nodes, ∃ ip hostname, Written here node ip hostname ∧
        entry = (ip, hostnamesOf (suffix.bind canonicalHostname) hostname) := by
  simp only [nodeEntries, List.mem_filterMap, entryOf_eq_some_iff]

def HostsBuilder.Named (builder : HostsBuilder) : Prop :=
  ∀ entry ∈ builder.hostnameMap.toList, entry.2 ≠ [] ∧ ∀ name ∈ entry.2, IsHostname name

theorem bind_canonicalHostname_isHostname {s : String}
    (h : suffix.bind canonicalHostname = some s) : IsHostname s := by
  obtain ⟨name, -, hname⟩ := Option.bind_eq_some_iff.mp h
  exact canonicalHostname_isHostname hname

theorem nodesBuilder_named (here : EndpointAddr) (nodes : List Node) (suffix : Option String) :
    (nodesBuilder here nodes suffix).Named := by
  rintro ⟨ip, names⟩ hmem
  rw [nodesBuilder_eq, ExtTreeMap.mem_toList_iff_getElem?_eq_some, getElem?_collect] at hmem
  split at hmem
  · rename_i hip
    obtain rfl := Option.some.inj hmem
    obtain ⟨entry, hentry, rfl⟩ := List.mem_map.mp hip
    constructor
    · obtain ⟨node, -, ip, hostname, -, heq⟩ := mem_nodeEntries.mp hentry
      have hname : hostname ∈ entry.2 := heq ▸ mem_hostnamesOf.mpr (.inl rfl)
      exact List.ne_nil_of_mem (List.mem_flatMap.mpr
        ⟨entry, List.mem_filter.mpr ⟨hentry, decide_eq_true rfl⟩, hname⟩)
    · intro name hname
      obtain ⟨entry, hentry, hname⟩ := List.mem_flatMap.mp hname
      obtain ⟨node, -, ip, hostname, hwritten, rfl⟩ :=
        mem_nodeEntries.mp (List.mem_of_mem_filter hentry)
      exact hostnamesOf_isHostname (fun s hs => bind_canonicalHostname_isHostname hs)
        (canonicalHostname_isHostname hwritten.name) name hname
  · contradiction

end Entries

/-! The section line by line. -/

def between (lines : List String) : List String := lines.tail.dropLast

def fields (line : String) : List String := (line.toList.splitOn ' ').map String.ofList

def hostnamesOn (line : String) : List String := (fields line).tail

theorem fields_intercalate {pieces : List String} (hne : pieces ≠ [])
    (h : ∀ piece ∈ pieces, ' ' ∉ piece.toList) : fields (" ".intercalate pieces) = pieces := by
  have hspace : " ".toList = [' '] := rfl
  rw [fields, String.toList_intercalate, hspace,
    List.splitOn_intercalate ' ' (List.forall_mem_map.mpr h) (by simpa using hne)]
  simp

theorem space_not_mem_toText (ip : IpAddr) : ' ' ∉ ip.toText.toList := fun hmem =>
  absurd (addressChar_spec (ip.toText_chars hmem)).1 (by decide)

theorem IsHostname.space_not_mem {name : String} (h : IsHostname name) : ' ' ∉ name.toList :=
  fun hmem => absurd (h.2 ' ' hmem) (by decide)

theorem fields_entry {ip : IpAddr} {names : List String} (hne : names ≠ [])
    (h : ∀ name ∈ names, IsHostname name) :
    fields (ip.toText ++ " " ++ " ".intercalate names) = ip.toText :: names := by
  rw [← String.intercalate_cons_of_ne_nil hne]
  exact fields_intercalate (by simp) (List.forall_mem_cons.mpr
    ⟨space_not_mem_toText ip, fun name hname => (h name hname).space_not_mem⟩)

namespace HostsBuilder
variable {builder : HostsBuilder} {windows : Bool}

theorem between_linesToInsert (builder : HostsBuilder) (windows : Bool) :
    between (builder.linesToInsert windows) = builder.entries windows := by
  rcases builder.linesToInsert_eq windows with ⟨hlines, hempty⟩ | ⟨hlines, -⟩
  · have htoList : builder.hostnameMap.toList = [] := by
      rwa [← List.isEmpty_iff, ExtTreeMap.isEmpty_toList]
    rw [hlines, entries, htoList]
    rfl
  · rw [hlines, between, List.tail_cons, List.dropLast_concat]

/-- The lines of the section as addresses with names: one line an address, or one a name. -/
def pairs (builder : HostsBuilder) (windows : Bool) : List (IpAddr × List String) :=
  if windows then spread builder.hostnameMap.toList else builder.hostnameMap.toList

theorem pairs_named (h : builder.Named) :
    ∀ pair ∈ builder.pairs windows, pair.2 ≠ [] ∧ ∀ name ∈ pair.2, IsHostname name := by
  cases windows with
  | false => exact h
  | true =>
    intro pair hpair
    obtain ⟨entry, hentry, hpair⟩ := List.mem_flatMap.mp hpair
    obtain ⟨name, hname, rfl⟩ := List.mem_map.mp hpair
    exact ⟨by simp, List.forall_mem_singleton.mpr ((h entry hentry).2 name hname)⟩

theorem entries_eq (builder : HostsBuilder) (windows : Bool) :
    builder.entries windows =
      (builder.pairs windows).map fun pair => pair.1.toText ++ " " ++ " ".intercalate pair.2 := by
  cases windows with
  | false =>
    have hone : entryLines false =
        fun entry => [entry.1.toText ++ " " ++ " ".intercalate entry.2] := rfl
    rw [entries, pairs, hone, if_neg (by decide), List.map_eq_flatMap]
  | true =>
    rw [entries, pairs, if_pos rfl, spread, List.map_flatMap]
    refine List.flatMap_congr fun entry _ => ?_
    rw [entryLines, if_pos rfl, List.map_map]
    simp

end HostsBuilder

/-! The lines read back. -/

def readEntry (line : String) : Option (IpAddr × List String) :=
  match fields line with
  | [] => none
  | ip :: names => (IpAddr.read ip).map fun ip => (ip, names)

/-- The names of each address, from however many lines it has. -/
def readSection (lines : List String) : Option (ExtTreeMap IpAddr (List String)) :=
  (lines.mapM readEntry).map collect

theorem readEntry_entry {pair : IpAddr × List String} (hne : pair.2 ≠ [])
    (h : ∀ name ∈ pair.2, IsHostname name) :
    readEntry (pair.1.toText ++ " " ++ " ".intercalate pair.2) = some pair := by
  rw [readEntry, fields_entry hne h]
  dsimp only
  rw [IpAddr.read_toText]
  rfl

namespace HostsBuilder
variable {builder : HostsBuilder} {windows : Bool}

theorem mapM_readEntry (h : builder.Named) :
    (builder.entries windows).mapM readEntry = some (builder.pairs windows) := by
  rw [entries_eq]
  have hpairs := @pairs_named builder windows h
  generalize builder.pairs windows = pairs at *
  induction pairs with
  | nil => rfl
  | cons pair pairs ih =>
    obtain ⟨⟨hne, hnames⟩, hrest⟩ := List.forall_mem_cons.mp hpairs
    simp [readEntry_entry hne hnames, ih hrest]

theorem readSection_entries (h : builder.Named) :
    readSection (builder.entries windows) = some builder.hostnameMap := by
  rw [readSection, mapM_readEntry h, Option.map_some, pairs]
  congr 1
  split
  · exact collect_eq (fun k => mem_map_fst_spread fun entry hentry => (h entry hentry).1)
      (fun k => under_spread k _)
  · exact collect_eq (fun _ => .rfl) (fun _ => rfl)

theorem hostnames_entries (h : builder.Named) :
    (builder.entries windows).flatMap hostnamesOn = builder.hostnames := by
  have hpairs := @pairs_named builder windows h
  have hline : ∀ pair ∈ builder.pairs windows,
      hostnamesOn (pair.1.toText ++ " " ++ " ".intercalate pair.2) = pair.2 := by
    intro pair hpair
    rw [hostnamesOn, fields_entry (hpairs pair hpair).1 (hpairs pair hpair).2, List.tail_cons]
  rw [entries_eq, List.flatMap_map, List.flatMap_congr hline, pairs, hostnames]
  split
  · rw [spread, List.flatMap_assoc]
    refine List.flatMap_congr fun entry _ => ?_
    rw [List.flatMap_map]
    exact List.flatMap_singleton' entry.2
  · rfl

end HostsBuilder
/-! What a reader of the file finds. -/

/-- The names a node has at an address: none if it is a client, has no address for this machine,
has another one, or has no valid name. -/
def namesAt (here : EndpointAddr) (suffix : Option String) (ip : IpAddr) (node : Node) :
    List String :=
  if node.services.contains SERVICE_MARKER_CLIENT then []
  else if recordIpForLocal node.addr here = some ip then
    match canonicalHostname node.domain with
    | none => []
    | some hostname => hostnamesOf (suffix.bind canonicalHostname) hostname
  else []

/-- Lines that hold the section of the nodes: each of its entries is an address and names behind
it, none is a marker, and read back they are the names of the nodes that are written. -/
structure SectionReadsBack (windows : Bool) (here : EndpointAddr) (nodes : List Node)
    (suffix : Option String) (lines : List String) : Prop where
  placed : ∃ before after,
    lines = before ++ (nodesBuilder here nodes suffix).linesToInsert windows ++ after
  entry : ∀ line ∈ between ((nodesBuilder here nodes suffix).linesToInsert windows),
    ∃ ip names, fields line = IpAddr.toText ip :: names ∧ names ≠ [] ∧
      ∀ name ∈ names, IsHostname name
  unmarked : ∀ line ∈ between ((nodesBuilder here nodes suffix).linesToInsert windows),
    begins line = false ∧ ends line = false
  readBack : ∃ map,
    readSection (between ((nodesBuilder here nodes suffix).linesToInsert windows)) = some map ∧
      ∀ ip names, map[ip]? = some names ↔
        names ≠ [] ∧ names = nodes.flatMap (namesAt here suffix ip)
  skipped : ∀ front node back, nodes = front ++ node :: back →
    (node.services.contains SERVICE_MARKER_CLIENT = true ∨
      recordIpForLocal node.addr here = none ∨ canonicalHostname node.domain = none) →
    (nodesBuilder here nodes suffix).linesToInsert windows =
      (nodesBuilder here (front ++ back) suffix).linesToInsert windows

section ReadBack
variable {windows changed : Bool} {here : EndpointAddr} {nodes : List Node}
  {suffix : Option String} {readings : HostsReadings} {writes : WriteReadings}
  {content content' : List UInt8}

theorem entryOf_skipped {node : Node}
    (h : node.services.contains SERVICE_MARKER_CLIENT = true ∨
      recordIpForLocal node.addr here = none ∨ canonicalHostname node.domain = none) :
    entryOf here suffix node = none := by
  rw [Option.eq_none_iff_forall_not_mem]
  intro entry hentry
  obtain ⟨ip, hostname, ⟨hclient, hip, hname⟩, -⟩ := entryOf_eq_some_iff.mp hentry
  rcases h with h | h | h
  · simp [hclient] at h
  · simp [hip] at h
  · simp [hname] at h

theorem under_nodeEntries (ip : IpAddr) :
    under ip (nodeEntries here nodes suffix) = nodes.flatMap (namesAt here suffix ip) := by
  induction nodes with
  | nil => rfl
  | cons node nodes ih =>
    rw [nodeEntries, List.flatMap_cons, ← ih]
    cases hentry : entryOf here (suffix.bind canonicalHostname) node with
    | none =>
      rw [List.filterMap_cons_none hentry]
      have hnone : namesAt here suffix ip node = [] := by
        unfold namesAt
        split
        · rfl
        · rename_i hclient
          split
          · rename_i hip
            cases hname : canonicalHostname node.domain with
            | none => rfl
            | some hostname =>
              have hwritten : Written here node ip hostname :=
                ⟨Bool.not_eq_true _ ▸ hclient, hip, hname⟩
              simp [entryOf_written hwritten] at hentry
          · rfl
      rw [hnone, List.nil_append, nodeEntries]
    | some entry =>
      obtain ⟨ip', hostname, ⟨hclient, hip, hname⟩, rfl⟩ := entryOf_eq_some_iff.mp hentry
      rw [List.filterMap_cons_some hentry, under_cons]
      simp only [namesAt, hclient, hip, hname, Option.some.injEq, nodeEntries]
      split
      · rfl
      · rfl

theorem getElem?_nodesBuilder (ip : IpAddr) (names : List String) :
    (nodesBuilder here nodes suffix).hostnameMap[ip]? = some names ↔
      names ≠ [] ∧ names = nodes.flatMap (namesAt here suffix ip) := by
  have hnamed := nodesBuilder_named here nodes suffix
  constructor
  · intro h
    refine ⟨(hnamed (ip, names) (ExtTreeMap.mem_toList_iff_getElem?_eq_some.mpr h)).1, ?_⟩
    rw [nodesBuilder_eq, getElem?_collect] at h
    split at h
    · rw [← under_nodeEntries]
      exact (Option.some.inj h).symm
    · contradiction
  · rintro ⟨hne, rfl⟩
    rw [nodesBuilder_eq, getElem?_collect, ← under_nodeEntries, if_pos]
    by_contra hkey
    rw [← under_nodeEntries, under_eq_nil hkey] at hne
    exact hne rfl

theorem rewrites_placed {new lines lines' : List String} (h : Rewrites new lines changed lines') :
    ∃ before after, lines' = before ++ new ++ after := by
  cases h with
  | kept h =>
    rcases h with ⟨before, after, h⟩ | ⟨rfl, -⟩
    · exact ⟨before, after, h.split⟩
    · exact ⟨lines, [], by simp⟩
  | replaced h hne => exact ⟨_, _, rfl⟩
  | created h => exact ⟨_, [], (List.append_nil _).symm⟩
  | between h hne => exact ⟨_, _, rfl⟩

/-- Whatever the nodes call themselves, what a sync leaves in the file between its markers is
read as addresses with the names of the nodes that are written, and nothing else. -/
theorem sync_section_reads_back
    (h : syncNodesToHosts windows readings writes here nodes suffix content =
      (.ok changed, content')) :
    ∃ lines, readLines content' = some lines ∧
      SectionReadsBack windows here nodes suffix lines := by
  obtain ⟨htag, hclean⟩ := nodesBuilder_spec here nodes suffix
  have hnamed := nodesBuilder_named here nodes suffix
  obtain ⟨_, lines, -, hlines, hrewrites, -⟩ := writeTo_rewrites htag hclean h
  refine ⟨lines, hlines, rewrites_placed hrewrites, ?_, ?_, ?_, ?_⟩
  · rw [HostsBuilder.between_linesToInsert, HostsBuilder.entries_eq]
    intro line hline
    obtain ⟨pair, hpair, rfl⟩ := List.mem_map.mp hline
    obtain ⟨hne, hnames⟩ := HostsBuilder.pairs_named hnamed pair hpair
    exact ⟨pair.1, pair.2, fields_entry hne hnames, hne, hnames⟩
  · rw [HostsBuilder.between_linesToInsert]
    intro line hline
    obtain ⟨c, hc, hhead⟩ := HostsBuilder.entries_head hline
    exact not_marker_of_head (addressChar_spec hc).2.1 hhead
  · rw [HostsBuilder.between_linesToInsert, HostsBuilder.readSection_entries hnamed]
    exact ⟨_, rfl, getElem?_nodesBuilder⟩
  · rintro front node back rfl hskipped
    rw [nodesBuilder_skip (entryOf_skipped hskipped)]

end ReadBack

namespace Sample

theorem sync_section_reads_back_injected :
    ∃ lines, readLines syncedHosts = some lines ∧
      SectionReadsBack false here [alpha, { alpha with domain := "x\n10.0.0.9 bank" }] none lines := by
  have hsync : syncNodesToHosts false etcHosts swapped here
      [alpha, { alpha with domain := "x\n10.0.0.9 bank" }] none plainHosts =
        (.ok true, syncedHosts) := by
    decide +kernel
  exact sync_section_reads_back hsync

end Sample
end P2pDdns
