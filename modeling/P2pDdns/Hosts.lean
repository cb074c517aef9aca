import P2pDdns.HostEntries
import P2pDdns.MarkedSections

/-!
The writer of the hosts file: what it does to the bytes of a file, whatever the path, the
clock and the file system answer. It finds the section it manages by its first two markers.
-/

set_option autoImplicit false

namespace P2pDdns
open Std TextLines MarkedSections

inductive ErrorKind where
  | isADirectory
  | invalidInput
  | invalidData
  deriving DecidableEq, Repr

inductive IoError where
  | custom (kind : ErrorKind) (message : String)
  | os (code : Int)
  deriving DecidableEq, Repr

/-- How a call ends. The release profile aborts on a panic. -/
inductive Returned (α : Type) where
  | ok (value : α)
  | err (error : IoError)
  | panicked
  deriving DecidableEq, Repr

/-- The path of the hosts file and what the system answers up to the first write. -/
structure HostsReadings where
  path : String
  isDir : Bool
  hasParent : Bool
  clockBeforeEpoch : Bool
  hasFileName : Bool
  openFault : Option IoError
  readFault : Bool

/-- How writing the file in place goes; a fault on the way leaves a part of the new bytes. -/
inductive Clobber where
  | written
  | notOpened (error : IoError)
  | torn (error : IoError) (bytes : Nat)

structure WriteReadings where
  swapped : Bool
  clobber : Clobber

def getTempPath (readings : HostsReadings) : Returned Unit :=
  if !readings.hasParent then .err (.custom .invalidInput "hosts path missing a parent folder")
  else if readings.clockBeforeEpoch then .panicked
  else if !readings.hasFileName then .err (.custom .invalidInput "hosts path missing a filename")
  else .ok ()

/-- The lines of the file, each unwrapped as it is read. -/
def readHosts (readings : HostsReadings) (content : List UInt8) : Returned (List String) :=
  if readings.isDir then .err (.custom .isADirectory "hosts path was a directory")
  else
    match getTempPath readings with
    | .err e => .err e
    | .panicked => .panicked
    | .ok _ =>
      match readings.openFault with
      | some e => .err e
      | none =>
        if readings.readFault then .panicked
        else
          match readLines content with
          | none => .panicked
          | some lines => .ok lines

def isBegin (tag line : String) : Bool := trim line = beginMarker tag

def isEnd (tag line : String) : Bool := trim line = endMarker tag

abbrev begins : String → Bool := isBegin HOSTS_TAG

abbrev ends : String → Bool := isEnd HOSTS_TAG

/-- With a blank line behind the last one, if that is not blank. -/
def padded (lines : List String) : List String :=
  if lines.getLast?.any fun last => !last.isEmpty then lines ++ [""] else lines

def writeContents (writes : WriteReadings) (content new : List UInt8) :
    Returned Bool × List UInt8 :=
  if writes.swapped then (.ok true, new)
  else
    match writes.clobber with
    | .written => (.ok true, new)
    | .notOpened e => (.err e, content)
    | .torn e bytes => (.err e, new.take bytes)

namespace HostsBuilder

/-- The lines to write, `none` if the file keeps the ones it has. -/
def rewrite (builder : HostsBuilder) (windows : Bool) (path : String) (lines : List String) :
    Returned (Option (List String)) :=
  match lines.findIdx? (isBegin builder.tag), lines.findIdx? (isEnd builder.tag) with
  | some b, some e =>
    match drain? lines b (e+1) with
    | none => .panicked
    | some (oldSection, rest) =>
      if oldSection = builder.linesToInsert windows then .ok none
      else .ok (some (insertAt rest b (builder.linesToInsert windows)))
  | none, none =>
    .ok (some (insertAt (padded lines) (padded lines).length (builder.linesToInsert windows)))
  | _, _ => .err (.custom .invalidData ("start or end marker missing in " ++ path))

/-- How the call ends, and the bytes of the file then. -/
def writeTo (builder : HostsBuilder) (windows : Bool) (readings : HostsReadings)
    (writes : WriteReadings) (content : List UInt8) : Returned Bool × List UInt8 :=
  match readHosts readings content with
  | .err e => (.err e, content)
  | .panicked => (.panicked, content)
  | .ok lines =>
    match builder.rewrite windows readings.path lines with
    | .err e => (.err e, content)
    | .panicked => (.panicked, content)
    | .ok none => (.ok false, content)
    | .ok (some new) => writeContents writes content (writeLines new)

end HostsBuilder

/-- A `BTreeSet` of the name and, under a suffix, the name with it. -/
def hostnamesOf (suffix : Option String) (hostname : String) : List String :=
  match suffix with
  | none => ((∅ : ExtTreeSet String).insert hostname).toList
  | some suffix =>
    (((∅ : ExtTreeSet String).insert hostname).insert (hostname ++ "." ++ suffix)).toList

def addNode (here : EndpointAddr) (suffix : Option String) (builder : HostsBuilder) (node : Node) :
    HostsBuilder :=
  if node.services.contains SERVICE_MARKER_CLIENT then builder
  else
    match recordIpForLocal node.addr here with
    | none => builder
    | some ip =>
      match canonicalHostname node.domain with
      | none => builder
      | some hostname => builder.addHostnames ip (hostnamesOf suffix hostname)

def nodesBuilder (here : EndpointAddr) (nodes : List Node) (suffix : Option String) :
    HostsBuilder :=
  nodes.foldl (addNode here (suffix.bind canonicalHostname)) (HostsBuilder.new HOSTS_TAG)

def syncNodesToHosts (windows : Bool) (readings : HostsReadings) (writes : WriteReadings)
    (here : EndpointAddr) (nodes : List Node) (suffix : Option String) (content : List UInt8) :
    Returned Bool × List UInt8 :=
  (nodesBuilder here nodes suffix).writeTo windows readings writes content

def clearManagedHosts (windows : Bool) (readings : HostsReadings) (writes : WriteReadings)
    (content : List UInt8) : Returned Bool × List UInt8 :=
  (HostsBuilder.new HOSTS_TAG).writeTo windows readings writes content

/-! The rewriting by the layout of the file. -/

theorem beginMarker_ne_endMarker (tag : String) : beginMarker tag ≠ endMarker tag := by
  intro h
  have hends := (String.append_right_inj ("# DO NOT EDIT " ++ tag)).mp h
  revert hends
  decide

theorem isEnd_of_isBegin (tag : String) :
    ∀ line, isBegin tag line = true → isEnd tag line = false := by
  intro line hbegin
  rw [isBegin, decide_eq_true_eq] at hbegin
  rw [isEnd, hbegin, decide_eq_false_iff_not]
  exact beginMarker_ne_endMarker tag

namespace HostsBuilder

section Layouts
variable {builder : HostsBuilder} {windows : Bool} {path tag : String}
  {lines before oldSection after : List String}

theorem rewrite_unmarked (htag : builder.tag = tag)
    (h : Unmarked (isBegin tag) (isEnd tag) lines) :
    builder.rewrite windows path lines =
      .ok (some (padded lines ++ builder.linesToInsert windows)) := by
  rw [rewrite, htag, h.indices.1, h.indices.2]
  simp [insertAt]

theorem rewrite_found (htag : builder.tag = tag) {e : Nat}
    (hlines : lines = before ++ oldSection ++ after)
    (hbegin : lines.findIdx? (isBegin tag) = some before.length)
    (hend : lines.findIdx? (isEnd tag) = some e)
    (hlen : e + 1 = before.length + oldSection.length) :
    builder.rewrite windows path lines =
      if oldSection = builder.linesToInsert windows then .ok none
      else .ok (some (before ++ builder.linesToInsert windows ++ after)) := by
  rw [rewrite, htag, hbegin, hend]
  dsimp only
  rw [hlen, hlines, drain?_append]
  dsimp only
  rw [insertAt_append]

theorem rewrite_sectioned (htag : builder.tag = tag)
    (h : Sectioned (isBegin tag) (isEnd tag) lines before oldSection after) :
    builder.rewrite windows path lines =
      if oldSection = builder.linesToInsert windows then .ok none
      else .ok (some (before ++ builder.linesToInsert windows ++ after)) := by
  obtain ⟨b, mid, e, rfl, -⟩ := h.bounds
  exact rewrite_found htag h.split h.indices.1 h.indices.2 (by simp; omega)

theorem rewrite_adjacent (htag : builder.tag = tag)
    (h : Adjacent (isBegin tag) (isEnd tag) lines before after) :
    builder.rewrite windows path lines =
      if [] = builder.linesToInsert windows then .ok none
      else .ok (some (before ++ builder.linesToInsert windows ++ after)) := by
  obtain ⟨k, hlen, hend, hbegin⟩ := h.indices (isEnd_of_isBegin tag)
  rw [← hlen] at hbegin
  have hlines : lines = before ++ [] ++ after := by rw [List.append_nil, h.split]
  exact rewrite_found htag hlines hbegin hend (by simp [hlen])

theorem rewrite_reversed (htag : builder.tag = tag)
    (h : Reversed (isBegin tag) (isEnd tag) lines) :
    builder.rewrite windows path lines = .panicked := by
  obtain ⟨b, e, hbegin, hend, hlt⟩ := h
  rw [rewrite, htag, hbegin, hend]
  dsimp only
  rw [drain?, if_neg (by omega)]

theorem rewrite_lone (htag : builder.tag = tag)
    (h : Lone (isBegin tag) (isEnd tag) lines) :
    builder.rewrite windows path lines =
      .err (.custom .invalidData ("start or end marker missing in " ++ path)) := by
  rcases h with ⟨⟨b, hbegin⟩, hend⟩ | ⟨hbegin, e, hend⟩ <;> rw [rewrite, htag, hbegin, hend]

end Layouts

theorem writeTo_eq {builder : HostsBuilder} {windows : Bool} {readings : HostsReadings}
    {writes : WriteReadings} {content : List UInt8} {lines : List String}
    (h : readHosts readings content = .ok lines) :
    builder.writeTo windows readings writes content =
      match builder.rewrite windows readings.path lines with
      | .err e => (.err e, content)
      | .panicked => (.panicked, content)
      | .ok none => (.ok false, content)
      | .ok (some new) => writeContents writes content (writeLines new) := by
  rw [writeTo, h]

end HostsBuilder

namespace HostsReadings

structure Passed (readings : HostsReadings) : Prop where
  isFile : readings.isDir = false
  parent : readings.hasParent = true
  clock : readings.clockBeforeEpoch = false
  fileName : readings.hasFileName = true
  opened : readings.openFault = none
  read : readings.readFault = false

/-- The call gives up with an error before it has the file open. -/
def Refused (readings : HostsReadings) : Prop :=
  readings.isDir = true ∨ readings.hasParent = false ∨
    readings.clockBeforeEpoch = false ∧
      (readings.hasFileName = false ∨ readings.openFault.isSome = true)

end HostsReadings

section Reading
variable {readings : HostsReadings} {content : List UInt8}

theorem readHosts_refused (h : readings.Refused) : ∃ e, readHosts readings content = .err e := by
  unfold readHosts getTempPath
  rcases h with hdir | hparent | ⟨hclock, hname | hopen⟩
  · exact ⟨_, if_pos hdir⟩
  · cases readings.isDir <;> simp [hparent]
  · cases readings.isDir <;> cases readings.hasParent <;> simp [hclock, hname]
  · obtain ⟨e, he⟩ := Option.isSome_iff_exists.mp hopen
    cases readings.isDir <;> cases readings.hasParent <;> cases readings.hasFileName <;>
      simp [hclock, he]

theorem readHosts_passed (h : readings.Passed) :
    readHosts readings content =
      match readLines content with
      | none => .panicked
      | some lines => .ok lines := by
  simp [readHosts, getTempPath, h.isFile, h.parent, h.clock, h.fileName, h.opened, h.read]

theorem readHosts_failed (hrefused : ¬readings.Refused) (hpassed : ¬readings.Passed) :
    readHosts readings content = .panicked := by
  simp only [HostsReadings.Refused, not_or, not_and_or, Bool.not_eq_true, Bool.not_eq_false] at hrefused
  obtain ⟨hdir, hparent, hclock | ⟨hname, hopen⟩⟩ := hrefused
  · simp [readHosts, getTempPath, hdir, hparent, hclock]
  · rw [Option.isSome_eq_false_iff, Option.isNone_iff_eq_none] at hopen
    by_cases hclock : readings.clockBeforeEpoch = true
    · simp [readHosts, getTempPath, hdir, hparent, hclock]
    · rw [Bool.not_eq_true] at hclock
      have hread : readings.readFault = true := by
        by_contra hread
        exact hpassed ⟨hdir, hparent, hclock, hname, hopen, by simpa using hread⟩
      simp [readHosts, getTempPath, hdir, hparent, hclock, hname, hopen, hread]

theorem readHosts_eq_ok_iff {lines : List String} :
    readHosts readings content = .ok lines ↔ readings.Passed ∧ readLines content = some lines := by
  constructor
  · intro h
    by_cases hrefused : readings.Refused
    · obtain ⟨e, he⟩ := @readHosts_refused readings content hrefused
      rw [he] at h
      contradiction
    · by_cases hpassed : readings.Passed
      · rw [readHosts_passed hpassed] at h
        cases hread : readLines content with
        | none => simp [hread] at h
        | some found =>
          rw [hread] at h
          exact ⟨hpassed, congrArg some (Returned.ok.inj h)⟩
      · rw [readHosts_failed hrefused hpassed] at h
        contradiction
  · rintro ⟨hpassed, hread⟩
    rw [readHosts_passed hpassed, hread]

end Reading

/-! What a synced section is made of. -/

theorem hostnamesOf_oneLine {suffix : Option String} {hostname : String}
    (hsuffix : ∀ s, suffix = some s → OneLine s) (hname : OneLine hostname) :
    ∀ name ∈ hostnamesOf suffix hostname, OneLine name := by
  intro name hmem
  cases suffix with
  | none =>
    rw [hostnamesOf, ExtTreeSet.mem_toList, ExtTreeSet.mem_insert] at hmem
    rcases hmem with hmem | hmem
    · rwa [← LawfulEqCmp.eq_of_compare hmem]
    · simp at hmem
  | some suffix =>
    rw [hostnamesOf, ExtTreeSet.mem_toList, ExtTreeSet.mem_insert, ExtTreeSet.mem_insert] at hmem
    have hdot : OneLine "." := by decide
    rcases hmem with hmem | hmem | hmem
    · rw [← LawfulEqCmp.eq_of_compare hmem]
      exact (hname.append hdot).append (hsuffix suffix rfl)
    · rwa [← LawfulEqCmp.eq_of_compare hmem]
    · simp at hmem

theorem addNode_clean {here : EndpointAddr} {suffix : Option String} {builder : HostsBuilder}
    (hsuffix : ∀ s, suffix = some s → OneLine s) (h : builder.Clean) (node : Node) :
    (addNode here suffix builder node).Clean := by
  unfold addNode
  split
  · exact h
  · cases recordIpForLocal node.addr here with
    | none => exact h
    | some ip =>
      cases hname : canonicalHostname node.domain with
      | none => exact h
      | some hostname =>
        have hline := canonicalHostname_oneLine hname
        exact HostsBuilder.addHostnames_clean h ip (hostnamesOf_oneLine hsuffix hline)

theorem addNode_tag (here : EndpointAddr) (suffix : Option String) (builder : HostsBuilder)
    (node : Node) : (addNode here suffix builder node).tag = builder.tag := by
  unfold addNode
  split
  · rfl
  · cases recordIpForLocal node.addr here with
    | none => rfl
    | some ip => cases canonicalHostname node.domain <;> rfl

/-- What a sync writes is a builder's section under the program's tag, on lines of its own. -/
theorem nodesBuilder_spec (here : EndpointAddr) (nodes : List Node) (suffix : Option String) :
    (nodesBuilder here nodes suffix).tag = HOSTS_TAG ∧ (nodesBuilder here nodes suffix).Clean := by
  have hsuffix : ∀ s, suffix.bind canonicalHostname = some s → OneLine s := by
    intro s hs
    obtain ⟨name, -, hname⟩ := Option.bind_eq_some_iff.mp hs
    exact canonicalHostname_oneLine hname
  have hfold : ∀ builder : HostsBuilder, builder.tag = HOSTS_TAG ∧ builder.Clean →
      (nodes.foldl (addNode here (suffix.bind canonicalHostname)) builder).tag = HOSTS_TAG ∧
        (nodes.foldl (addNode here (suffix.bind canonicalHostname)) builder).Clean := by
    induction nodes with
    | nil => exact fun builder h => h
    | cons node nodes ih =>
      rintro builder ⟨htag, hclean⟩
      exact ih (addNode here _ builder node)
        ⟨(addNode_tag here _ builder node).trans htag, addNode_clean hsuffix hclean node⟩
  exact hfold (.new HOSTS_TAG) ⟨rfl, HostsBuilder.new_clean HOSTS_TAG⟩

namespace Sample

def etcHosts : HostsReadings :=
  { path := "\"/etc/hosts\"", isDir := false, hasParent := true, clockBeforeEpoch := false,
    hasFileName := true, openFault := none, readFault := false }

def swapped : WriteReadings := ⟨true, .written⟩

def here : EndpointAddr := .fromParts 1 [.ip (.v4 0x0a000001 7777)]

def alpha : Node :=
  { nodeId := 2, invitor := 2, addr := .fromParts 2 [.ip (.v4 0x0a000002 7777)], domain := "Alpha.",
    services := ∅, lastHeartbeat := 1 }

def plainHosts : List UInt8 := writeLines ["127.0.0.1 localhost"]

def blankHosts : List UInt8 := writeLines ["127.0.0.1 localhost", ""]

def syncedHosts : List UInt8 :=
  writeLines ["127.0.0.1 localhost", "", "# DO NOT EDIT p2p-ddns BEGIN", "10.0.0.2 alpha",
    "# DO NOT EDIT p2p-ddns END"]

theorem etcHosts_passed : etcHosts.Passed := ⟨rfl, rfl, rfl, rfl, rfl, rfl⟩

example : (nodesBuilder here [alpha] (some "p2p")).linesToInsert false =
    ["# DO NOT EDIT p2p-ddns BEGIN", "10.0.0.2 alpha alpha.p2p", "# DO NOT EDIT p2p-ddns END"] := by
  decide

end Sample
end P2pDdns
