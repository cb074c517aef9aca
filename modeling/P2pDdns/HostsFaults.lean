import P2pDdns.Hosts

/-!
Writing the hosts file call by call: a copy beside it that is filled and renamed over it, or the
file itself, when any of the calls may fail and a write may stop on the way.
-/

set_option autoImplicit false

namespace P2pDdns
open TextLines

/-! Paths, by their components. -/

inductive Component where
  | curDir
  | parentDir
  | normal (name : String)
  deriving DecidableEq, Repr

structure FilePath where
  absolute : Bool
  components : List Component
  deriving DecidableEq, Repr

namespace FilePath

def parent (path : FilePath) : Option FilePath :=
  if path.components = [] then none
  else some { path with components := path.components.dropLast }

def fileName (path : FilePath) : Option String :=
  match path.components.getLast? with
  | some (.normal name) => some name
  | _ => none

/-- A name of its own is replaced; a path without one gets it at its end. -/
def withFileName (path : FilePath) (name : String) : FilePath :=
  let front := if path.fileName.isSome then path.components.dropLast else path.components
  { path with components := front ++ [.normal name] }

/-- The clock is in milliseconds since the epoch, `none` before it. -/
def getTempPath (hostsPath : FilePath) (clock : Option Nat) : Returned FilePath :=
  match hostsPath.parent with
  | none => .err (.custom .invalidInput "hosts path missing a parent folder")
  | some hostsDir =>
    match clock with
    | none => .panicked
    | some millis =>
      match hostsPath.fileName with
      | none => .err (.custom .invalidInput "hosts path missing a filename")
      | some name => .ok (hostsDir.withFileName (name ++ (".tmp" ++ .ofList (decimal millis))))

end FilePath

/-! Files and the calls on them. -/

abbrev Files := FilePath → Option (List UInt8)

def Files.set (files : Files) (path : FilePath) (content : Option (List UInt8)) : Files :=
  fun other => if other = path then content else files other

inductive Copied where
  | copied
  | refused (error : IoError)
  | torn (error : IoError) (bytes : Nat)
  deriving DecidableEq, Repr

inductive WriteAll where
  | written
  | torn (error : IoError) (bytes : Nat)
  deriving DecidableEq, Repr

structure FileFaults where
  copy : Copied
  openTemp : Option IoError
  writeTemp : WriteAll
  rename : Option IoError
  openHosts : Option IoError
  writeHosts : WriteAll

def writeClobber (opened : Option IoError) (write : WriteAll) (path : FilePath)
    (contents : List UInt8) (files : Files) : Except IoError Unit × Files :=
  match opened with
  | some e => (.error e, files)
  | none =>
    match write with
    | .written => (.ok (), files.set path (some contents))
    | .torn e bytes => (.error e, files.set path (some (contents.take bytes)))

def writeAndSwap (faults : FileFaults) (tempPath hostsPath : FilePath) (contents : List UInt8)
    (files : Files) : Except IoError Unit × Files :=
  match faults.copy with
  | .refused e => (.error e, files)
  | .torn e bytes => (.error e, files.set tempPath ((files hostsPath).map (List.take bytes)))
  | .copied =>
    match writeClobber faults.openTemp faults.writeTemp tempPath contents
        (files.set tempPath (files hostsPath)) with
    | (.error e, files) => (.error e, files)
    | (.ok _, files) =>
      match faults.rename with
      | some e => (.error e, files)
      | none => (.ok (), (files.set hostsPath (files tempPath)).set tempPath none)

/-- The end of a call that has contents to write. -/
def writeFiles (faults : FileFaults) (tempPath hostsPath : FilePath) (contents : List UInt8)
    (files : Files) : Returned Bool × Files :=
  match writeAndSwap faults tempPath hostsPath contents files with
  | (.ok _, files) => (.ok true, files)
  | (.error _, files) =>
    match writeClobber faults.openHosts faults.writeHosts hostsPath contents files with
    | (.ok _, files) => (.ok true, files)
    | (.error e, files) => (.err e, files)

/-! Where the copy lies. -/

section Paths
variable {path temp : FilePath} {clock : Option Nat}

theorem getTempPath_ok (h : path.getTempPath clock = .ok temp) :
    ∃ hostsDir name millis, path.parent = some hostsDir ∧ path.fileName = some name ∧
      clock = some millis ∧
      temp = hostsDir.withFileName (name ++ (".tmp" ++ .ofList (decimal millis))) := by
  unfold FilePath.getTempPath at h
  cases hparent : path.parent with
  | none => simp [hparent] at h
  | some hostsDir =>
    cases clock with
    | none => simp [hparent] at h
    | some millis =>
      cases hname : path.fileName with
      | none => simp [hparent, hname] at h
      | some name =>
        simp only [hparent, hname, Returned.ok.injEq] at h
        exact ⟨hostsDir, name, millis, rfl, rfl, rfl, h.symm⟩

/-- The reading of the path in `getTempPath` is what the path and the clock come to. -/
theorem getTempPath_readings (path : FilePath) (clock : Option Nat) {readings : HostsReadings}
    (hparent : readings.hasParent = path.parent.isSome)
    (hname : readings.hasFileName = path.fileName.isSome)
    (hclock : readings.clockBeforeEpoch = clock.isNone) :
    getTempPath readings =
      match path.getTempPath clock with
      | .ok _ => .ok ()
      | .err e => .err e
      | .panicked => .panicked := by
  unfold getTempPath FilePath.getTempPath
  rw [hparent, hname, hclock]
  cases path.parent with
  | none => rfl
  | some hostsDir =>
    cases clock with
    | none => rfl
    | some millis => cases path.fileName <;> rfl

theorem fileName_withFileName (path : FilePath) (name : String) :
    (path.withFileName name).fileName = some name := by
  simp [FilePath.withFileName, FilePath.fileName]

theorem parent_withFileName (path : FilePath) (name : String) :
    (path.withFileName name).parent =
      if path.fileName.isSome then path.parent else some path := by
  unfold FilePath.withFileName FilePath.parent
  split
  · rename_i hname
    have hne : path.components ≠ [] := by
      intro hnil
      simp [FilePath.fileName, hnil] at hname
    simp [hne]
  · simp

theorem temp_ne (h : path.getTempPath clock = .ok temp) : temp ≠ path := by
  obtain ⟨hostsDir, name, millis, -, hname, -, rfl⟩ := getTempPath_ok h
  intro heq
  rw [← heq, fileName_withFileName, Option.some.injEq] at hname
  have hlen := congrArg (fun s : String => s.toList.length) hname
  simp only [String.toList_append, List.length_append] at hlen
  have htmp : ".tmp".toList.length = 4 := rfl
  omega

/-- The copy lies in the folder of the hosts file exactly if that folder has no name of its own,
which it would be taken beside. -/
theorem temp_sameDir_iff (h : path.getTempPath clock = .ok temp) :
    temp.parent = path.parent ↔ ∀ hostsDir, path.parent = some hostsDir → hostsDir.fileName = none := by
  obtain ⟨hostsDir, name, millis, hparent, -, -, rfl⟩ := getTempPath_ok h
  rw [parent_withFileName, hparent]
  cases hname : hostsDir.fileName with
  | none => simp [hname]
  | some dirName =>
    have hne : hostsDir.parent ≠ some hostsDir := by
      intro heq
      unfold FilePath.parent at heq
      split at heq
      · contradiction
      · rename_i hnil
        have hlen := congrArg (fun path : FilePath => path.components.length) (Option.some.inj heq)
        have hpos := List.length_pos_of_ne_nil hnil
        simp only [List.length_dropLast] at hlen
        omega
    simp [hne, hname]

end Paths
/-! What the calls leave. -/

@[simp] theorem Files.set_self (files : Files) (path : FilePath) (content : Option (List UInt8)) :
    files.set path content path = content := if_pos rfl

theorem Files.set_ne (files : Files) {path other : FilePath} (content : Option (List UInt8))
    (h : other ≠ path) : files.set path content other = files other := if_neg h

structure FileFaults.Swapped (faults : FileFaults) : Prop where
  copied : faults.copy = .copied
  opened : faults.openTemp = none
  written : faults.writeTemp = .written
  renamed : faults.rename = none

def FileFaults.CopyRefused (faults : FileFaults) : Prop := ∃ e, faults.copy = .refused e

section Writing
variable {faults : FileFaults} {path temp : FilePath} {old contents : List UInt8} {files : Files}

theorem writeClobber_frame (opened : Option IoError) (write : WriteAll) {other : FilePath}
    (h : other ≠ path) : (writeClobber opened write path contents files).2 other = files other := by
  unfold writeClobber
  split
  · rfl
  · split
    · exact files.set_ne _ h
    · exact files.set_ne _ h

theorem writeAndSwap_swapped (h : faults.Swapped) (files : Files) :
    writeAndSwap faults temp path contents files =
      (.ok (), (((files.set temp (files path)).set temp (some contents)).set path
        (some contents)).set temp none) := by
  simp [writeAndSwap, writeClobber, h.copied, h.opened, h.written, h.renamed]

theorem writeAndSwap_failed (hne : temp ≠ path) (hold : files path = some old)
    (h : ¬faults.Swapped) :
    ∃ e files', writeAndSwap faults temp path contents files = (.error e, files') ∧
      files' path = some old ∧
      (files' temp = none ↔ faults.CopyRefused ∧ files temp = none) := by
  have hpath : ∀ content, (files.set temp content) path = some old := by
    intro content
    rw [files.set_ne _ hne.symm, hold]
  unfold writeAndSwap FileFaults.CopyRefused
  cases hcopy : faults.copy with
  | refused e => exact ⟨e, files, rfl, hold, by simp⟩
  | torn e bytes => exact ⟨e, _, rfl, hpath _, by simp [hold]⟩
  | copied =>
    unfold writeClobber
    cases hopen : faults.openTemp with
    | some e => exact ⟨e, _, rfl, hpath _, by simp [hold]⟩
    | none =>
      cases hwrite : faults.writeTemp with
      | torn e bytes =>
        refine ⟨e, _, rfl, ?_, by simp⟩
        rw [Files.set_ne _ _ hne.symm, hpath]
      | written =>
        cases hrename : faults.rename with
        | some e =>
          refine ⟨e, _, rfl, ?_, by simp⟩
          rw [Files.set_ne _ _ hne.symm, hpath]
        | none => exact absurd ⟨hcopy, hopen, hwrite, hrename⟩ h

def FileFaults.clobber (faults : FileFaults) : Clobber :=
  match faults.openHosts with
  | some e => .notOpened e
  | none =>
    match faults.writeHosts with
    | .written => .written
    | .torn e bytes => .torn e bytes

theorem writeFiles_swapped (hne : temp ≠ path) (h : faults.Swapped) (files : Files) :
    (writeFiles faults temp path contents files).1 = .ok true ∧
      (writeFiles faults temp path contents files).2 path = some contents ∧
      (writeFiles faults temp path contents files).2 temp = none := by
  rw [writeFiles, writeAndSwap_swapped h]
  refine ⟨rfl, ?_, Files.set_self _ _ _⟩
  dsimp only
  rw [Files.set_ne _ _ hne.symm, Files.set_self]

theorem writeFiles_failed (hne : temp ≠ path) (hold : files path = some old)
    (h : ¬faults.Swapped) :
    ((writeFiles faults temp path contents files).2 temp = none ↔
      faults.CopyRefused ∧ files temp = none) ∧
    ∃ bytes, (writeFiles faults temp path contents files).2 path = some bytes ∧
      writeContents ⟨false, faults.clobber⟩ old contents =
        ((writeFiles faults temp path contents files).1, bytes) := by
  obtain ⟨e, files', hswap, hpath, htemp⟩ := @writeAndSwap_failed faults path temp old contents files
    hne hold h
  rw [writeFiles, hswap]
  dsimp only
  have hframe := @writeClobber_frame path contents files' faults.openHosts faults.writeHosts temp hne
  unfold writeClobber FileFaults.clobber at *
  cases hopen : faults.openHosts with
  | some e => exact ⟨htemp, old, hpath, by simp [writeContents]⟩
  | none =>
    rw [hopen] at hframe
    cases hwrite : faults.writeHosts with
    | written =>
      rw [hwrite] at hframe
      exact ⟨hframe ▸ htemp, contents, Files.set_self _ _ _, by simp [writeContents]⟩
    | torn e bytes =>
      rw [hwrite] at hframe
      exact ⟨hframe ▸ htemp, contents.take bytes, Files.set_self _ _ _, by simp [writeContents]⟩

theorem writeFiles_refines (hne : temp ≠ path) (hold : files path = some old) :
    ∃ writes bytes, (writes.swapped = true ↔ faults.Swapped) ∧
      (writeFiles faults temp path contents files).2 path = some bytes ∧
      writeContents writes old contents =
        ((writeFiles faults temp path contents files).1, bytes) := by
  by_cases h : faults.Swapped
  · obtain ⟨hresult, hbytes, -⟩ := @writeFiles_swapped faults path temp contents hne h files
    exact ⟨⟨true, .written⟩, contents, by simp [h], hbytes, by simp [writeContents, hresult]⟩
  · obtain ⟨-, bytes, hbytes, hwrites⟩ :=
      @writeFiles_failed faults path temp old contents files hne hold h
    exact ⟨⟨false, faults.clobber⟩, bytes, by simp [h], hbytes, hwrites⟩

/-- A call that has lines to write ends as the calls on the files do. -/
theorem HostsBuilder.writeTo_files {builder : HostsBuilder} {windows : Bool}
    {readings : HostsReadings} {lines new : List String} (hne : temp ≠ path)
    (hold : files path = some old) (hread : readHosts readings old = .ok lines)
    (hrewrite : builder.rewrite windows readings.path lines = .ok (some new)) :
    ∃ writes bytes,
      (writeFiles faults temp path (writeLines new) files).2 path = some bytes ∧
        builder.writeTo windows readings writes old =
          ((writeFiles faults temp path (writeLines new) files).1, bytes) := by
  obtain ⟨writes, bytes, -, hbytes, hwrites⟩ :=
    @writeFiles_refines faults path temp old (writeLines new) files hne hold
  refine ⟨writes, bytes, hbytes, ?_⟩
  rw [writeTo_eq hread, hrewrite]
  exact hwrites

/-! A failed update. -/

/-- With an error the file has its old bytes, with `true` the new ones; either way the copy is
gone, and it was in the folder of the file. -/
structure Harmless (temp path : FilePath) (old contents : List UInt8)
    (result : Returned Bool × Files) : Prop where
  failed : ∀ e, result.1 = .err e → result.2 path = some old
  changed : result.1 = .ok true → result.2 path = some contents
  gone : result.2 temp = none
  sameDir : temp.parent = path.parent

/-- Writing in place fails without a trace: it does not fail, the file does not open, or the part
that is written is all there was. -/
def FileFaults.Traceless (faults : FileFaults) (old contents : List UInt8) : Prop :=
  (∃ e, faults.openHosts = some e) ∨ faults.writeHosts = .written ∨
    ∃ e bytes, faults.writeHosts = .torn e bytes ∧ contents.take bytes = old

theorem writeContents_traceless_iff :
    ((∀ e, (writeContents ⟨false, faults.clobber⟩ old contents).1 = .err e →
        (writeContents ⟨false, faults.clobber⟩ old contents).2 = old) ∧
      ((writeContents ⟨false, faults.clobber⟩ old contents).1 = .ok true →
        (writeContents ⟨false, faults.clobber⟩ old contents).2 = contents)) ↔
      faults.Traceless old contents := by
  unfold FileFaults.Traceless FileFaults.clobber
  cases faults.openHosts with
  | some e => simp [writeContents]
  | none =>
    cases faults.writeHosts with
    | written => simp [writeContents]
    | torn e bytes => simp [writeContents]

/-- An update is harmless exactly if the folder of the file has no name of its own and the copy
is renamed over the file, or is not begun and writing in place leaves no trace of a failure. -/
theorem update_harmless_iff {clock : Option Nat} (htemp : path.getTempPath clock = .ok temp)
    (hold : files path = some old) :
    Harmless temp path old contents (writeFiles faults temp path contents files) ↔
      (∀ hostsDir, path.parent = some hostsDir → hostsDir.fileName = none) ∧
        (faults.Swapped ∨
          faults.CopyRefused ∧ files temp = none ∧ faults.Traceless old contents) := by
  have hne := temp_ne htemp
  rw [← temp_sameDir_iff htemp]
  by_cases h : faults.Swapped
  · obtain ⟨hresult, hbytes, hgone⟩ := @writeFiles_swapped faults path temp contents hne h files
    constructor
    · exact fun hharmless => ⟨hharmless.sameDir, .inl h⟩
    · exact fun hcond => ⟨by simp [hresult], fun _ => hbytes, hgone, hcond.1⟩
  · obtain ⟨hgone, bytes, hbytes, hwrites⟩ :=
      @writeFiles_failed faults path temp old contents files hne hold h
    have htraceless := @writeContents_traceless_iff faults old contents
    rw [hwrites] at htraceless
    have hsome : ∀ content, (writeFiles faults temp path contents files).2 path = some content ↔
        bytes = content := by
      intro content
      rw [hbytes, Option.some.injEq]
    rw [or_iff_right h]
    constructor
    · rintro ⟨hfailed, hchanged, htempGone, hdir⟩
      obtain ⟨hrefused, hfresh⟩ := hgone.mp htempGone
      exact ⟨hdir, hrefused, hfresh, htraceless.mp
        ⟨fun e he => (hsome old).mp (hfailed e he), fun hok => (hsome contents).mp (hchanged hok)⟩⟩
    · rintro ⟨hdir, hrefused, hfresh, htrace⟩
      obtain ⟨hfailed, hchanged⟩ := htraceless.mpr htrace
      exact ⟨fun e he => (hsome old).mpr (hfailed e he), fun hok => (hsome contents).mpr (hchanged hok),
        hgone.mpr ⟨hrefused, hfresh⟩, hdir⟩

end Writing

namespace Sample

def etcPath : FilePath := ⟨true, [.normal "etc", .normal "hosts"]⟩

def etcFiles : Files := fun path => if path = etcPath then some plainHosts else none

def diskFull : FileFaults :=
  { copy := .copied, openTemp := none, writeTemp := .torn (.os 28) 0, rename := none,
    openHosts := none, writeHosts := .torn (.os 28) 0 }

def noFaults : FileFaults :=
  { copy := .copied, openTemp := none, writeTemp := .written, rename := none, openHosts := none,
    writeHosts := .written }

/-- The update fails, the hosts file is empty, and an empty copy is left in the root directory. -/
theorem full_disk_empties_hosts :
    ∃ temp, etcPath.getTempPath (some 1700000000000) = .ok temp ∧
      temp = ⟨true, [.normal "hosts.tmp1700000000000"]⟩ ∧
      (writeFiles diskFull temp etcPath syncedHosts etcFiles).1 = .err (.os 28) ∧
      (writeFiles diskFull temp etcPath syncedHosts etcFiles).2 etcPath = some [] ∧
      (writeFiles diskFull temp etcPath syncedHosts etcFiles).2 temp = some [] ∧
      ¬Harmless temp etcPath plainHosts syncedHosts
        (writeFiles diskFull temp etcPath syncedHosts etcFiles) := by
  refine ⟨_, rfl, by decide, rfl, rfl, rfl, fun h => ?_⟩
  have hold := h.failed (.os 28) rfl
  revert hold
  decide

theorem update_harmless_iff_root :
    Harmless ⟨true, [.normal "hosts.tmp5"]⟩ ⟨true, [.normal "hosts"]⟩ plainHosts syncedHosts
      (writeFiles noFaults ⟨true, [.normal "hosts.tmp5"]⟩ ⟨true, [.normal "hosts"]⟩ syncedHosts
        fun path => if path = ⟨true, [.normal "hosts"]⟩ then some plainHosts else none) := by
  have htemp : FilePath.getTempPath ⟨true, [.normal "hosts"]⟩ (some 5) =
      .ok ⟨true, [.normal "hosts.tmp5"]⟩ := by decide
  refine (update_harmless_iff htemp rfl).mpr ⟨?_, .inl ⟨rfl, rfl, rfl, rfl⟩⟩
  rintro hostsDir hparent
  obtain rfl := Option.some.inj hparent
  rfl

end Sample
end P2pDdns
