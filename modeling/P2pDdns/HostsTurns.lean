import P2pDdns.HostsPublished
import P2pDdns.HostsRuns
import P2pDdns.Membership

/-!
The hosts file of a running daemon: what its updates do to the lines over a whole run, what a
shutdown leaves, and whose names a machine of the network can get into the file.
-/

set_option autoImplicit false

namespace P2pDdns
open Std TextLines MarkedSections

/-- A write that is torn is the only one that leaves anything but the old or the new file. -/
def WriteReadings.Whole (writes : WriteReadings) : Prop :=
  writes.swapped = true ∨ ∀ error bytes, writes.clobber ≠ .torn error bytes

def Rewritten (new : List String) (content content' : List UInt8) : Prop :=
  ∃ lines changed lines', readLines content = some lines ∧ readLines content' = some lines' ∧
    Rewrites new lines changed lines'

theorem writeContents_whole {writes : WriteReadings} (h : writes.Whole) (content new : List UInt8) :
    (writeContents writes content new).2 = content ∨
      writeContents writes content new = (.ok true, new) := by
  unfold writeContents
  split
  · exact .inr rfl
  · rename_i hswapped
    cases hclobber : writes.clobber with
    | written => exact .inr rfl
    | notOpened e => exact .inl rfl
    | torn e bytes => exact absurd hclobber (h.resolve_left hswapped e bytes)

theorem writeTo_whole {builder : HostsBuilder} {windows : Bool} {readings : HostsReadings}
    {writes : WriteReadings} {content : List UInt8} (htag : builder.tag = HOSTS_TAG)
    (hclean : builder.Clean) (h : writes.Whole) :
    (builder.writeTo windows readings writes content).2 = content ∨
      Rewritten (builder.linesToInsert windows) content
        (builder.writeTo windows readings writes content).2 := by
  have hwritten : (builder.writeTo windows readings writes content).2 = content ∨
      ∃ changed file, builder.writeTo windows readings writes content = (.ok changed, file) := by
    cases hread : readHosts readings content with
    | err e => simp [HostsBuilder.writeTo, hread]
    | panicked => simp [HostsBuilder.writeTo, hread]
    | ok lines =>
      rw [HostsBuilder.writeTo_eq hread]
      cases builder.rewrite windows readings.path lines with
      | err e => exact .inl rfl
      | panicked => exact .inl rfl
      | ok outcome =>
        cases outcome with
        | none => exact .inl rfl
        | some new =>
          have hnew := writeContents_whole h content (writeLines new)
          exact hnew.imp_right fun hnew => ⟨_, _, hnew⟩
  refine hwritten.imp_right ?_
  rintro ⟨changed, file, hok⟩
  obtain ⟨lines, lines', hlines, hlines', hrewrites, -⟩ := writeTo_rewrites htag hclean hok
  rw [hok]
  exact ⟨lines, changed, lines', hlines, hlines', hrewrites⟩

/-! The turns of a process that touch the file. -/

/-- What an update of the file lists: the active records and the daemon's own. -/
def Process.hostsNodes (p : Process) (env : HostsTurn) : List Node :=
  (env.iter.walk p.daemon.ctx.nodes).map (·.2) ++
    [p.daemon.ctx.ownState env.ownAddr env.stateNow]

def Process.hostsLines (p : Process) (platform : Platform) (env : HostsTurn) : List String :=
  (nodesBuilder env.here (p.hostsNodes env) platform.hostsSuffix).linesToInsert platform.windows

def LoopEvent.hostsTurn? : LoopEvent → Option HostsTurn
  | .hostsTick env => some env
  | .ctrlc _ env | .sigterm env | .command _ _ _ _ env => some env.hosts
  | _ => none

def LoopEvent.Whole (e : LoopEvent) : Prop := ∀ env, e.hostsTurn? = some env → env.writes.Whole

section Turns
variable {platform : Platform} {p : Process} {e : LoopEvent}

theorem announceJoin_hostsFile (env : SendReadings) :
    (p.announceJoin env).1.hostsFile = p.hostsFile := by
  unfold Process.announceJoin
  split
  · rfl
  · split <;> rfl

theorem reported_hostsFile (done : HostsSyncStatus → HostsSyncStatus)
    (result : Returned Bool × List UInt8) :
    (p.reported platform done result).hostsFile = result.2 := by
  obtain ⟨returned, file⟩ := result
  cases returned <;> rfl

theorem syncHostsFile_file {env : HostsTurn} (h : env.writes.Whole) :
    (p.syncHostsFile platform env).hostsFile = p.hostsFile ∨
      Rewritten (p.hostsLines platform env) p.hostsFile
        (p.syncHostsFile platform env).hostsFile := by
  unfold Process.syncHostsFile
  split
  · obtain ⟨htag, hclean⟩ := nodesBuilder_spec env.here (p.hostsNodes env) platform.hostsSuffix
    rw [reported_hostsFile]
    exact writeTo_whole htag hclean h
  · exact .inl rfl

theorem clearHostsFile_file {env : HostsTurn} (h : env.writes.Whole) :
    (p.clearHostsFile platform env).hostsFile = p.hostsFile ∨
      Rewritten [] p.hostsFile (p.clearHostsFile platform env).hostsFile := by
  unfold Process.clearHostsFile
  split
  · rw [reported_hostsFile]
    exact writeTo_whole rfl (HostsBuilder.new_clean HOSTS_TAG) h
  · exact .inl rfl

theorem gracefulShutdown_hostsFile (env : ShutdownReadings) :
    (p.gracefulShutdown platform env).1.hostsFile =
      (p.clearHostsFile platform env.hosts).hostsFile := by
  unfold Process.gracefulShutdown
  dsimp only
  split <;> rfl

/-- One turn leaves the file alone, puts in the section of the present table, or takes the section
out. -/
theorem step_file (h : e.Whole) :
    (p.step platform e).1.hostsFile = p.hostsFile ∨
      (∃ env, e = .hostsTick env ∧
        Rewritten (p.hostsLines platform env) p.hostsFile (p.step platform e).1.hostsFile) ∨
      Rewritten [] p.hostsFile (p.step platform e).1.hostsFile := by
  unfold Process.step
  split
  · exact .inl rfl
  · cases e with
    | ctrlc res env =>
      simp only [Process.turn]
      split
      · have hclear := @clearHostsFile_file platform p env.hosts (h env.hosts rfl)
        rw [← gracefulShutdown_hostsFile env] at hclear
        exact hclear.imp_right .inr
      · exact .inl rfl
    | sigterm env =>
      have hclear := @clearHostsFile_file platform p env.hosts (h env.hosts rfl)
      rw [← gracefulShutdown_hostsFile env] at hclear
      exact hclear.imp_right .inr
    | gosRecv evt =>
      left
      cases evt with
      | neighborUp env => exact announceJoin_hostsFile env
      | received | neighborDown | lagged => rfl
    | hostsTick env =>
      exact (syncHostsFile_file (h env rfl)).imp_right fun hsync => .inl ⟨env, rfl, hsync⟩
    | command client cmd env responded shutdown =>
      simp only [Process.turn]
      split
      · have hclear := @clearHostsFile_file platform (p.perform platform (.command client cmd env))
          shutdown.hosts (h shutdown.hosts rfl)
        rw [← gracefulShutdown_hostsFile shutdown] at hclear
        exact hclear.imp_right .inr
      · exact .inl rfl
    | stateBroadcast | fullSync | spRecv | spClosed | gosFailed | gosClosed | authenticate | exited =>
      exact .inl rfl

theorem launch_file {start : Start platform.codecs} {hostsFile : List UInt8} {env : LaunchReadings}
    (h : env.hosts.writes.Whole) :
    (start.launch platform hostsFile env).1.hostsFile = hostsFile ∨
      ∃ p : Process, p.daemon = start.daemon ∧ Rewritten (p.hostsLines platform env.hosts) hostsFile
        (start.launch platform hostsFile env).1.hostsFile := by
  have hlaunched : ∀ p : Process, p.daemon = start.daemon → p.hostsFile = hostsFile →
      (p.syncHostsFile platform env.hosts).hostsFile = hostsFile ∨
        ∃ q : Process, q.daemon = start.daemon ∧
          Rewritten (q.hostsLines platform env.hosts) hostsFile
            (p.syncHostsFile platform env.hosts).hostsFile := by
    rintro p hp rfl
    exact (syncHostsFile_file h).imp_right fun hsync => ⟨p, hp, hsync⟩
  have hannounced : ((⟨start.daemon, false, hostsFile, false⟩ : Process).announceJoin
      env.announce).1.hostsFile = hostsFile := announceJoin_hostsFile env.announce
  unfold Start.launch
  dsimp only
  split <;> exact hlaunched _ (announceJoin_daemon env.announce) hannounced

end Turns
/-! What a run and a shutdown leave of the other lines. -/

/-- The lines around a section are these, worn by padding and chomping. -/
def Tended (outer : List String) (content : List UInt8) : Prop :=
  ∃ lines outer', readLines content = some lines ∧ Worn outer outer' ∧ Outer lines outer'

inductive LoopEvent.ShutsDown (platform : Platform) (p : Process) :
    LoopEvent → ShutdownReadings → Prop where
  | ctrlc {env : ShutdownReadings} :
      (p.daemon.ctx.args.daemon && !platform.interactive) = false →
      ShutsDown platform p (.ctrlc true env) env
  | sigterm {env : ShutdownReadings} : ShutsDown platform p (.sigterm env) env
  | command {client : EndpointId} {cmd : ClientCommand} {env : CommandReadings}
      {shutdown : ShutdownReadings} :
      (runCommand platform.codecs p.daemon client cmd env).1.action = some .shutdown →
      ShutsDown platform p (.command client cmd env true shutdown) shutdown

section Runs
variable {platform : Platform} {p : Process} {outer : List String}

theorem Tended.rewritten {content content' : List UInt8} {new : List String}
    (h : Tended outer content) (hnew : new = [] ∨ IsSection begins ends new)
    (hrewritten : Rewritten new content content') : Tended outer content' := by
  obtain ⟨lines, outer', hlines, hworn, houter⟩ := h
  obtain ⟨found, changed, lines', hfound, hlines', hrewrites⟩ := hrewritten
  obtain rfl := Option.some.inj (hlines.symm.trans hfound)
  obtain ⟨outer'', hworn', houter', -⟩ := rewrites_outer hnew hrewrites houter
  exact ⟨lines', outer'', hlines', hworn.trans hworn', houter'⟩

theorem hostsLines_isSection (env : HostsTurn) :
    p.hostsLines platform env = [] ∨ IsSection begins ends (p.hostsLines platform env) :=
  linesToInsert_isSection
    (nodesBuilder_spec env.here (p.hostsNodes env) platform.hostsSuffix).1

theorem Process.step_tended {e : LoopEvent} (hwhole : e.Whole) (h : Tended outer p.hostsFile) :
    Tended outer (p.step platform e).1.hostsFile := by
  rcases @step_file platform p e hwhole with hsame | ⟨env, -, hsync⟩ | hclear
  · rwa [hsame]
  · exact h.rewritten (hostsLines_isSection env) hsync
  · exact h.rewritten (.inl rfl) hclear

theorem Process.run_tended {events : List LoopEvent} (hwhole : ∀ e ∈ events, e.Whole)
    (h : Tended outer p.hostsFile) : Tended outer (p.run platform events).1.hostsFile := by
  induction events generalizing p with
  | nil => exact h
  | cons e events ih =>
    obtain ⟨hfirst, hrest⟩ := List.forall_mem_cons.mp hwhole
    exact ih hrest (Process.step_tended hfirst h)

theorem launch_tended {start : Start platform.codecs} {hostsFile : List UInt8}
    {env : LaunchReadings} (hwhole : env.hosts.writes.Whole) (h : Tended outer hostsFile) :
    Tended outer (start.launch platform hostsFile env).1.hostsFile := by
  rcases @launch_file platform start hostsFile env hwhole with hsame | ⟨q, -, hsync⟩
  · rwa [hsame]
  · exact h.rewritten (hostsLines_isSection env.hosts) hsync

theorem clear_tended {content : List UInt8} {windows : Bool} {readings : HostsReadings}
    {writes : WriteReadings} (hpassed : readings.Passed) (hwrites : writes.Succeeded)
    (h : Tended outer content) :
    ∃ lines, readLines (clearManagedHosts windows readings writes content).2 = some lines ∧
      Worn outer lines := by
  obtain ⟨lines, outer', hlines, hworn, houter⟩ := h
  have htag : (HostsBuilder.new HOSTS_TAG).tag = HOSTS_TAG := rfl
  have hrewrite : ∃ outcome, (HostsBuilder.new HOSTS_TAG).rewrite windows readings.path lines =
      .ok outcome := by
    obtain ⟨before, section', after, htidy, -⟩ := houter
    cases htidy with
    | unmarked hunmarked => exact ⟨_, HostsBuilder.rewrite_unmarked htag hunmarked⟩
    | section' hbefore hsection hafter =>
      have hsectioned := hsection.sectioned (isEnd_of_isBegin HOSTS_TAG) hbefore after
      rw [HostsBuilder.rewrite_sectioned htag hsectioned]
      split
      · exact ⟨none, rfl⟩
      · exact ⟨_, rfl⟩
  obtain ⟨outcome, hrewrite⟩ := hrewrite
  obtain ⟨changed, content', hclear⟩ := writeTo_ok hpassed hwrites hlines hrewrite
  obtain ⟨found, lines', hfound, hlines', hrewrites, -⟩ :=
    writeTo_rewrites htag (HostsBuilder.new_clean HOSTS_TAG) hclear
  obtain rfl := Option.some.inj (hlines.symm.trans hfound)
  obtain ⟨outer'', hworn', -, hleft⟩ := rewrites_outer (.inl rfl) hrewrites houter
  refine ⟨lines', ?_, hleft rfl ▸ hworn.trans hworn'⟩
  rw [clearManagedHosts, hclear]
  exact hlines'

theorem clearHostsFile_hostsFile {env : HostsTurn} (hsync : p.daemon.ctx.args.hostsSync = true) :
    (p.clearHostsFile platform env).hostsFile =
      (clearManagedHosts platform.windows env.readings env.writes p.hostsFile).2 := by
  rw [Process.clearHostsFile, if_pos hsync, reported_hostsFile]

/-- Every shutdown is a graceful one, of a process with the same arguments and the same file. -/
theorem LoopEvent.ShutsDown.gracefully {e : LoopEvent} {env : ShutdownReadings}
    (h : e.ShutsDown platform p env) (hactive : p.stopped = false) :
    ∃ q : Process, q.daemon.ctx.args = p.daemon.ctx.args ∧ q.hostsFile = p.hostsFile ∧
      (p.step platform e).1.hostsFile = (q.gracefulShutdown platform env).1.hostsFile ∧
      (p.step platform e).2 = (q.gracefulShutdown platform env).2 := by
  rw [Process.step, if_neg (by simp [hactive])]
  cases h with
  | ctrlc hheard =>
    simp only [Process.turn, hheard, Bool.not_false, Bool.and_self, if_true]
    exact ⟨p, rfl, rfl, rfl, rfl⟩
  | sigterm => exact ⟨p, rfl, rfl, rfl, rfl⟩
  | @command client cmd cmdEnv _ haction =>
    simp only [Process.turn, haction, decide_true, Bool.and_self, if_true]
    refine ⟨p.perform platform (.command client cmd cmdEnv), ?_, rfl, rfl, rfl⟩
    rw [Process.perform, (changes_frame (step_changes platform.codecs p.daemon _)).2.1]

theorem LoopEvent.ShutsDown.hostsFile {e : LoopEvent} {env : ShutdownReadings}
    (h : e.ShutsDown platform p env) (hactive : p.stopped = false)
    (hsync : p.daemon.ctx.args.hostsSync = true) :
    (p.step platform e).1.hostsFile =
      (clearManagedHosts platform.windows env.hosts.readings env.hosts.writes p.hostsFile).2 := by
  obtain ⟨q, hargs, hfile, hstep, -⟩ := h.gracefully hactive
  rw [hstep, gracefulShutdown_hostsFile, clearHostsFile_hostsFile (by rw [hargs]; exact hsync),
    hfile]

/-- Whatever a daemon went through, a shutdown gives the hosts file its other lines back, without
the section: but for a blank line behind them and carriage returns at their ends. -/
theorem shutdown_restores_hosts {start : Start platform.codecs} {hostsFile : List UInt8}
    {env : LaunchReadings} {events : List LoopEvent} {last : LoopEvent} {down : ShutdownReadings}
    {lines : List String} (hsync : start.args.hostsSync = true)
    (hlines : readLines hostsFile = some lines) (houter : Outer lines outer)
    (hwhole : env.hosts.writes.Whole) (hwholes : ∀ e ∈ events, e.Whole)
    (hactive : ((start.launch platform hostsFile env).1.run platform events).1.stopped = false)
    (hshuts : last.ShutsDown platform ((start.launch platform hostsFile env).1.run platform events).1
      down)
    (hpassed : down.hosts.readings.Passed) (hwrites : down.hosts.writes.Succeeded) :
    let p := ((start.launch platform hostsFile env).1.run platform events).1
    ∃ lines', readLines (p.step platform last).1.hostsFile = some lines' ∧ Worn outer lines' ∧
      (EndsBlank outer → Plain outer → lines' = outer) := by
  intro p
  have hfound : Tended outer hostsFile := ⟨lines, outer, hlines, .same, houter⟩
  have hlaunched := @launch_tended platform outer start hostsFile env hwhole hfound
  have htended : Tended outer p.hostsFile := Process.run_tended hwholes hlaunched
  obtain ⟨-, -, hstarted, -⟩ := initNetwork_ok start.started
  have hargs : p.daemon.ctx.args.hostsSync = true := by
    rw [(launched_run_frame hostsFile env events).2.1]
    exact hstarted ▸ hsync
  obtain ⟨lines', hread, hworn⟩ :=
    @clear_tended outer p.hostsFile platform.windows _ _ hpassed hwrites htended
  rw [hshuts.hostsFile hactive hargs]
  exact ⟨lines', hread, hworn, hworn.eq_of_stable⟩

end Runs

namespace Sample

/-! Alice keeps the hosts file while bob joins. An earlier run has left its section there. -/

def syncingArgs : DaemonArgs := { args with hostsSync := true }

def syncingStart : Start onWire where
  args := syncingArgs
  storage := .clear
  env := alicesReadings
  ctx :=
    { firstContext alice syncingArgs (record alice "alice" [1] 1000) none with
      hostsSync :=
        { enabled := true, path := some "/etc/hosts", cleanupOnShutdown := true,
          lastSuccess := none, lastCleanup := none, lastError := none } }
  started := rfl

def hostsUpdate (now : Nat) : HostsTurn :=
  { readings := etcHosts, writes := swapped, here := .fromParts alice [.ip (sock 1)],
    ownAddr := .fromParts alice [.ip (sock 1)], stateNow := now, doneNow := now, iter := .byId }

def alicesShutdown : ShutdownReadings := ⟨replies alice 1 1060, hostsUpdate 1060, .byId, none⟩

def syncingEvents : List LoopEvent := [joinHeard, .hostsTick (hostsUpdate 1030)]

def leftSection : List String :=
  ["# DO NOT EDIT p2p-ddns BEGIN", "10.0.0.2 alpha", "# DO NOT EDIT p2p-ddns END"]

def leftHosts : List UInt8 :=
  writeLines (["127.0.0.1 localhost"] ++ leftSection ++ ["10.0.0.9 printer", ""])

def outerLines : List String := ["127.0.0.1 localhost", "10.0.0.9 printer", ""]

theorem shutdown_restores_hosts_alice :
    let p := ((syncingStart.launch onTerminal leftHosts (launchReadings alice 1 1000)).1.run
      onTerminal syncingEvents).1
    ∃ lines, readLines (p.step onTerminal (.sigterm alicesShutdown)).1.hostsFile = some lines ∧
      Worn outerLines lines ∧ (EndsBlank outerLines → Plain outerLines → lines = outerLines) := by
  have hlines : readLines leftHosts =
      some (["127.0.0.1 localhost"] ++ leftSection ++ ["10.0.0.9 printer", ""]) := by
    decide +kernel
  have hsection : IsSection begins ends leftSection :=
    ⟨_, ["10.0.0.2 alpha"], _, rfl, by decide, by decide, by decide⟩
  refine shutdown_restores_hosts rfl hlines
    ⟨_, _, _, .section' (by decide) hsection (by decide), rfl⟩ (.inl rfl) ?_ (by decide +kernel)
    .sigterm etcHosts_passed (.inl rfl)
  refine List.forall_mem_cons.mpr ⟨by simp [LoopEvent.Whole, LoopEvent.hostsTurn?, joinHeard], ?_⟩
  refine List.forall_mem_singleton.mpr fun env henv => ?_
  obtain rfl := Option.some.inj henv
  exact .inl rfl

end Sample
/-! Names in the hosts files of the network. -/

def NamesMember (sent : List Item) (suffix : Option String) (name : String) : Prop :=
  ∃ me ticket hostname, .booted me ticket ∈ sent ∧ canonicalHostname me.domain = some hostname ∧
    name ∈ hostnamesOf (suffix.bind canonicalHostname) hostname

/-- Where a line comes from: it is one of the others in the file, a marker, or an entry. -/
inductive Stems (old : String → Prop) (sent : List Item) (suffix : Option String) (line : String) :
    Prop where
  | old : old line → Stems old sent suffix line
  | marker : begins line = true ∨ ends line = true → Stems old sent suffix line
  | entry : OneLine line → (∀ name ∈ hostnamesOn line, NamesMember sent suffix name) →
      Stems old sent suffix line

def FileStems (old : String → Prop) (sent : List Item) (suffix : Option String)
    (content : List UInt8) : Prop :=
  ∀ lines, readLines content = some lines → ∀ line ∈ lines, Stems old sent suffix line

def Machine.HostsStem (old : String → Prop) (sent : List Item) (m : Machine) : Prop :=
  ∀ r, m.running = some r → FileStems old sent r.platform.hostsSuffix r.process.hostsFile

/-- A process finds lines of others, or of an earlier process, and no write is torn. -/
def MachineEvent.Orderly (old : String → Prop) (sent : List Item) : MachineEvent → Prop
  | .boot platform _ hostsFile env =>
    FileStems old sent platform.hostsSuffix hostsFile ∧ env.hosts.writes.Whole
  | .loop e => e.Whole
  | .bootFailed _ | .crash => True

section Names
variable {old : String → Prop} {sent : List Item} {suffix : Option String}
  {content content' : List UInt8}

theorem NamesMember.mono (more : List Item) {name : String} (h : NamesMember sent suffix name) :
    NamesMember (sent ++ more) suffix name := by
  obtain ⟨me, ticket, hostname, hmem, hname⟩ := h
  exact ⟨me, ticket, hostname, List.mem_append_left more hmem, hname⟩

theorem FileStems.mono (more : List Item) (h : FileStems old sent suffix content) :
    FileStems old (sent ++ more) suffix content := by
  intro lines hlines line hline
  cases h lines hlines line hline with
  | old hold => exact .old hold
  | marker hmarker => exact .marker hmarker
  | entry hone hnames => exact .entry hone fun name hname => (hnames name hname).mono more

variable (hchomp : ∀ line, old line → old (chomp line))
include hchomp

theorem Stems.chomp {line : String} (h : Stems old sent suffix line) :
    Stems old sent suffix (chomp line) := by
  cases h with
  | old hold => exact .old (hchomp line hold)
  | marker hmarker =>
    rw [← begins_chomp, ← ends_chomp] at hmarker
    exact .marker hmarker
  | entry hone hnames =>
    rw [hone.chomp]
    exact .entry hone hnames

theorem FileStems.rewritten {new : List String} (h : FileStems old sent suffix content)
    (hnew : ∀ line ∈ new, Stems old sent suffix line) (hrewritten : Rewritten new content content') :
    FileStems old sent suffix content' := by
  obtain ⟨lines, changed, lines', hlines, hlines', hrewrites⟩ := hrewritten
  intro found hfound
  obtain rfl := Option.some.inj (hlines'.symm.trans hfound)
  have hold := h lines hlines
  have hchomped : ∀ part : List String, (∀ line ∈ part, Stems old sent suffix line) →
      ∀ line ∈ part.map TextLines.chomp, Stems old sent suffix line := by
    intro part hpart
    exact List.forall_mem_map.mpr fun line hline => (hpart line hline).chomp hchomp
  have haround : ∀ before after : List String, (∀ line ∈ before, line ∈ lines) →
      (∀ line ∈ after, line ∈ lines) →
      ∀ line ∈ before.map TextLines.chomp ++ new ++ after.map TextLines.chomp,
        Stems old sent suffix line := by
    intro before after hbefore hafter
    exact List.forall_mem_append.mpr ⟨List.forall_mem_append.mpr
      ⟨hchomped before fun line hline => hold line (hbefore line hline), hnew⟩,
      hchomped after fun line hline => hold line (hafter line hline)⟩
  cases hrewrites with
  | kept _ => exact hold
  | replaced hsection _ =>
    exact haround _ _ (fun line hline => by simp [hsection.split, hline])
      fun line hline => by simp [hsection.split, hline]
  | created _ =>
    refine List.forall_mem_append.mpr ⟨hchomped _ ?_, hnew⟩
    rcases padded_cases lines with ⟨hpadded, -⟩ | ⟨hpadded, -⟩
    · rwa [hpadded]
    · have hblank : hostnamesOn "" = [] := by decide
      rw [hpadded]
      exact List.forall_mem_append.mpr ⟨hold,
        List.forall_mem_singleton.mpr (.entry (by decide) (by simp [hblank]))⟩
  | between hadjacent _ =>
    exact haround _ _ (fun line hline => by simp [hadjacent.split, hline])
      fun line hline => by simp [hadjacent.split, hline]

end Names
section Machines
variable {old : String → Prop} {w : Surroundings} {sent : List Item} {p : Process}

theorem hostsNodes_identity (h : Sound w.lag sent p.daemon.ctx) {env : HostsTurn} {node : Node}
    (hnode : node ∈ p.hostsNodes env) (hd : isDaemonNode node = true) :
    ∃ me ticket, .booted me ticket ∈ sent ∧ SameIdentity node me := by
  rcases List.mem_append.mp hnode with hnode | hnode
  · obtain ⟨⟨id, node⟩, hwalk, rfl⟩ := List.mem_map.mp hnode
    exact (h.records.active id node (env.iter.mem_walk.mp hwalk) hd).identity
  · obtain rfl := List.mem_singleton.mp hnode
    exact ⟨_, _, h.booted, rfl, rfl, rfl, rfl⟩

theorem hostsLines_stem (h : Sound w.lag sent p.daemon.ctx) (platform : Platform)
    (env : HostsTurn) :
    ∀ line ∈ p.hostsLines platform env, Stems old sent platform.hostsSuffix line := by
  intro line hline
  have hspec := nodesBuilder_spec env.here (p.hostsNodes env) platform.hostsSuffix
  have hone : OneLine line := linesToInsert_oneLine hspec.1 hspec.2 line hline
  rcases HostsBuilder.linesToInsert_eq (nodesBuilder env.here (p.hostsNodes env)
    platform.hostsSuffix) platform.windows with ⟨hlines, -⟩ | ⟨hlines, -⟩
  · rw [Process.hostsLines, hlines] at hline
    contradiction
  · have hbetween := HostsBuilder.between_linesToInsert
      (nodesBuilder env.here (p.hostsNodes env) platform.hostsSuffix) platform.windows
    rw [Process.hostsLines, hlines, hspec.1] at hline
    rcases List.mem_cons.mp hline with rfl | hline
    · exact .marker (.inl (by decide))
    · rcases List.mem_append.mp hline with hline | hline
      · refine .entry hone fun name hname => ?_
        obtain ⟨node, hnode, ip, hostname, hwritten, hname⟩ :=
          (name_published_iff platform.windows platform.hostsSuffix).mp
            ⟨line, hbetween ▸ hline, hname⟩
        have hd : isDaemonNode node = true := by simp [isDaemonNode, hwritten.notClient]
        obtain ⟨me, ticket, hmem, hsame⟩ := hostsNodes_identity h hnode hd
        exact ⟨me, ticket, hostname, hmem, hsame.domain ▸ hwritten.name, hname⟩
      · obtain rfl := List.mem_singleton.mp hline
        exact .marker (.inr (by decide))

variable (hchomp : ∀ line, old line → old (chomp line))
include hchomp

theorem hostsStem_boot (haccounts : ∀ item ∈ sent, w.Accounts sent item) {m : Machine}
    {platform : Platform} {start : Start platform.codecs} {hostsFile : List UInt8}
    {env : LaunchReadings} (hm : m.Sound w.lag sent)
    (hallows : w.Allows sent m (.boot platform start hostsFile env))
    (horderly : (MachineEvent.boot platform start hostsFile env).Orderly old sent)
    {more : List Item} (hmore : .booted start.ctx.me start.ctx.ticket ∈ more) :
    FileStems old (sent ++ more) platform.hostsSuffix
      (start.launch platform hostsFile env).1.hostsFile := by
  obtain ⟨hfound, hwhole⟩ := horderly
  rcases @launch_file platform start hostsFile env hwhole with hsame | ⟨q, hq, hsync⟩
  · rw [hsame]
    exact hfound.mono more
  · have hsound : Sound w.lag (sent ++ more) q.daemon.ctx := by
      rw [hq]
      exact sound_start haccounts hm hallows hmore
    exact (hfound.mono more).rewritten hchomp (hostsLines_stem hsound platform env.hosts) hsync

theorem hostsStem_loop {r : Running} {e : LoopEvent} (hsound : Sound w.lag sent r.ctx)
    (hfile : FileStems old sent r.platform.hostsSuffix r.process.hostsFile) (hwhole : e.Whole) :
    FileStems old sent r.platform.hostsSuffix (r.process.step r.platform e).1.hostsFile := by
  rcases @step_file r.platform r.process e hwhole with hsame | ⟨env, -, hsync⟩ | hclear
  · rwa [hsame]
  · exact hfile.rewritten hchomp (hostsLines_stem hsound r.platform env) hsync
  · exact hfile.rewritten hchomp (by simp) hclear

/-- Machines stay sound, and what stands in their hosts files stems from members. -/
theorem hosts_guarantee :
    Networks.Guarantee Machine.act
      (fun sent m e => w.Allows sent m e ∧ e.Orderly old sent) w.Injects
      (fun sent (m : Machine) => m.Sound w.lag sent ∧ m.HostsStem old sent) w.Accounts where
  party_mono _ more _ h := ⟨h.1.mono more, fun r hr => (h.2 r hr).mono more⟩
  message_mono := (membership_guarantee w).message_mono
  acts sent m e hm haccounts hallows := by
    obtain ⟨hsound, hmore⟩ := (membership_guarantee w).acts sent m e hm.1 haccounts hallows.1
    refine ⟨⟨hsound, ?_⟩, hmore⟩
    cases e with
    | boot platform start hostsFile env =>
      intro r hr
      obtain rfl := Option.some.inj hr
      exact hostsStem_boot hchomp haccounts hm.1 hallows.1 hallows.2 List.mem_cons_self
    | bootFailed disk => simp [Machine.HostsStem, Machine.act, Machine.off]
    | loop e =>
      cases hr : m.running with
      | none => simp [Machine.HostsStem, Machine.act, hr]
      | some r =>
        have hfile := hostsStem_loop hchomp (hm.1.running r hr) (hm.2 r hr) hallows.2
        rw [Machine.act_loop hr]
        rintro _ heq
        obtain rfl := Option.some.inj heq
        exact hfile.mono _
    | crash => simp [Machine.HostsStem, Machine.act, Machine.off]
  injects := (membership_guarantee w).injects

end Machines

/-- A run in which no write of a hosts file is torn and the other lines of the files satisfy
`old`. -/
def Surroundings.HostsRun (w : Surroundings) (old : String → Prop) {ι : Type} [DecidableEq ι]
    (turns : List (NetworkTurn ι)) : Prop :=
  Runs.Along (Networks.Config.step Machine.act)
    (Networks.Config.Allows (fun sent m e => w.Allows sent m e ∧ e.Orderly old sent) w.Injects)
    (Network.blank ι) turns

/-- Every line in the hosts file of a daemon is a line of others, a marker, or has names of members
only: nobody else gets a name into the file, whatever it sends. -/
theorem hosts_name_members {w : Surroundings} {old : String → Prop} {ι : Type} [DecidableEq ι]
    {turns : List (NetworkTurn ι)} (hchomp : ∀ line, old line → old (chomp line))
    (hrun : w.HostsRun old turns) :
    let net := Network.after turns
    ∀ i r, (net.party i).running = some r →
      ∀ lines, readLines r.process.hostsFile = some lines → ∀ line ∈ lines,
        old line ∨ begins line = true ∨ ends line = true ∨
        ∀ name ∈ hostnamesOn line, ∃ me ticket hostname, .booted me ticket ∈ net.sent ∧
          ¬ w.outsider me.nodeId ∧ canonicalHostname me.domain = some hostname ∧
          name ∈ hostnamesOf (r.platform.hostsSuffix.bind canonicalHostname) hostname := by
  intro net i r hr lines hlines line hline
  have h : Networks.Holds (fun sent (m : Machine) => m.Sound w.lag sent ∧ m.HostsStem old sent)
      w.Accounts net := by
    refine (hosts_guarantee hchomp).run ⟨fun _ => ⟨⟨?_, ?_⟩, ?_⟩, ?_⟩ hrun
    · intro id node hn
      simp [Network.blank, Machine.off, Storage.clear] at hn
    · simp [Network.blank, Machine.off]
    · simp [Network.blank, Machine.off, Machine.HostsStem]
    · simp [Network.blank]
  cases (h.parties i).2 r hr lines hlines line hline with
  | old hold => exact .inl hold
  | marker hmarker => exact .inr (hmarker.elim .inl fun hend => .inr (.inl hend))
  | entry _ hnames =>
    refine .inr (.inr (.inr fun name hname => ?_))
    obtain ⟨me, ticket, hostname, hmem, hname⟩ := hnames name hname
    have hmember : Member net.sent me.nodeId := ⟨me, ticket, hmem, rfl⟩
    exact ⟨me, ticket, hostname, hmem, hmember.not_outsider h.messages, hname⟩

namespace Sample

/-! Dave's lie gets no name into alice's hosts file. -/

def localhost (line : String) : Prop := line = "127.0.0.1 localhost"

def namesTurns : List (NetworkTurn Bool) :=
  [.acts false (.boot onTerminal syncingStart plainHosts (launchReadings alice 1 1000)),
    .injects (.signed davesLie), .acts false (.loop lieHeard),
    .acts false (.loop (.hostsTick (hostsUpdate 1030)))]

theorem names_run : surroundings.HostsRun localhost namesTurns := by
  have hplain : readLines plainHosts = some ["127.0.0.1 localhost"] := by decide +kernel
  refine ⟨⟨?_, ?_, .inl rfl⟩, ⟨davesLie, rfl, rfl, by simp [davesLie]⟩, ⟨?_, ?_⟩, ⟨?_, ?_⟩, trivial⟩
  · exact ⟨rfl, rfl, (by decide : alice ≠ dave), id, by simp [syncingStart, syncingArgs, args]⟩
  · intro lines hlines line hline
    obtain rfl := Option.some.inj (hplain.symm.trans hlines)
    exact .old (List.mem_singleton.mp hline)
  · rintro r -
    refine ⟨?_, by simp [lieHeard]⟩
    rintro signed env reply (h | h)
    · cases h
      exact ⟨List.mem_append_right _ List.mem_cons_self, le_rfl, le_rfl, le_rfl, by decide⟩
    · contradiction
  · simp [MachineEvent.Orderly, LoopEvent.Whole, LoopEvent.hostsTurn?, lieHeard]
  · rintro r -
    exact allowsLoop_quiet (by simp [LoopEvent.Receives]) (by simp)
  · rintro env henv
    obtain rfl := Option.some.inj henv
    exact .inl rfl

theorem hosts_name_members_alice :
    let net := Network.after namesTurns
    ∀ i r, (net.party i).running = some r →
      ∀ lines, readLines r.process.hostsFile = some lines → ∀ line ∈ lines,
        localhost line ∨ begins line = true ∨ ends line = true ∨
        ∀ name ∈ hostnamesOn line, ∃ me ticket hostname, .booted me ticket ∈ net.sent ∧
          ¬ surroundings.outsider me.nodeId ∧ canonicalHostname me.domain = some hostname ∧
          name ∈ hostnamesOf (r.platform.hostsSuffix.bind canonicalHostname) hostname := by
  have hchomp : chomp "127.0.0.1 localhost" = "127.0.0.1 localhost" := by decide
  refine hosts_name_members ?_ names_run
  rintro _ rfl
  exact hchomp

end Sample
end P2pDdns
