import P2pDdns.EventLoop
import P2pDdns.Frames
import P2pDdns.Parties

/-!
Connections to the admin socket, any number of them beside the event loop: a session reads a
login and then one command after the other, and writes an answer to each. The client on the other
side logs in, sends a command and waits for the answers.
-/

set_option autoImplicit false

namespace P2pDdns
open WireFormats Streams Parties

/-! The server's side of a connection. -/

inductive AdminRequest where
  | login (authReq : AuthRequest)
  | command (cmd : ClientCommand)

/-- What is done on the daemon, with the answer it gives. -/
inductive Deed where
  | own (e : LoopEvent)
  | login (authReq : AuthRequest) (env : AuthReadings) (resp : AuthResponse)
  | command (client : EndpointId) (cmd : ClientCommand) (env : CommandReadings) (responded : Bool)
      (shutdown : ShutdownReadings) (resp : ClientResponse)

inductive Phase where
  | login
  | serving (client : EndpointId)
  | closed
  deriving DecidableEq

structure Session where
  phase : Phase
  unread : Stream
  written : List UInt8
  broken : Bool

/-- Of a write that fails, so many bytes get through. -/
structure SessionReadings where
  auth : AuthReadings
  command : CommandReadings
  fault : Option Nat
  shutdown : ShutdownReadings

def Deed.event : Deed → LoopEvent
  | .own e => e
  | .login authReq env _ => .authenticate authReq .allowLocalTicketless env
  | .command client cmd env responded shutdown _ => .command client cmd env responded shutdown

def Deed.request : Deed → Option AdminRequest
  | .own _ => none
  | .login authReq _ _ => some (.login authReq)
  | .command _ cmd _ _ _ _ => some (.command cmd)

def Deed.bytes : Deed → List UInt8
  | .own _ => []
  | .login _ _ resp => Server.sendMessage authResponseFormat resp
  | .command _ _ _ _ _ resp => Server.sendMessage clientResponseFormat resp.toWire

namespace Session

def opened (unread : Stream) : Session := ⟨.login, unread, [], false⟩

def close (s : Session) : Session := { s with phase := .closed }

def send (s : Session) (bytes : List UInt8) (fault : Option Nat) : Session × Bool :=
  if s.broken then (s, false)
  else
    match fault with
    | none => ({ s with written := s.written ++ bytes }, true)
    | some sent => ({ s with written := s.written ++ bytes.take sent, broken := true }, false)

section Turn
variable (platform : Platform) (p : Process) (s : Session) (env : SessionReadings)

/-- The start of `handle_client_connection`, up to its loop. -/
def authenticate : Process × Session × List Deed :=
  match Server.readMessage authRequestFormat s.unread with
  | .error _ => (p, s.close, [])
  | .ok (authReq, unread) =>
    let found :=
      (authenticateAndRegister platform.codecs p.daemon authReq .allowLocalTicketless env.auth).2
    let deed : Deed := .login authReq env.auth found.1
    let sent := { s with unread := unread }.send deed.bytes env.fault
    let phase :=
      match found.2 with
      | some pk => if sent.2 then .serving pk else .closed
      | none => .closed
    ((p.step platform deed.event).1, { sent.1 with phase := phase }, [deed])

/-- One turn of its loop. Whether a refusal gets through does not matter. -/
def serve (client : EndpointId) : Process × Session × List Deed :=
  match Server.readMessage clientCommandFormat s.unread with
  | .error _ => (p, s.close, [])
  | .ok (cmd, unread) =>
    let outcome := (runCommand platform.codecs p.daemon client cmd env.command).1
    let sent := { s with unread := unread }.send
      (Server.sendMessage clientResponseFormat outcome.response.toWire) env.fault
    let deed : Deed := .command client cmd env.command sent.2 env.shutdown outcome.response
    let phase :=
      if p.daemon.clients.checkPermission client (requiredPermission cmd) = false then
        .serving client
      else if sent.2 = false ∨ outcome.action = some .shutdown then .closed
      else .serving client
    ((p.step platform deed.event).1, { sent.1 with phase := phase }, [deed])

def turn : Process × Session × List Deed :=
  if p.stopped then (p, s, [])
  else
    match s.phase with
    | .login => s.authenticate platform p env
    | .serving client => s.serve platform p env client
    | .closed => (p, s, [])

end Turn
end Session

/-- The process beside its sessions. -/
abbrev AdminServer (ι : Type) := Shared ι Process Session

abbrev AdminTurn (ι : Type) := Parties.Turn ι LoopEvent SessionReadings

section Server
variable (platform : Platform)

def Process.alone (p : Process) (e : LoopEvent) : Process × List Deed :=
  ((p.step platform e).1, [.own e])

def AdminServer.run {ι : Type} [DecidableEq ι] (server : AdminServer ι)
    (turns : List (AdminTurn ι)) : AdminServer ι × List (Option ι × Deed) :=
  Parties.run (Process.alone platform) (fun p s env => s.turn platform p env) server turns

def Process.apply (p : Process) (deed : Deed) : Process := (p.step platform deed.event).1

theorem foldl_apply (p : Process) (deeds : List Deed) :
    deeds.foldl (Process.apply platform) p = (p.run platform (deeds.map Deed.event)).1 := by
  induction deeds generalizing p with
  | nil => rfl
  | cons deed deeds ih => exact ih _

def Deed.Answers (codecs : Codecs) (d : Daemon) : Deed → Prop
  | .own _ => True
  | .login authReq env resp =>
    resp = (authenticateAndRegister codecs d authReq .allowLocalTicketless env).2.1
  | .command client cmd env _ _ resp => resp = (runCommand codecs d client cmd env).1.response

/-- One turn of a session does nothing, or one deed that the daemon answers. -/
theorem turn_deeds (p : Process) (s : Session) (env : SessionReadings) :
    (s.turn platform p env).1 =
        (s.turn platform p env).2.2.foldl (Process.apply platform) p ∧
      ((s.turn platform p env).2.2 = [] ∨
        ∃ deed, (s.turn platform p env).2.2 = [deed] ∧
          deed.Answers platform.codecs p.daemon) := by
  unfold Session.turn
  split
  · exact ⟨rfl, .inl rfl⟩
  · split
    · unfold Session.authenticate
      split
      · exact ⟨rfl, .inl rfl⟩
      · exact ⟨rfl, .inr ⟨_, rfl, rfl⟩⟩
    · unfold Session.serve
      split
      · exact ⟨rfl, .inl rfl⟩
      · exact ⟨rfl, .inr ⟨_, rfl, rfl⟩⟩
    · exact ⟨rfl, .inl rfl⟩

end Server

/-! What a session makes of the frames a client sends. -/

def AdminRequest.bytes : AdminRequest → List UInt8
  | .login authReq => App.sendMessage authRequestFormat authReq
  | .command cmd => App.sendMessage clientCommandFormat cmd

def AdminRequest.Fits : AdminRequest → Prop
  | .login authReq => (authRequestFormat.write authReq).length ≤ Server.MAX_ADMIN_FRAME
  | .command cmd => (clientCommandFormat.write cmd).length ≤ Server.MAX_ADMIN_FRAME

def requests (authReq : AuthRequest) (cmds : List ClientCommand) : List AdminRequest :=
  .login authReq :: cmds.map .command

/-- The deed is done for the client with the key of the login. -/
def Deed.DoneFor (codecs : Codecs) (authReq : AuthRequest) : Deed → Prop
  | .command client _ _ _ _ _ => clientKey codecs authReq = some client
  | _ => True

/-- What a session has done of the requests, and what is left of them. -/
structure Served (platform : Platform) (authReq : AuthRequest)
    (cmds : List ClientCommand) (s : Session) (deeds : List Deed) : Prop where
  input : ∃ left : List AdminRequest, (requests authReq cmds).map some = deeds.map Deed.request ++ left.map some ∧
    (s.phase ≠ .closed → Flowing s.unread ∧
      s.unread.flatten = left.flatMap AdminRequest.bytes)
  login : s.phase = .login → deeds = []
  serving : ∀ pk, s.phase = .serving pk →
    deeds ≠ [] ∧ clientKey platform.codecs authReq = some pk
  doneFor : ∀ deed ∈ deeds, deed.DoneFor platform.codecs authReq
  partly : s.written <+: deeds.flatMap Deed.bytes
  wholly : s.broken = false → s.written = deeds.flatMap Deed.bytes

section Serving
variable {platform : Platform} {authReq : AuthRequest}
  {cmds : List ClientCommand} {p : Process} {s : Session} {deeds : List Deed}
  {env : SessionReadings}

theorem clientKey_of_authenticated {codecs : Codecs} {d : Daemon} {mode : AuthMode}
    {readings : AuthReadings} {pk : EndpointId}
    (h : (authenticateAndRegister codecs d authReq mode readings).2.2 = some pk) :
    clientKey codecs authReq = some pk := by
  unfold authenticateAndRegister at h
  dsimp only at h
  split at h
  · contradiction
  · cases hkey : clientKey codecs authReq with
    | none => simp [hkey] at h
    | some client =>
      simp only [hkey] at h
      split at h
      · exact h
      · exact h

theorem send_broken (bytes : List UInt8) (fault : Option Nat) :
    (s.send bytes fault).1.unread = s.unread ∧
      ((s.send bytes fault).1.written = s.written ++ bytes ∧
          (s.send bytes fault).1.broken = false ∧ s.broken = false ∨
        (s.send bytes fault).1.broken = true ∧
          ((s.send bytes fault).1.written = s.written ∧ s.broken = true ∨
            ∃ sent, (s.send bytes fault).1.written = s.written ++ bytes.take sent ∧
              s.broken = false)) := by
  unfold Session.send
  split
  · rename_i hbroken
    exact ⟨rfl, .inr ⟨hbroken, .inl ⟨rfl, hbroken⟩⟩⟩
  · rename_i hbroken
    rw [Bool.not_eq_true] at hbroken
    cases fault with
    | none => exact ⟨rfl, .inl ⟨rfl, hbroken, hbroken⟩⟩
    | some sent => exact ⟨rfl, .inr ⟨rfl, .inr ⟨sent, rfl, hbroken⟩⟩⟩

theorem written_step (deed : Deed) (fault : Option Nat)
    (hpartly : s.written <+: deeds.flatMap Deed.bytes)
    (hwholly : s.broken = false → s.written = deeds.flatMap Deed.bytes) :
    let sent := (s.send deed.bytes fault).1
    sent.written <+: (deeds ++ [deed]).flatMap Deed.bytes ∧
      (sent.broken = false → sent.written = (deeds ++ [deed]).flatMap Deed.bytes) := by
  intro sent
  rw [List.flatMap_append, List.flatMap_singleton]
  obtain ⟨-, ⟨hwritten, hbroken, hold⟩ | ⟨hbroken, ⟨hwritten, -⟩ | ⟨count, hwritten, hold⟩⟩⟩ :=
    @send_broken s deed.bytes fault
  · rw [hwholly hold] at hwritten
    exact ⟨hwritten ▸ List.prefix_rfl, fun _ => hwritten⟩
  · refine ⟨?_, fun h => by simp [sent, hbroken] at h⟩
    rw [hwritten]
    exact List.prefix_append_of_prefix hpartly
  · refine ⟨?_, fun h => by simp [sent, hbroken] at h⟩
    rw [hwritten, hwholly hold, List.prefix_append_right_inj]
    exact List.take_prefix _ _

theorem Served.closes (h : Served platform authReq cmds s deeds) :
    Served platform authReq cmds s.close deeds where
  input := by
    obtain ⟨left, hleft, -⟩ := h.input
    exact ⟨left, hleft, fun hopen => absurd rfl hopen⟩
  login hphase := by simp [Session.close] at hphase
  serving _ hphase := by simp [Session.close] at hphase
  doneFor := h.doneFor
  partly := h.partly
  wholly := h.wholly

theorem Served.next (h : Served platform authReq cmds s deeds) (hopen : s.phase ≠ .closed) :
    s.unread.flatten = [] ∧ Flowing s.unread ∨
      ∃ (request : AdminRequest) (left : List AdminRequest), Flowing s.unread ∧
        s.unread.flatten = request.bytes ++ left.flatMap AdminRequest.bytes ∧
        (requests authReq cmds).map some = deeds.map Deed.request ++ some request :: left.map some := by
  obtain ⟨left, hleft, hunread⟩ := h.input
  obtain ⟨hflow, hflat⟩ := hunread hopen
  cases left with
  | nil => exact .inl ⟨hflat, hflow⟩
  | cons request left => exact .inr ⟨request, left, hflow, hflat, hleft⟩

theorem Served.command (h : Served platform authReq cmds s deeds) {pk : EndpointId}
    (hphase : s.phase = .serving pk) {request : AdminRequest} {left : List AdminRequest}
    (hleft : (requests authReq cmds).map some =
      deeds.map Deed.request ++ some request :: left.map some) :
    ∃ cmd ∈ cmds, request = .command cmd := by
  obtain ⟨first, deeds, rfl⟩ := List.exists_cons_of_ne_nil (h.serving pk hphase).1
  obtain ⟨-, htail⟩ := List.cons.inj hleft
  have hmem : some request ∈ (cmds.map AdminRequest.command).map some := by
    rw [htail]
    simp
  simpa [eq_comm] using hmem

theorem Served.answered (h : Served platform authReq cmds s deeds) {request : AdminRequest}
    {left : List AdminRequest} {deed : Deed} {rest : Stream} {phase : Phase}
    (hleft : (requests authReq cmds).map some =
      deeds.map Deed.request ++ some request :: left.map some)
    (hrequest : deed.request = some request) (hfor : deed.DoneFor platform.codecs authReq)
    (hflow : Flowing rest) (hrest : rest.flatten = left.flatMap AdminRequest.bytes)
    (hlogin : phase ≠ .login)
    (hserving : ∀ pk, phase = .serving pk → clientKey platform.codecs authReq = some pk)
    (fault : Option Nat) :
    Served platform authReq cmds
      { ({ s with unread := rest }.send deed.bytes fault).1 with phase := phase }
      (deeds ++ [deed]) := by
  obtain ⟨hpartly, hwholly⟩ :=
    @written_step { s with unread := rest } deeds deed fault h.partly h.wholly
  have hunread := (@send_broken { s with unread := rest } deed.bytes fault).1
  refine ⟨⟨left, ?_, fun _ => ?_⟩, fun heq => absurd heq hlogin, fun pk hpk => ?_, ?_, hpartly,
    hwholly⟩
  · rw [hleft, List.map_append, List.map_singleton, hrequest, List.append_assoc]
    rfl
  · dsimp only
    rw [hunread]
    exact ⟨hflow, hrest⟩
  · exact ⟨by simp, hserving pk hpk⟩
  · exact List.forall_mem_append.mpr ⟨h.doneFor, List.forall_mem_singleton.mpr hfor⟩

variable (hfits : ∀ request ∈ requests authReq cmds, request.Fits)
include hfits

theorem Served.authenticate (h : Served platform authReq cmds s deeds)
    (hphase : s.phase = .login) :
    Served platform authReq cmds (s.authenticate platform p env).2.1
      (deeds ++ (s.authenticate platform p env).2.2) := by
  obtain rfl := h.login hphase
  obtain ⟨left, hleft, hunread⟩ := h.input
  obtain ⟨hflow, hflat⟩ := hunread (by simp [hphase])
  obtain rfl : requests authReq cmds = left :=
    List.map_injective_iff.mpr (Option.some_injective _) hleft
  have hlimit : (AdminRequest.login authReq).Fits := hfits _ List.mem_cons_self
  obtain ⟨rest, hread, hrest, hflow'⟩ := readMessage_sendMessage hflow hflat hlimit
  have hserver : Server.readMessage authRequestFormat s.unread = .ok (authReq, rest) := hread
  unfold Session.authenticate
  simp only [hserver]
  refine @Served.answered platform authReq cmds s [] h (.login authReq)
    (cmds.map .command) (.login authReq env.auth _) rest _ hleft rfl trivial hflow' hrest ?_ ?_
    env.fault
  · split
    · split <;> simp
    · simp
  · intro pk hserving
    split at hserving
    · rename_i client hclient
      split at hserving
      · obtain rfl := Phase.serving.inj hserving
        exact clientKey_of_authenticated hclient
      · cases hserving
    · cases hserving

theorem Served.serve (h : Served platform authReq cmds s deeds) {pk : EndpointId}
    (hphase : s.phase = .serving pk) :
    Served platform authReq cmds (s.serve platform p env pk).2.1
      (deeds ++ (s.serve platform p env pk).2.2) := by
  have hkey := (h.serving pk hphase).2
  rcases h.next (by simp [hphase]) with ⟨hempty, hflow⟩ | ⟨request, left, hflow, hflat, hleft⟩
  · have hread : Server.readMessage clientCommandFormat s.unread = .error .closed :=
      readMessage_nil (by decide) hflow hempty
    unfold Session.serve
    simp only [hread, List.append_nil]
    exact h.closes
  · obtain ⟨cmd, hcmd, rfl⟩ := h.command hphase hleft
    have hlimit : (AdminRequest.command cmd).Fits :=
      hfits _ (List.mem_cons_of_mem _ (List.mem_map_of_mem hcmd))
    obtain ⟨rest, hread, hrest, hflow'⟩ := readMessage_sendMessage hflow hflat hlimit
    have hserver : Server.readMessage clientCommandFormat s.unread = .ok (cmd, rest) := hread
    unfold Session.serve
    simp only [hserver]
    refine @Served.answered platform authReq cmds s deeds h (.command cmd) left
      (.command pk cmd env.command _ env.shutdown _) rest _ hleft rfl hkey hflow' hrest ?_ ?_
      env.fault
    · split
      · simp
      · split <;> simp
    · intro client hserving
      have hsame : client = pk := by
        split at hserving
        · exact (Phase.serving.inj hserving).symm
        · split at hserving
          · cases hserving
          · exact (Phase.serving.inj hserving).symm
      rwa [hsame]

/-- A session keeps to the requests of its client, whatever state the process is in. -/
theorem Served.turn (h : Served platform authReq cmds s deeds) :
    Served platform authReq cmds (s.turn platform p env).2.1
      (deeds ++ (s.turn platform p env).2.2) := by
  unfold Session.turn
  split
  · simpa using h
  · split
    · rename_i hphase
      exact h.authenticate hfits hphase
    · rename_i pk hphase
      exact h.serve hfits hphase
    · simpa using h

end Serving
/-! The client's side. -/

inductive NodeCommand where
  | add (ticket : String)
  | remove (id : String)

inductive ClientCommandArgs where
  | list
  | status
  | node (command : NodeCommand)
  | ticket
  | pause
  | resume
  | stop

def toClientCommand : ClientCommandArgs → ClientCommand
  | .list => .query
  | .status => .status
  | .node (.add ticket) => .addNode ticket
  | .node (.remove id) => .removeNode id
  | .ticket => .getTicket
  | .pause => .pause
  | .resume => .resume
  | .stop => .shutdown

inductive SocketError where
  | frame (e : FrameError)
  | bail (message : String)

def authenticateSocket (stream : Stream) : Except SocketError Stream :=
  match App.readMessage authResponseFormat stream with
  | .error e => .error (.frame e)
  | .ok (authResp, rest) =>
    if authResp.success then .ok rest
    else
      let error := authResp.error.getD "Unknown error"
      .error (.bail s!"Authentication failed: {error}")

def executeSocketCommand (stream : Stream) : Except SocketError ClientResponse :=
  match App.readMessage clientResponseFormat stream with
  | .error e => .error (.frame e)
  | .ok (fields, _) => .ok (.ofWire fields)

/-- What the client sends, and what it returns, when these bytes come back. -/
def runSocketClient (auth : AuthRequest) (command : ClientCommandArgs) (stream : Stream) :
    List UInt8 × Except SocketError ClientResponse :=
  match authenticateSocket stream with
  | .error e => (App.sendMessage authRequestFormat auth, .error e)
  | .ok rest =>
    (App.sendMessage authRequestFormat auth ++
        App.sendMessage clientCommandFormat (toClientCommand command),
      executeSocketCommand rest)

def Deed.Fits : Deed → Prop
  | .own _ => True
  | .login _ _ resp => (authResponseFormat.write resp).length ≤ Server.MAX_ADMIN_FRAME
  | .command _ _ _ _ _ resp =>
    (clientResponseFormat.write resp.toWire).length ≤ Server.MAX_ADMIN_FRAME

instance (deed : Deed) : Decidable deed.Fits :=
  match deed with
  | .own _ => inferInstanceAs (Decidable True)
  | .login _ _ _ => inferInstanceAs (Decidable (_ ≤ _))
  | .command _ _ _ _ _ _ => inferInstanceAs (Decidable (_ ≤ _))

/-- A client is at the other end of a session: the session reads what the client sends, in any
pieces, the client what the session has written, and no message is too large. -/
structure Connected (platform : Platform) {ι : Type} [DecidableEq ι]
    (server : AdminServer ι) (turns : List (AdminTurn ι)) (i : ι) (auth : AuthRequest)
    (command : ClientCommandArgs) (input back : Stream) : Prop where
  opened : server.own i = .opened input
  toServer : Flowing input
  sent : input.flatten = (runSocketClient auth command back).1
  toClient : Flowing back
  heard : back.flatten = ((server.run platform turns).1.own i).written
  loginFits : (authRequestFormat.write auth).length ≤ Server.MAX_ADMIN_FRAME
  commandFits : (clientCommandFormat.write (toClientCommand command)).length ≤
    Server.MAX_ADMIN_FRAME
  answersFit : ∀ deed ∈ doneBy i (server.run platform turns).2, deed.Fits

section Client
variable {platform : Platform} {ι : Type} [DecidableEq ι]
  {server : AdminServer ι} {turns : List (AdminTurn ι)} {i : ι} {auth : AuthRequest}
  {command : ClientCommandArgs} {input back : Stream}

theorem request_login {deed : Deed} (h : deed.request = some (.login auth)) :
    ∃ env resp, deed = .login auth env resp := by
  cases deed with
  | own e => contradiction
  | login authReq env resp =>
    obtain rfl := AdminRequest.login.inj (Option.some.inj h)
    exact ⟨env, resp, rfl⟩
  | command => simp [Deed.request] at h

theorem request_command {deed : Deed} {cmd : ClientCommand}
    (h : deed.request = some (.command cmd)) :
    ∃ client env responded shutdown resp,
      deed = .command client cmd env responded shutdown resp := by
  cases deed with
  | own e => contradiction
  | login => simp [Deed.request] at h
  | command client cmd' env responded shutdown resp =>
    obtain rfl := AdminRequest.command.inj (Option.some.inj h)
    exact ⟨client, env, responded, shutdown, resp, rfl⟩

def sentCommands (command : ClientCommandArgs) (back : Stream) : List ClientCommand :=
  match authenticateSocket back with
  | .error _ => []
  | .ok _ => [toClientCommand command]

theorem Connected.served (h : Connected platform server turns i auth command input back) :
    Served platform auth (sentCommands command back)
      ((server.run platform turns).1.own i)
      (doneBy i (server.run platform turns).2) := by
  have hbytes : input.flatten =
      (requests auth (sentCommands command back)).flatMap AdminRequest.bytes := by
    rw [h.sent, runSocketClient, sentCommands]
    cases authenticateSocket back <;> simp [requests, AdminRequest.bytes]
  have hfits : ∀ request ∈ requests auth (sentCommands command back), request.Fits := by
    refine List.forall_mem_cons.mpr ⟨h.loginFits, List.forall_mem_map.mpr fun cmd hcmd => ?_⟩
    unfold sentCommands at hcmd
    split at hcmd
    · contradiction
    · obtain rfl := List.mem_singleton.mp hcmd
      exact h.commandFits
  have hfresh : Served platform auth (sentCommands command back) (server.own i) [] := by
    rw [h.opened]
    exact ⟨⟨_, rfl, fun _ => ⟨h.toServer, hbytes⟩⟩, fun _ => rfl, fun pk hpk => by contradiction,
      by simp, List.prefix_rfl, fun _ => rfl⟩
  have hrun : Served platform auth (sentCommands command back)
      ((server.run platform turns).1.own i)
      ([] ++ doneBy i (server.run platform turns).2) :=
    Parties.run_own (fun _ _ _ _ hs => Served.turn hfits hs) hfresh turns
  rwa [List.nil_append] at hrun

theorem Connected.loggedIn (h : Connected platform server turns i auth command input back)
    {rest : Stream} (hauth : authenticateSocket back = .ok rest) :
    ∃ env resp deeds, doneBy i (server.run platform turns).2 =
        .login auth env resp :: deeds ∧
      Flowing rest ∧ rest.flatten <+: deeds.flatMap Deed.bytes ∧
      (deeds = [] ∨ ∃ client env responded shutdown resp,
        clientKey platform.codecs auth = some client ∧
        deeds = [.command client (toClientCommand command) env responded shutdown resp]) := by
  have hserved := h.served
  have hcommands : sentCommands command back = [toClientCommand command] := by
    rw [sentCommands, hauth]
  obtain ⟨left, hleft, -⟩ := hserved.input
  have hpartly := hserved.partly
  rw [← h.heard] at hpartly
  rw [hcommands] at hleft
  have hfits := h.answersFit
  have hfor := hserved.doneFor
  cases hdeeds : doneBy i (server.run platform turns).2 with
  | nil =>
    rw [hdeeds, List.flatMap_nil, List.prefix_nil] at hpartly
    have hread : App.readMessage authResponseFormat back = .error .closed :=
      readMessage_nil (by decide) h.toClient hpartly
    simp [authenticateSocket, hread] at hauth
  | cons first deeds =>
    rw [hdeeds] at hpartly hleft hfits hfor
    obtain ⟨hfirst, hrequests⟩ := List.cons.inj hleft
    obtain ⟨env, resp, rfl⟩ := request_login hfirst.symm
    obtain ⟨hlimit, hfits⟩ := List.forall_mem_cons.mp hfits
    have hread : (∃ rest, App.readMessage authResponseFormat back = .ok (resp, rest) ∧
        Flowing rest ∧ rest.flatten <+: deeds.flatMap Deed.bytes) ∨
          App.readMessage authResponseFormat back = .error .closed :=
      readMessage_of_prefix h.toClient hpartly hlimit
    rcases hread with ⟨rest', hread, hflow, hrest⟩ | hread
    · simp only [authenticateSocket, hread] at hauth
      split at hauth
      · obtain rfl := Except.ok.inj hauth
        refine ⟨env, resp, deeds, rfl, hflow, hrest, ?_⟩
        cases deeds with
        | nil => exact .inl rfl
        | cons second deeds =>
          obtain ⟨hsecond, hnone⟩ := List.cons.inj hrequests
          obtain ⟨client, cmdEnv, responded, shutdown, answer, rfl⟩ := request_command hsecond.symm
          obtain ⟨hempty, -⟩ := List.append_eq_nil_iff.mp hnone.symm
          rw [List.map_eq_nil_iff.mp hempty]
          exact .inr ⟨client, cmdEnv, responded, shutdown, answer,
            hfor _ (List.mem_cons_of_mem _ List.mem_cons_self), rfl⟩
      · contradiction
    · simp [authenticateSocket, hread] at hauth

theorem Connected.sound (h : Connected platform server turns i auth command input back)
    {resp : ClientResponse} (hresult : (runSocketClient auth command back).2 = .ok resp) :
    ∃ authEnv authResp client env responded shutdown answer,
      clientKey platform.codecs auth = some client ∧
      doneBy i (server.run platform turns).2 = [.login auth authEnv authResp,
        .command client (toClientCommand command) env responded shutdown answer] ∧
      resp = answer.carried := by
  rw [runSocketClient] at hresult
  cases hauth : authenticateSocket back with
  | error e => simp [hauth] at hresult
  | ok rest =>
    rw [hauth] at hresult
    obtain ⟨authEnv, authResp, deeds, hdeeds, hflow, hrest, rfl | ⟨client, env, responded, shutdown,
      answer, hkey, rfl⟩⟩ := h.loggedIn hauth
    · rw [List.flatMap_nil, List.prefix_nil] at hrest
      have hread : App.readMessage clientResponseFormat rest = .error .closed :=
        readMessage_nil (by decide) hflow hrest
      simp [executeSocketCommand, hread] at hresult
    · have hfits := h.answersFit
      rw [hdeeds] at hfits
      have hlimit : (clientResponseFormat.write answer.toWire).length ≤ Server.MAX_ADMIN_FRAME :=
        hfits _ (List.mem_cons_of_mem _ List.mem_cons_self)
      have hread : (∃ rest', App.readMessage clientResponseFormat rest =
          .ok (answer.toWire, rest') ∧ Flowing rest' ∧ rest'.flatten <+: []) ∨
            App.readMessage clientResponseFormat rest = .error .closed :=
        readMessage_of_prefix hflow hrest hlimit
      rcases hread with ⟨rest', hread, -⟩ | hread
      · simp only [executeSocketCommand, hread] at hresult
        obtain rfl := Except.ok.inj hresult
        exact ⟨authEnv, authResp, client, env, responded, shutdown, answer, hkey, hdeeds, rfl⟩
      · simp [executeSocketCommand, hread] at hresult

theorem Connected.complete (h : Connected platform server turns i auth command input back)
    (hwhole : ((server.run platform turns).1.own i).broken = false)
    {authEnv : AuthReadings} {authResp : AuthResponse} {deeds : List Deed}
    (hdeeds : doneBy i (server.run platform turns).2 =
      .login auth authEnv authResp :: deeds) :
    (authResp.success = false → ∃ message,
      (runSocketClient auth command back).2 = .error (.bail message)) ∧
    ∀ client cmd env responded shutdown resp,
      deeds = [.command client cmd env responded shutdown resp] →
      (runSocketClient auth command back).2 = .ok resp.carried := by
  have hserved := h.served
  have hwritten := (h.heard.trans (hserved.wholly hwhole))
  have hfits := h.answersFit
  rw [hdeeds] at hwritten hfits
  rw [List.flatMap_cons] at hwritten
  obtain ⟨hlimit, hfits⟩ := List.forall_mem_cons.mp hfits
  obtain ⟨rest, hread, hrest, hflow⟩ := readMessage_sendMessage h.toClient hwritten hlimit
  have happ : App.readMessage authResponseFormat back = .ok (authResp, rest) := hread
  have hauth : authenticateSocket back = if authResp.success then .ok rest
      else .error (.bail ("Authentication failed: " ++ authResp.error.getD "Unknown error")) := by
    simp only [authenticateSocket, happ]
    rfl
  constructor
  · intro hrefused
    rw [hrefused, if_neg (by decide)] at hauth
    exact ⟨_, by rw [runSocketClient, hauth]⟩
  · rintro client cmd env responded shutdown resp rfl
    cases hsuccess : authResp.success with
    | false =>
      -- No command was sent.
      rw [hsuccess, if_neg (by decide)] at hauth
      obtain ⟨left, hleft, -⟩ := hserved.input
      rw [hdeeds, sentCommands, hauth] at hleft
      simp [requests] at hleft
    | true =>
      rw [hsuccess, if_pos rfl] at hauth
      have hlimit' : (clientResponseFormat.write resp.toWire).length ≤ Server.MAX_ADMIN_FRAME :=
        hfits _ List.mem_cons_self
      obtain ⟨rest', hread', -, -⟩ := readMessage_sendMessage hflow hrest hlimit'
      have happ' : App.readMessage clientResponseFormat rest = .ok (resp.toWire, rest') := hread'
      simp only [runSocketClient, hauth, executeSocketCommand, happ', ClientResponse.carried]

/-- However a client's turns mix with those of others and of the daemon, its login and its command
are each done once on the daemon; it returns what arrives of the answer the daemon gave to the
command in the state it was then in, and does so if nothing is lost on the way back. -/
theorem socket_client_answered
    (h : Connected platform server turns i auth command input back) :
    let ended := server.run platform turns
    let process := fun deeds : List (Option ι × Deed) =>
      (server.common.run platform (deeds.map fun deed => deed.2.event)).1
    ended.1.common = process ended.2 ∧
    (∀ before deed after, ended.2 = before ++ deed :: after →
      deed.2.Answers platform.codecs (process before).daemon) ∧
    (∀ resp, (runSocketClient auth command back).2 = .ok resp →
      ∃ authEnv authResp client env responded shutdown answer,
        clientKey platform.codecs auth = some client ∧
        doneBy i ended.2 = [.login auth authEnv authResp,
          .command client (toClientCommand command) env responded shutdown answer] ∧
        resp = answer.carried) ∧
    ∀ authEnv authResp client cmd env responded shutdown resp, (ended.1.own i).broken = false →
      doneBy i ended.2 = [.login auth authEnv authResp,
        .command client cmd env responded shutdown resp] →
      (runSocketClient auth command back).2 = .ok resp.carried := by
  intro ended process
  have halone : ∀ p e, (Process.alone platform p e).1 =
      (Process.alone platform p e).2.foldl (Process.apply platform) p := fun _ _ => rfl
  have hact := fun p s env => (turn_deeds platform p s env).1
  have hprocess : ∀ deeds : List (Option ι × Deed),
      (deeds.map Prod.snd).foldl (Process.apply platform) server.common = process deeds := by
    intro deeds
    rw [foldl_apply, List.map_map]
    rfl
  refine ⟨?_, ?_, fun resp hresult => h.sound hresult, ?_⟩
  · rw [← hprocess]
    exact Parties.run_common halone hact server turns
  · intro before deed after heq
    rw [← hprocess]
    refine Parties.run_explained (P := fun p (deed : Deed) => deed.Answers platform.codecs p.daemon)
      halone hact (fun p e => ⟨.own e, rfl, trivial⟩)
      (fun p s env => (turn_deeds platform p s env).2) server turns before deed after heq
  · intro authEnv authResp client cmd env responded shutdown resp hwhole hdeeds
    exact (h.complete hwhole hdeeds).2 client cmd env responded shutdown resp rfl

end Client

namespace Sample

/-! Dave's command and that of another client, with the daemon's own turn between them. -/

def sessionPlatform : Platform :=
  { codecs := codecs, interactive := true, windows := false, hostsSuffix := none,
    errorText := fun _ => "Broken pipe (os error 32)" }

def davesLogin : AuthRequest :=
  ⟨"", some "J4EX/BRMcjQPZ9DyMW6Dhs7/vyskKMnFH+98WX8dQm4", some "cli"⟩

def sessionReadings : SessionReadings :=
  { auth := ⟨1000, 1000⟩, command := ⟨1000, none, .byId, "10.0.0.1"⟩, fault := none,
    shutdown :=
      { send := ⟨.new alice, 1000, 1000, true⟩
        hosts := ⟨etcHosts, swapped, .new alice, .new alice, 1000, 1000, .byId⟩
        iter := .byId
        fault := none } }

def davesInput : Stream :=
  singles (App.sendMessage authRequestFormat davesLogin ++
    App.sendMessage clientCommandFormat .pause)

def sessionServer : AdminServer Bool :=
  ⟨⟨(start []).daemon, false, [], false⟩, fun _ => .opened davesInput⟩

def sessionTurns : List (AdminTurn Bool) :=
  [.own true sessionReadings, .common .gosFailed, .own false sessionReadings,
    .own true sessionReadings]

def davesAnswers : Stream :=
  singles ((sessionServer.run sessionPlatform sessionTurns).1.own true).written

theorem dave_connected :
    Connected sessionPlatform sessionServer sessionTurns true davesLogin .pause
      davesInput davesAnswers where
  opened := rfl
  toServer := flowing_singles _
  sent := by decide +kernel
  toClient := flowing_singles _
  heard := flatten_singles _
  loginFits := by decide
  commandFits := by decide
  answersFit := by decide +kernel

theorem socket_client_answered_dave :
    let ended := sessionServer.run sessionPlatform sessionTurns
    let process := fun deeds : List (Option Bool × Deed) =>
      (sessionServer.common.run sessionPlatform (deeds.map fun deed => deed.2.event)).1
    ended.1.common = process ended.2 ∧
    (∀ before deed after, ended.2 = before ++ deed :: after →
      deed.2.Answers sessionPlatform.codecs (process before).daemon) ∧
    (∀ resp, (runSocketClient davesLogin .pause davesAnswers).2 = .ok resp →
      ∃ authEnv authResp client env responded shutdown answer,
        clientKey sessionPlatform.codecs davesLogin = some client ∧
        doneBy true ended.2 = [.login davesLogin authEnv authResp,
          .command client (toClientCommand .pause) env responded shutdown answer] ∧
        resp = answer.carried) ∧
    ∀ authEnv authResp client cmd env responded shutdown resp, (ended.1.own true).broken = false →
      doneBy true ended.2 = [.login davesLogin authEnv authResp,
        .command client cmd env responded shutdown resp] →
      (runSocketClient davesLogin .pause davesAnswers).2 = .ok resp.carried :=
  socket_client_answered dave_connected

end Sample
end P2pDdns
