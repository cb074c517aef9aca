import P2pDdns.AdminFormats
import P2pDdns.Daemon
import P2pDdns.HttpMessages

/-!
One connection to the admin interface over HTTP: what a request makes the daemon do, what the
response carries, and what the client takes it for.
-/

set_option autoImplicit false

namespace P2pDdns
open Std FiniteMaps WireFormats Streams

/-! The server. -/

def authModeForBind (bind : SocketAddr) : AuthMode :=
  if isLoopback bind.ip then .allowLocalTicketless else .requireTicket

inductive ResponseBody where
  | text (message : String)
  | auth (resp : AuthResponse)
  | client (resp : ClientResponse)
  deriving DecidableEq

def ResponseBody.bytes : ResponseBody → List UInt8
  | .text message => TextLines.encode message
  | .auth resp => authResponseFormat.write resp
  | .client resp => clientResponseFormat.write resp.toWire

structure HttpResponse where
  status : UInt16
  contentType : String
  body : ResponseBody
  deriving DecidableEq

def HttpResponse.bytes (resp : HttpResponse) : List UInt8 :=
  writeResponse resp.status resp.contentType resp.body.bytes

structure HttpReadings where
  auth : AuthReadings
  command : CommandReadings

/-- What becomes of a connection. `ran` is the command `handle_command` is called with, and the
daemon as it is then. Without a response the connection is closed. -/
structure Handled where
  daemon : Daemon
  response : Option HttpResponse
  ran : Option (Daemon × ClientCommand)
  action : Option AdminAction

def responded (d : Daemon) (status : UInt16) (contentType : String) (body : ResponseBody) :
    Handled :=
  { daemon := d, response := some ⟨status, contentType, body⟩, ran := none, action := none }

def closed (d : Daemon) : Handled := { daemon := d, response := none, ran := none, action := none }

def RequestHead.contentType (head : RequestHead) : String :=
  head.headers["content-type"]?.getD "application/octet-stream"

section Server
variable (codecs : Codecs) (mode : AuthMode) (d : Daemon)

def handleCommandRequest (req : AdminCommandRequest) (env : HttpReadings) : Handled :=
  let auth := authenticateAndRegister codecs d req.auth mode env.auth
  if auth.2.1.success = false then
    responded auth.1 401 "application/postcard" (.auth auth.2.1)
  else
    match auth.2.2 with
    | none =>
      responded auth.1 401 "application/postcard" (.client (.error "Missing client_public_key"))
    | some clientId =>
      if auth.1.clients.checkPermission clientId (requiredPermission req.command) = false then
        responded auth.1 403 "application/postcard" (.client (.error "Permission denied"))
      else
        let outcome := handleCommand codecs auth.1 req.command env.command
        { daemon := outcome.2
          response := some ⟨200, "application/postcard", .client outcome.1.response⟩
          ran := some (auth.1, req.command)
          action := outcome.1.action }

def handleRequest (request : HttpRequest) (env : HttpReadings) : Handled :=
  if request.method ≠ "POST" then responded d 405 "text/plain" (.text "Method Not Allowed")
  else if request.contentType ≠ "application/postcard" ∧
      request.contentType ≠ "application/octet-stream" then
    responded d 415 "text/plain" (.text "Unsupported Media Type")
  else if request.path = "/auth" then
    match authRequestFormat.decode request.body with
    | none => closed d
    | some authReq =>
      let auth := authenticateAndRegister codecs d authReq mode env.auth
      responded auth.1 200 "application/postcard" (.auth auth.2.1)
  else if request.path = "/command" then
    match adminCommandRequestFormat.decode request.body with
    | none => closed d
    | some req => handleCommandRequest codecs mode d req env
  else responded d 404 "text/plain" (.text "Not Found")

def handleConnection (stream : Stream) (env : HttpReadings) : Handled :=
  match readHttpRequest stream with
  | .error _ => closed d
  | .ok request => handleRequest codecs mode d request env

end Server

def serve (codecs : Codecs) (mode : AuthMode) : Daemon → List (Stream × HttpReadings) → Daemon
  | d, [] => d
  | d, (stream, env) :: connections =>
    let handled := handleConnection codecs mode d stream env
    if handled.action = some .shutdown then handled.daemon
    else serve codecs mode handled.daemon connections

/-! Who is let in. -/

def TicketMatches (codecs : Codecs) (ctx : Context) (authReq : AuthRequest) : Prop :=
  ∃ ticket, Ticket.fromStr codecs authReq.ticket = .ok ticket ∧
    ticket.topic = ctx.ticket.topic ∧ ticket.rnum = ctx.ticket.rnum

def HttpRequest.authReq (request : HttpRequest) : Option AuthRequest :=
  if request.path = "/auth" then authRequestFormat.decode request.body
  else if request.path = "/command" then
    (adminCommandRequestFormat.decode request.body).map (·.auth)
  else none

structure AcceptedPost (request : HttpRequest) (path : String) : Prop where
  method : request.method = "POST"
  contentType : request.contentType = "application/postcard" ∨
    request.contentType = "application/octet-stream"
  path : request.path = path

section Gate
variable {codecs : Codecs} {mode : AuthMode} {d d' : Daemon} {authReq : AuthRequest}
  {req : AdminCommandRequest} {request : HttpRequest} {cmd : ClientCommand} {env : HttpReadings}

theorem ticketValid_iff {ctx : Context} :
    ticketValid codecs ctx authReq = true ↔ TicketMatches codecs ctx authReq := by
  unfold ticketValid TicketMatches
  cases Ticket.fromStr codecs authReq.ticket with
  | error e => simp
  | ok ticket => simp [Ticket.validate]

theorem authAllowed_requireTicket {ctx : Context} (h : ¬ TicketMatches codecs ctx authReq) :
    authAllowed codecs ctx authReq .requireTicket = false := by
  rw [← ticketValid_iff, Bool.not_eq_true] at h
  simp [authAllowed, h]

theorem authenticate_refused {readings : AuthReadings}
    (h : authAllowed codecs d.ctx authReq mode = false) :
    (authenticateAndRegister codecs d authReq mode readings).1 = d := by
  simp [authenticateAndRegister, h]

theorem authenticate_success (readings : AuthReadings) :
    (authenticateAndRegister codecs d authReq mode readings).2.1.success =
      authAllowed codecs d.ctx authReq mode := by
  unfold authenticateAndRegister
  dsimp only
  cases authAllowed codecs d.ctx authReq mode with
  | false => rfl
  | true =>
    cases clientKey codecs authReq with
    | none => rfl
    | some pk => cases hnew : d.clients.isClientNode pk <;> simp [hnew]

theorem authenticate_client {readings : AuthReadings}
    (h : authAllowed codecs d.ctx authReq mode = true) :
    (authenticateAndRegister codecs d authReq mode readings).2.2 = clientKey codecs authReq := by
  unfold authenticateAndRegister
  dsimp only
  rw [h, if_neg (by decide)]
  cases clientKey codecs authReq with
  | none => rfl
  | some pk => cases hnew : d.clients.isClientNode pk <;> simp [hnew]

/-- A command is refused by the login, for want of a key or of the permission, or it runs. -/
theorem handleCommandRequest_cases (codecs : Codecs) (mode : AuthMode) (d : Daemon)
    (req : AdminCommandRequest) (env : HttpReadings) :
    let auth := authenticateAndRegister codecs d req.auth mode env.auth
    let handled := handleCommandRequest codecs mode d req env
    (authAllowed codecs d.ctx req.auth mode = false ∧
      handled = responded auth.1 401 "application/postcard" (.auth auth.2.1)) ∨
    (authAllowed codecs d.ctx req.auth mode = true ∧ clientKey codecs req.auth = none ∧
      handled = responded auth.1 401 "application/postcard"
        (.client (.error "Missing client_public_key"))) ∨
    authAllowed codecs d.ctx req.auth mode = true ∧ ∃ pk, clientKey codecs req.auth = some pk ∧
      ((auth.1.clients.checkPermission pk (requiredPermission req.command) = false ∧
        handled = responded auth.1 403 "application/postcard"
          (.client (.error "Permission denied"))) ∨
      (auth.1.clients.checkPermission pk (requiredPermission req.command) = true ∧
        handled =
          { daemon := (handleCommand codecs auth.1 req.command env.command).2
            response := some ⟨200, "application/postcard",
              .client (handleCommand codecs auth.1 req.command env.command).1.response⟩
            ran := some (auth.1, req.command)
            action := (handleCommand codecs auth.1 req.command env.command).1.action })) := by
  unfold handleCommandRequest
  dsimp only
  rw [authenticate_success]
  cases hallowed : authAllowed codecs d.ctx req.auth mode with
  | false => exact .inl ⟨rfl, if_pos rfl⟩
  | true =>
    rw [if_neg (by decide), authenticate_client hallowed]
    cases clientKey codecs req.auth with
    | none => exact .inr (.inl ⟨rfl, rfl, rfl⟩)
    | some pk =>
      refine .inr (.inr ⟨rfl, pk, rfl, ?_⟩)
      dsimp only
      split
      · rename_i hperm
        exact .inl ⟨hperm, rfl⟩
      · rename_i hperm
        exact .inr ⟨by simpa using hperm, rfl⟩

/-- A request is answered without touching the daemon, or it is a login or a command. -/
theorem handleRequest_cases (codecs : Codecs) (mode : AuthMode) (d : Daemon)
    (request : HttpRequest) (env : HttpReadings) :
    let handled := handleRequest codecs mode d request env
    (handled.ran = none ∧ handled.daemon = d) ∨
    (AcceptedPost request "/auth" ∧ ∃ authReq,
      authRequestFormat.decode request.body = some authReq ∧ handled.ran = none ∧
      handled.daemon = (authenticateAndRegister codecs d authReq mode env.auth).1) ∨
    (AcceptedPost request "/command" ∧ ∃ req,
      adminCommandRequestFormat.decode request.body = some req ∧
      handled = handleCommandRequest codecs mode d req env) := by
  unfold handleRequest
  dsimp only
  split
  · exact .inl ⟨rfl, rfl⟩
  rename_i hmethod
  split
  · exact .inl ⟨rfl, rfl⟩
  rename_i htype
  have haccepted : request.contentType = "application/postcard" ∨
      request.contentType = "application/octet-stream" := by
    simpa [or_iff_not_imp_left] using htype
  split
  · rename_i hpath
    split
    · exact .inl ⟨rfl, rfl⟩
    · rename_i authReq hdecode
      exact .inr (.inl ⟨⟨not_not.mp hmethod, haccepted, hpath⟩, authReq, hdecode, rfl, rfl⟩)
  split
  · rename_i hpath
    split
    · exact .inl ⟨rfl, rfl⟩
    · rename_i req hdecode
      exact .inr (.inr ⟨⟨not_not.mp hmethod, haccepted, hpath⟩, req, hdecode, rfl⟩)
  · exact .inl ⟨rfl, rfl⟩

theorem AcceptedPost.authReq_login (hpost : AcceptedPost request "/auth") :
    request.authReq = authRequestFormat.decode request.body := by
  rw [HttpRequest.authReq, if_pos hpost.path]

theorem AcceptedPost.authReq_command (hpost : AcceptedPost request "/command") :
    request.authReq = (adminCommandRequestFormat.decode request.body).map (·.auth) := by
  rw [HttpRequest.authReq, if_neg (by rw [hpost.path]; decide), if_pos hpost.path]

theorem handleCommandRequest_ran
    (h : (handleCommandRequest codecs mode d req env).ran = some (d', cmd)) :
    cmd = req.command ∧
      (handleCommandRequest codecs mode d req env).daemon =
        (handleCommand codecs d' cmd env.command).2 ∧
      ∃ pk, clientKey codecs req.auth = some pk ∧
        d'.clients.checkPermission pk (requiredPermission cmd) = true := by
  obtain ⟨-, heq⟩ | ⟨-, -, heq⟩ | ⟨-, pk, hkey, ⟨-, heq⟩ | ⟨hperm, heq⟩⟩ :=
    handleCommandRequest_cases codecs mode d req env
  · rw [heq] at h
    contradiction
  · rw [heq] at h
    contradiction
  · rw [heq] at h
    contradiction
  · rw [heq] at h ⊢
    obtain ⟨rfl, rfl⟩ := Prod.mk.inj (Option.some.inj h)
    exact ⟨rfl, rfl, pk, hkey, hperm⟩

theorem handleRequest_ran (h : (handleRequest codecs mode d request env).ran = some (d', cmd)) :
    AcceptedPost request "/command" ∧
    ∃ req, adminCommandRequestFormat.decode request.body = some req ∧
      handleRequest codecs mode d request env = handleCommandRequest codecs mode d req env := by
  obtain ⟨hran, -⟩ | ⟨-, authReq, -, hran, -⟩ | hcommand :=
    handleRequest_cases codecs mode d request env
  · rw [hran] at h
    contradiction
  · rw [hran] at h
    contradiction
  · exact hcommand

theorem handleCommandRequest_refused (h : authAllowed codecs d.ctx req.auth mode = false) :
    (handleCommandRequest codecs mode d req env).ran = none ∧
      (handleCommandRequest codecs mode d req env).daemon = d := by
  obtain ⟨-, heq⟩ | ⟨hallowed, -⟩ | ⟨hallowed, -⟩ := handleCommandRequest_cases codecs mode d req env
  · rw [heq]
    exact ⟨rfl, authenticate_refused h⟩
  · rw [hallowed] at h
    contradiction
  · rw [hallowed] at h
    contradiction

theorem handleRequest_refused
    (h : ∀ authReq, request.authReq = some authReq →
      authAllowed codecs d.ctx authReq mode = false) :
    (handleRequest codecs mode d request env).ran = none ∧
      (handleRequest codecs mode d request env).daemon = d := by
  obtain hnothing | ⟨hpost, authReq, hdecode, hran, hdaemon⟩ | ⟨hpost, req, hdecode, heq⟩ :=
    handleRequest_cases codecs mode d request env
  · exact hnothing
  · have hrefused := h authReq (hpost.authReq_login.trans hdecode)
    exact ⟨hran, hdaemon.trans (authenticate_refused hrefused)⟩
  · have hauth : request.authReq = some req.auth := by
      rw [hpost.authReq_command, hdecode, Option.map_some]
    rw [heq]
    exact handleCommandRequest_refused (h req.auth hauth)

theorem handleCommandRequest_events (req : AdminCommandRequest) (env : HttpReadings) :
    ∃ events, (handleCommandRequest codecs mode d req env).daemon = d.run codecs events := by
  have hauth : (authenticateAndRegister codecs d req.auth mode env.auth).1 =
      d.run codecs [.authenticate req.auth mode env.auth] := rfl
  obtain ⟨-, heq⟩ | ⟨-, -, heq⟩ | ⟨-, pk, hkey, ⟨-, heq⟩ | ⟨hperm, heq⟩⟩ :=
    handleCommandRequest_cases codecs mode d req env
  · exact ⟨_, by rw [heq]; exact hauth⟩
  · exact ⟨_, by rw [heq]; exact hauth⟩
  · exact ⟨_, by rw [heq]; exact hauth⟩
  · refine ⟨[.authenticate req.auth mode env.auth, .command pk req.command env.command], ?_⟩
    rw [heq]
    simp [Daemon.run, Daemon.step, runCommand, hperm]

theorem handleConnection_events (codecs : Codecs) (mode : AuthMode) (d : Daemon) (stream : Stream)
    (env : HttpReadings) :
    ∃ events, (handleConnection codecs mode d stream env).daemon = d.run codecs events := by
  unfold handleConnection
  split
  · exact ⟨[], rfl⟩
  · rename_i request _
    obtain ⟨-, hdaemon⟩ | ⟨-, authReq, -, -, hdaemon⟩ | ⟨-, req, -, heq⟩ :=
      handleRequest_cases codecs mode d request env
    · exact ⟨[], hdaemon⟩
    · exact ⟨[.authenticate authReq mode env.auth], hdaemon⟩
    · rw [heq]
      exact handleCommandRequest_events req env

theorem serve_events (codecs : Codecs) (mode : AuthMode) (d : Daemon)
    (connections : List (Stream × HttpReadings)) :
    ∃ events, serve codecs mode d connections = d.run codecs events := by
  induction connections generalizing d with
  | nil => exact ⟨[], rfl⟩
  | cons connection connections ih =>
    obtain ⟨stream, env⟩ := connection
    obtain ⟨events, hevents⟩ := handleConnection_events codecs mode d stream env
    rw [serve]
    split
    · exact ⟨events, hevents⟩
    · obtain ⟨later, hlater⟩ := ih (handleConnection codecs mode d stream env).daemon
      refine ⟨events ++ later, ?_⟩
      rw [hlater, hevents, Daemon.run, Daemon.run, Daemon.run, Runs.exec_append]

theorem Reachable.run (h : Reachable codecs d) (events : List Event) :
    Reachable codecs (d.run codecs events) := by
  obtain ⟨start, before, rfl⟩ := h
  exact ⟨start, before ++ events, by rw [Daemon.run, Daemon.run, Daemon.run, Runs.exec_append]⟩

theorem Reachable.serve (h : Reachable codecs d) (connections : List (Stream × HttpReadings)) :
    Reachable codecs (serve codecs mode d connections) := by
  obtain ⟨events, hevents⟩ := serve_events codecs mode d connections
  rw [hevents]
  exact h.run events

/-- Without a ticket of the network the connection carries nothing. -/
def Ticketless (codecs : Codecs) (d : Daemon) (stream : Stream) : Prop :=
  ∀ request authReq, readHttpRequest stream = .ok request → request.authReq = some authReq →
    ¬ TicketMatches codecs d.ctx authReq

theorem handleConnection_ticketless {stream : Stream} (h : Ticketless codecs d stream)
    (env : HttpReadings) :
    (handleConnection codecs .requireTicket d stream env).ran = none ∧
      (handleConnection codecs .requireTicket d stream env).daemon = d := by
  unfold handleConnection
  split
  · exact ⟨rfl, rfl⟩
  · rename_i request hread
    exact handleRequest_refused fun authReq hauth =>
      authAllowed_requireTicket (h request authReq hread hauth)

/-- Connections without a ticket, in any number, leave the daemon as it is. -/
theorem serve_ticketless {connections : List (Stream × HttpReadings)}
    (h : ∀ connection ∈ connections, Ticketless codecs d connection.1) :
    serve codecs .requireTicket d connections = d := by
  induction connections with
  | nil => rfl
  | cons connection connections ih =>
    obtain ⟨hfirst, hothers⟩ := List.forall_mem_cons.mp h
    have hsame := (handleConnection_ticketless hfirst connection.2).2
    rw [serve, hsame]
    split
    · rfl
    · exact ih hothers

end Gate

/-- Whatever connections came before: where tickets are required, one without a ticket of the
network runs no command and changes nothing; and a command runs only for a POST to `/command` with
the key of a client that is registered, at that moment, with the permission the command needs. -/
theorem admin_gate (codecs : Codecs) (mode : AuthMode) (d : Daemon)
    (connections : List (Stream × HttpReadings)) (stream : Stream) (env : HttpReadings) :
    (mode = .requireTicket → Ticketless codecs (serve codecs mode d connections) stream →
      (handleConnection codecs mode (serve codecs mode d connections) stream env).ran = none ∧
      (handleConnection codecs mode (serve codecs mode d connections) stream env).daemon =
        serve codecs mode d connections) ∧
    ∀ before cmd,
      (handleConnection codecs mode (serve codecs mode d connections) stream env).ran =
        some (before, cmd) →
      ∃ request req pk info, readHttpRequest stream = .ok request ∧
        AcceptedPost request "/command" ∧
        adminCommandRequestFormat.decode request.body = some req ∧ req.command = cmd ∧
        clientKey codecs req.auth = some pk ∧ before.clients.clients[pk]? = some info ∧
        before.clients.checkPermission pk (requiredPermission cmd) = true ∧
        (handleConnection codecs mode (serve codecs mode d connections) stream env).daemon =
          (handleCommand codecs before cmd env.command).2 := by
  constructor
  · rintro rfl h
    exact handleConnection_ticketless h env
  · intro before cmd h
    unfold handleConnection at h ⊢
    cases hread : readHttpRequest stream with
    | error e =>
      rw [hread] at h
      contradiction
    | ok request =>
      rw [hread] at h
      dsimp only at h ⊢
      obtain ⟨hpost, req, hreq, heq⟩ := handleRequest_ran h
      rw [heq] at h ⊢
      obtain ⟨hcmd, hdaemon, pk, hkey, hperm⟩ := handleCommandRequest_ran h
      cases hinfo : before.clients.clients[pk]? with
      | none =>
        rw [ClientRegistry.checkPermission, hinfo] at hperm
        contradiction
      | some info =>
        exact ⟨request, req, pk, info, rfl, hpost, hreq, hcmd.symm, hkey, hinfo, hperm, hdaemon⟩

/-! The client. -/

inductive ClientError where
  | postcard
  | bail (message : String)
  deriving DecidableEq

/-- What the client takes a body for goes by the status alone. -/
def decodeExpected (status : UInt16) (body : List UInt8) : Option ResponseBody :=
  match status with
  | 200 => (clientResponseFormat.decode body).map fun fields => .client (.ofWire fields)
  | 403 => (clientResponseFormat.decode body).map fun fields => .client (.ofWire fields)
  | 401 => (authResponseFormat.decode body).map .auth
  | _ => none

/-- The client's answer from the response to its command. -/
def runHttpClient (status : UInt16) (respBody : List UInt8) : Except ClientError ClientResponse :=
  if status = 200 ∨ status = 403 ∨ status = 401 then
    match decodeExpected status respBody with
    | some (.client resp) => .ok resp
    | some (.auth authResp) =>
      let error := authResp.error.getD "Unknown error"
      .error (.bail s!"Authentication failed: {error}")
    | _ => .error .postcard
  else .error (.bail s!"HTTP command failed with status {status}")

section Command
variable {codecs : Codecs} {mode : AuthMode} {d : Daemon} {stream : Stream} {request : HttpRequest}
  {req : AdminCommandRequest}

theorem AcceptedPost.accepted {path : String} (hpost : AcceptedPost request path) :
    ¬ (request.contentType ≠ "application/postcard" ∧
      request.contentType ≠ "application/octet-stream") := by
  rintro ⟨hpostcard, hoctets⟩
  exact hpost.contentType.elim hpostcard hoctets

theorem handleConnection_command (hread : readHttpRequest stream = .ok request)
    (hpost : AcceptedPost request "/command")
    (hreq : adminCommandRequestFormat.decode request.body = some req) (env : HttpReadings) :
    handleConnection codecs mode d stream env = handleCommandRequest codecs mode d req env := by
  have hauth : request.path ≠ "/auth" := by
    rw [hpost.path]
    decide
  rw [handleConnection, hread]
  dsimp only
  rw [handleRequest, if_neg (not_not.mpr hpost.method), if_neg hpost.accepted, if_neg hauth,
    if_pos hpost.path, hreq]

theorem request_posted {bind : SocketAddr} {path : String} {body : List UInt8}
    (hpath : path = "/auth" ∨ path = "/command") (hflow : Flowing stream)
    (hbytes : stream.flatten = sendHttpPost bind path body) (hsize : body.length ≤ MAX_BODY_SIZE) :
    ∃ request, readHttpRequest stream = .ok request ∧ AcceptedPost request path ∧
      request.body = body := by
  have hword : path ≠ "" ∧ (∀ c ∈ path.toList, TextLines.isWhitespace c = false) ∧
      (TextLines.encode path).length ≤ 1024 := by
    rcases hpath with rfl | rfl
    · exact ⟨by decide, (HeaderBlocks.word_of_all (by decide) (by decide)).2, by decide⟩
    · exact ⟨by decide, (HeaderBlocks.word_of_all (by decide) (by decide)).2, by decide⟩
  obtain ⟨hne, hvisible, hshort⟩ := hword
  refine ⟨_, readHttpRequest_sendHttpPost hne hvisible hshort hsize hflow hbytes,
    ⟨rfl, .inl ?_, rfl⟩, rfl⟩
  rw [RequestHead.contentType, postHeaders_contentType]
  rfl

theorem command_posted {bind : SocketAddr} (hflow : Flowing stream)
    (hbytes : stream.flatten = sendHttpPost bind "/command" (adminCommandRequestFormat.write req))
    (hsize : (adminCommandRequestFormat.write req).length ≤ MAX_BODY_SIZE) :
    ∃ request, readHttpRequest stream = .ok request ∧ AcceptedPost request "/command" ∧
      adminCommandRequestFormat.decode request.body = some req := by
  obtain ⟨request, hread, hpost, hbody⟩ := request_posted (.inr rfl) hflow hbytes hsize
  exact ⟨request, hread, hpost, hbody ▸ Format.decode_write _ req⟩

/-! What a query is answered with. -/

/-- Every record a query with the key is answered with has only parts that are on the wire. The
records of clients are left out, and so is one of the key, which the login registers. -/
def PortableFor (d : Daemon) (pk : EndpointId) : Prop :=
  ∀ (id : EndpointId) (node : Node), d.ctx.nodes[id]? = some node →
    d.clients.isClientNode id = false → id ≠ pk → node.Portable

/-- A query with the key is answered: the login registers the key with every permission. -/
def MayQuery (d : Daemon) (pk : EndpointId) : Prop :=
  d.clients.isClientNode pk = true → d.clients.checkPermission pk "query" = true

section Query
variable {authReq : AuthRequest} {pk : EndpointId}

theorem authenticate_cases (hallowed : authAllowed codecs d.ctx authReq mode = true)
    (hkey : clientKey codecs authReq = some pk) (env : AuthReadings) :
    (d.clients.isClientNode pk = true ∧
      (authenticateAndRegister codecs d authReq mode env).1 = d) ∨
    (d.clients.isClientNode pk = false ∧
      (authenticateAndRegister codecs d authReq mode env).1 =
        { ctx :=
            { d.ctx with
              nodes := d.ctx.nodes.insert pk
                (clientNode codecs d.ctx.me pk authReq env.recordNow) }
          clients := d.clients.addClient pk (clientInfo authReq env.connectedNow) }) := by
  unfold authenticateAndRegister
  dsimp only
  rw [hallowed, if_neg (by decide), hkey]
  dsimp only
  cases hclient : d.clients.isClientNode pk with
  | true => exact .inl ⟨rfl, rfl⟩
  | false => exact .inr ⟨rfl, rfl⟩

theorem mayQuery_iff (hallowed : authAllowed codecs d.ctx authReq mode = true)
    (hkey : clientKey codecs authReq = some pk) (env : AuthReadings) :
    (authenticateAndRegister codecs d authReq mode env).1.clients.checkPermission pk "query" =
      true ↔ MayQuery d pk := by
  obtain ⟨hclient, heq⟩ | ⟨hclient, heq⟩ := authenticate_cases hallowed hkey env
  · rw [heq, MayQuery]
    exact ⟨fun h _ => h, fun h => h hclient⟩
  · rw [heq]
    refine iff_of_true ?_ fun h => by simp [hclient] at h
    simp [ClientRegistry.checkPermission, ClientRegistry.addClient, clientInfo]

theorem query_portable_iff (hallowed : authAllowed codecs d.ctx authReq mode = true)
    (hkey : clientKey codecs authReq = some pk) (env : AuthReadings) (readings : CommandReadings) :
    (handleCommand codecs (authenticateAndRegister codecs d authReq mode env).1 .query
      readings).1.response.Portable ↔ PortableFor d pk := by
  have hlisted : ∀ d' : Daemon, (handleCommand codecs d' .query readings).1.response.Portable ↔
      ∀ (id : EndpointId) (node : Node), d'.ctx.nodes[id]? = some node →
        d'.clients.isClientNode id = false → node.Portable := by
    intro d'
    simp only [handleCommand, respond, ClientResponse.Portable, List.forall_mem_map,
      List.mem_filter, IterOrder.mem_walk, Prod.forall, Bool.not_eq_true', and_imp]
  rw [hlisted]
  refine forall₂_congr fun id node => ?_
  obtain ⟨hclient, heq⟩ | ⟨-, heq⟩ := authenticate_cases hallowed hkey env
  · rw [heq]
    refine imp_congr_right fun _ => imp_congr_right fun hother => ?_
    have hne : id ≠ pk := by
      rintro rfl
      rw [hclient] at hother
      contradiction
    exact ⟨fun h _ => h, fun h => h hne⟩
  · rw [heq]
    by_cases hid : id = pk
    · subst hid
      simp [ClientRegistry.isClientNode, ClientRegistry.addClient]
    · dsimp only
      rw [getElem?_insert_ne _ _ (Ne.symm hid)]
      simp [ClientRegistry.isClientNode, ClientRegistry.addClient, hid, Ne.symm hid]

theorem handleCommand_portable {d' : Daemon} {cmd : ClientCommand} (hcmd : cmd ≠ .query)
    (readings : CommandReadings) : (handleCommand codecs d' cmd readings).1.response.Portable := by
  cases cmd with
  | query => contradiction
  | addNode ticket =>
    simp only [handleCommand, handleAddNode, respond]
    split
    · trivial
    · split
      · trivial
      · split <;> trivial
  | removeNode id =>
    simp only [handleCommand, handleRemoveNode, respond]
    split
    · trivial
    · split
      · trivial
      · split <;> trivial
  | status | getTicket | pause | resume | shutdown => trivial

end Query

theorem decodeExpected_client {status : UInt16} (hstatus : status = 200 ∨ status = 403)
    (resp : ClientResponse) :
    decodeExpected status (ResponseBody.bytes (.client resp)) = some (.client resp.carried) := by
  rcases hstatus with rfl | rfl <;>
  · rw [ResponseBody.bytes, decodeExpected, Format.decode_write]
    rfl

/-- The client reads the value the server encoded, exactly if the server refuses the login, or
finds a key in the request and lists no record to it that the bytes do not hold. Without a key it
answers an allowed login with status 401 and an error that the client takes for the answer to a
login. -/
theorem response_types_agree_iff (codecs : Codecs) (mode : AuthMode) (d : Daemon)
    (env : HttpReadings) {stream : Stream} {request : HttpRequest} {req : AdminCommandRequest}
    (hread : readHttpRequest stream = .ok request) (hpost : AcceptedPost request "/command")
    (hreq : adminCommandRequestFormat.decode request.body = some req) :
    (∃ response, (handleConnection codecs mode d stream env).response = some response ∧
      decodeExpected response.status response.body.bytes = some response.body) ↔
    authAllowed codecs d.ctx req.auth mode = false ∨
      ∃ pk, clientKey codecs req.auth = some pk ∧
        (req.command = .query → MayQuery d pk → PortableFor d pk) := by
  rw [handleConnection_command hread hpost hreq]
  obtain ⟨hallowed, heq⟩ | ⟨hallowed, hkey, heq⟩ |
    ⟨hallowed, pk, hkey, ⟨hperm, heq⟩ | ⟨hperm, heq⟩⟩ :=
    handleCommandRequest_cases codecs mode d req env
  · rw [heq]
    refine iff_of_true ⟨_, rfl, ?_⟩ (.inl hallowed)
    rw [ResponseBody.bytes, decodeExpected, Format.decode_write]
    rfl
  · rw [heq]
    refine iff_of_false ?_ (by simp [hallowed, hkey])
    rintro ⟨response, hresponse, hdecode⟩
    obtain rfl := Option.some.inj hresponse
    rw [ResponseBody.bytes, ClientResponse.toWire, decodeExpected, decode_authResponse_error]
      at hdecode
    contradiction
  · rw [heq]
    refine iff_of_true ⟨_, rfl, decodeExpected_client (.inr rfl) _⟩ (.inr ⟨pk, hkey, ?_⟩)
    intro hquery hmay
    rw [hquery, requiredPermission, (mayQuery_iff hallowed hkey env.auth).mpr hmay] at hperm
    contradiction
  · rw [heq]
    have hdecode : (∃ response, some (HttpResponse.mk 200 "application/postcard" (.client
          (handleCommand codecs (authenticateAndRegister codecs d req.auth mode env.auth).1
            req.command env.command).1.response)) = some response ∧
        decodeExpected response.status response.body.bytes = some response.body) ↔
        (handleCommand codecs (authenticateAndRegister codecs d req.auth mode env.auth).1
          req.command env.command).1.response.Portable := by
      simp only [Option.some.injEq, exists_eq_left', decodeExpected_client (.inl rfl),
        ResponseBody.client.injEq, ClientResponse.carried_eq_iff]
    rw [hdecode]
    simp only [hallowed, Bool.true_eq_false, hkey, Option.some.injEq, exists_eq_left', false_or]
    by_cases hquery : req.command = .query
    · have hmay : MayQuery d pk := by
        rw [hquery] at hperm
        exact (mayQuery_iff hallowed hkey env.auth).mp hperm
      rw [hquery, query_portable_iff hallowed hkey]
      exact ⟨fun h _ _ => h, fun h => h rfl hmay⟩
    · exact iff_of_true (handleCommand_portable hquery _) fun h => absurd h hquery

end Command

namespace Sample

def httpBind : SocketAddr := .v4 0x7f000001 8053

def httpReadings : HttpReadings := ⟨⟨1000, 1000⟩, ⟨1000, none, .byId, "10.0.0.1"⟩⟩

def posts (req : AdminCommandRequest) : Stream :=
  singles (sendHttpPost httpBind "/command" (adminCommandRequestFormat.write req))

theorem posts_read (req : AdminCommandRequest)
    (hsize : (adminCommandRequestFormat.write req).length ≤ MAX_BODY_SIZE) :
    ∃ request, readHttpRequest (posts req) = .ok request ∧ AcceptedPost request "/command" ∧
      adminCommandRequestFormat.decode request.body = some req :=
  command_posted (flowing_singles _) (flatten_singles _) hsize

def strangerAsks : AdminCommandRequest :=
  ⟨⟨"not-a-ticket", some "J4EX/BRMcjQPZ9DyMW6Dhs7/vyskKMnFH+98WX8dQm4", none⟩, .getTicket⟩

def daveGetsTicket : AdminCommandRequest :=
  ⟨⟨"", some "J4EX/BRMcjQPZ9DyMW6Dhs7/vyskKMnFH+98WX8dQm4", some "cli"⟩, .getTicket⟩

def nobodyAsks : AdminCommandRequest := ⟨⟨"", none, some "http"⟩, .getTicket⟩

theorem strangerAsks_ticketless : Ticketless codecs (start []).daemon (posts strangerAsks) := by
  intro request authReq hread hauth
  obtain ⟨request', hread', hpost, hreq⟩ := posts_read strangerAsks (by decide)
  obtain rfl := Except.ok.inj (hread.symm.trans hread')
  rw [hpost.authReq_command, hreq] at hauth
  obtain rfl := Option.some.inj hauth
  rw [← ticketValid_iff]
  decide

theorem admin_gate_stranger :
    (handleConnection codecs .requireTicket (start []).daemon (posts strangerAsks)
      httpReadings).ran = none ∧
    (handleConnection codecs .requireTicket (start []).daemon (posts strangerAsks)
      httpReadings).daemon = (start []).daemon :=
  (admin_gate codecs .requireTicket (start []).daemon [] (posts strangerAsks) httpReadings).1 rfl
    strangerAsks_ticketless

theorem response_types_agree_dave :
    ∃ response, (handleConnection codecs (authModeForBind httpBind) (start []).daemon
        (posts daveGetsTicket) httpReadings).response = some response ∧
      decodeExpected response.status response.body.bytes = some response.body := by
  obtain ⟨request, hread, hpost, hreq⟩ := posts_read daveGetsTicket (by decide)
  exact (response_types_agree_iff codecs (authModeForBind httpBind) (start []).daemon httpReadings
    hread hpost hreq).mpr (.inr ⟨dave, by decide, by simp [daveGetsTicket]⟩)

/-- The server's error reaches nobody: the client cannot decode it. -/
theorem nobodyAsks_misread :
    ∃ response, (handleConnection codecs (authModeForBind httpBind) (start []).daemon
        (posts nobodyAsks) httpReadings).response = some response ∧
      response.body = .client (.error "Missing client_public_key") ∧
      decodeExpected response.status response.body.bytes = none ∧
      runHttpClient response.status response.body.bytes = .error .postcard := by
  obtain ⟨request, hread, hpost, hreq⟩ := posts_read nobodyAsks (by decide)
  refine ⟨⟨401, "application/postcard", .client (.error "Missing client_public_key")⟩, ?_, rfl,
    rfl, rfl⟩
  rw [handleConnection_command hread hpost hreq]
  rfl

end Sample
end P2pDdns
