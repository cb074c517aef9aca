import P2pDdns.AdminHttp
import P2pDdns.AdminSessions
import P2pDdns.Changes

/-!
The client of the admin interface over HTTP: it logs in on one connection and sends its command on
another, and whatever the daemon does in between, it gets the answer to its command.
-/

set_option autoImplicit false

namespace P2pDdns
open Std FiniteMaps Relation WireFormats Streams

/-! What a registered client may do. -/

def FullyPermitted (reg : ClientRegistry) : Prop :=
  ∀ (id : EndpointId) (info : ClientInfo), reg.clients[id]? = some info →
    info.permissions = ⟨true, true, true, true⟩

section Permissions
variable {codecs : Codecs} {d : Daemon}

theorem FullyPermitted.checkPermission {reg : ClientRegistry} (h : FullyPermitted reg)
    {id : EndpointId} (hclient : reg.isClientNode id = true) (cmd : ClientCommand) :
    reg.checkPermission id (requiredPermission cmd) = true := by
  rw [ClientRegistry.isClientNode, ExtTreeMap.contains_eq_isSome_getElem?,
    Option.isSome_iff_exists] at hclient
  obtain ⟨info, hinfo⟩ := hclient
  rw [ClientRegistry.checkPermission, hinfo]
  dsimp only
  rw [h id info hinfo]
  cases cmd <;> rfl

theorem FullyPermitted.change {start d d' : Daemon} {e : Event} (h : FullyPermitted d.clients)
    (hc : Change codecs start e d d') : FullyPermitted d'.clients := by
  cases hc with
  | registered => exact forall_insert h rfl
  | revoked => exact forall_erase h _
  | heard | expired | saved | added | persisted | paused => exact h

theorem FullyPermitted.step (h : FullyPermitted d.clients) (e : Event) :
    FullyPermitted (d.step codecs e).clients :=
  changes_induct (I := fun u => FullyPermitted u.clients) (step_changes codecs d e) h
    fun _ _ _ hc hu => hu.change hc

theorem Reachable.fullyPermitted (h : Reachable codecs d) : FullyPermitted d.clients := by
  obtain ⟨start, events, rfl⟩ := h
  refine Runs.invariant (I := fun d : Daemon => FullyPermitted d.clients)
    (fun _ e hu => hu.step e) ?_ events
  intro id info hinfo
  simp [Start.daemon, ClientRegistry.new] at hinfo

end Permissions

/-! The two requests of a client. -/

def Handled.bytes (handled : Handled) : List UInt8 :=
  (handled.response.map (·.bytes)).getD []

inductive HttpClientError where
  | response (e : HttpError)
  | body (e : ClientError)

/-- The login of the client, from the response to it. -/
def authenticateHttp (resp : List UInt8) : Except HttpClientError Unit :=
  match parseHttpResponse resp with
  | .error e => .error (.response e)
  | .ok (status, respBody) =>
    if status ≠ 200 then .error (.body (.bail s!"HTTP auth failed with status {status}"))
    else
      match authResponseFormat.decode respBody with
      | none => .error (.body .postcard)
      | some authResp =>
        if authResp.success then .ok ()
        else
          let error := authResp.error.getD "Unknown error"
          .error (.body (.bail s!"Authentication failed: {error}"))

/-- A client and the two connections it makes, the events of the daemon between them, and what is
read while a connection is handled. -/
structure HttpExchange where
  mode : AuthMode
  bind : SocketAddr
  auth : AuthRequest
  command : ClientCommandArgs
  login : Stream
  loginEnv : HttpReadings
  between : List Event
  asked : Stream
  askedEnv : HttpReadings

namespace HttpExchange
variable (codecs : Codecs) (d : Daemon) (x : HttpExchange)

def loginPost : List UInt8 := sendHttpPost x.bind "/auth" (authRequestFormat.write x.auth)

def commandRequest : AdminCommandRequest := ⟨x.auth, toClientCommand x.command⟩

def commandPost : List UInt8 :=
  sendHttpPost x.bind "/command" (adminCommandRequestFormat.write x.commandRequest)

def loggedIn : Handled := handleConnection codecs x.mode d x.login x.loginEnv

def answered : Handled :=
  handleConnection codecs x.mode ((x.loggedIn codecs d).daemon.run codecs x.between) x.asked
    x.askedEnv

/-- `run_http_client`: what the client posts, and what it returns. -/
def client : List (List UInt8) × Except HttpClientError ClientResponse :=
  match authenticateHttp ((x.loggedIn codecs d).bytes) with
  | .error e => ([x.loginPost], .error e)
  | .ok () =>
    ([x.loginPost, x.commandPost],
      match parseHttpResponse ((x.answered codecs d).bytes) with
      | .error e => .error (.response e)
      | .ok (status, respBody) => (runHttpClient status respBody).mapError .body)

/-- The connections carry what the client posts, in any pieces, and it is not too large. -/
structure Connected : Prop where
  loginFlows : Flowing x.login
  login : x.login.flatten = x.loginPost
  loginFits : (authRequestFormat.write x.auth).length ≤ MAX_BODY_SIZE
  askedFlows : Flowing x.asked
  asked : (x.client codecs d).1 = [x.loginPost, x.commandPost] →
    x.asked.flatten = x.commandPost
  askedFits : (adminCommandRequestFormat.write x.commandRequest).length ≤ MAX_BODY_SIZE

end HttpExchange

section Answer
variable {codecs : Codecs} {d : Daemon} {x : HttpExchange}

theorem authAllowed_congr {ctx ctx' : Context} (h : ctx'.ticket = ctx.ticket)
    (authReq : AuthRequest) (mode : AuthMode) :
    authAllowed codecs ctx' authReq mode = authAllowed codecs ctx authReq mode := by
  simp only [authAllowed, ticketValid, h]

theorem run_ticket (d : Daemon) (events : List Event) :
    (d.run codecs events).ctx.ticket = d.ctx.ticket :=
  Runs.exec_congr (f := fun d : Daemon => d.ctx.ticket)
    (fun d e => (changes_frame (step_changes codecs d e)).2.2) d events

theorem authenticate_registers {authReq : AuthRequest} {mode : AuthMode} {pk : EndpointId}
    (hallowed : authAllowed codecs d.ctx authReq mode = true)
    (hkey : clientKey codecs authReq = some pk) (env : AuthReadings) :
    (authenticateAndRegister codecs d authReq mode env).1.clients.isClientNode pk = true := by
  obtain ⟨hclient, heq⟩ | ⟨-, heq⟩ := authenticate_cases hallowed hkey env
  · rw [heq]
    exact hclient
  · rw [heq]
    simp [ClientRegistry.addClient, ClientRegistry.isClientNode]

theorem handleConnection_login {stream : Stream} {mode : AuthMode} {request : HttpRequest}
    {authReq : AuthRequest} (hread : readHttpRequest stream = .ok request)
    (hpost : AcceptedPost request "/auth")
    (hreq : authRequestFormat.decode request.body = some authReq) (env : HttpReadings) :
    handleConnection codecs mode d stream env =
      responded (authenticateAndRegister codecs d authReq mode env.auth).1 200
        "application/postcard" (.auth (authenticateAndRegister codecs d authReq mode env.auth).2.1) := by
  rw [handleConnection, hread]
  dsimp only
  rw [handleRequest, if_neg (not_not.mpr hpost.method), if_neg hpost.accepted, if_pos hpost.path,
    hreq]

theorem handleCommandRequest_runs (hreach : Reachable codecs d) {mode : AuthMode}
    {req : AdminCommandRequest} {pk : EndpointId}
    (hallowed : authAllowed codecs d.ctx req.auth mode = true)
    (hkey : clientKey codecs req.auth = some pk) (env : HttpReadings) :
    let registered := d.step codecs (.authenticate req.auth mode env.auth)
    let outcome := handleCommand codecs registered req.command env.command
    handleCommandRequest codecs mode d req env =
      { daemon := outcome.2
        response := some ⟨200, "application/postcard", .client outcome.1.response⟩
        ran := some (registered, req.command)
        action := outcome.1.action } := by
  obtain ⟨hrefused, -⟩ | ⟨-, hnone, -⟩ | ⟨-, pk', hkey', ⟨hdenied, -⟩ | ⟨-, heq⟩⟩ :=
    handleCommandRequest_cases codecs mode d req env
  · rw [hallowed] at hrefused
    contradiction
  · rw [hkey] at hnone
    contradiction
  · have hfull : FullyPermitted (authenticateAndRegister codecs d req.auth mode env.auth).1.clients :=
      hreach.fullyPermitted.step (.authenticate req.auth mode env.auth)
    have hclient := authenticate_registers hallowed hkey' env.auth
    rw [hfull.checkPermission hclient req.command] at hdenied
    contradiction
  · exact heq

theorem Handled.bytes_eq {handled : Handled} {status : UInt16} {body : ResponseBody}
    (h : handled.response = some ⟨status, "application/postcard", body⟩) :
    parseHttpResponse (handled.bytes) = .ok (status, body.bytes) := by
  have htype : TextLines.OneLine "application/postcard" := by decide
  rw [Handled.bytes, h]
  exact parseHttpResponse_writeResponse htype _

theorem authenticateHttp_answered {handled : Handled} {authResp : AuthResponse}
    (h : handled.response = some ⟨200, "application/postcard", .auth authResp⟩) :
    authenticateHttp (handled.bytes) =
      if authResp.success then .ok ()
      else .error (.body (.bail ("Authentication failed: " ++
        authResp.error.getD "Unknown error"))) := by
  rw [authenticateHttp, Handled.bytes_eq h]
  dsimp only
  rw [if_neg (by decide), ResponseBody.bytes, Format.decode_write]
  rfl

namespace HttpExchange.Connected

theorem loggedIn_eq (h : x.Connected codecs d) :
    x.loggedIn codecs d =
      responded (authenticateAndRegister codecs d x.auth x.mode x.loginEnv.auth).1 200
        "application/postcard"
        (.auth (authenticateAndRegister codecs d x.auth x.mode x.loginEnv.auth).2.1) := by
  obtain ⟨request, hread, hpost, hbody⟩ :=
    request_posted (.inl rfl) h.loginFlows h.login h.loginFits
  exact handleConnection_login hread hpost (hbody ▸ Format.decode_write _ _) x.loginEnv

theorem authenticated (h : x.Connected codecs d) :
    authenticateHttp ((x.loggedIn codecs d).bytes) =
      if authAllowed codecs d.ctx x.auth x.mode then .ok ()
      else .error (.body (.bail "Authentication failed: Invalid ticket")) := by
  rw [@authenticateHttp_answered (x.loggedIn codecs d) _ (by rw [h.loggedIn_eq]; rfl),
    authenticate_success]
  cases hallowed : authAllowed codecs d.ctx x.auth x.mode with
  | true => rfl
  | false => simp [authenticateAndRegister, hallowed]

theorem client_eq (h : x.Connected codecs d)
    (hallowed : authAllowed codecs d.ctx x.auth x.mode = true) :
    x.client codecs d = ([x.loginPost, x.commandPost],
      match parseHttpResponse ((x.answered codecs d).bytes) with
      | .error e => .error (.response e)
      | .ok (status, respBody) => (runHttpClient status respBody).mapError .body) := by
  rw [HttpExchange.client, h.authenticated, if_pos hallowed]

theorem answered_eq (hreach : Reachable codecs d) {pk : EndpointId}
    (hkey : clientKey codecs x.auth = some pk) (h : x.Connected codecs d)
    (hallowed : authAllowed codecs d.ctx x.auth x.mode = true) :
    let before := (d.step codecs (.authenticate x.auth x.mode x.loginEnv.auth)).run codecs x.between
    let registered := before.step codecs (.authenticate x.auth x.mode x.askedEnv.auth)
    let outcome := handleCommand codecs registered (toClientCommand x.command) x.askedEnv.command
    x.answered codecs d =
      { daemon := outcome.2
        response := some ⟨200, "application/postcard", .client outcome.1.response⟩
        ran := some (registered, toClientCommand x.command)
        action := outcome.1.action } := by
  intro before registered outcome
  obtain ⟨request, hread, hpost, hbody⟩ :=
    request_posted (.inr rfl) h.askedFlows (h.asked (by rw [h.client_eq hallowed])) h.askedFits
  have hbefore : before = d.run codecs
      (.authenticate x.auth x.mode x.loginEnv.auth :: x.between) := rfl
  have hreached : Reachable codecs before := by
    rw [hbefore]
    exact hreach.run _
  have hstill : authAllowed codecs before.ctx x.commandRequest.auth x.mode = true := by
    rw [hbefore, authAllowed_congr (run_ticket d _)]
    exact hallowed
  have hthen : (x.loggedIn codecs d).daemon.run codecs x.between = before := by
    rw [h.loggedIn_eq]
    rfl
  rw [HttpExchange.answered, hthen,
    handleConnection_command hread hpost (hbody ▸ Format.decode_write _ x.commandRequest)]
  exact handleCommandRequest_runs hreached hstill hkey x.askedEnv

end HttpExchange.Connected

/-- A client with a key whose login is refused has changed nothing. One that is let in is
registered, and its command runs once, in whatever state the daemon is in by then; what arrives of
that run's answer is what the client returns. -/
theorem http_client_answered (hreach : Reachable codecs d) {pk : EndpointId}
    (hkey : clientKey codecs x.auth = some pk) (h : x.Connected codecs d) :
    (authAllowed codecs d.ctx x.auth x.mode = false →
      x.client codecs d = ([x.loginPost],
        .error (.body (.bail "Authentication failed: Invalid ticket"))) ∧
      (x.loggedIn codecs d).daemon = d) ∧
    (authAllowed codecs d.ctx x.auth x.mode = true →
      let before := (d.step codecs (.authenticate x.auth x.mode x.loginEnv.auth)).run codecs x.between
      let registered := before.step codecs (.authenticate x.auth x.mode x.askedEnv.auth)
      let outcome := handleCommand codecs registered (toClientCommand x.command) x.askedEnv.command
      (x.answered codecs d).ran = some (registered, toClientCommand x.command) ∧
      (x.answered codecs d).daemon = outcome.2 ∧
      x.client codecs d = ([x.loginPost, x.commandPost], .ok outcome.1.response.carried)) := by
  constructor
  · intro hrefused
    constructor
    · rw [HttpExchange.client, h.authenticated, if_neg (by simp [hrefused])]
    · rw [h.loggedIn_eq]
      exact authenticate_refused hrefused
  · intro hallowed before registered outcome
    have hanswered : x.answered codecs d =
        { daemon := outcome.2
          response := some ⟨200, "application/postcard", .client outcome.1.response⟩
          ran := some (registered, toClientCommand x.command)
          action := outcome.1.action } := h.answered_eq hreach hkey hallowed
    rw [h.client_eq hallowed, Handled.bytes_eq (by rw [hanswered]), hanswered]
    refine ⟨rfl, rfl, ?_⟩
    simp [runHttpClient, decodeExpected_client (.inl rfl), Except.mapError]

end Answer

namespace Sample

def localExchange (auth : AuthRequest) (command : ClientCommandArgs) (between : List Event)
    (login asked : Stream) : HttpExchange :=
  { mode := authModeForBind httpBind, bind := httpBind, auth := auth, command := command,
    login := login, loginEnv := httpReadings, between := between, asked := asked,
    askedEnv := httpReadings }

theorem localExchange_connected {d : Daemon} {auth : AuthRequest} {command : ClientCommandArgs}
    {between : List Event} {login asked : List UInt8}
    (hlogin : sendHttpPost httpBind "/auth" (authRequestFormat.write auth) = login)
    (hasked : sendHttpPost httpBind "/command"
      (adminCommandRequestFormat.write ⟨auth, toClientCommand command⟩) = asked)
    (hloginFits : (authRequestFormat.write auth).length ≤ MAX_BODY_SIZE)
    (haskedFits : (adminCommandRequestFormat.write ⟨auth, toClientCommand command⟩).length ≤
      MAX_BODY_SIZE) :
    (localExchange auth command between (singles login) (singles asked)).Connected codecs d where
  loginFlows := flowing_singles login
  login := (flatten_singles login).trans hlogin.symm
  loginFits := hloginFits
  askedFlows := flowing_singles asked
  asked _ := (flatten_singles asked).trans hasked.symm
  askedFits := haskedFits

def davesExchange : HttpExchange :=
  localExchange davesLogin .pause [.cleanup 1200 .byId]
    (singles (sendHttpPost httpBind "/auth" (authRequestFormat.write davesLogin)))
    (singles (sendHttpPost httpBind "/command"
      (adminCommandRequestFormat.write ⟨davesLogin, toClientCommand .pause⟩)))

theorem http_client_answered_dave :
    (davesExchange.client codecs (start []).daemon).2 =
      .ok (.ack "Daemon paused") := by
  have hreach : Reachable codecs (start []).daemon := ⟨start [], [], rfl⟩
  have hkey : clientKey codecs davesLogin = some dave := by decide
  have hconnected : davesExchange.Connected codecs (start []).daemon :=
    localExchange_connected rfl rfl (by decide) (by decide)
  obtain ⟨-, -, hclient⟩ :=
    (http_client_answered hreach hkey hconnected).2 (by decide)
  rw [hclient]
  rfl

end Sample
end P2pDdns
