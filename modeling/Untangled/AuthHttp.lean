import Untangled.AccessTokens
import Untangled.Forwarded
import Untangled.LoginPipeline
import Untangled.NextPath
import Untangled.RefreshFetch
import Untangled.RequestRules
import Untangled.SessionCookies
import Untangled.SystemConfig

/-!
# Requests to the auth service

`handle_request` of `http.ts` with its handlers, and what `create_server` makes
of an exception.  The handlers are programs; the pipelines behind them are
operations that answer or throw.

The four handlers of POST requests open with the same gate: the body fits, the
origin is the public one, the body parses, and the token of the cookie comes
back in a header or in the body.
-/

namespace Untangled.AuthHttp

open CookieJar (Text)
open Datetime Forwarded SessionCookies RequestProgram

/-! ## Requests -/

/-- What the runtime does with a text. -/
structure Platform where
  decodeUtf8 : List UInt8 → String
  /-- none stands for an exception -/
  parseJson : String → Option Json
  formEntries : String → List (String × String)

/-- `pathname` is none where the URL of the request does not parse; the names of
headers are in lower case. -/
structure HttpRequest where
  method : String
  pathname : Option String
  header : String → Option Text
  chunks : List (List UInt8)
  remoteAddress : Option Text

/-- `parsedOrigin` has the scheme and the host of `publicOrigin`, if it parses. -/
structure HttpConfig where
  publicOrigin : Text
  parsedOrigin : Option (Text × Text)

def maxBodyBytes : ℕ := 8192

/-- The chunks after those of `total` bytes; none stands for `body too large`. -/
def readChunks : ℕ → List (List UInt8) → Option (List UInt8)
  | _, [] => some []
  | total, chunk :: chunks =>
      if maxBodyBytes < total + chunk.length then none
      else (readChunks (total + chunk.length) chunks).map (chunk ++ ·)

def readBody (request : HttpRequest) : Option (List UInt8) := readChunks 0 request.chunks

def originIsExactMatch (originHeader : Option Text) (publicOrigin : Text) : Bool :=
  match originHeader with
  | none => false
  | some origin => origin ≠ [] && origin = publicOrigin

/-- The bytes of `Buffer.from(text)`. -/
def utf8Bytes (text : Text) : List UInt8 := (String.ofList text).toByteArray.data.toList

def tokensEqual (left right : Text) : Bool := utf8Bytes left = utf8Bytes right

theorem readChunks_eq
    {total : ℕ} {chunks : List (List UInt8)}
    (htotal : total ≤ maxBodyBytes) :
    readChunks total chunks =
      if total + chunks.flatten.length ≤ maxBodyBytes then some chunks.flatten else none := by
  induction chunks generalizing total with
  | nil => simp [readChunks, htotal]
  | cons chunk chunks ih =>
      rw [readChunks, List.flatten_cons, List.length_append, ← Nat.add_assoc]
      by_cases hlarge : maxBodyBytes < total + chunk.length
      · have hnot : ¬ total + chunk.length + chunks.flatten.length ≤ maxBodyBytes := by
          omega
        rw [if_pos hlarge, if_neg hnot]
      · rw [if_neg hlarge, ih (Nat.le_of_not_lt hlarge)]
        split
        · rfl
        · rfl

theorem readBody_eq (request : HttpRequest) :
    readBody request =
      if request.chunks.flatten.length ≤ maxBodyBytes then some request.chunks.flatten
      else none := by
  rw [readBody, readChunks_eq (Nat.zero_le _), Nat.zero_add]

theorem tokensEqual_iff
    {left right : Text} :
    tokensEqual left right = true ↔ left = right := by
  rw [tokensEqual, decide_eq_true_iff, utf8Bytes, utf8Bytes, Array.toList_inj, ← ByteArray.ext_iff,
    String.toByteArray_inj, String.ofList_inj]

/-! ## Bodies -/

inductive FieldKind
  | text
  | nonEmptyText
  | boolOrText
  deriving DecidableEq

def FieldKind.accepts : FieldKind → Json → Bool
  | .text, .str _ => true
  | .nonEmptyText, .str s => s ≠ ""
  | .boolOrText, .bool _ => true
  | .boolOrText, .str _ => true
  | _, _ => false

/-- The optional fields of an object schema. -/
abbrev Schema : Type := List (String × FieldKind)

/-- The fields of a parsed body. -/
abbrev Fields : Type := List (String × Json)

/-- Members that the schema does not name are dropped. -/
def safeParse (schema : Schema) (value : Json) : Option Fields :=
  match value with
  | .obj members =>
      if schema.all fun field => (member members field.1).all field.2.accepts then
        some (schema.filterMap fun field => (member members field.1).map (field.1, ·))
      else none
  | _ => none

/-- `Object.fromEntries`; the last entry of a name counts. -/
def fromEntries (entries : List (String × String)) : Json :=
  .obj (entries.reverse.map fun entry => (entry.1, .str entry.2))

def Fields.text (fields : Fields) (name : String) : Option Text :=
  ((member fields name).bind Json.asString).map String.toList

def refreshBodySchema : Schema := [("csrf_token", .nonEmptyText), ("refresh_token", .text)]

def logoutBodySchema : Schema := [("csrf_token", .nonEmptyText), ("refresh_token", .text)]

def changePasswordSchema : Schema :=
  [("csrf_token", .nonEmptyText), ("current_password", .text), ("new_password", .text),
    ("verify_new_password", .text), ("invalidate_user_sessions", .boolOrText)]

def loginFormSchema : Schema :=
  [("csrf_token", .nonEmptyText), ("username", .text), ("password", .text), ("next", .text)]

def mentions (header : Option Text) (text : String) : Bool :=
  text.toList <:+: header.getD []

/-- The fields of a body; none stands for malformed JSON. -/
def parseBody (P : Platform) (schema : Schema) (request : HttpRequest) (body : String) :
    Option Fields :=
  let contentType := request.header "content-type"
  if mentions contentType "application/json" then
    (P.parseJson body).map fun value => (safeParse schema value).getD []
  else if mentions contentType "application/x-www-form-urlencoded" then
    some ((safeParse schema (fromEntries (P.formEntries body))).getD [])
  else some []

def parseInvalidateUserSessions : Option Json → Bool
  | some (.bool b) => b
  | some (.str s) => s = "true" || s = "on" || s = "1"
  | _ => false

def HttpRequest.cookies (request : HttpRequest) : Text → Option Text :=
  parseCookieHeader (request.header "cookie")

def submittedCsrfToken (request : HttpRequest) (parsed : Fields) : Text :=
  match request.header "x-csrf-token" with
  | some token => if token ≠ [] then token else (parsed.text "csrf_token").getD []
  | none => (parsed.text "csrf_token").getD []

def accessTokenFromRequest (request : HttpRequest) : Option Text :=
  let authorization := (request.header "authorization").getD []
  if (authorization.take 7).map Char.toLower = "bearer ".toList then
    let token := trim (authorization.drop 7)
    if token = [] then none else some token
  else
    let token := (request.cookies accessCookieName).getD []
    if token = [] then none else some token

/-! ## Operations -/

inductive CsrfDenial
  | originMismatch
  | csrfMismatch
  deriving DecidableEq

/-- `csrf_denied_audit_event` with the `data` that `refuse_csrf_origin` gives it. -/
structure CsrfDeniedEvent where
  reason : CsrfDenial
  ipAddress : Option Text
  method : String
  contextPath : String
  protocol : Option Text
  host : Option Text
  origin : List ℕ
  userAgent : List ℕ
  csrfHeaderLength : ℕ
  csrfCookieLength : ℕ
  usernameProvided : Option (List ℕ)
  deriving DecidableEq

/-- What a pipeline is told about the request. -/
structure RequestContext where
  sourceIp : Option Text
  protocol : Option Text
  host : Option Text
  contextPath : String
  userAgent : Option Text
  deriving DecidableEq

/-- `password_change_audit` with the `data` of the handler. -/
structure PasswordChangeEvent where
  success : Bool
  userId : String
  ipAddress : Option Text
  reason : String
  contextPath : Option String
  username : Option String
  invalidateUserSessions : Option Bool
  deriving DecidableEq

structure ChangePasswordArgs where
  userId : String
  sessionId : Option String
  currentPassword : Text
  newPassword : Text
  verifyNewPassword : Text
  invalidateUserSessions : Bool
  settings : Auth.AuthRuntimeSettings
  ipAddress : Option Text
  userAgent : Option Text
  deriving DecidableEq

structure LoadedUser where
  id : String
  username : String
  displayName : String
  isActive : Bool

inductive LogoutPipelineResult
  | success
  | denied
  | internalError
  deriving DecidableEq

/-- What the handlers call.  `signLogin` and `signAgain` are `sign_access_token`
with the arguments of the two handlers that use it. -/
inductive HttpOp
  | randomToken
  | emitCsrfDenied (event : CsrfDeniedEvent)
  | getSettings
  | runLogin (username password : Text) (ctx : RequestContext)
  | newDate
  | newUuid7 (ms : ℤ)
  | mintRefreshToken
  | hmacRefreshToken (token : String)
  | createSession (session : Auth.NewUserSession)
  | signLogin (userId : Auth.Uuid) (ttlSeconds now : ℤ) (sid : Auth.Uuid)
      (passwordChangeRequired : Bool)
  | runRefresh (accessToken refreshToken : Option Text) (ctx : RequestContext)
  | runLogout (accessToken : Option Text) (ctx : RequestContext)
  | verifyAccessJwt (token : Text)
  | loadById (id : String)
  | rolesAndPermissions (id : String)
  | executeChangePassword (args : ChangePasswordArgs)
  | emitPasswordChange (event : PasswordChangeEvent)
  | signAgain (userId : String) (exp : Option ℤ) (sid : Option String)

abbrev HttpAns : HttpOp → Type
  | .randomToken => String
  | .emitCsrfDenied _ => Unit
  | .getSettings => Auth.AuthRuntimeSettings
  | .runLogin _ _ _ => Auth.LoginPipelineResult
  | .newDate => ℤ
  | .newUuid7 _ => Auth.Uuid
  | .mintRefreshToken => String
  | .hmacRefreshToken _ => String
  | .createSession _ => Unit
  | .signLogin _ _ _ _ _ => String
  | .runRefresh _ _ _ => Auth.RefreshPipelineResult
  | .runLogout _ _ => LogoutPipelineResult
  | .verifyAccessJwt _ => AccessTokens.AccessJwtResult
  | .loadById _ => Option LoadedUser
  | .rolesAndPermissions _ => List String × List String
  | .executeChangePassword _ => Auth.ChangePasswordExecuteResult
  | .emitPasswordChange _ => Unit
  | .signAgain _ _ _ => String

/-- `payload` is the JSON object of the body, and none in a redirect. -/
structure HttpResponse where
  status : ℕ
  setCookies : List ServiceCookie
  location : Option Text
  payload : Option (List (String × Json))

abbrev HttpProg : Type := Prog HttpOp HttpAns HttpResponse

abbrev HttpEvent : Type := Event HttpOp HttpAns

def json (status : ℕ) (payload : List (String × Json)) : HttpResponse where
  status := status
  setCookies := []
  location := none
  payload := some payload

def detail (status : ℕ) (text : String) : HttpResponse := json status [("detail", .str text)]

/-- What `setHeader` takes as a character of a value. -/
def headerChar (c : Char) : Bool :=
  c = '\t' || (0x20 ≤ c.toNat && c.toNat ≤ 0xff && c.toNat ≠ 0x7f)

/-- `setHeader` throws at a location that is no value of a header, and `create_server`
answers with the headers that are set by then. -/
def redirect (location : Text) : HttpResponse :=
  if location.all headerChar then ⟨302, [], some location, none⟩
  else detail 500 "Internal error"

/-- Of the handlers and of `create_server` for what they throw. -/
def internalError : HttpProg := .ret (detail 500 "Internal error")

def csrfPath : String := "/api/v2/auth/csrf"

def loginPath : String := "/api/v2/auth/login"

def refreshPath : String := "/api/v2/auth/refresh"

def logoutPath : String := "/api/v2/auth/logout"

def mePath : String := "/api/v2/auth/me"

def changePasswordPath : String := "/api/v2/auth/change-password"

def healthPath : String := "/health"

def accessDenied : String := "Access denied"

def serviceUnavailable : String := "Service unavailable"

def loginHashCapacity : String := "Sign-in is temporarily busy. Try again in a moment."

def changePasswordHashCapacity : String :=
  "Password change is temporarily busy. Try again in a moment."

def passwordChangeOk : String := "Password change complete."

def passwordChangeFailed : String := "Password change failed."

def notValidated : String := "Could not validate credentials"

/-! ## Handlers -/

/-- A handler of POST requests that changes something: its path and its schema,
its answers to a body that is too large or malformed, and whether a refusal names
the user. -/
structure Route where
  contextPath : String
  schema : Schema
  tooLarge : String
  malformed : String
  namesUser : Bool

def loginRoute : Route where
  contextPath := loginPath
  schema := loginFormSchema
  tooLarge := "Forbidden"
  malformed := "Bad request"
  namesUser := true

def refreshRoute : Route where
  contextPath := refreshPath
  schema := refreshBodySchema
  tooLarge := "Payload too large"
  malformed := "Bad request"
  namesUser := false

def logoutRoute : Route where
  contextPath := logoutPath
  schema := logoutBodySchema
  tooLarge := "Payload too large"
  malformed := "Bad request"
  namesUser := false

def changePasswordRoute : Route where
  contextPath := changePasswordPath
  schema := changePasswordSchema
  tooLarge := "Payload too large"
  malformed := "Malformed JSON"
  namesUser := false

def nonEmpty (text : Option Text) : Option Text := text.filter (· ≠ [])

def boundEventText (raw : Text) : List ℕ := Auth.boundEventText (String.ofList raw)

section Handlers

variable (P : Platform) (config : HttpConfig) (request : HttpRequest)

def identity : RequestIdentity :=
  requestIdentity (request.header "forwarded") request.remoteAddress config.parsedOrigin

def context (contextPath : String) : RequestContext where
  sourceIp := (identity config request).sourceIp
  protocol := (identity config request).protocol
  host := (identity config request).host
  contextPath := contextPath
  userAgent := request.header "user-agent"

def csrfDeniedEvent (reason : CsrfDenial) (contextPath : String) (username : Option Text) :
    CsrfDeniedEvent where
  reason := reason
  ipAddress := (identity config request).sourceIp
  method := request.method
  contextPath := contextPath
  protocol := (identity config request).protocol
  host := (identity config request).host
  origin := boundEventText ((request.header "origin").getD [])
  userAgent := boundEventText ((request.header "user-agent").getD [])
  csrfHeaderLength :=
    (utf16Units (String.ofList ((request.header "x-csrf-token").getD []))).length
  csrfCookieLength := (utf16Units (String.ofList ((request.cookies csrfCookieName).getD []))).length
  usernameProvided := (nonEmpty username).map boundEventText

def refuseCsrfOrigin (reason : CsrfDenial) (contextPath : String) (username : Option Text) :
    HttpProg :=
  .await (.emitCsrfDenied (csrfDeniedEvent config request reason contextPath username))
    internalError fun _ => .ret (detail 403 "Forbidden")

/-- The gate of the four handlers; `admitted` gets the fields of the body and the
token of the cookie. -/
def gated (route : Route) (admitted : Fields → Text → HttpProg) : HttpProg :=
  match readBody request with
  | none => .ret (detail 413 route.tooLarge)
  | some body =>
      if !originIsExactMatch (request.header "origin") config.publicOrigin then
        refuseCsrfOrigin config request .originMismatch route.contextPath none
      else
        match parseBody P route.schema request (P.decodeUtf8 body) with
        | none => .ret (detail 400 route.malformed)
        | some fields =>
            let cookieToken := (request.cookies csrfCookieName).getD []
            let submitted := submittedCsrfToken request fields
            if cookieToken = [] ∨ submitted = [] ∨ !tokensEqual cookieToken submitted then
              refuseCsrfOrigin config request .csrfMismatch route.contextPath
                (if route.namesUser then fields.text "username" else none)
            else admitted fields cookieToken

def handleCsrf : HttpProg :=
  .await .randomToken internalError fun token =>
    .ret { json 200 [("csrf_token", .str token)] with setCookies := [.csrf token] }

/-! ### `handle_login` -/

/-- A refresh token and its HMAC, where the session gets one. -/
def mintRefresh (maxAge : Option ℤ) (next : Option (String × String × ℤ) → HttpProg) :
    HttpProg :=
  match maxAge with
  | none => next none
  | some maxAge =>
      .await .mintRefreshToken internalError fun token =>
        .await (.hmacRefreshToken token) internalError fun hmac => next (some (token, hmac, maxAge))

def wantsJson : Bool := mentions (request.header "accept") "application/json"

def nextPath (fields : Fields) : Text := NextPath.authSafeNextPath (fields.text "next") ['/']

def loggedIn (fields : Fields) : HttpResponse :=
  if wantsJson request then json 200 [("ok", .bool true)] else redirect (nextPath fields)

def newSession (times : Auth.LoginSessionTimes) (userId sid : Auth.Uuid)
    (refreshHmac : Option String) : Auth.NewUserSession where
  id := sid
  userId := userId
  refreshHmac := refreshHmac
  sessionExpiresAt := times.sessionExpiresAt
  refreshExpiresAt := times.refreshExpiresAt
  ipAddress := (identity config request).sourceIp.map String.ofList
  userAgent := (nonEmpty (request.header "user-agent")).map String.ofList

/-- The row, the access token and the cookies of a session with these times. -/
def storeSession (times : Auth.LoginSessionTimes) (userId : Auth.Uuid) (mustChange : Bool)
    (fields : Fields) (cookieToken : Text) (now : ℤ) (sid : Auth.Uuid)
    (refresh : Option (String × String × ℤ)) : HttpProg :=
  .await (.createSession
      (newSession config request times userId sid (refresh.map fun r => r.2.1)))
    internalError fun _ =>
      .await (.signLogin userId times.jwtTtlSeconds now sid mustChange) internalError fun token =>
        .ret { loggedIn request fields with
          setCookies :=
            [.csrf (String.ofList cookieToken), .access token times.accessMaxAge] ++
              (refresh.map fun r => .refresh r.1 r.2.2).toList }

def issueSession (settings : Auth.AuthRuntimeSettings) (userId : Auth.Uuid) (mustChange : Bool)
    (fields : Fields) (cookieToken : Text) : HttpProg :=
  .await .newDate internalError fun now =>
    let times := Auth.loginSessionTimes now settings.sessionAccessTtlSeconds
      settings.sessionRefreshTtlSeconds settings.sessionTotalTtlSeconds mustChange
    .await (.newUuid7 now) internalError fun sid =>
      mintRefresh times.refreshMaxAge fun refresh =>
        storeSession config request times userId mustChange fields cookieToken now sid refresh

/-- `handle_login` behind the gate, as the others below. -/
def loginAdmitted (fields : Fields) (cookieToken : Text) : HttpProg :=
  .await .getSettings internalError fun settings =>
    .await (.runLogin ((fields.text "username").getD []) ((fields.text "password").getD [])
        (context config request loginPath)) internalError fun result =>
      match result with
      | .capacity => .ret (detail 503 loginHashCapacity)
      | .internalError => internalError
      | .denied => .ret (detail 401 accessDenied)
      | .success userId mustChange =>
          issueSession config request settings userId mustChange fields cookieToken

def handleLogin : HttpProg :=
  gated P config request loginRoute (loginAdmitted config request)

/-! ### `handle_refresh` and `handle_logout` -/

def refreshAdmitted (_ : Fields) (cookieToken : Text) : HttpProg :=
  .await .getSettings internalError fun settings =>
    .await (.runRefresh (nonEmpty (request.cookies accessCookieName))
        (nonEmpty (request.cookies refreshCookieName)) (context config request refreshPath))
      internalError fun result =>
        match result with
        | .internalError => internalError
        | .unavailable => .ret (detail 503 serviceUnavailable)
        | .soft => .ret (json 401
            [("detail", .str accessDenied), ("retry", .bool true),
              ("max_retries", .int (RefreshFetch.sessionMaxRefreshRetriesForClient
                settings.sessionMaxRefreshRetries))])
        | .hard => .ret (detail 401 accessDenied)
        | .success _ _ _ _ => .ret
            { json 200 [("ok", .bool true)] with
              setCookies := refreshAnswer (String.ofList cookieToken) result }

def handleRefresh : HttpProg :=
  gated P config request refreshRoute (refreshAdmitted config request)

def logoutAdmitted (_ : Fields) (_ : Text) : HttpProg :=
  .await (.runLogout (accessTokenFromRequest request) (context config request logoutPath))
    internalError fun result =>
      match result with
      | .internalError => internalError
      | .denied => .ret (detail 401 accessDenied)
      | .success => .ret { json 200 [("ok", .bool true)] with setCookies := logoutAnswer }

def handleLogout : HttpProg :=
  gated P config request logoutRoute (logoutAdmitted config request)

/-! ### `handle_me` -/

def credentialsDenied (retry : Bool) : HttpResponse :=
  if retry then json 401 [("detail", .str notValidated), ("retry", .bool true)]
  else detail 401 notValidated

def profile (user : LoadedUser) (rbac : List String × List String) : HttpResponse :=
  json 200
    [("id", .str user.id), ("username", .str user.username),
      ("display_name", .str user.displayName), ("is_active", .bool user.isActive),
      ("roles", .arr (rbac.1.map .str)), ("permissions", .arr (rbac.2.map .str))]

/-- The claims of a token that is in force, for the handlers that need one. -/
def withAccess (next : AccessTokens.Payload → HttpProg) : HttpProg :=
  match accessTokenFromRequest request with
  | none => .ret (credentialsDenied false)
  | some token =>
      .await (.verifyAccessJwt token) internalError fun verified =>
        match verified with
        | .invalid => .ret (credentialsDenied false)
        | .expired _ => .ret (credentialsDenied true)
        | .valid payload => next payload

def handleMe : HttpProg :=
  withAccess request fun payload =>
    .await (.loadById ((payload.text "sub").getD "")) internalError fun loaded =>
      match loaded with
      | none => .ret (credentialsDenied false)
      | some user =>
          if !user.isActive then .ret (credentialsDenied false)
          else .await (.rolesAndPermissions user.id) internalError fun rbac =>
            .ret (profile user rbac)

/-! ### `handle_change_password` -/

def sessionIdClaim (payload : AccessTokens.Payload) : Option String :=
  (payload.text AccessTokens.authRules.sessionIdClaim).filter (· ≠ "")

def passwordChangeEvent (userId : String) (success : Bool) (reason : String)
    (username : Option String) : PasswordChangeEvent where
  success := success
  userId := userId
  ipAddress := (identity config request).sourceIp
  reason := reason
  contextPath := none
  username := username
  invalidateUserSessions := none

/-- An answer that stands only if the event before it is stored; the cookies are
on the response by then. -/
def audited (event : PasswordChangeEvent) (response : HttpResponse) : HttpProg :=
  .await (.emitPasswordChange event)
    (.ret { detail 500 "Internal error" with setCookies := response.setCookies })
    fun _ => .ret response

def passwordChanged (cookies : List ServiceCookie) : HttpResponse :=
  { json 200 [("ok", .bool true), ("detail", .str passwordChangeOk)] with setCookies := cookies }

def answerChangePassword (userId : String) (payload : AccessTokens.Payload) :
    Auth.ChangePasswordExecuteResult → HttpProg
  | .missingUser => .ret (detail 401 notValidated)
  | .locked username =>
      audited (passwordChangeEvent config request userId false "password_change_locked"
        (some username)) (detail 401 accessDenied)
  | .failed username =>
      audited (passwordChangeEvent config request userId false "password_change_failed"
        (some username)) (detail 422 passwordChangeFailed)
  | .ok .loggedOut username =>
      audited
        { passwordChangeEvent config request userId true "password_change_ok" (some username) with
          invalidateUserSessions := some true }
        (passwordChanged [.expireAccess, .expireRefresh])
  | .ok (.firstRefresh refreshToken refreshMaxAge) username =>
      .await (.signAgain userId payload.exp (sessionIdClaim payload)) internalError fun token =>
        audited (passwordChangeEvent config request userId true "password_change_ok"
          (some username))
          (passwordChanged [.access token refreshMaxAge, .refresh refreshToken refreshMaxAge])
  | .ok .tokensUnchanged username =>
      audited (passwordChangeEvent config request userId true "password_change_ok"
        (some username)) (passwordChanged [])

def changePasswordArgs (fields : Fields) (payload : AccessTokens.Payload) (userId : String)
    (settings : Auth.AuthRuntimeSettings) : ChangePasswordArgs where
  userId := userId
  sessionId := sessionIdClaim payload
  currentPassword := (fields.text "current_password").getD []
  newPassword := (fields.text "new_password").getD []
  verifyNewPassword := (fields.text "verify_new_password").getD []
  invalidateUserSessions := parseInvalidateUserSessions (member fields "invalidate_user_sessions")
  settings := settings
  ipAddress := (identity config request).sourceIp
  userAgent := nonEmpty (request.header "user-agent")

def changePasswordAdmitted (fields : Fields) (_ : Text) : HttpProg :=
  withAccess request fun payload =>
    match payload.text "sub" with
    | none => .ret (credentialsDenied false)
    | some userId =>
        if userId = "" then .ret (credentialsDenied false)
        else .await .getSettings internalError fun settings =>
          .acquire fun granted =>
            if granted then
              .await (.executeChangePassword
                  (changePasswordArgs config request fields payload userId settings))
                (.release internalError) fun outcome =>
                  .release (answerChangePassword config request userId payload outcome)
            else
              audited { passwordChangeEvent config request userId false "hash_capacity" none with
                  contextPath := some changePasswordPath }
                (detail 503 changePasswordHashCapacity)

def handleChangePassword : HttpProg :=
  gated P config request changePasswordRoute (changePasswordAdmitted config request)

/-! ### `handle_request` -/

def handleRequest : HttpProg :=
  match request.pathname with
  | none => internalError
  | some path =>
      if request.method = "GET" ∧ path = healthPath then .ret (json 200 [("status", .str "ok")])
      else if request.method = "GET" ∧ path = csrfPath then handleCsrf
      else if request.method = "POST" ∧ path = loginPath then handleLogin P config request
      else if path = refreshPath ∧ request.method ≠ "POST" then
        .ret (detail 405 "Method not allowed")
      else if request.method = "POST" ∧ path = refreshPath then handleRefresh P config request
      else if path = logoutPath ∧ request.method ≠ "POST" then
        .ret (detail 405 "Method not allowed")
      else if request.method = "POST" ∧ path = logoutPath then handleLogout P config request
      else if request.method = "GET" ∧ path = mePath then handleMe request
      else if request.method = "POST" ∧ path = changePasswordPath then
        handleChangePassword P config request
      else .ret (detail 404 "Not found")

end Handlers

end Untangled.AuthHttp
