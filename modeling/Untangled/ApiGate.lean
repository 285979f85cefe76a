import Untangled.AuthGate
import Untangled.PythonText
import Untangled.SearchIdOnly

/-!
# Requests to the record routes

The dependencies of a route in `v2_router_factory.py`, in the order FastAPI
solves them: a connection, the access token with the check of origin and token
that goes with the cookie, the user, and the permission for the operation of the
class.  What the route does after that is an operation.
-/

namespace Untangled.ApiGate

open CookieJar (Text)
open PythonText RequestProgram SessionCookies
open RequestProgram.Prog (Always always_ret always_call always_await Always.mono)

/-! ## Requests -/

/-- `cookie` is what the framework makes of the `Cookie` header. -/
structure ApiRequest where
  method : String
  path : String
  header : String → Option Text
  cookie : Text → Option Text
  clientHost : Option String

/-- A route of a class; `isPublic` is of the class definition. -/
structure RecordRoute where
  className : String
  operation : String
  isPublic : Bool

structure ApiUser where
  id : ℕ
  username : String
  passwordHash : String
  displayName : String
  isActive : Bool
  failedLoginCount : ℤ

/-- Events with their `data`. -/
inductive ApiEvent
  | csrfDenied (reason : String) (ipAddress : Option String) (method contextPath : String)
      (origin userAgent : Text) (csrfHeaderLength csrfCookieLength : ℕ)
  | authnDenied (reason : String) (userId : Option ℕ) (ipAddress : Option String)
  | authzDenied (userId : ℕ) (ipAddress : Option String)
      (className operation requiredPermission : String)
  deriving DecidableEq

structure ApiResponse where
  status : ℕ
  content : Json
  wwwAuthenticate : Bool

inductive ApiOp
  | connect
  | emit (event : ApiEvent)
  | verifyAccessJwt (token : Text)
  | fetchUserById (id : ℕ)
  | effectivePermissions (id : ℕ)
  | endpoint (user : ApiUser)

abbrev ApiAns : ApiOp → Type
  | .connect => Unit
  | .emit _ => Unit
  | .verifyAccessJwt _ => AccessTokens.AccessJwtResult
  | .fetchUserById _ => Option ApiUser
  | .effectivePermissions _ => List String
  | .endpoint _ => ApiResponse

abbrev ApiProg : Type := Prog ApiOp ApiAns ApiResponse

abbrev ApiTraceEvent : Type := Event ApiOp ApiAns

/-! ## Answers -/

def httpException (status : ℕ) (detail : Json) : ApiResponse where
  status := status
  content := .obj [("detail", detail)]
  wwwAuthenticate := false

/-- What the framework makes of any other exception. -/
def serverError : ApiResponse where
  status := 500
  content := .str "Internal Server Error"
  wwwAuthenticate := false

def raised : ApiProg := .ret serverError

def credentialsDenied (retry : Bool) : ApiResponse where
  status := 401
  content := .obj ([("detail", .str "Could not validate credentials")] ++
    if retry then [("retry", .bool true)] else [])
  wwwAuthenticate := true

def mustChange : ApiResponse :=
  httpException 403 (.obj
    [("error", .str "password_change_required"), ("detail", .str "Password change required")])

def eventTextBound : ℕ := 256

def boundEventText (raw : Text) : Text :=
  if raw.length ≤ eventTextBound then raw else raw.take eventTextBound

/-- `system_config_id` of the well-known rows -/
def systemConfigPath : String := "/api/v2/system_config/01900000-0000-7000-8000-000000000050"

/-! ## Dependencies -/

section Dependencies

variable (I : IntBase16) (publicOrigin : Text) (request : ApiRequest)

def headerValue (name : String) : Text := (request.header name).getD []

/-- `header.split(None, 1)` with the scheme checked. -/
def bearerCredentials : Text :=
  match request.header "authorization" with
  | none => []
  | some header =>
      let text := header.dropWhile isSpace
      let scheme := text.takeWhile fun c => !isSpace c
      if scheme.map Char.toLower = "bearer".toList then
        stripChars (text.dropWhile fun c => !isSpace c)
      else []

def accessCookie : Text := stripChars ((request.cookie accessCookieName).getD [])

/-- `str.upper`; the method of a request is ASCII. -/
def upper (s : String) : String := String.ofList (s.toList.map Char.toUpper)

def safeMethods : List String := ["GET", "OPTIONS"]

def csrfDeniedEvent (reason : String) : ApiEvent :=
  .csrfDenied reason request.clientHost request.method request.path
    (boundEventText (headerValue request "origin"))
    (boundEventText (headerValue request "user-agent"))
    (headerValue request "x-csrf-token").length
    ((request.cookie csrfCookieName).getD []).length

def refuse (reason : String) : ApiProg :=
  .await (.emit (csrfDeniedEvent request reason))
    (.ret (httpException 500 (.str "Audit logging failed")))
    fun _ => .ret (httpException 403 (.str "Forbidden"))

def enforceCookieCsrf (next : ApiProg) : ApiProg :=
  if upper request.method ∈ safeMethods then next
  else if !AuthHttp.originIsExactMatch (some (headerValue request "origin")) publicOrigin then
    refuse request "origin_mismatch"
  else
    let cookieToken := (request.cookie csrfCookieName).getD []
    let headerToken := headerValue request "x-csrf-token"
    if cookieToken = [] ∨ headerToken = [] ∨ !AuthHttp.tokensEqual cookieToken headerToken then
      refuse request "csrf_mismatch"
    else next

def accessToken (next : Text → ApiProg) : ApiProg :=
  let bearer := bearerCredentials request
  let cookie := accessCookie request
  if bearer ≠ [] ∧ cookie ≠ [] then .ret (httpException 400 (.str "Bad request"))
  else if bearer = [] ∧ cookie = [] then .ret (credentialsDenied false)
  else if cookie ≠ [] then enforceCookieCsrf publicOrigin request (next cookie)
  else next bearer

def systemConfigSingletonGet : Bool :=
  request.method = "GET" && request.path = systemConfigPath

/-- `emit_best_effort`: what cannot be stored is logged elsewhere. -/
def emitBestEffort (event : ApiEvent) (next : ApiProg) : ApiProg := .call (.emit event) fun _ => next

def authnDenied (reason : String) (userId : Option ℕ) (retry : Bool) : ApiProg :=
  emitBestEffort (.authnDenied reason userId request.clientHost) (.ret (credentialsDenied retry))

def getCurrentUser (token : Text) (next : ApiUser → ApiProg) : ApiProg :=
  .await (.verifyAccessJwt token) raised fun verified =>
    match verified with
    | .invalid => authnDenied request "invalid_access_token" none false
    | .expired _ => authnDenied request "expired_access_token" none true
    | .valid payload =>
        match AccessTokens.apiUser I payload with
        | none => raised
        | some userId =>
            if AccessTokens.passwordChangeRequired AccessTokens.apiRules payload = true ∧
                systemConfigSingletonGet request = false then .ret mustChange
            else .await (.fetchUserById userId) raised fun loaded =>
              match loaded with
              | none => authnDenied request "inactive_or_missing_user" none false
              | some user =>
                  if user.isActive then next user
                  else authnDenied request "inactive_or_missing_user" (some userId) false

def requiredPermission (route : RecordRoute) : String := route.className ++ ":" ++ route.operation

def requireClassOperation (route : RecordRoute) (user : ApiUser) (next : ApiProg) : ApiProg :=
  .await (.effectivePermissions user.id) raised fun permissions =>
    if Search.classOperationGranted permissions route.className route.operation route.isPublic then next
    else emitBestEffort
      (.authzDenied user.id request.clientHost route.className route.operation
        (requiredPermission route))
      (.ret (httpException 403 (.str ("Missing permission: " ++ requiredPermission route))))

def recordRoute (route : RecordRoute) : ApiProg :=
  .await .connect raised fun _ =>
    accessToken publicOrigin request fun token =>
      getCurrentUser I request token fun user =>
        requireClassOperation request route user
          (.await (.endpoint user) raised fun response => .ret response)

end Dependencies

/-! ## Presentation of the token -/

section Presentation

variable {publicOrigin : Text} {request : ApiRequest}

/-- The request shows the origin and brings the token of its cookie along. -/
structure FromOwnPage (publicOrigin : Text) (request : ApiRequest) : Prop where
  origin : AuthHttp.originIsExactMatch (some (headerValue request "origin")) publicOrigin = true
  cookie : request.cookie csrfCookieName = some (headerValue request "x-csrf-token")
  nonempty : headerValue request "x-csrf-token" ≠ []

inductive Presented (publicOrigin : Text) (request : ApiRequest) : Text → Prop
  | bearer (hcookie : accessCookie request = []) (hbearer : bearerCredentials request ≠ []) :
      Presented publicOrigin request (bearerCredentials request)
  | cookie (hbearer : bearerCredentials request = []) (hcookie : accessCookie request ≠ [])
      (hpage : upper request.method ∈ safeMethods ∨ FromOwnPage publicOrigin request) :
      Presented publicOrigin request (accessCookie request)

/-- How a request ends whose token is not looked at. -/
inductive TokenRefusal (publicOrigin : Text) (request : ApiRequest) :
    List ApiTraceEvent → ApiResponse → Prop
  | dual (hbearer : bearerCredentials request ≠ []) (hcookie : accessCookie request ≠ []) :
      TokenRefusal publicOrigin request [] (httpException 400 (.str "Bad request"))
  | missing (hbearer : bearerCredentials request = []) (hcookie : accessCookie request = []) :
      TokenRefusal publicOrigin request [] (credentialsDenied false)
  | csrf {reason} (stored : Option Unit) (hreason : reason ∈ ["origin_mismatch", "csrf_mismatch"])
      (hmethod : upper request.method ∉ safeMethods)
      (hpage : ¬ FromOwnPage publicOrigin request) :
      TokenRefusal publicOrigin request [.called (.emit (csrfDeniedEvent request reason)) stored]
        (if stored.isSome then httpException 403 (.str "Forbidden")
        else httpException 500 (.str "Audit logging failed"))

theorem always_refuse
    {post : List ApiTraceEvent → ApiResponse → Prop} {reason : String}
    (hreason : reason ∈ ["origin_mismatch", "csrf_mismatch"])
    (hmethod : upper request.method ∉ safeMethods) (hpage : ¬ FromOwnPage publicOrigin request)
    (hrefused : ∀ trace response, TokenRefusal publicOrigin request trace response →
      post trace response) :
    Always (refuse request reason) post := by
  refine always_await.mpr ⟨always_ret.mpr ?_, fun stored => always_ret.mpr ?_⟩
  · exact hrefused _ _ (.csrf none hreason hmethod hpage)
  · exact hrefused _ _ (.csrf (some stored) hreason hmethod hpage)

theorem always_enforceCookieCsrf
    {next : ApiProg} {post : List ApiTraceEvent → ApiResponse → Prop}
    (hrefused : ∀ trace response, TokenRefusal publicOrigin request trace response →
      post trace response)
    (hnext : upper request.method ∈ safeMethods ∨ FromOwnPage publicOrigin request →
      Always next post) :
    Always (enforceCookieCsrf publicOrigin request next) post := by
  unfold enforceCookieCsrf
  split
  · rename_i hsafe
    exact hnext (.inl hsafe)
  rename_i hmethod
  split
  · rename_i horigin
    refine always_refuse (by simp) hmethod ?_ hrefused
    intro hpage
    rw [hpage.origin] at horigin
    cases horigin
  rename_i horigin
  dsimp only
  split
  · rename_i hmismatch
    refine always_refuse (by simp) hmethod ?_ hrefused
    intro hpage
    rw [hpage.cookie, Option.getD_some, AuthHttp.tokensEqual_iff.mpr rfl] at hmismatch
    simp [hpage.nonempty] at hmismatch
  · rename_i hmatch
    simp only [not_or, Bool.not_eq_true', Bool.not_eq_false] at hmatch
    have hequal := AuthHttp.tokensEqual_iff.mp hmatch.2.2
    refine hnext (.inr ⟨by simpa using horigin, ?_, hmatch.2.1⟩)
    rw [← hequal]
    cases hcookie : request.cookie csrfCookieName with
    | none =>
        rw [hcookie] at hmatch
        exact absurd rfl hmatch.1
    | some token => rfl

theorem always_accessToken
    {next : Text → ApiProg} {post : List ApiTraceEvent → ApiResponse → Prop}
    (hrefused : ∀ trace response, TokenRefusal publicOrigin request trace response →
      post trace response)
    (hnext : ∀ token, Presented publicOrigin request token → Always (next token) post) :
    Always (accessToken publicOrigin request next) post := by
  unfold accessToken
  dsimp only
  split
  · rename_i hboth
    exact always_ret.mpr (hrefused _ _ (.dual hboth.1 hboth.2))
  rename_i hboth
  split
  · rename_i hnone
    exact always_ret.mpr (hrefused _ _ (.missing hnone.1 hnone.2))
  rename_i hnone
  split
  · rename_i hcookie
    have hbearer : bearerCredentials request = [] := by
      by_contra hbearer
      exact hboth ⟨hbearer, hcookie⟩
    exact always_enforceCookieCsrf hrefused fun hpage => hnext _ (.cookie hbearer hcookie hpage)
  · rename_i hcookie
    rw [not_not] at hcookie
    exact hnext _ (.bearer hcookie fun hbearer => hnone ⟨hbearer, hcookie⟩)

end Presentation

/-! ## Routes -/

section Routes

variable {I : IntBase16} {publicOrigin : Text} {request : ApiRequest} {route : RecordRoute}

/-- The user is one that the run has found active, by a token that it has found
in force, and has a permission for the operation that the run has looked up. -/
structure Granted (I : IntBase16) (publicOrigin : Text) (request : ApiRequest)
    (route : RecordRoute) (trace : List ApiTraceEvent) (user : ApiUser) (token : Text)
    (payload : AccessTokens.Payload) (permissions : List String) : Prop where
  presented : Presented publicOrigin request token
  verified : .called (.verifyAccessJwt token) (some (.valid payload)) ∈ trace
  found : ∃ userId, AccessTokens.apiUser I payload = some userId ∧
    .called (.fetchUserById userId) (some (some user)) ∈ trace
  active : user.isActive = true
  current : AccessTokens.passwordChangeRequired AccessTokens.apiRules payload = false ∨
    systemConfigSingletonGet request = true
  resolved : .called (.effectivePermissions user.id) (some permissions) ∈ trace
  granted : Search.classOperationGranted permissions route.className route.operation
    route.isPublic = true

/-- The route does its work only for a user to whom it is granted. -/
def Guarded (I : IntBase16) (publicOrigin : Text) (request : ApiRequest) (route : RecordRoute)
    (trace : List ApiTraceEvent) : Prop :=
  ∀ user answer, .called (.endpoint user) answer ∈ trace →
    ∃ token payload permissions,
      Granted I publicOrigin request route trace user token payload permissions

theorem TokenRefusal.no_endpoint
    {trace : List ApiTraceEvent} {response : ApiResponse}
    (h : TokenRefusal publicOrigin request trace response) (user : ApiUser)
    (answer : Option ApiResponse) :
    .called (.endpoint user) answer ∉ trace := by
  cases h with
  | dual hbearer hcookie => exact List.not_mem_nil
  | missing hbearer hcookie => exact List.not_mem_nil
  | csrf stored hreason hmethod hpage => simp

theorem recordRoute_guarded :
    Always (recordRoute I publicOrigin request route) fun trace _ =>
      Guarded I publicOrigin request route trace := by
  have hnone : ∀ {trace : List ApiTraceEvent},
      (∀ user answer, .called (.endpoint user) answer ∉ trace) →
        Guarded I publicOrigin request route trace :=
    fun h user answer hmem => absurd hmem (h user answer)
  unfold recordRoute
  refine always_await.mpr ⟨always_ret.mpr (hnone (by simp)), fun _ => ?_⟩
  refine always_accessToken (fun trace response hrefusal => hnone ?_) fun token hpresented => ?_
  · intro user answer hmem
    cases List.mem_cons.mp hmem with
    | inl heq => cases heq
    | inr hmem => exact hrefusal.no_endpoint user answer hmem
  unfold getCurrentUser
  refine always_await.mpr ⟨always_ret.mpr (hnone (by simp)), fun verified => ?_⟩
  cases verified with
  | invalid => exact always_call.mpr fun _ => always_ret.mpr (hnone (by simp))
  | expired payload => exact always_call.mpr fun _ => always_ret.mpr (hnone (by simp))
  | valid payload =>
      dsimp only
      cases huser : AccessTokens.apiUser I payload with
      | none => exact always_ret.mpr (hnone (by simp))
      | some userId =>
          dsimp only
          split
          · exact always_ret.mpr (hnone (by simp))
          rename_i hcurrent
          refine always_await.mpr ⟨always_ret.mpr (hnone (by simp)), fun loaded => ?_⟩
          cases loaded with
          | none => exact always_call.mpr fun _ => always_ret.mpr (hnone (by simp))
          | some user =>
              dsimp only
              split
              · rename_i hactive
                unfold requireClassOperation
                refine always_await.mpr ⟨always_ret.mpr (hnone (by simp)), fun permissions => ?_⟩
                split
                · rename_i hgranted
                  have hcurrent' : AccessTokens.passwordChangeRequired AccessTokens.apiRules
                      payload = false ∨ systemConfigSingletonGet request = true := by
                    simp only [not_and_or, Bool.not_eq_true, Bool.not_eq_false] at hcurrent
                    exact hcurrent
                  have hserved : ∀ answer, Guarded I publicOrigin request route
                      [.called .connect (some ()),
                        .called (.verifyAccessJwt token) (some (.valid payload)),
                        .called (.fetchUserById userId) (some (some user)),
                        .called (.effectivePermissions user.id) (some permissions),
                        .called (.endpoint user) answer] := by
                    intro answer served other hmem
                    simp at hmem
                    rw [hmem.1]
                    exact ⟨token, payload, permissions, hpresented, by simp,
                      ⟨userId, huser, by simp⟩, hactive, hcurrent', by simp, hgranted⟩
                  exact always_await.mpr ⟨always_ret.mpr (hserved none),
                    fun response => always_ret.mpr (hserved (some response))⟩
                · exact always_call.mpr fun _ => always_ret.mpr (hnone (by simp))
              · exact always_call.mpr fun _ => always_ret.mpr (hnone (by simp))

/-! ### Refusals -/

def emittedEvent : ApiTraceEvent → Option ApiEvent
  | .called (.emit event) _ => some event
  | _ => none

/-- The events that a run has tried to store. -/
def emitted (trace : List ApiTraceEvent) : List ApiEvent := trace.filterMap emittedEvent

/-- What refuses a request, with its events and its answer; only a token that has
expired is answered with `retry`. -/
inductive Refusal (publicOrigin : Text) (request : ApiRequest) (route : RecordRoute) :
    List ApiEvent → ApiResponse → Prop
  | token {trace response} (h : TokenRefusal publicOrigin request trace response) :
      Refusal publicOrigin request route (emitted trace) response
  | invalid : Refusal publicOrigin request route
      [.authnDenied "invalid_access_token" none request.clientHost] (credentialsDenied false)
  | expired : Refusal publicOrigin request route
      [.authnDenied "expired_access_token" none request.clientHost] (credentialsDenied true)
  | mustChange (h : systemConfigSingletonGet request = false) :
      Refusal publicOrigin request route [] mustChange
  | inactive (userId : Option ℕ) : Refusal publicOrigin request route
      [.authnDenied "inactive_or_missing_user" userId request.clientHost] (credentialsDenied false)
  | forbidden (userId : ℕ) : Refusal publicOrigin request route
      [.authzDenied userId request.clientHost route.className route.operation
        (requiredPermission route)]
      (httpException 403 (.str ("Missing permission: " ++ requiredPermission route)))

/-- The route has done its work, something has raised, or the request was
refused with the events that go with it. -/
def Accounted (publicOrigin : Text) (request : ApiRequest) (route : RecordRoute)
    (trace : List ApiTraceEvent) (response : ApiResponse) : Prop :=
  (∃ user answer, .called (.endpoint user) (some answer) ∈ trace ∧ response = answer) ∨
    response = serverError ∨ Refusal publicOrigin request route (emitted trace) response

theorem recordRoute_accounted :
    Always (recordRoute I publicOrigin request route)
      (Accounted publicOrigin request route) := by
  have hraised : ∀ {post : List ApiTraceEvent → ApiResponse → Prop},
      post [] serverError → Always raised post :=
    fun h => always_ret.mpr h
  unfold recordRoute
  refine always_await.mpr ⟨hraised (.inr (.inl rfl)), fun _ => ?_⟩
  refine always_accessToken (fun trace response hrefusal => ?_) fun token hpresented => ?_
  · have h : Refusal publicOrigin request route (emitted trace) response := .token hrefusal
    exact .inr (.inr h)
  unfold getCurrentUser
  refine always_await.mpr ⟨hraised (.inr (.inl rfl)), fun verified => ?_⟩
  cases verified with
  | invalid => exact always_call.mpr fun _ => always_ret.mpr (.inr (.inr .invalid))
  | expired payload => exact always_call.mpr fun _ => always_ret.mpr (.inr (.inr .expired))
  | valid payload =>
      dsimp only
      cases AccessTokens.apiUser I payload with
      | none => exact hraised (.inr (.inl rfl))
      | some userId =>
          dsimp only
          split
          · rename_i hmust
            exact always_ret.mpr (.inr (.inr (.mustChange hmust.2)))
          refine always_await.mpr ⟨hraised (.inr (.inl rfl)), fun loaded => ?_⟩
          cases loaded with
          | none => exact always_call.mpr fun _ => always_ret.mpr (.inr (.inr (.inactive none)))
          | some user =>
              dsimp only
              split
              · unfold requireClassOperation
                refine always_await.mpr ⟨hraised (.inr (.inl rfl)), fun permissions => ?_⟩
                split
                · refine always_await.mpr ⟨hraised (.inr (.inl rfl)), fun response => ?_⟩
                  exact always_ret.mpr (.inl ⟨user, response, by simp, rfl⟩)
                · exact always_call.mpr fun _ =>
                    always_ret.mpr (.inr (.inr (.forbidden user.id)))
              · exact always_call.mpr fun _ =>
                  always_ret.mpr (.inr (.inr (.inactive (some userId))))

end Routes

/-! ## Requests of a page -/

/-- A page of the origin that sends the token it reads is not refused, whatever the
method, if the framework reads that cookie as the auth service does; an `Origin` is
asked of the methods that change something. -/
theorem enforceCookieCsrf_of_jar
    {publicOrigin : Text} {request : ApiRequest} {secure : Bool} {receipts : List Receipt}
    {page target : CookieJar.Target} {token : String} (next : ApiProg)
    (hvalid : ∀ r ∈ receipts, r.Valid)
    (hscheme : secure = true → page.https = true ∧ target.https = true)
    (hpage : page.path.head? = some '/')
    (hpath : target.path.head? = some '/')
    (hcookie : request.cookie csrfCookieName = parseCookieHeader
      (some (CookieJar.Jar.header (receipts.foldl (Receipt.jar secure) []) target))
      csrfCookieName)
    (hheader : request.header "x-csrf-token" = some (csrfTokenFromCookieHeader
      (CookieJar.Jar.documentCookie (receipts.foldl (Receipt.jar secure) []) page)))
    (htoken : (receipts.foldl Receipt.state .empty).csrf = some token) (hne : token ≠ "")
    (horigin : upper request.method ∉ safeMethods →
      AuthHttp.originIsExactMatch (request.header "origin") publicOrigin = true) :
    enforceCookieCsrf publicOrigin request next = next := by
  have hagrees := (Agrees.empty secure).run hvalid
  have hsent := (hagrees.csrf_on_the_wire (fun h => (hscheme h).2) hpath htoken).1
  have hread := (hagrees.csrf_on_the_wire (fun h => (hscheme h).1) hpage htoken).2
  have hcookie' : request.cookie csrfCookieName = some token.toList := hcookie.trans hsent
  have hheader' : headerValue request "x-csrf-token" = token.toList := by
    rw [headerValue, hheader, hread]
    rfl
  have horigin' : upper request.method ∉ safeMethods →
      AuthHttp.originIsExactMatch (some (headerValue request "origin")) publicOrigin = true := by
    intro hmethod
    have hshown := horigin hmethod
    rw [headerValue]
    cases hvalue : request.header "origin" with
    | none =>
        rw [hvalue] at hshown
        cases hshown
    | some origin =>
        rw [hvalue] at hshown
        exact hshown
  have hpass : ¬ (token.toList = [] ∨ token.toList = [] ∨
      (!AuthHttp.tokensEqual token.toList token.toList) = true) := by
    rw [AuthHttp.tokensEqual_iff.mpr rfl]
    simp [hne]
  unfold enforceCookieCsrf
  rw [hcookie', hheader', Option.getD_some]
  split
  · rfl
  · rename_i hmethod
    rw [horigin' hmethod]
    exact if_neg hpass

def recordTarget : CookieJar.Target := ⟨true, "/api/v2/incident/INC1".toList, 5000⟩

/-- The page of a browser that has logged in saves a record. -/
def savingRequest : ApiRequest where
  method := "PATCH"
  path := "/api/v2/incident/INC1"
  header := fun name =>
    if name = "origin" then some AuthHttp.sampleConfig.publicOrigin
    else if name = "x-csrf-token" then
      some (csrfTokenFromCookieHeader (AuthHttp.pageJar.documentCookie AuthHttp.pageTarget))
    else none
  cookie := parseCookieHeader (some (AuthHttp.pageJar.header recordTarget))
  clientHost := none

theorem enforceCookieCsrf_of_jar_saving :
    enforceCookieCsrf AuthHttp.sampleConfig.publicOrigin savingRequest raised = raised := by
  apply @enforceCookieCsrf_of_jar AuthHttp.sampleConfig.publicOrigin savingRequest true
    loggedInReceipts AuthHttp.pageTarget recordTarget "c1" raised
  · exact loggedInReceipts_valid
  · exact fun _ => ⟨rfl, rfl⟩
  · rfl
  · rfl
  · rfl
  · rfl
  · rfl
  · decide
  · exact fun _ => by decide

end Untangled.ApiGate
