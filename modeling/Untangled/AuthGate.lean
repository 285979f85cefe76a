import Untangled.AuthHttp

/-!
# What the auth service does for whom

Every run of `handle_request`: nothing is changed but for a request that shows
its origin and its token, a refusal is audited before it is answered, and the
cookies of a log-in are those of a session that was stored.
-/

namespace Untangled.AuthHttp

open CookieJar (Text)
open Datetime Forwarded SessionCookies RequestProgram
open RequestProgram.Prog
  (Run Always always_ret always_await always_acquire always_release Always.mono)

/-! ## The gate -/

section Gate

variable (P : Platform) (config : HttpConfig) (request : HttpRequest)

/-- The request shows that it comes from a page of the origin: its token is that
of the cookie. -/
structure Presents (route : Route) (fields : Fields) (token : Text) : Prop where
  fits : request.chunks.flatten.length ≤ maxBodyBytes
  origin : originIsExactMatch (request.header "origin") config.publicOrigin = true
  parsed : parseBody P route.schema request (P.decodeUtf8 request.chunks.flatten) = some fields
  cookie : request.cookies csrfCookieName = some token
  submitted : submittedCsrfToken request fields = token
  nonempty : token ≠ []

inductive Refusal (route : Route) : CsrfDenial → Option Text → Prop
  | origin (hfits : request.chunks.flatten.length ≤ maxBodyBytes)
      (horigin : originIsExactMatch (request.header "origin") config.publicOrigin = false) :
      Refusal route .originMismatch none
  | token {fields} (hfits : request.chunks.flatten.length ≤ maxBodyBytes)
      (horigin : originIsExactMatch (request.header "origin") config.publicOrigin = true)
      (hparsed : parseBody P route.schema request (P.decodeUtf8 request.chunks.flatten) =
        some fields)
      (htoken : ∀ token, ¬ Presents P config request route fields token) :
      Refusal route .csrfMismatch (if route.namesUser then fields.text "username" else none)

/-- How a request ends that passes the gate or does not. -/
inductive Gate (route : Route) (admitted : Fields → Text → HttpProg) :
    List HttpEvent → HttpResponse → Prop
  | tooLarge (hlarge : maxBodyBytes < request.chunks.flatten.length) :
      Gate route admitted [] (detail 413 route.tooLarge)
  | refused {reason username} (stored : Option Unit)
      (hrefusal : Refusal P config request route reason username) :
      Gate route admitted
        [.called (.emitCsrfDenied
          (csrfDeniedEvent config request reason route.contextPath username)) stored]
        (if stored.isSome then detail 403 "Forbidden" else detail 500 "Internal error")
  | malformed (horigin : originIsExactMatch (request.header "origin") config.publicOrigin = true)
      (hparsed : parseBody P route.schema request (P.decodeUtf8 request.chunks.flatten) = none) :
      Gate route admitted [] (detail 400 route.malformed)
  | admitted {fields token trace response} (hpresents : Presents P config request route fields token)
      (hrun : Run (admitted fields token) trace response) :
      Gate route admitted trace response

variable {P config request} {trace : List HttpEvent} {response : HttpResponse} {route : Route}

theorem Gate.of_refused
    {admitted : Fields → Text → HttpProg} {reason : CsrfDenial} {username : Option Text}
    (hrefusal : Refusal P config request route reason username)
    (h : Run (refuseCsrfOrigin config request reason route.contextPath username) trace response) :
    Gate P config request route admitted trace response := by
  obtain ⟨stored, rest, htrace, hrest⟩ := Prog.run_call.mp h
  have hgate := @Gate.refused P config request route admitted reason username stored hrefusal
  cases stored with
  | none =>
      obtain ⟨hnil, hresponse⟩ := Prog.run_ret.mp hrest
      rw [htrace, hnil, hresponse]
      exact hgate
  | some answer =>
      obtain ⟨hnil, hresponse⟩ := Prog.run_ret.mp hrest
      rw [htrace, hnil, hresponse]
      exact hgate

theorem run_gated
    {admitted : Fields → Text → HttpProg}
    (h : Run (gated P config request route admitted) trace response) :
    Gate P config request route admitted trace response := by
  unfold gated at h
  rw [readBody_eq] at h
  by_cases hfits : request.chunks.flatten.length ≤ maxBodyBytes
  · rw [if_pos hfits] at h
    dsimp only at h
    cases horigin : originIsExactMatch (request.header "origin") config.publicOrigin with
    | false =>
        rw [horigin] at h
        exact .of_refused (.origin hfits horigin) h
    | true =>
        rw [horigin] at h
        simp only [Bool.not_true, Bool.false_eq_true, if_false] at h
        cases hparsed : parseBody P route.schema request
            (P.decodeUtf8 request.chunks.flatten) with
        | none =>
            rw [hparsed] at h
            obtain ⟨hnil, hresponse⟩ := Prog.run_ret.mp h
            rw [hnil, hresponse]
            exact .malformed horigin hparsed
        | some fields =>
            rw [hparsed] at h
            dsimp only at h
            split at h
            · rename_i hmismatch
              refine .of_refused (.token hfits horigin hparsed ?_) h
              intro token hpresents
              rw [hpresents.cookie, hpresents.submitted, Option.getD_some,
                tokensEqual_iff.mpr rfl] at hmismatch
              simp [hpresents.nonempty] at hmismatch
            · rename_i hmatch
              simp only [not_or, Bool.not_eq_true', Bool.not_eq_false] at hmatch
              refine .admitted ⟨hfits, horigin, hparsed, ?_, ?_, hmatch.1⟩ h
              · cases hcookie : request.cookies csrfCookieName with
                | none =>
                    rw [hcookie] at hmatch
                    exact absurd rfl hmatch.1
                | some token => rfl
              · exact (tokensEqual_iff.mp hmatch.2.2).symm
  · rw [if_neg hfits] at h
    obtain ⟨hnil, hresponse⟩ := Prog.run_ret.mp h
    rw [hnil, hresponse]
    exact .tooLarge (Nat.lt_of_not_le hfits)

/-! ### What the gate is in front of -/

def routes : List Route := [loginRoute, refreshRoute, logoutRoute, changePasswordRoute]

/-- The request goes to the handler of the route. -/
structure Posts (request : HttpRequest) (route : Route) : Prop where
  mem : route ∈ routes
  method : request.method = "POST"
  path : request.pathname = some route.contextPath

/-- Operations that neither change a session or a password nor sign a token. -/
def HttpOp.harmless : HttpOp → Bool
  | .randomToken => true
  | .emitCsrfDenied _ => true
  | .verifyAccessJwt _ => true
  | .loadById _ => true
  | .rolesAndPermissions _ => true
  | _ => false

def Harmless : HttpEvent → Prop
  | .called op _ => op.harmless = true
  | _ => False

/-- A run that changes nothing and gives out no session, at most a new token. -/
def Inert (trace : List HttpEvent) (response : HttpResponse) : Prop :=
  (∀ event ∈ trace, Harmless event) ∧
    ∀ c ∈ response.setCookies, c.slot = .csrf ∧ response.status = 200

theorem Inert.cons
    {event : HttpEvent}
    (h : Inert trace response) (hevent : Harmless event) :
    Inert (event :: trace) response :=
  ⟨List.forall_mem_cons.mpr ⟨hevent, h.1⟩, h.2⟩

theorem inert_of_noCookies
    (h : response.setCookies = []) :
    Inert [] response := by
  constructor
  · exact List.forall_mem_nil _
  · rw [h]
    exact List.forall_mem_nil _

theorem handleRequest_post
    {path : String}
    (hmethod : request.method = "POST") (hpath : request.pathname = some path) :
    handleRequest P config request =
      if path = loginRoute.contextPath then handleLogin P config request
      else if path = refreshRoute.contextPath then handleRefresh P config request
      else if path = logoutRoute.contextPath then handleLogout P config request
      else if path = changePasswordRoute.contextPath then handleChangePassword P config request
      else .ret (detail 404 "Not found") := by
  unfold handleRequest
  rw [hpath, hmethod]
  simp only [true_and, ne_eq, not_true_eq_false, and_false, if_false, String.reduceEq, false_and]
  rfl

/-- What the handlers do behind the gate. -/
inductive Handles (config : HttpConfig) (request : HttpRequest) :
    Route → (Fields → Text → HttpProg) → Prop
  | login : Handles config request loginRoute (loginAdmitted config request)
  | refresh : Handles config request refreshRoute (refreshAdmitted config request)
  | logout : Handles config request logoutRoute (logoutAdmitted config request)
  | changePassword :
      Handles config request changePasswordRoute (changePasswordAdmitted config request)

theorem handleRequest_posts
    (h : Posts request route) :
    ∃ admitted, Handles config request route admitted ∧
      handleRequest P config request = gated P config request route admitted := by
  have hmem := h.mem
  simp only [routes, List.mem_cons, List.not_mem_nil, or_false] at hmem
  rw [handleRequest_post h.method h.path]
  rcases hmem with rfl | rfl | rfl | rfl
  · rw [if_pos rfl]
    exact ⟨_, .login, rfl⟩
  · rw [if_neg (by decide), if_pos rfl]
    exact ⟨_, .refresh, rfl⟩
  · rw [if_neg (by decide), if_neg (by decide), if_pos rfl]
    exact ⟨_, .logout, rfl⟩
  · rw [if_neg (by decide), if_neg (by decide), if_neg (by decide), if_pos rfl]
    exact ⟨_, .changePassword, rfl⟩

theorem handleCsrf_inert : Always handleCsrf Inert := by
  unfold handleCsrf internalError
  simp only [always_await, always_ret]
  refine ⟨Inert.cons (inert_of_noCookies rfl) rfl, fun token => Inert.cons ?_ rfl⟩
  refine ⟨List.forall_mem_nil _, ?_⟩
  intro c hc
  rw [List.mem_singleton.mp hc]
  exact ⟨rfl, rfl⟩

theorem always_withAccess
    {next : AccessTokens.Payload → HttpProg} {post : List HttpEvent → HttpResponse → Prop}
    (hdenied : ∀ trace response, Inert trace response → response.setCookies = [] →
      post trace response)
    (hnext : ∀ payload, Always (next payload) fun trace response =>
      ∀ event, Harmless event → post (event :: trace) response) :
    Always (withAccess request next) post := by
  have hstop : ∀ {token answer} {response : HttpResponse}, response.setCookies = [] →
      post [.called (.verifyAccessJwt token) answer] response := by
    intro token answer response hnone
    exact hdenied _ _ (.cons (inert_of_noCookies hnone) rfl) hnone
  unfold withAccess internalError
  cases accessTokenFromRequest request with
  | none => exact always_ret.mpr (hdenied _ _ (inert_of_noCookies rfl) rfl)
  | some token =>
      refine always_await.mpr ⟨always_ret.mpr (hstop rfl), ?_⟩
      intro verified
      cases verified with
      | valid payload => exact (hnext payload).mono fun _ _ h => h _ rfl
      | expired payload => exact always_ret.mpr (hstop rfl)
      | invalid => exact always_ret.mpr (hstop rfl)

theorem handleMe_inert : Always (handleMe request) Inert := by
  unfold handleMe internalError
  refine always_withAccess (fun _ _ hinert _ => hinert) fun payload => ?_
  refine Always.mono ?_ fun _ _ hinert event hevent => Inert.cons hinert hevent
  simp only [always_await, always_ret]
  refine ⟨Inert.cons (inert_of_noCookies rfl) rfl, ?_⟩
  intro loaded
  cases loaded with
  | none => exact always_ret.mpr (.cons (inert_of_noCookies rfl) rfl)
  | some user =>
      cases hactive : user.isActive with
      | false =>
          simp only [hactive, Bool.not_false, if_true]
          exact always_ret.mpr (.cons (inert_of_noCookies rfl) rfl)
      | true =>
          simp only [hactive, Bool.not_true, Bool.false_eq_true, if_false, always_await, always_ret]
          exact ⟨.cons (.cons (inert_of_noCookies rfl) rfl) rfl,
            fun rbac => .cons (.cons (inert_of_noCookies rfl) rfl) rfl⟩

/-- What is not behind the gate changes nothing. -/
theorem handleRequest_inert
    (h : ∀ route, ¬ Posts request route) :
    Always (handleRequest P config request) Inert := by
  have hstop : ∀ {status payload}, Always (.ret (json status payload) : HttpProg) Inert := by
    intro status payload
    exact always_ret.mpr (inert_of_noCookies rfl)
  have hnot : ∀ {route path}, request.pathname = some path → route ∈ routes →
      ¬ (request.method = "POST" ∧ path = route.contextPath) := by
    intro route path hpath hmem hposts
    exact h route ⟨hmem, hposts.1, hpath.trans (congrArg some hposts.2)⟩
  unfold handleRequest
  cases hpath : request.pathname with
  | none => exact hstop
  | some path =>
      have hlogin : ¬ (request.method = "POST" ∧ path = loginPath) :=
        @hnot loginRoute path hpath (by simp [routes])
      have hrefresh : ¬ (request.method = "POST" ∧ path = refreshPath) :=
        @hnot refreshRoute path hpath (by simp [routes])
      have hlogout : ¬ (request.method = "POST" ∧ path = logoutPath) :=
        @hnot logoutRoute path hpath (by simp [routes])
      have hchange : ¬ (request.method = "POST" ∧ path = changePasswordPath) :=
        @hnot changePasswordRoute path hpath (by simp [routes])
      dsimp only
      rw [if_neg hlogin, if_neg hrefresh, if_neg hlogout, if_neg hchange]
      split
      · exact hstop
      split
      · exact handleCsrf_inert
      split
      · exact hstop
      split
      · exact hstop
      split
      · exact handleMe_inert
      · exact hstop

/-- Nothing is changed and no session given out but for a request that shows its
origin and its token. -/
theorem handleRequest_guarded :
    Always (handleRequest P config request) fun trace response =>
      Inert trace response ∨ ∃ route fields token,
        Posts request route ∧ Presents P config request route fields token := by
  intro trace response h
  by_cases hposts : ∃ route, Posts request route
  · obtain ⟨route, hposts⟩ := hposts
    obtain ⟨admitted, hhandles, hadmitted⟩ := @handleRequest_posts P config request route hposts
    rw [hadmitted] at h
    cases run_gated h with
    | tooLarge hlarge => exact .inl (inert_of_noCookies rfl)
    | refused stored hrefusal =>
        refine .inl (Inert.cons (inert_of_noCookies ?_) rfl)
        cases stored with
        | none => rfl
        | some answer => rfl
    | malformed horigin hparsed => exact .inl (inert_of_noCookies rfl)
    | admitted hpresents hrun => exact .inr ⟨route, _, _, hposts, hpresents⟩
  · exact .inl (@handleRequest_inert P config request (not_exists.mp hposts) trace response h)

/-- A refusal is audited before it is answered, and nothing else is called. -/
theorem handleRequest_refused
    (h : Run (handleRequest P config request) trace response)
    (hposts : Posts request route)
    (hfits : request.chunks.flatten.length ≤ maxBodyBytes)
    (hread : originIsExactMatch (request.header "origin") config.publicOrigin = true →
      parseBody P route.schema request (P.decodeUtf8 request.chunks.flatten) ≠ none)
    (hnot : ∀ fields token, ¬ Presents P config request route fields token) :
    ∃ username stored,
      trace = [.called (.emitCsrfDenied (csrfDeniedEvent config request
        (if originIsExactMatch (request.header "origin") config.publicOrigin then .csrfMismatch
        else .originMismatch) route.contextPath username)) stored] ∧
        response = if stored.isSome then detail 403 "Forbidden"
          else detail 500 "Internal error" := by
  obtain ⟨admitted, hhandles, hadmitted⟩ := @handleRequest_posts P config request route hposts
  rw [hadmitted] at h
  cases run_gated h with
  | tooLarge hlarge => exact absurd hfits (Nat.not_le_of_lt hlarge)
  | @refused reason username stored hrefusal =>
      refine ⟨username, stored, ?_, rfl⟩
      cases hrefusal with
      | origin hfits horigin => rw [horigin, if_neg Bool.false_ne_true]
      | token hfits horigin hparsed htoken => rw [horigin, if_pos rfl]
  | malformed horigin hparsed => exact absurd hparsed (hread horigin)
  | admitted hpresents hrun => exact absurd hpresents (hnot _ _)

section Forged

def samplePlatform : Platform where
  decodeUtf8 := fun bytes => (String.fromUTF8? ⟨bytes.toArray⟩).getD ""
  parseJson := fun _ => none
  formEntries := fun _ => []

def sampleConfig : HttpConfig where
  publicOrigin := "https://app.example".toList
  parsedOrigin := some ("https".toList, "app.example".toList)

/-- A log-out without a body. -/
def logoutRequest (header : String → Option Text) : HttpRequest where
  method := "POST"
  pathname := some logoutPath
  header := header
  chunks := []
  remoteAddress := none

theorem posts_logoutRequest (header : String → Option Text) :
    Posts (logoutRequest header) logoutRoute where
  mem := by simp [routes]
  method := rfl
  path := rfl

/-- A form of another site, posted with the cookies of the browser. -/
def forgedRequest : HttpRequest :=
  logoutRequest fun name =>
    if name = "origin" then some "https://evil.example".toList
    else if name = "cookie" then some "__untangled_csrf=c1".toList
    else none

def sampleAnswers : (op : HttpOp) → HttpAns op
  | .randomToken => "c2"
  | .emitCsrfDenied _ => ()
  | .getSettings => Auth.defaultSettings
  | .runLogin _ _ _ => .denied
  | .newDate => 0
  | .newUuid7 _ => 1
  | .mintRefreshToken => "r1"
  | .hmacRefreshToken _ => "h1"
  | .createSession _ => ()
  | .signLogin _ _ _ _ _ => "a1"
  | .runRefresh _ _ _ => .hard
  | .runLogout _ _ => .success
  | .verifyAccessJwt _ => .invalid
  | .loadById _ => none
  | .rolesAndPermissions _ => ([], [])
  | .executeChangePassword _ => .missingUser
  | .emitPasswordChange _ => ()
  | .signAgain _ _ _ => "a2"

theorem handleRequest_refused_forged :
    let run := Prog.play sampleAnswers true
      (handleRequest samplePlatform sampleConfig forgedRequest)
    ∃ username stored,
      run.1 = [.called (.emitCsrfDenied (csrfDeniedEvent sampleConfig forgedRequest
        .originMismatch logoutPath username)) stored] ∧
        run.2 = if stored.isSome then detail 403 "Forbidden"
          else detail 500 "Internal error" := by
  intro run
  have hforeign : originIsExactMatch (forgedRequest.header "origin") sampleConfig.publicOrigin =
      false := by
    decide
  have h := handleRequest_refused
    (Prog.play_run sampleAnswers true (handleRequest samplePlatform sampleConfig forgedRequest))
    (posts_logoutRequest _) (by decide)
    (fun horigin => absurd (hforeign.symm.trans horigin) Bool.false_ne_true)
    (fun _ _ hpresents => absurd (hforeign.symm.trans hpresents.origin) Bool.false_ne_true)
  rw [hforeign, if_neg Bool.false_ne_true] at h
  exact h

end Forged

theorem gated_of_presents
    {admitted : Fields → Text → HttpProg} {fields : Fields} {token : Text}
    (h : Presents P config request route fields token) :
    gated P config request route admitted = admitted fields token := by
  have hpass : ¬ (token = [] ∨ token = [] ∨ (!tokensEqual token token) = true) := by
    rw [tokensEqual_iff.mpr rfl]
    simp [h.nonempty]
  unfold gated
  rw [readBody_eq, if_pos h.fits]
  simp only [h.origin, h.parsed, h.cookie, h.submitted, Option.getD_some, Bool.not_true,
    Bool.false_eq_true, if_false]
  exact if_neg hpass

/-- A page of the origin that sends the token it reads beside the cookies of the
browser gets through with a body that fits and parses; the page has a path and a
time of its own. -/
theorem gated_of_jar
    {secure : Bool} {receipts : List Receipt} {page target : CookieJar.Target} {fields : Fields}
    {token : String} {admitted : Fields → Text → HttpProg}
    (hvalid : ∀ r ∈ receipts, r.Valid)
    (hscheme : secure = true → page.https = true ∧ target.https = true)
    (hpage : page.path.head? = some '/')
    (hpath : target.path.head? = some '/')
    (hcookie : request.header "cookie" =
      some (CookieJar.Jar.header (receipts.foldl (Receipt.jar secure) []) target))
    (hheader : request.header "x-csrf-token" = some (csrfTokenFromCookieHeader
      (CookieJar.Jar.documentCookie (receipts.foldl (Receipt.jar secure) []) page)))
    (htoken : (receipts.foldl Receipt.state .empty).csrf = some token) (hne : token ≠ "")
    (horigin : originIsExactMatch (request.header "origin") config.publicOrigin = true)
    (hfits : request.chunks.flatten.length ≤ maxBodyBytes)
    (hparsed : parseBody P route.schema request (P.decodeUtf8 request.chunks.flatten) =
      some fields) :
    gated P config request route admitted = admitted fields token.toList := by
  have hagrees := (Agrees.empty secure).run hvalid
  have hsent := (hagrees.csrf_on_the_wire (fun h => (hscheme h).2) hpath htoken).1
  have hread := (hagrees.csrf_on_the_wire (fun h => (hscheme h).1) hpage htoken).2
  have hne' : token.toList ≠ [] := by
    rw [Ne, String.toList_eq_nil_iff]
    exact hne
  apply gated_of_presents
  refine ⟨hfits, horigin, hparsed, ?_, ?_, hne'⟩
  · rw [HttpRequest.cookies, hcookie]
    exact hsent
  · rw [submittedCsrfToken, hheader, hread]
    exact if_pos hne'

/-- The page of a browser that has logged in logs out. -/
def pageTarget : CookieJar.Target := ⟨true, "/tickets".toList, 4000⟩

def logoutTarget : CookieJar.Target := ⟨true, logoutPath.toList, 5000⟩

def pageJar : CookieJar.Jar := loggedInReceipts.foldl (Receipt.jar true) []

def pageRequest : HttpRequest :=
  logoutRequest fun name =>
    if name = "origin" then some sampleConfig.publicOrigin
    else if name = "cookie" then some (pageJar.header logoutTarget)
    else if name = "x-csrf-token" then
      some (csrfTokenFromCookieHeader (pageJar.documentCookie pageTarget))
    else none

theorem gated_of_jar_page :
    gated samplePlatform sampleConfig pageRequest logoutRoute
        (logoutAdmitted sampleConfig pageRequest) =
      logoutAdmitted sampleConfig pageRequest [] "c1".toList := by
  apply @gated_of_jar samplePlatform sampleConfig pageRequest logoutRoute true loggedInReceipts
    pageTarget logoutTarget [] "c1"
  · exact loggedInReceipts_valid
  · exact fun _ => ⟨rfl, rfl⟩
  · rfl
  · rfl
  · rfl
  · rfl
  · rfl
  · decide
  · decide
  · decide
  · rfl

/-! ## The session of a log-in -/

/-- The response sets no cookie and is no success. -/
def Declined (response : HttpResponse) : Prop :=
  response.setCookies = [] ∧ 400 ≤ response.status

theorem declined_detail
    {status : ℕ} {text : String}
    (h : 400 ≤ status) :
    Declined (detail status text) :=
  ⟨rfl, h⟩

/-- The browser is to be sent to a path that no header carries. -/
def Stranded (request : HttpRequest) (fields : Fields) : Prop :=
  wantsJson request = false ∧ (nextPath fields).all headerChar = false

/-- The cookies are those of a session that was stored, with a token for its id
and its user; a refresh token comes where its HMAC is in the row. -/
structure SessionGiven (request : HttpRequest) (fields : Fields)
    (settings : Auth.AuthRuntimeSettings) (userId : Auth.Uuid) (mustChange : Bool)
    (cookieToken : Text) (trace : List HttpEvent) (response : HttpResponse)
    (now : ℤ) (session : Auth.NewUserSession) (refresh : Option (String × String × ℤ))
    (access : String) : Prop where
  stored : .called (.createSession session) (some ()) ∈ trace
  user : session.userId = userId
  hmac : session.refreshHmac = refresh.map fun r => r.2.1
  signed : .called (.signLogin userId settings.sessionAccessTtlSeconds now session.id mustChange)
    (some access) ∈ trace
  success : ¬ Stranded request fields → response.status < 400
  stranded : Stranded request fields → response.status = 500
  cookies : ∃ accessMaxAge,
    response.setCookies = [.csrf (String.ofList cookieToken), .access access accessMaxAge] ++
      (refresh.map fun r => .refresh r.1 r.2.2).toList

/-- The run declines, or gives a session with a refresh token of its own unless
the password has to be changed. -/
def Concludes (request : HttpRequest) (fields : Fields) (settings : Auth.AuthRuntimeSettings)
    (userId : Auth.Uuid) (mustChange : Bool) (cookieToken : Text) (trace : List HttpEvent)
    (response : HttpResponse) : Prop :=
  Declined response ∨ ∃ now session refresh access,
    SessionGiven request fields settings userId mustChange cookieToken trace response now
        session refresh access ∧
      refresh.isSome = !mustChange ∧
      ∀ r ∈ refresh, .called .mintRefreshToken (some r.1) ∈ trace ∧
        .called (.hmacRefreshToken r.1) (some r.2.1) ∈ trace

section Issue

variable {fields : Fields} {settings : Auth.AuthRuntimeSettings} {userId : Auth.Uuid}
  {mustChange : Bool} {cookieToken : Text} {now : ℤ} {session : Auth.NewUserSession}
  {refresh : Option (String × String × ℤ)} {access : String}

theorem SessionGiven.cons
    (h : SessionGiven request fields settings userId mustChange cookieToken trace response now
      session refresh access)
    (event : HttpEvent) :
    SessionGiven request fields settings userId mustChange cookieToken (event :: trace) response
      now session refresh access :=
  { h with
    stored := List.mem_cons_of_mem event h.stored
    signed := List.mem_cons_of_mem event h.signed }

theorem Concludes.cons
    (h : Concludes request fields settings userId mustChange cookieToken trace response)
    (event : HttpEvent) :
    Concludes request fields settings userId mustChange cookieToken (event :: trace)
      response := by
  cases h with
  | inl hdeclined => exact .inl hdeclined
  | inr hgiven =>
      obtain ⟨now, session, refresh, access, hgiven, hrefresh, hminted⟩ := hgiven
      refine .inr ⟨now, session, refresh, access, hgiven.cons event, hrefresh, ?_⟩
      intro r hr
      exact ⟨List.mem_cons_of_mem event (hminted r hr).1,
        List.mem_cons_of_mem event (hminted r hr).2⟩

theorem always_internalError
    {post : List HttpEvent → HttpResponse → Prop}
    (h : ∀ response, Declined response → post [] response) :
    Always internalError post :=
  always_ret.mpr (h _ (declined_detail (by decide)))

theorem loggedIn_success
    (h : ¬ Stranded request fields) :
    (loggedIn request fields).status < 400 := by
  unfold loggedIn redirect
  cases hjson : wantsJson request with
  | true => exact Nat.lt_of_sub_eq_succ rfl
  | false =>
      rw [if_neg Bool.false_ne_true]
      split
      · exact Nat.lt_of_sub_eq_succ rfl
      · rename_i hlocation
        exact absurd ⟨hjson, Bool.eq_false_iff.mpr hlocation⟩ h

theorem loggedIn_stranded
    (h : Stranded request fields) :
    (loggedIn request fields).status = 500 := by
  rw [loggedIn, h.1, if_neg Bool.false_ne_true, redirect, h.2, if_neg Bool.false_ne_true]
  rfl

theorem storeSession_gives
    {times : Auth.LoginSessionTimes} {sid : Auth.Uuid}
    (htimes : times.jwtTtlSeconds = settings.sessionAccessTtlSeconds) :
    Always
      (storeSession config request times userId mustChange fields cookieToken now sid refresh)
      fun trace response => Declined response ∨ ∃ session access,
        SessionGiven request fields settings userId mustChange cookieToken trace response now
          session refresh access := by
  unfold storeSession
  refine always_await.mpr ⟨always_internalError fun _ h => .inl h, fun _ => ?_⟩
  refine always_await.mpr ⟨always_internalError fun _ h => .inl h, fun token => ?_⟩
  refine always_ret.mpr (.inr ⟨newSession config request times userId sid
    (refresh.map fun r => r.2.1), token, ?_⟩)
  constructor
  · exact List.mem_cons_self
  · rfl
  · rfl
  · rw [← htimes]
    exact List.mem_cons_of_mem _ List.mem_cons_self
  · exact loggedIn_success
  · exact loggedIn_stranded
  · exact ⟨times.accessMaxAge, rfl⟩

theorem loginSessionTimes_jwt (access refresh total : ℤ) :
    (Auth.loginSessionTimes now access refresh total mustChange).jwtTtlSeconds = access := by
  cases mustChange with
  | false => rfl
  | true => rfl

theorem loginSessionTimes_refresh (access refresh total : ℤ) :
    (Auth.loginSessionTimes now access refresh total mustChange).refreshMaxAge.isSome =
      !mustChange := by
  cases mustChange with
  | false => rfl
  | true => rfl

theorem issueSession_concludes :
    Always (issueSession config request settings userId mustChange fields cookieToken)
      (Concludes request fields settings userId mustChange cookieToken) := by
  unfold issueSession
  refine always_await.mpr ⟨always_internalError fun _ h => .inl h, fun now => ?_⟩
  refine always_await.mpr ⟨always_internalError fun _ h => .inl h, fun sid => ?_⟩
  have hsome := @loginSessionTimes_refresh mustChange now settings.sessionAccessTtlSeconds
    settings.sessionRefreshTtlSeconds settings.sessionTotalTtlSeconds
  have hjwt := @loginSessionTimes_jwt mustChange now settings.sessionAccessTtlSeconds
    settings.sessionRefreshTtlSeconds settings.sessionTotalTtlSeconds
  generalize Auth.loginSessionTimes now settings.sessionAccessTtlSeconds
    settings.sessionRefreshTtlSeconds settings.sessionTotalTtlSeconds mustChange = times at *
  unfold mintRefresh
  cases hage : times.refreshMaxAge with
  | none =>
      rw [hage] at hsome
      refine (storeSession_gives hjwt).mono fun trace response h => ?_
      cases h with
      | inl hdeclined => exact .inl hdeclined
      | inr hgiven =>
          obtain ⟨session, access, hgiven⟩ := hgiven
          exact .inr ⟨now, session, none, access, (hgiven.cons _).cons _, hsome, by simp⟩
  | some maxAge =>
      rw [hage] at hsome
      refine always_await.mpr ⟨always_internalError fun _ h => .inl h, fun token => ?_⟩
      refine always_await.mpr ⟨always_internalError fun _ h => .inl h, fun hmac => ?_⟩
      refine (storeSession_gives hjwt).mono fun trace response h => ?_
      cases h with
      | inl hdeclined => exact .inl hdeclined
      | inr hgiven =>
          obtain ⟨session, access, hgiven⟩ := hgiven
          refine .inr ⟨now, session, some (token, hmac, maxAge), access,
            (((hgiven.cons _).cons _).cons _).cons _, hsome, ?_⟩
          intro r hr
          cases hr
          simp

end Issue

theorem loginAdmitted_session
    (fields : Fields) (token : Text) :
    Always (loginAdmitted config request fields token) fun trace response =>
      Declined response ∨ ∃ settings userId mustChange,
        .called (.runLogin ((fields.text "username").getD []) ((fields.text "password").getD [])
          (context config request loginPath)) (some (.success userId mustChange)) ∈ trace ∧
        Concludes request fields settings userId mustChange token trace response := by
  unfold loginAdmitted
  refine always_await.mpr ⟨always_internalError fun _ h => .inl h, fun settings => ?_⟩
  refine always_await.mpr ⟨always_internalError fun _ h => .inl h, fun result => ?_⟩
  cases result with
  | success userId mustChange =>
      refine issueSession_concludes.mono fun trace response h => ?_
      exact .inr ⟨settings, userId, mustChange, by simp, (h.cons _).cons _⟩
  | denied => exact always_ret.mpr (.inl (declined_detail (by decide)))
  | capacity => exact always_ret.mpr (.inl (declined_detail (by decide)))
  | internalError => exact always_internalError fun _ h => .inl h

/-- A log-in gives out cookies only for a session that it has stored for the
user whose password it has checked, and only if the request got through; it is a
success unless the browser cannot be sent on. -/
theorem handleLogin_session :
    Always (handleLogin P config request) fun trace response =>
      Declined response ∨ ∃ fields token settings userId mustChange,
        Presents P config request loginRoute fields token ∧
        .called (.runLogin ((fields.text "username").getD []) ((fields.text "password").getD [])
          (context config request loginPath)) (some (.success userId mustChange)) ∈ trace ∧
        Concludes request fields settings userId mustChange token trace response := by
  intro trace response h
  cases run_gated h with
  | tooLarge hlarge => exact .inl (declined_detail (by decide))
  | refused stored hrefusal =>
      cases stored with
      | none => exact .inl (declined_detail (by decide))
      | some answer => exact .inl (declined_detail (by decide))
  | malformed horigin hparsed => exact .inl (declined_detail (by decide))
  | @admitted fields token trace response hpresents hrun =>
      cases loginAdmitted_session fields token trace response hrun with
      | inl hdeclined => exact .inl hdeclined
      | inr hgiven =>
          obtain ⟨settings, userId, mustChange, hcalled, hconcludes⟩ := hgiven
          exact .inr ⟨fields, token, settings, userId, mustChange, hpresents, hcalled, hconcludes⟩

/-! ## Cookies of a failure -/

/-- A change of password, the event of which could not be stored. -/
def ChangeUnrecorded (trace : List HttpEvent) : Prop :=
  ∃ args effect username event,
    .called (.executeChangePassword args) (some (.ok effect username)) ∈ trace ∧
    .called (.emitPasswordChange event) none ∈ trace

/-- A log-in with a stored session, after which the browser cannot be sent on. -/
def LoginStranded (P : Platform) (config : HttpConfig) (request : HttpRequest)
    (trace : List HttpEvent) : Prop :=
  ∃ fields token username password ctx userId mustChange session,
    Presents P config request loginRoute fields token ∧ Stranded request fields ∧
    .called (.runLogin username password ctx) (some (.success userId mustChange)) ∈ trace ∧
    .called (.createSession session) (some ()) ∈ trace ∧ session.userId = userId

/-- A response that is no success sets cookies only in these two cases. -/
def Sparing (P : Platform) (config : HttpConfig) (request : HttpRequest)
    (trace : List HttpEvent) (response : HttpResponse) : Prop :=
  400 ≤ response.status → response.setCookies = [] ∨
    response.status = 500 ∧ (ChangeUnrecorded trace ∨ LoginStranded P config request trace)

theorem ChangeUnrecorded.cons
    (h : ChangeUnrecorded trace) (event : HttpEvent) :
    ChangeUnrecorded (event :: trace) := by
  obtain ⟨args, effect, username, emitted, hcalled, hemitted⟩ := h
  exact ⟨args, effect, username, emitted, List.mem_cons_of_mem event hcalled,
    List.mem_cons_of_mem event hemitted⟩

theorem LoginStranded.cons
    (h : LoginStranded P config request trace) (event : HttpEvent) :
    LoginStranded P config request (event :: trace) := by
  obtain ⟨fields, token, username, password, ctx, userId, mustChange, session, hpresents,
    hstranded, hcalled, hstored, huser⟩ := h
  exact ⟨fields, token, username, password, ctx, userId, mustChange, session, hpresents,
    hstranded, List.mem_cons_of_mem event hcalled, List.mem_cons_of_mem event hstored, huser⟩

theorem Sparing.cons
    (h : Sparing P config request trace response) (event : HttpEvent) :
    Sparing P config request (event :: trace) response := by
  intro hstatus
  cases h hstatus with
  | inl hnone => exact .inl hnone
  | inr hset => exact .inr ⟨hset.1, hset.2.imp (·.cons event) (·.cons event)⟩

theorem sparing_of_noCookies
    (h : response.setCookies = []) :
    Sparing P config request trace response :=
  fun _ => .inl h

theorem sparing_of_success
    (h : response.status < 400) :
    Sparing P config request trace response :=
  fun hstatus => absurd hstatus (Nat.not_le_of_lt h)

theorem audited_sparing
    {args : ChangePasswordArgs} {effect : Auth.ChangePasswordEffect} {username : String}
    (event : PasswordChangeEvent) (hstatus : response.status < 400)
    (hcalled : .called (.executeChangePassword args) (some (.ok effect username)) ∈ trace) :
    Always (audited event response)
      fun rest answer => Sparing P config request (trace ++ rest) answer := by
  unfold audited
  refine always_await.mpr
    ⟨always_ret.mpr fun _ => .inr ⟨rfl, .inl ⟨args, effect, username, event, ?_⟩⟩, fun _ => always_ret.mpr (sparing_of_success hstatus)⟩
  exact ⟨List.mem_append_left _ hcalled, List.mem_append_right _ List.mem_cons_self⟩

theorem passwordChanged_status (cookies : List ServiceCookie) :
    (passwordChanged cookies).status < 400 :=
  Nat.lt_of_sub_eq_succ rfl

theorem answerChangePassword_sparing
    {args : ChangePasswordArgs} {outcome : Auth.ChangePasswordExecuteResult}
    (userId : String) (payload : AccessTokens.Payload)
    (hcalled : .called (.executeChangePassword args) (some outcome) ∈ trace) :
    Always (answerChangePassword config request userId payload outcome)
      fun rest response => Sparing P config request (trace ++ rest) response := by
  have hrefused : ∀ event status text, Always (audited event (detail status text))
      fun rest response => Sparing P config request (trace ++ rest) response := by
    intro event status text
    exact always_await.mpr ⟨always_ret.mpr (sparing_of_noCookies rfl),
      fun _ => always_ret.mpr (sparing_of_noCookies rfl)⟩
  cases outcome with
  | missingUser => exact always_ret.mpr (sparing_of_noCookies rfl)
  | failed username => exact hrefused _ _ _
  | locked username => exact hrefused _ _ _
  | ok effect username =>
      cases effect with
      | tokensUnchanged => exact audited_sparing _ (passwordChanged_status _) hcalled
      | loggedOut => exact audited_sparing _ (passwordChanged_status _) hcalled
      | firstRefresh refreshToken refreshMaxAge =>
          refine always_await.mpr ⟨always_ret.mpr (sparing_of_noCookies rfl), fun token => ?_⟩
          have hmem := List.mem_append_left
            [.called (.signAgain userId payload.exp (sessionIdClaim payload)) (some token)] hcalled
          refine (@audited_sparing P config request _ _ _ _ _ _ (passwordChanged_status _)
            hmem).mono fun rest response h => ?_
          rw [List.append_assoc] at h
          exact h

theorem changePasswordAdmitted_sparing
    (fields : Fields) (token : Text) :
    Always (changePasswordAdmitted config request fields token)
      (Sparing P config request) := by
  unfold changePasswordAdmitted
  refine always_withAccess (fun _ _ _ hnone => sparing_of_noCookies hnone) fun payload => ?_
  refine Always.mono ?_ fun _ _ hsparing event _ => Sparing.cons hsparing event
  cases payload.text "sub" with
  | none => exact always_ret.mpr (sparing_of_noCookies rfl)
  | some userId =>
      dsimp only
      split
      · exact always_ret.mpr (sparing_of_noCookies rfl)
      refine always_await.mpr ⟨always_ret.mpr (sparing_of_noCookies rfl), fun settings => ?_⟩
      refine always_acquire.mpr fun granted => ?_
      cases granted with
      | false =>
          exact always_await.mpr ⟨always_ret.mpr (sparing_of_noCookies rfl),
            fun _ => always_ret.mpr (sparing_of_noCookies rfl)⟩
      | true =>
          refine always_await.mpr ⟨always_release.mpr (always_ret.mpr (sparing_of_noCookies rfl)),
            fun outcome => always_release.mpr ?_⟩
          refine (@answerChangePassword_sparing P config request
            [.called (.executeChangePassword
              (changePasswordArgs config request fields payload userId settings)) (some outcome),
              .released] _ outcome userId payload List.mem_cons_self).mono fun rest response h => ?_
          exact (h.cons _).cons _

theorem loginAdmitted_sparing
    {fields : Fields} {token : Text}
    (hpresents : Presents P config request loginRoute fields token) :
    Always (loginAdmitted config request fields token) (Sparing P config request) := by
  refine (loginAdmitted_session fields token).mono fun trace response h => ?_
  cases h with
  | inl hdeclined => exact sparing_of_noCookies hdeclined.1
  | inr hgiven =>
      obtain ⟨settings, userId, mustChange, hcalled, hconcludes⟩ := hgiven
      cases hconcludes with
      | inl hdeclined => exact sparing_of_noCookies hdeclined.1
      | inr hsession =>
          obtain ⟨now, session, refresh, access, hsession, hrest⟩ := hsession
          intro hstatus
          have hstranded : Stranded request fields := by
            by_contra hsent
            exact Nat.not_le_of_lt (hsession.success hsent) hstatus
          exact .inr ⟨hsession.stranded hstranded, .inr ⟨fields, token, _, _, _, userId,
            mustChange, session, hpresents, hstranded, hcalled, hsession.stored, hsession.user⟩⟩

theorem refreshAdmitted_sparing
    (fields : Fields) (token : Text) :
    Always (refreshAdmitted config request fields token) (Sparing P config request) := by
  unfold refreshAdmitted
  refine always_await.mpr ⟨always_ret.mpr (sparing_of_noCookies rfl), fun settings => ?_⟩
  refine always_await.mpr ⟨always_ret.mpr (sparing_of_noCookies rfl), fun result => ?_⟩
  cases result with
  | success refreshToken accessToken refreshMaxAge accessMaxAge =>
      exact always_ret.mpr (sparing_of_success (Nat.lt_of_sub_eq_succ rfl))
  | soft => exact always_ret.mpr (sparing_of_noCookies rfl)
  | hard => exact always_ret.mpr (sparing_of_noCookies rfl)
  | unavailable => exact always_ret.mpr (sparing_of_noCookies rfl)
  | internalError => exact always_ret.mpr (sparing_of_noCookies rfl)

theorem logoutAdmitted_sparing
    (fields : Fields) (token : Text) :
    Always (logoutAdmitted config request fields token) (Sparing P config request) := by
  unfold logoutAdmitted
  refine always_await.mpr ⟨always_ret.mpr (sparing_of_noCookies rfl), fun result => ?_⟩
  cases result with
  | success => exact always_ret.mpr (sparing_of_success (Nat.lt_of_sub_eq_succ rfl))
  | denied => exact always_ret.mpr (sparing_of_noCookies rfl)
  | internalError => exact always_ret.mpr (sparing_of_noCookies rfl)

theorem Gate.sparing
    {admitted : Fields → Text → HttpProg}
    (h : Gate P config request route admitted trace response)
    (hadmitted : ∀ fields token, Presents P config request route fields token →
      Always (admitted fields token) (Sparing P config request)) :
    Sparing P config request trace response := by
  cases h with
  | tooLarge hlarge => exact sparing_of_noCookies rfl
  | refused stored hrefusal =>
      cases stored with
      | none => exact sparing_of_noCookies rfl
      | some answer => exact sparing_of_noCookies rfl
  | malformed horigin hparsed => exact sparing_of_noCookies rfl
  | @admitted fields token trace response hpresents hrun =>
      exact hadmitted fields token hpresents trace response hrun

/-- The cookies of a browser are changed only by an answer that says so. -/
theorem handleRequest_sparing :
    Always (handleRequest P config request) (Sparing P config request) := by
  intro trace response h
  by_cases hposts : ∃ route, Posts request route
  · obtain ⟨route, hposts⟩ := hposts
    obtain ⟨admitted, hhandles, hadmitted⟩ := @handleRequest_posts P config request route hposts
    rw [hadmitted] at h
    apply (run_gated h).sparing
    intro fields token hpresents
    cases hhandles with
    | login => exact loginAdmitted_sparing hpresents
    | refresh => exact refreshAdmitted_sparing fields token
    | logout => exact logoutAdmitted_sparing fields token
    | changePassword => exact changePasswordAdmitted_sparing fields token
  · have hinert := @handleRequest_inert P config request (not_exists.mp hposts) trace response h
    intro hstatus
    refine .inl (List.eq_nil_iff_forall_not_mem.mpr fun c hc => ?_)
    have h200 := (hinert.2 c hc).2
    omega

end Gate

end Untangled.AuthHttp
