import Untangled.CsrfRewrite
import Untangled.RequestProgram
import Untangled.SystemConfig

/-!
# Requests of the browser that refresh the session

`authenticated_fetch` and `run_refresh_attempts` of `refresh_fetch.ts` as
programs that read `document.cookie` and call `fetch`, which may throw.  A
refresh is tried until it succeeds, fails for good or has been tried as often as
the last answer allows.
-/

namespace Untangled.RefreshFetch

open RequestProgram JsonSyntax Csrf
open RequestProgram.Prog (Run)

/-! ## Requests and answers -/

/-- What the client looks at in a member of a JSON object. -/
inductive Scalar
  | bool (b : Bool)
  | number (value : ℚ)
  | text (t : Text)
  | other
  deriving DecidableEq

/-- An answer; its body is read only if it is a JSON object. -/
structure Response where
  status : ℕ
  body : Option (List (String × Scalar))
  deriving DecidableEq

def Response.ok (r : Response) : Bool := 200 ≤ r.status && r.status ≤ 299

inductive Body
  | none
  | text (t : Text)
  | other
  deriving DecidableEq

/-- The names of headers are in lower case. -/
structure RequestInit where
  method : Option String
  credentials : Option String
  headers : List (String × Text)
  body : Body
  deriving DecidableEq

/-- A URL, or a `Request` with a method of its own. -/
structure RequestInfo where
  href : String
  requestMethod : Option String
  deriving DecidableEq

inductive FetchOp
  | documentCookie
  | getCsrf
  | postRefresh (csrf : Option Text)
  | send (input : RequestInfo) (init : RequestInit)
  | assignLogin
  deriving DecidableEq

abbrev FetchAns : FetchOp → Type
  | .documentCookie => Text
  | .getCsrf => Response
  | .postRefresh _ => Response
  | .send _ _ => Response
  | .assignLogin => Unit

/-- A program ends with an answer, or with `none` when it throws. -/
abbrev FetchProg : Type := Prog FetchOp FetchAns (Option Response)

abbrev FetchEvent : Type := Event FetchOp FetchAns

/-! ## Decisions -/

def defaultSessionMaxRefreshRetries : ℕ := 5

/-- `Number.isInteger` of a value between 1 and 10 -/
def wholeNumber (value : ℚ) : Option ℕ :=
  if value.den = 1 ∧ 1 ≤ value.num ∧ value.num ≤ 10 then some value.num.toNat else none

def sessionMaxRefreshRetriesFromConfig : Option Scalar → ℕ
  | some (.number value) => (wholeNumber value).getD defaultSessionMaxRefreshRetries
  | _ => defaultSessionMaxRefreshRetries

def bodyAllowsRefresh (body : Option (List (String × Scalar))) : Bool :=
  match body with
  | none => false
  | some members => members.lookup "retry" = some (.bool true)

def responseAllowsRefresh (r : Response) : Bool :=
  r.status = 401 && bodyAllowsRefresh r.body

/-- The bound that a soft answer supplies. -/
def retryBound (r : Response) : ℕ :=
  sessionMaxRefreshRetriesFromConfig (r.body.bind fun members => members.lookup "max_retries")

theorem wholeNumber_le
    {value : ℚ} {n : ℕ}
    (h : wholeNumber value = some n) :
    n ≤ 10 := by
  unfold wholeNumber at h
  split at h
  · cases h
    omega
  · cases h

theorem retryBound_le (r : Response) : retryBound r ≤ 10 := by
  unfold retryBound sessionMaxRefreshRetriesFromConfig
  split
  · rename_i value _
    cases hwhole : wholeNumber value with
    | none => simp [defaultSessionMaxRefreshRetries]
    | some n => exact wholeNumber_le hwhole
  · simp [defaultSessionMaxRefreshRetries]

def csrfRequired (method : String) : Bool := method ≠ "GET" && method ≠ "OPTIONS"

/-- As far as ASCII letters come of it. -/
def upperChar : Char → List Char
  | 'ı' => ['I']
  | 'ſ' => ['S']
  | 'ß' => ['S', 'S']
  | 'ﬀ' => ['F', 'F']
  | 'ﬁ' => ['F', 'I']
  | 'ﬂ' => ['F', 'L']
  | 'ﬃ' => ['F', 'F', 'I']
  | 'ﬄ' => ['F', 'F', 'L']
  | 'ﬅ' => ['S', 'T']
  | 'ﬆ' => ['S', 'T']
  | c => [c.toUpper]

def toUpperCase (s : String) : String := String.ofList (s.toList.flatMap upperChar)

def resolvedMethod (input : RequestInfo) (init : RequestInit) : String :=
  match init.method with
  | some method =>
      if method ≠ "" then toUpperCase method else toUpperCase (input.requestMethod.getD "GET")
  | none => toUpperCase (input.requestMethod.getD "GET")

/-- Tab, newline, carriage return and blank. -/
def isHttpWhitespace (unit : ℕ) : Bool :=
  unit = 9 || unit = 10 || unit = 13 || unit = 32

def normalized (value : Text) : Text :=
  ((value.dropWhile isHttpWhitespace).reverse.dropWhile isHttpWhitespace).reverse

/-- `Headers.set`, which throws at a value that no header carries. -/
def setHeader (headers : List (String × Text)) (name : String) (value : Text) :
    Option (List (String × Text)) :=
  if (normalized value).all fun unit => unit ≤ 255 && unit ≠ 0 && unit ≠ 10 && unit ≠ 13 then
    some (headers.filter (fun h => h.1 ≠ name) ++ [(name, normalized value)])
  else none

def rewriteBody (body : Body) (token : Text) : Body :=
  match body with
  | .text t => .text (rewriteJsonCsrfTokenField t token)
  | body => body

def csrfPath : String := "/api/v2/auth/csrf"

def loginPath : String := "/api/v2/auth/login"

def refreshPath : String := "/api/v2/auth/refresh"

/-- `pathname` gives the path of a URL, or nothing where parsing throws. -/
def isRefreshBootstrap (pathname : String → Option String) (href : String) : Bool :=
  match pathname href with
  | none => false
  | some path => path = csrfPath || path = loginPath || path = refreshPath

/-! ## Programs -/

/-- The token of a `/csrf` answer, or the empty text. -/
def csrfOfResponse (r : Response) : Text :=
  if r.ok then
    match r.body.bind fun members => members.lookup "csrf_token" with
    | some (.text token) => token
    | _ => []
  else []

def thrown : FetchProg := .ret none

section Programs

variable (csrfOf : Text → Text)

def fetchCsrf (next : Text → FetchProg) : FetchProg :=
  .await .getCsrf thrown fun r => next (csrfOfResponse r)

/-- `csrfOf` reads the token from the text of `document.cookie`. -/
def csrfToken (forceFetch : Bool) (next : Text → FetchProg) : FetchProg :=
  if forceFetch then fetchCsrf next
  else
    .await .documentCookie thrown fun header =>
      if csrfOf header ≠ [] then next (csrfOf header) else fetchCsrf next

def postRefresh (forceCsrfFetch : Bool) (next : Response → FetchProg) : FetchProg :=
  csrfToken csrfOf forceCsrfFetch fun token =>
    .await (.postRefresh (if token ≠ [] then some token else none)) thrown next

inductive RefreshAttemptResult
  | ok
  | hardFail
  deriving DecidableEq

/-- The loop after `attempts` attempts. -/
def refreshLoop (attempts : ℕ) (next : RefreshAttemptResult → FetchProg) : FetchProg :=
  postRefresh csrfOf (attempts + 1 = 1) fun refreshed =>
    if refreshed.status = 200 then next .ok
    else if responseAllowsRefresh refreshed then
      if attempts + 1 < retryBound refreshed then refreshLoop (attempts + 1) next
      else next .hardFail
    else next .hardFail
termination_by 10 - attempts
decreasing_by
  have hbound := retryBound_le refreshed
  omega

def runRefreshAttempts (next : RefreshAttemptResult → FetchProg) : FetchProg :=
  refreshLoop csrfOf 0 next

def initWithCsrf (input : RequestInfo) (init : RequestInit) (next : RequestInit → FetchProg) :
    FetchProg :=
  let plain := { init with credentials := some (init.credentials.getD "include") }
  if csrfRequired (resolvedMethod input init) then
    csrfToken csrfOf false fun token =>
      if token ≠ [] then
        match setHeader init.headers "x-csrf-token" token with
        | none => thrown
        | some headers =>
            next { plain with headers := headers, body := rewriteBody init.body token }
      else next plain
  else next plain

def assignLoginThen (result : Option Response) : FetchProg :=
  .await .assignLogin thrown fun _ => .ret result

variable (pathname : String → Option String)

def authenticatedFetch (input : RequestInfo) (init : RequestInit) : FetchProg :=
  initWithCsrf csrfOf input init fun requestInit =>
    .await (.send input requestInit) thrown fun original =>
      if isRefreshBootstrap pathname input.href ∨ original.status = 403 then .ret (some original)
      else if original.status ≠ 401 then .ret (some original)
      else if responseAllowsRefresh original then
        runRefreshAttempts csrfOf fun refreshed =>
          match refreshed with
          | .ok =>
              initWithCsrf csrfOf input init fun retryInit =>
                .await (.send input retryInit) thrown fun answer => .ret (some answer)
          | .hardFail => assignLoginThen (some original)
      else assignLoginThen (some original)

end Programs

/-! ## What a run does -/

/-- What leaves the page, with its answer, and where the page goes. -/
inductive Act
  | sent (init : RequestInit) (answer : Option Response)
  | posted (csrf : Option Text) (answer : Option Response)
  | login
  deriving DecidableEq

def actOf : FetchEvent → Option Act
  | .called (.send _ init) answer => some (.sent init answer)
  | .called (.postRefresh csrf) answer => some (.posted csrf answer)
  | .called .assignLogin _ => some .login
  | _ => none

/-- Reading the token is no act. -/
def acts (trace : List FetchEvent) : List Act := trace.filterMap actOf

theorem acts_append (trace rest : List FetchEvent) :
    acts (trace ++ rest) = acts trace ++ acts rest :=
  List.filterMap_append

section Runs

variable {csrfOf : Text → Text} {trace : List FetchEvent} {result : Option Response}

/-- A run throws, having done nothing, or goes on with a token. -/
def GoesOn {α : Type} (next : α → FetchProg) (value : α) (before : List Act)
    (trace : List FetchEvent) (result : Option Response) : Prop :=
  ∃ pre rest, trace = pre ++ rest ∧ acts pre = before ∧ Run (next value) rest result

theorem GoesOn.prepend
    {α : Type} {next : α → FetchProg} {value : α} {done before : List Act}
    {pre : List FetchEvent}
    (h : GoesOn next value before trace result) (hpre : acts pre = done) :
    GoesOn next value (done ++ before) (pre ++ trace) result := by
  obtain ⟨mid, rest, rfl, hmid, hrun⟩ := h
  refine ⟨pre ++ mid, rest, (List.append_assoc pre mid rest).symm, ?_, hrun⟩
  rw [acts_append, hpre, hmid]

theorem run_thrown
    (h : Run thrown trace result) :
    result = none ∧ acts trace = [] := by
  obtain ⟨rfl, hresult⟩ := Prog.run_ret.mp h
  exact ⟨hresult, rfl⟩

theorem run_fetchCsrf
    {next : Text → FetchProg}
    (h : Run (fetchCsrf next) trace result) :
    (result = none ∧ acts trace = []) ∨ ∃ token, GoesOn next token [] trace result := by
  obtain ⟨answer, rest, rfl, hrest⟩ := Prog.run_call.mp h
  cases answer with
  | none =>
      obtain ⟨hresult, hacts⟩ := run_thrown hrest
      exact .inl ⟨hresult, hacts⟩
  | some r => exact .inr ⟨csrfOfResponse r, [_], rest, rfl, rfl, hrest⟩

theorem run_csrfToken
    {forceFetch : Bool} {next : Text → FetchProg}
    (h : Run (csrfToken csrfOf forceFetch next) trace result) :
    (result = none ∧ acts trace = []) ∨ ∃ token, GoesOn next token [] trace result := by
  unfold csrfToken at h
  cases forceFetch with
  | true => exact run_fetchCsrf h
  | false =>
      obtain ⟨answer, rest, rfl, hrest⟩ := Prog.run_call.mp h
      cases answer with
      | none =>
          obtain ⟨hresult, hacts⟩ := run_thrown hrest
          exact .inl ⟨hresult, hacts⟩
      | some header =>
          dsimp only at hrest
          split at hrest
          · exact .inr ⟨csrfOf header, [_], rest, rfl, rfl, hrest⟩
          · cases run_fetchCsrf hrest with
            | inl hthrown => exact .inl hthrown
            | inr hnext =>
                obtain ⟨token, hnext⟩ := hnext
                have hread : acts [.called .documentCookie (some header)] = [] := rfl
                exact .inr ⟨token, hnext.prepend hread⟩

theorem run_postRefresh
    {forceCsrfFetch : Bool} {next : Response → FetchProg}
    (h : Run (postRefresh csrfOf forceCsrfFetch next) trace result) :
    (result = none ∧ (acts trace = [] ∨ ∃ csrf, acts trace = [.posted csrf none])) ∨
      ∃ csrf r, GoesOn next r [.posted csrf (some r)] trace result := by
  cases run_csrfToken h with
  | inl hthrown => exact .inl ⟨hthrown.1, .inl hthrown.2⟩
  | inr hnext =>
      obtain ⟨token, pre, rest, rfl, hpre, hrun⟩ := hnext
      obtain ⟨answer, rest, rfl, hrest⟩ := Prog.run_call.mp hrun
      cases answer with
      | none =>
          obtain ⟨hresult, hacts⟩ := run_thrown hrest
          refine .inl ⟨hresult, .inr ⟨if token ≠ [] then some token else none, ?_⟩⟩
          rw [acts_append, hpre, List.nil_append]
          exact congrArg (List.cons _) hacts
      | some r =>
          have hone : GoesOn next r
              [.posted (if token ≠ [] then some token else none) (some r)]
              (.called (.postRefresh (if token ≠ [] then some token else none)) (some r) :: rest)
              result :=
            ⟨[.called (.postRefresh (if token ≠ [] then some token else none)) (some r)], rest,
              rfl, rfl, hrest⟩
          exact .inr ⟨_, r, hone.prepend hpre⟩

/-- The answers to the attempts of a refresh that has made `n` before, and how
it ends. -/
inductive Attempts : ℕ → List Response → RefreshAttemptResult → Prop
  | ok {n r} (hstatus : r.status = 200) : Attempts n [r] .ok
  | refused {n r} (hstatus : r.status ≠ 200) (hhard : responseAllowsRefresh r = false) :
      Attempts n [r] .hardFail
  | spent {n r} (hsoft : responseAllowsRefresh r = true) (hbound : retryBound r ≤ n + 1) :
      Attempts n [r] .hardFail
  | again {n r rs result} (hsoft : responseAllowsRefresh r = true)
      (hbound : n + 1 < retryBound r) (hrest : Attempts (n + 1) rs result) :
      Attempts n (r :: rs) result

/-- The acts of attempts with these answers. -/
def AnsweredBy (rs : List Response) (done : List Act) : Prop :=
  List.Forall₂ (fun r act => ∃ csrf, act = .posted csrf (some r)) rs done

/-- The acts of attempts one of which throws. -/
def Unfinished (n : ℕ) (done : List Act) : Prop :=
  (∀ act ∈ done, ∃ csrf answer, act = .posted csrf answer) ∧ n + done.length ≤ max 10 (n + 1)

theorem run_refreshLoop
    {n : ℕ} {next : RefreshAttemptResult → FetchProg}
    (h : Run (refreshLoop csrfOf n next) trace result) :
    (result = none ∧ Unfinished n (acts trace)) ∨
      ∃ rs ended done, Attempts n rs ended ∧ AnsweredBy rs done ∧
        GoesOn next ended done trace result := by
  induction hleft : 10 - n using Nat.strong_induction_on generalizing n trace with
  | _ left ih =>
      subst hleft
      rw [refreshLoop] at h
      cases run_postRefresh h with
      | inl hthrown =>
          refine .inl ⟨hthrown.1, ?_⟩
          cases hthrown.2 with
          | inl hnone =>
              rw [hnone]
              exact ⟨List.forall_mem_nil _, by simp⟩
          | inr hone =>
              obtain ⟨csrf, hone⟩ := hone
              rw [hone]
              exact ⟨List.forall_mem_singleton.mpr ⟨csrf, none, rfl⟩, by simp⟩
      | inr hnext =>
          obtain ⟨csrf, r, pre, rest, rfl, hpre, hrun⟩ := hnext
          dsimp only at hrun
          have hend : ∀ {ended}, Attempts n [r] ended → Run (next ended) rest result →
              ∃ rs ended done, Attempts n rs ended ∧ AnsweredBy rs done ∧
                GoesOn next ended done (pre ++ rest) result := by
            intro ended hattempts hrun
            exact ⟨[r], ended, _, hattempts, .cons ⟨csrf, rfl⟩ .nil, pre, rest, rfl, hpre, hrun⟩
          by_cases hok : r.status = 200
          · rw [if_pos hok] at hrun
            exact .inr (hend (.ok hok) hrun)
          · rw [if_neg hok] at hrun
            by_cases hsoft : responseAllowsRefresh r = true
            · rw [if_pos hsoft] at hrun
              by_cases hbound : n + 1 < retryBound r
              · rw [if_pos hbound] at hrun
                have hle := retryBound_le r
                cases ih (10 - (n + 1)) (by omega) hrun rfl with
                | inl hthrown =>
                    obtain ⟨hposts, hlength⟩ := hthrown.2
                    refine .inl ⟨hthrown.1, ?_⟩
                    rw [acts_append, hpre]
                    refine ⟨List.forall_mem_cons.mpr ⟨⟨csrf, some r, rfl⟩, hposts⟩, ?_⟩
                    rw [List.length_append, List.length_singleton]
                    omega
                | inr hnext =>
                    obtain ⟨rs, ended, done, hattempts, hdone, hgoes⟩ := hnext
                    exact .inr ⟨r :: rs, ended, .posted csrf (some r) :: done,
                      .again hsoft hbound hattempts, .cons ⟨csrf, rfl⟩ hdone,
                      hgoes.prepend hpre⟩
              · rw [if_neg hbound] at hrun
                exact .inr (hend (.spent hsoft (by omega)) hrun)
            · rw [if_neg hsoft] at hrun
              exact .inr (hend (.refused hok (by simpa using hsoft)) hrun)

theorem run_initWithCsrf
    {input : RequestInfo} {init : RequestInit} {next : RequestInit → FetchProg}
    (h : Run (initWithCsrf csrfOf input init next) trace result) :
    (result = none ∧ acts trace = []) ∨ ∃ sent, GoesOn next sent [] trace result := by
  unfold initWithCsrf at h
  dsimp only at h
  split at h
  · cases run_csrfToken h with
    | inl hthrown => exact .inl hthrown
    | inr hnext =>
        obtain ⟨token, pre, rest, rfl, hpre, hrun⟩ := hnext
        dsimp only at hrun
        split at hrun
        · split at hrun
          · obtain ⟨hresult, hacts⟩ := run_thrown hrun
            refine .inl ⟨hresult, ?_⟩
            rw [acts_append, hpre, hacts, List.append_nil]
          · exact .inr ⟨_, pre, rest, rfl, hpre, hrun⟩
        · exact .inr ⟨_, pre, rest, rfl, hpre, hrun⟩
  · exact .inr ⟨_, [], trace, rfl, rfl, h⟩

theorem run_assignLoginThen
    {result' : Option Response}
    (h : Run (assignLoginThen result) trace result') :
    acts trace = [.login] ∧ (result' = none ∨ result' = result) := by
  obtain ⟨answer, rest, rfl, hrest⟩ := Prog.run_call.mp h
  cases answer with
  | none =>
      obtain ⟨hresult, hacts⟩ := run_thrown hrest
      exact ⟨congrArg (List.cons Act.login) hacts, .inl hresult⟩
  | some u =>
      obtain ⟨rfl, hresult⟩ := Prog.run_ret.mp hrest
      exact ⟨rfl, .inr hresult⟩

/-! ## The attempts of a refresh -/

theorem Attempts.length_le
    {n : ℕ} {rs : List Response} {ended : RefreshAttemptResult}
    (h : Attempts n rs ended) (hn : n < 10) :
    n + rs.length ≤ 10 := by
  induction h with
  | ok hstatus => simpa using hn
  | refused hstatus hhard => simpa using hn
  | spent hsoft hbound => simpa using hn
  | @again n r rs ended hsoft hbound hrest ih =>
      have hle := retryBound_le r
      have hrs := ih (by omega)
      rw [List.length_cons]
      omega

/-- A refresh has succeeded exactly when its last answer has status 200. -/
theorem Attempts.ok_iff
    {n : ℕ} {rs : List Response} {ended : RefreshAttemptResult}
    (h : Attempts n rs ended) :
    ended = .ok ↔ ∃ r ∈ rs, r.status = 200 := by
  have hsoft : ∀ {r : Response}, responseAllowsRefresh r = true → r.status ≠ 200 := by
    intro r hr hstatus
    simp [responseAllowsRefresh, hstatus] at hr
  induction h with
  | ok hstatus => simp [hstatus]
  | refused hstatus hhard => simp [hstatus]
  | spent hspent hbound => simp [hsoft hspent]
  | again hagain hbound hrest ih =>
      refine ih.trans ?_
      simp [hsoft hagain]

/-- Where every answer is soft with one bound, that is how often it is tried. -/
theorem Attempts.length_of_soft
    {n bound : ℕ} {rs : List Response} {ended : RefreshAttemptResult}
    (h : Attempts n rs ended)
    (hsoft : ∀ r ∈ rs, responseAllowsRefresh r = true ∧ retryBound r = bound) :
    ended = .hardFail ∧ n + rs.length = max bound (n + 1) := by
  induction h with
  | ok hstatus =>
      have hone := (hsoft _ List.mem_cons_self).1
      simp [responseAllowsRefresh, hstatus] at hone
  | refused hstatus hhard =>
      have hone := (hsoft _ List.mem_cons_self).1
      rw [hhard] at hone
      cases hone
  | @spent n r hspent hbound =>
      have hone := (hsoft r List.mem_cons_self).2
      refine ⟨rfl, ?_⟩
      rw [List.length_singleton]
      omega
  | @again n r rs ended hagain hbound hrest ih =>
      have hone := (hsoft r List.mem_cons_self).2
      obtain ⟨hended, hlength⟩ := ih fun q hq => hsoft q (List.mem_cons_of_mem r hq)
      refine ⟨hended, ?_⟩
      rw [List.length_cons]
      omega

/-! ## What a request does -/

/-- How a request can go. -/
inductive Outcome (bootstrap : Bool) : List Act → Option Response → Prop
  | unsent : Outcome bootstrap [] none
  | lost (init) : Outcome bootstrap [.sent init none] none
  | passed (init) {r} (hpasses : bootstrap = true ∨ r.status ≠ 401) :
      Outcome bootstrap [.sent init (some r)] (some r)
  | refused (init) {r result} (hboot : bootstrap = false) (hstatus : r.status = 401)
      (hresult : result = none ∨ result = some r) :
      Outcome bootstrap [.sent init (some r), .login] result
  | broken (init) {r done} (hboot : bootstrap = false)
      (hsoft : responseAllowsRefresh r = true) (hdone : Unfinished 0 done) :
      Outcome bootstrap (.sent init (some r) :: done) none
  | failed (init) {r rs done result} (hboot : bootstrap = false)
      (hsoft : responseAllowsRefresh r = true) (hrefresh : Attempts 0 rs .hardFail)
      (hdone : AnsweredBy rs done) (hresult : result = none ∨ result = some r) :
      Outcome bootstrap (.sent init (some r) :: (done ++ [.login])) result
  | unrepeated (init) {r rs done} (hboot : bootstrap = false)
      (hsoft : responseAllowsRefresh r = true) (hrefresh : Attempts 0 rs .ok)
      (hdone : AnsweredBy rs done) :
      Outcome bootstrap (.sent init (some r) :: done) none
  | again (init init') {r rs done answer} (hboot : bootstrap = false)
      (hsoft : responseAllowsRefresh r = true) (hrefresh : Attempts 0 rs .ok)
      (hdone : AnsweredBy rs done) :
      Outcome bootstrap (.sent init (some r) :: (done ++ [.sent init' answer])) answer

variable {pathname : String → Option String} {input : RequestInfo} {init : RequestInit}

theorem run_send
    {sent : RequestInit} {next : Response → FetchProg}
    (h : Run (Prog.await (.send input sent) thrown next) trace result) :
    (result = none ∧ acts trace = [.sent sent none]) ∨
      ∃ r rest, trace = .called (.send input sent) (some r) :: rest ∧ Run (next r) rest result := by
  obtain ⟨answer, rest, rfl, hrest⟩ := Prog.run_call.mp h
  cases answer with
  | none =>
      obtain ⟨hresult, hacts⟩ := run_thrown hrest
      exact .inl ⟨hresult, congrArg (List.cons (Act.sent sent none)) hacts⟩
  | some r => exact .inr ⟨r, rest, rfl, hrest⟩

theorem run_authenticatedFetch
    (h : Run (authenticatedFetch csrfOf pathname input init) trace result) :
    Outcome (isRefreshBootstrap pathname input.href) (acts trace) result := by
  cases run_initWithCsrf h with
  | inl hthrown =>
      rw [hthrown.1, hthrown.2]
      exact .unsent
  | inr hnext =>
      obtain ⟨sent, pre, rest, rfl, hpre, hsend⟩ := hnext
      rw [acts_append, hpre, List.nil_append]
      clear hpre h
      cases run_send hsend with
      | inl hthrown =>
          rw [hthrown.1, hthrown.2]
          exact .lost sent
      | inr hanswer =>
          obtain ⟨r, rest, rfl, hrun⟩ := hanswer
          clear hsend
          change Outcome _ (.sent sent (some r) :: acts rest) result
          by_cases hpass : isRefreshBootstrap pathname input.href = true ∨ r.status = 403
          · rw [if_pos hpass] at hrun
            obtain ⟨rfl, rfl⟩ := Prog.run_ret.mp hrun
            apply Outcome.passed
            cases hpass with
            | inl hboot => exact .inl hboot
            | inr hstatus => exact .inr (by omega)
          · rw [if_neg hpass] at hrun
            have hboot : isRefreshBootstrap pathname input.href = false := by
              simpa using fun hboot => hpass (.inl hboot)
            by_cases hstatus : r.status ≠ 401
            · rw [if_pos hstatus] at hrun
              obtain ⟨rfl, rfl⟩ := Prog.run_ret.mp hrun
              exact .passed sent (.inr hstatus)
            · rw [if_neg hstatus] at hrun
              by_cases hsoft : responseAllowsRefresh r = true
              · rw [if_pos hsoft] at hrun
                cases run_refreshLoop hrun with
                | inl hthrown =>
                    rw [hthrown.1]
                    exact .broken sent hboot hsoft hthrown.2
                | inr hended =>
                    obtain ⟨rs, ended, done, hrefresh, hdone, pre, rest, rfl, hpre, hgoes⟩ :=
                      hended
                    rw [acts_append, hpre]
                    cases ended with
                    | hardFail =>
                        obtain ⟨hlogin, hresult⟩ := run_assignLoginThen hgoes
                        rw [hlogin]
                        exact .failed sent hboot hsoft hrefresh hdone hresult
                    | ok =>
                        cases run_initWithCsrf hgoes with
                        | inl hthrown =>
                            rw [hthrown.1, hthrown.2, List.append_nil]
                            exact .unrepeated sent hboot hsoft hrefresh hdone
                        | inr hnext =>
                            obtain ⟨again, pre, rest, rfl, hpre, hsend⟩ := hnext
                            rw [acts_append, hpre, List.nil_append]
                            cases run_send hsend with
                            | inl hthrown =>
                                rw [hthrown.1, hthrown.2]
                                exact .again sent again hboot hsoft hrefresh hdone
                            | inr hanswer =>
                                obtain ⟨answer, rest, rfl, hlast⟩ := hanswer
                                obtain ⟨rfl, rfl⟩ := Prog.run_ret.mp hlast
                                exact .again sent again hboot hsoft hrefresh hdone
              · rw [if_neg hsoft] at hrun
                obtain ⟨hlogin, hresult⟩ := run_assignLoginThen hrun
                rw [hlogin]
                exact .refused sent hboot (not_not.mp hstatus) hresult

/-- The answers to the request itself, first and again. -/
def sends (done : List Act) : List (Option Response) :=
  done.filterMap fun act =>
    match act with
    | .sent _ answer => some answer
    | _ => none

def posts (done : List Act) : List (Option Response) :=
  done.filterMap fun act =>
    match act with
    | .posted _ answer => some answer
    | _ => none

theorem AnsweredBy.acts
    {rs : List Response} {done : List Act}
    (h : AnsweredBy rs done) :
    sends done = [] ∧ posts done = rs.map some ∧ .login ∉ done := by
  induction h with
  | nil => exact ⟨rfl, rfl, List.not_mem_nil⟩
  | cons hhead htail ih =>
      obtain ⟨csrf, rfl⟩ := hhead
      obtain ⟨hsends, hposts, hlogin⟩ := ih
      refine ⟨hsends, congrArg (List.cons _) hposts, ?_⟩
      simp [hlogin]

theorem Unfinished.acts
    {n : ℕ} {done : List Act}
    (h : Unfinished n done) :
    sends done = [] ∧ (posts done).length = done.length ∧ .login ∉ done := by
  have hposts := h.1
  clear h
  induction done with
  | nil => exact ⟨rfl, rfl, List.not_mem_nil⟩
  | cons act done ih =>
      obtain ⟨csrf, answer, rfl⟩ := hposts act List.mem_cons_self
      obtain ⟨hsends, hlength, hlogin⟩ := ih fun a ha => hposts a (List.mem_cons_of_mem _ ha)
      refine ⟨hsends, congrArg Nat.succ hlength, ?_⟩
      simp [hlogin]

theorem sends_cons (init : RequestInit) (answer : Option Response) (done : List Act) :
    sends (.sent init answer :: done) = answer :: sends done :=
  rfl

theorem posts_cons (init : RequestInit) (answer : Option Response) (done : List Act) :
    posts (.sent init answer :: done) = posts done :=
  rfl

theorem sends_append (done more : List Act) : sends (done ++ more) = sends done ++ sends more :=
  List.filterMap_append

theorem posts_append (done more : List Act) : posts (done ++ more) = posts done ++ posts more :=
  List.filterMap_append

/-- What a request guarantees, however its calls are answered. -/
structure Guarded (bootstrap : Bool) (done : List Act) (result : Option Response) : Prop where
  /-- It is sent at most twice and refreshes at most ten times between. -/
  sends_le : (sends done).length ≤ 2
  posts_le : (posts done).length ≤ 10
  answer : ∀ r, result = some r → (sends done).getLast? = some (some r)
  /-- Only a 401 that allows it makes it refresh. -/
  refreshes : posts done ≠ [] → bootstrap = false ∧
    ∃ r, (sends done).head? = some (some r) ∧ responseAllowsRefresh r = true
  /-- Only a refresh that succeeds makes it send again. -/
  repeats : (sends done).length = 2 → ∃ r, some r ∈ posts done ∧ r.status = 200
  /-- The page goes to the login after a 401 that no refresh has mended. -/
  leaves : .login ∈ done → bootstrap = false ∧ (∀ r, some r ∈ posts done → r.status ≠ 200) ∧
    ∃ r, sends done = [some r] ∧ r.status = 401
  stays : ∀ r, result = some r → r.status = 401 → bootstrap = false →
    .login ∈ done ∨ (sends done).length = 2

theorem soft_status
    {r : Response}
    (hsoft : responseAllowsRefresh r = true) :
    r.status = 401 := by
  simp only [responseAllowsRefresh, Bool.and_eq_true, decide_eq_true_eq] at hsoft
  exact hsoft.1

theorem Outcome.guarded
    {bootstrap : Bool} {done : List Act}
    (h : Outcome bootstrap done result) :
    Guarded bootstrap done result := by
  cases h with
  | unsent => constructor <;> simp [sends, posts]
  | lost init => constructor <;> simp [sends, posts]
  | passed init hpasses =>
      constructor <;> simp [sends, posts]
      intro hstatus
      cases hpasses with
      | inl h => exact h
      | inr h => exact absurd hstatus h
  | refused init hboot hstatus hresult =>
      constructor <;> simp [sends, posts, hboot, hstatus]
      intro r hr
      cases hresult with
      | inl h => rw [h] at hr; cases hr
      | inr h => rw [h] at hr; exact Option.some.inj hr
  | broken init hboot hsoft hdone =>
      obtain ⟨hsends, hposts, hlogin⟩ := hdone.acts
      have hlength := hdone.2
      constructor <;>
        simp [sends_cons, posts_cons, hsends, hposts, hlogin, hboot, hsoft]
      omega
  | @failed init r rs done result hboot hsoft hrefresh hdone hresult =>
      obtain ⟨hsends, hposts, hlogin⟩ := hdone.acts
      have hlength := hrefresh.length_le (by omega)
      have hnone : ∀ q ∈ rs, q.status ≠ 200 := by
        intro q hq hstatus
        have hok := hrefresh.ok_iff.mpr ⟨q, hq, hstatus⟩
        cases hok
      have htail : sends [Act.login] = [] ∧ posts [Act.login] = [] := ⟨rfl, rfl⟩
      constructor <;>
        simp [sends_cons, posts_cons, sends_append, posts_append, hsends, hposts, htail, hboot,
          hsoft, soft_status hsoft]
      · omega
      · intro q hq
        cases hresult with
        | inl h => rw [h] at hq; cases hq
        | inr h => rw [h] at hq; exact Option.some.inj hq
      · exact hnone
  | unrepeated init hboot hsoft hrefresh hdone =>
      obtain ⟨hsends, hposts, hlogin⟩ := hdone.acts
      have hlength := hrefresh.length_le (by omega)
      constructor <;>
        simp [sends_cons, posts_cons, hsends, hposts, hlogin, hboot, hsoft]
      omega
  | @again init init' r rs done answer hboot hsoft hrefresh hdone =>
      obtain ⟨hsends, hposts, hlogin⟩ := hdone.acts
      have hlength := hrefresh.length_le (by omega)
      have hok := hrefresh.ok_iff.mp rfl
      have htail : sends [Act.sent init' result] = [result] ∧
          posts [Act.sent init' result] = [] := ⟨rfl, rfl⟩
      constructor <;>
        simp [sends_cons, posts_cons, sends_append, posts_append, hsends, hposts, htail, hboot,
          hsoft, hlogin]
      · omega
      · exact hok

end Runs

/-- Every run of a request, whatever `fetch` answers or throws. -/
theorem authenticatedFetch_guarded
    {csrfOf : Text → Text} {pathname : String → Option String} {input : RequestInfo}
    {init : RequestInit} {trace : List FetchEvent} {result : Option Response}
    (h : Run (authenticatedFetch csrfOf pathname input init) trace result) :
    Guarded (isRefreshBootstrap pathname input.href) (acts trace) result :=
  (run_authenticatedFetch h).guarded

/-- A save whose first answer is a 401 that allows a refresh, and whose refresh
succeeds. -/
def savingAnswers : (op : FetchOp) → FetchAns op
  | .documentCookie => [99]
  | .getCsrf => ⟨200, none⟩
  | .postRefresh _ => ⟨200, none⟩
  | .send _ _ => ⟨401, some [("retry", .bool true)]⟩
  | .assignLogin => ()

theorem authenticatedFetch_saving :
    (sends (acts (Prog.play savingAnswers true (authenticatedFetch id (fun _ => none)
      ⟨"/api/v2/records/role", none⟩ ⟨some "post", none, [], .none⟩)).1)).length ≤ 2 :=
  (authenticatedFetch_guarded (Prog.play_run savingAnswers true _)).sends_le

/-! ## The bound of the service -/

/-- `session_max_refresh_retries_for_client` of the auth service, where the
setting is a number of the configuration. -/
def sessionMaxRefreshRetriesForClient (value : ℤ) : ℕ :=
  if 1 ≤ value ∧ value ≤ 10 then value.toNat else 5

/-- The answer of `handle_refresh` to a soft failure. -/
def softAnswer (detail : Text) (value : ℤ) : Response where
  status := 401
  body := some [("detail", .text detail), ("retry", .bool true),
    ("max_retries", .number (sessionMaxRefreshRetriesForClient value))]

theorem retryBound_softAnswer (detail : Text) (value : ℤ) :
    retryBound (softAnswer detail value) = sessionMaxRefreshRetriesForClient value := by
  have hnumber : retryBound (softAnswer detail value) =
      (wholeNumber (sessionMaxRefreshRetriesForClient value)).getD
        defaultSessionMaxRefreshRetries := rfl
  have hrange : 1 ≤ sessionMaxRefreshRetriesForClient value ∧
      sessionMaxRefreshRetriesForClient value ≤ 10 := by
    unfold sessionMaxRefreshRetriesForClient
    split
    · omega
    · omega
  have hwhole : wholeNumber (sessionMaxRefreshRetriesForClient value) =
      some (sessionMaxRefreshRetriesForClient value) := by
    unfold wholeNumber
    rw [Rat.den_natCast, Rat.num_natCast, if_pos ⟨rfl, by omega, by omega⟩]
    rfl
  rw [hnumber, hwhole, Option.getD_some]

/-- As long as the service answers softly, a refresh is tried as often as its
setting says, between once and ten times, and then the page goes to the login. -/
theorem softly_refused
    {csrfOf : Text → Text} {pathname : String → Option String} {input : RequestInfo}
    {init : RequestInit} {trace : List FetchEvent} {result : Option Response} {detail : Text}
    {value : ℤ}
    (h : Run (authenticatedFetch csrfOf pathname input init) trace result)
    (hreturned : result ≠ none) (hposts : posts (acts trace) ≠ [])
    (hsoft : ∀ answer ∈ posts (acts trace), answer = some (softAnswer detail value)) :
    .login ∈ acts trace ∧
      (posts (acts trace)).length = sessionMaxRefreshRetriesForClient value := by
  have hpos : 1 ≤ sessionMaxRefreshRetriesForClient value := by
    unfold sessionMaxRefreshRetriesForClient
    split
    · omega
    · omega
  have houtcome := run_authenticatedFetch h
  generalize acts trace = done at *
  cases houtcome with
  | unsent => exact absurd rfl hreturned
  | lost init => exact absurd rfl hreturned
  | passed init hpasses => exact absurd rfl hposts
  | refused init hboot hstatus hresult => exact absurd rfl hposts
  | broken init hboot hfirst hdone => exact absurd rfl hreturned
  | unrepeated init hboot hfirst hrefresh hdone => exact absurd rfl hreturned
  | @again init init' r rs done answer hboot hfirst hrefresh hdone =>
      obtain ⟨q, hq, hstatus⟩ := hrefresh.ok_iff.mp rfl
      have hmem : some q ∈ posts (.sent init (some r) :: (done ++ [.sent init' result])) := by
        rw [posts_cons, posts_append, hdone.acts.2.1]
        exact List.mem_append_left _ (List.mem_map_of_mem hq)
      have hq := Option.some.inj (hsoft (some q) hmem)
      rw [hq] at hstatus
      cases hstatus
  | @failed init r rs done result hboot hfirst hrefresh hdone hresult =>
      have hanswers : posts (.sent init (some r) :: (done ++ [.login])) = rs.map some := by
        rw [posts_cons, posts_append, hdone.acts.2.1]
        exact List.append_nil _
      rw [hanswers] at hsoft ⊢
      have hall : ∀ q ∈ rs, responseAllowsRefresh q = true ∧
          retryBound q = sessionMaxRefreshRetriesForClient value := by
        intro q hq
        have hq := Option.some.inj (hsoft (some q) (List.mem_map_of_mem hq))
        rw [hq]
        exact ⟨rfl, retryBound_softAnswer detail value⟩
      have hlength := (hrefresh.length_of_soft hall).2
      refine ⟨by simp, ?_⟩
      rw [List.length_map]
      omega

/-- A save that the service refuses softly, in a deployment that allows three
attempts. -/
def refusingAnswers : (op : FetchOp) → FetchAns op
  | .documentCookie => [99]
  | .getCsrf => ⟨200, none⟩
  | .postRefresh _ => softAnswer [] 3
  | .send _ _ => ⟨401, some [("retry", .bool true)]⟩
  | .assignLogin => ()

def refusedSave : List FetchEvent × Option Response :=
  Prog.play refusingAnswers true (authenticatedFetch id (fun _ => none)
    ⟨"/api/v2/records/role", none⟩ ⟨none, none, [], .none⟩)

section Refused

variable (next : RefreshAttemptResult → FetchProg)

theorem play_first_attempt :
    (refreshLoop id 0 next).play refusingAnswers true =
      (.called .getCsrf (some ⟨200, none⟩) ::
        .called (.postRefresh none) (some (softAnswer [] 3)) ::
          ((refreshLoop id 1 next).play refusingAnswers true).1,
        ((refreshLoop id 1 next).play refusingAnswers true).2) := by
  have hbound : retryBound (softAnswer [] 3) = 3 := retryBound_softAnswer [] 3
  have hsoft : responseAllowsRefresh (softAnswer [] 3) = true := rfl
  rw [refreshLoop]
  simp [postRefresh, csrfToken, fetchCsrf, Prog.await, Prog.play, refusingAnswers,
    csrfOfResponse, Response.ok, hbound, hsoft, show (softAnswer [] 3).status = 401 from rfl]

/-- After the first attempt the token of the cookie is there. -/
theorem play_attempt (n : ℕ) :
    (refreshLoop id (n + 1) next).play refusingAnswers true =
      let rest := if n + 2 < 3 then (refreshLoop id (n + 2) next).play refusingAnswers true
        else (next .hardFail).play refusingAnswers true
      (.called .documentCookie (some [99]) ::
        .called (.postRefresh (some [99])) (some (softAnswer [] 3)) :: rest.1, rest.2) := by
  have hbound : retryBound (softAnswer [] 3) = 3 := retryBound_softAnswer [] 3
  have hsoft : responseAllowsRefresh (softAnswer [] 3) = true := rfl
  rw [refreshLoop]
  by_cases hleft : n + 2 < 3
  · simp [postRefresh, csrfToken, Prog.await, Prog.play, refusingAnswers, hbound, hsoft, hleft,
      show (softAnswer [] 3).status = 401 from rfl]
  · simp [postRefresh, csrfToken, Prog.await, Prog.play, refusingAnswers, hbound, hsoft, hleft,
      show (softAnswer [] 3).status = 401 from rfl]

end Refused

theorem softly_refused_save :
    .login ∈ acts refusedSave.1 ∧ (posts (acts refusedSave.1)).length = 3 := by
  have hplayed : refusedSave.2 ≠ none ∧
      posts (acts refusedSave.1) = List.replicate 3 (some (softAnswer [] 3)) := by
    have hplay : ∃ next, next .hardFail =
          assignLoginThen (some ⟨401, some [("retry", .bool true)]⟩) ∧
        refusedSave = (.called (.send ⟨"/api/v2/records/role", none⟩
            ⟨none, some "include", [], .none⟩) (some ⟨401, some [("retry", .bool true)]⟩) ::
          ((refreshLoop id 0 next).play refusingAnswers true).1,
          ((refreshLoop id 0 next).play refusingAnswers true).2) :=
      ⟨_, rfl, rfl⟩
    obtain ⟨next, hnext, hplay⟩ := hplay
    rw [hplay, play_first_attempt, play_attempt next 0, if_pos (by decide), play_attempt next 1,
      if_neg (by decide), hnext]
    exact ⟨Option.some_ne_none _, rfl⟩
  have hrun := Prog.play_run refusingAnswers true (authenticatedFetch id (fun _ => none)
    ⟨"/api/v2/records/role", none⟩ ⟨none, none, [], .none⟩)
  have hposts : posts (acts refusedSave.1) ≠ [] := by
    rw [hplayed.2]
    exact List.cons_ne_nil _ _
  have hsoft : ∀ answer ∈ posts (acts refusedSave.1), answer = some (softAnswer [] 3) := by
    rw [hplayed.2]
    exact fun answer hanswer => List.eq_of_mem_replicate hanswer
  exact @softly_refused _ _ _ _ _ _ [] 3 hrun hplayed.1 hposts hsoft

end Untangled.RefreshFetch
