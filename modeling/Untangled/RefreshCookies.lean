import Untangled.RefreshPipeline
import Untangled.SessionCleanup

/-!
# The pair of session cookies in the browser

`handle_login` and `handle_refresh` of `http.ts` set the access and the refresh
cookie with the same `Max-Age`.  A refresh needs both.  The refresh cookie is
renewed by every refresh, the access cookie only when its token has expired, so
the refresh cookie may come to outlive the other one, and then it is of no use.
-/

namespace Untangled.Auth

open ReadCommitted

/-! ## The browser -/

structure Cookie where
  value : String
  expiresAt : ℤ
  deriving DecidableEq

/-- `Max-Age` counts from the instant the answer arrives. -/
def setCookie (value : String) (maxAge receivedAt : ℤ) : Cookie where
  value := value
  expiresAt := receivedAt + maxAge * 1000

/-- What a request sent at `t` carries of a cookie. -/
def presented (cookie : Option Cookie) (t : ℤ) : Option String :=
  match cookie with
  | none => none
  | some cookie => if t < cookie.expiresAt then some cookie.value else none

structure Browser where
  access : Option Cookie
  refresh : Option Cookie
  deriving DecidableEq

/-- The cookies of a successful login, `token` being the signed access token. -/
def LoginArgs.cookies (a : LoginArgs) (mustChange : Bool) (token : String)
    (receivedAt : ℤ) : Browser where
  access := some (setCookie token (a.times mustChange).accessMaxAge receivedAt)
  refresh := (a.times mustChange).refreshMaxAge.map fun maxAge =>
    setCookie a.refreshToken maxAge receivedAt

/-- The `Set-Cookie` headers of `handle_refresh`. -/
def Browser.answered (b : Browser) (result : RefreshPipelineResult)
    (receivedAt : ℤ) : Browser :=
  match result with
  | .success refreshToken accessToken refreshMaxAge accessMaxAge =>
      { access :=
          match accessToken with
          | none => b.access
          | some token => some (setCookie token accessMaxAge receivedAt)
        refresh := some (setCookie refreshToken refreshMaxAge receivedAt) }
  | _ => b

/-- One refresh: when the request leaves, how the service and its database
answer it, and when the answer arrives. -/
structure RefreshVisit where
  deps : RefreshPipelineDeps
  db : AuthDb
  sourceIp : Option String
  protocol : Option String
  host : Option String
  userAgent : Option String
  sentAt : ℤ
  receivedAt : ℤ

def refreshPath : String := "/api/v2/auth/refresh"

/-- `handle_refresh` reads both tokens from the request's cookies; an empty
cookie counts as a missing one. -/
def presentedToken (cookie : Option Cookie) (t : ℤ) : Option String :=
  if presented cookie t = some "" then none else presented cookie t

def RefreshVisit.context (v : RefreshVisit) (b : Browser) :
    RefreshRequestContext where
  accessToken := presentedToken b.access v.sentAt
  refreshToken := presentedToken b.refresh v.sentAt
  sourceIp := v.sourceIp
  protocol := v.protocol
  host := v.host
  contextPath := refreshPath
  userAgent := v.userAgent

def RefreshVisit.result (v : RefreshVisit) (b : Browser) :
    RefreshPipelineResult :=
  (runRefreshPipeline v.deps (v.context b) v.db).result

def Browser.visit (b : Browser) (v : RefreshVisit) : Browser :=
  b.answered (v.result b) v.receivedAt

/-- Whenever the refresh cookie is sent, so is the access cookie. -/
def Paired (b : Browser) : Prop :=
  ∀ t, (presented b.refresh t).isSome = true →
    (presented b.access t).isSome = true

/-! ## A successful refresh -/

/-- What a run that succeeds has found and answered. -/
structure RefreshSucceeded (deps : RefreshPipelineDeps)
    (ctx : RefreshRequestContext) (db : AuthDb) (accessToken : Option String)
    (maxAge : ℤ) (presentedAccess : String) (payload : AccessPayload)
    (sid : Uuid) (presentedRefresh : String) (row : SessionRow) : Prop where
  access : ctx.accessToken = some presentedAccess
  verified : deps.verifyAccessToken presentedAccess = some payload
  session : payload.sid = some sid
  refresh : ctx.refreshToken = some presentedRefresh
  current : (rotateArgs deps ctx payload.sub sid presentedRefresh).current db =
    some row
  lifetime : maxAge = max 1 (min deps.settings.sessionRefreshTtlSeconds
    (floorSeconds row.sessionExpiresAt - floorSeconds deps.now))
  renewed : accessToken.isSome = accessExpired deps payload

section Pipeline

variable {deps : RefreshPipelineDeps} {ctx : RefreshRequestContext}
  {db : AuthDb} {refreshToken : String} {accessToken : Option String}
  {refreshMaxAge accessMaxAge : ℤ}

theorem failHard_result {reason : String} {userId : Option Uuid}
    {invalidate : Option (Uuid × Uuid)} {steps : List PipelineStep} :
    (failHard deps ctx reason userId invalidate db steps).result.isSuccess =
      false := by
  unfold failHard
  dsimp only
  split
  · rfl
  · cases invalidate with
    | none => rfl
    | some pair => rfl

theorem refreshAudited_success {uid sid : Uuid} {token : Option String}
    {refreshExpiresAt : ℤ} {steps : List PipelineStep}
    (hresult : (refreshAudited deps ctx uid sid token refreshExpiresAt db
      steps).result = .success refreshToken accessToken refreshMaxAge accessMaxAge) :
    accessToken = token ∧
      refreshMaxAge = refreshRemaining deps refreshExpiresAt ∧
      accessMaxAge = refreshRemaining deps refreshExpiresAt := by
  unfold refreshAudited at hresult
  dsimp only at hresult
  split at hresult
  · simp only [RefreshPipelineResult.success.injEq] at hresult
    exact ⟨hresult.2.1.symm, hresult.2.2.1.symm, hresult.2.2.2.symm⟩
  · cases hresult

theorem refreshRotated_success {payload : AccessPayload} {sid : Uuid}
    {refreshExpiresAt : ℤ} {steps : List PipelineStep}
    (hresult : (refreshRotated deps ctx payload sid refreshExpiresAt db
      steps).result = .success refreshToken accessToken refreshMaxAge accessMaxAge) :
    accessToken.isSome = accessExpired deps payload ∧
      refreshMaxAge = refreshRemaining deps refreshExpiresAt ∧
      accessMaxAge = refreshRemaining deps refreshExpiresAt := by
  unfold refreshRotated at hresult
  split at hresult
  · rename_i hexpired
    rw [hexpired]
    split at hresult
    · cases hresult
    · obtain ⟨htoken, hages⟩ := refreshAudited_success hresult
      exact ⟨by rw [htoken]; rfl, hages⟩
  · rename_i hlive
    obtain ⟨htoken, hages⟩ := refreshAudited_success hresult
    refine ⟨?_, hages⟩
    have hfalse : accessExpired deps payload = false := by simpa using hlive
    rw [htoken, hfalse]
    rfl

/-- The lifetime of the renewed cookies, from the session row. -/
theorem refreshRemaining_times (deps : RefreshPipelineDeps)
    (a : AttemptRotateArgs) (row : SessionRow) (hnow : a.now = deps.now)
    (httl : a.refreshTtlSeconds = deps.settings.sessionRefreshTtlSeconds) :
    refreshRemaining deps (a.times row).refreshExpiresAt =
      max 1 (min deps.settings.sessionRefreshTtlSeconds
        (floorSeconds row.sessionExpiresAt - floorSeconds deps.now)) := by
  have htimes : floorSeconds (a.times row).refreshExpiresAt =
      min (floorSeconds a.now + a.refreshTtlSeconds)
        (floorSeconds row.sessionExpiresAt) := by
    simp only [AttemptRotateArgs.times, rotateSessionTimes, floorSeconds_mul]
  unfold refreshRemaining
  rw [htimes, hnow, httl]
  omega

theorem refreshRotate_success {payload : AccessPayload} {sid : Uuid}
    {presentedRefresh : String}
    (hresult : (refreshRotate deps ctx payload sid presentedRefresh db).result =
      .success refreshToken accessToken refreshMaxAge accessMaxAge) :
    accessMaxAge = refreshMaxAge ∧ ∃ row,
      (rotateArgs deps ctx payload.sub sid presentedRefresh).current db =
        some row ∧
      refreshMaxAge = max 1 (min deps.settings.sessionRefreshTtlSeconds
        (floorSeconds row.sessionExpiresAt - floorSeconds deps.now)) ∧
      accessToken.isSome = accessExpired deps payload := by
  unfold refreshRotate at hresult
  dsimp only at hresult
  have houtcome := attemptRotate_outcome
    (rotateArgs deps ctx payload.sub sid presentedRefresh) db deps.rotateFails
  generalize (attemptRotate (rotateArgs deps ctx payload.sub sid
    presentedRefresh)).run authSchema deps.rotateFails 0 none db = done
      at hresult houtcome
  have hfail : ∀ {run : RefreshRun}, run.result.isSuccess = false →
      run.result ≠
        .success refreshToken accessToken refreshMaxAge accessMaxAge := by
    intro run hfailed hsuccess
    rw [hsuccess] at hfailed
    cases hfailed
  cases houtcome with
  | @rotated row hcurrent hlive hnew =>
      obtain ⟨hrenewed, hrefresh, haccess⟩ := refreshRotated_success hresult
      have hremaining := refreshRemaining_times deps
        (rotateArgs deps ctx payload.sub sid presentedRefresh) row rfl rfl
      refine ⟨haccess.trans hrefresh.symm, row, hcurrent, ?_, hrenewed⟩
      rw [hrefresh, hremaining]
  | expired hcurrent hexpired => exact absurd hresult (hfail failHard_result)
  | unknown hcurrent hconsumed => exact absurd hresult (hfail failHard_result)
  | softReuse hcurrent hconsumed hgrace => cases hresult
  | hardReuse hcurrent hconsumed hgrace =>
      refine absurd hresult (hfail ?_)
      unfold refreshOutcome refreshReplayed
      dsimp only
      split
      · rfl
      · rfl
  | threw fault => cases hresult

theorem runRefreshPipeline_success
    (hresult : (runRefreshPipeline deps ctx db).result =
      .success refreshToken accessToken refreshMaxAge accessMaxAge) :
    accessMaxAge = refreshMaxAge ∧
      ∃ presentedAccess payload sid presentedRefresh row,
        RefreshSucceeded deps ctx db accessToken refreshMaxAge presentedAccess
          payload sid presentedRefresh row := by
  have hfail : ∀ {run : RefreshRun}, run.result.isSuccess = false →
      run.result ≠
        .success refreshToken accessToken refreshMaxAge accessMaxAge := by
    intro run hfailed hsuccess
    rw [hsuccess] at hfailed
    cases hfailed
  unfold runRefreshPipeline at hresult
  split at hresult
  · cases hresult
  · split at hresult
    · exact absurd hresult (hfail failHard_result)
    · rename_i presentedAccess haccess
      split at hresult
      · exact absurd hresult (hfail failHard_result)
      · rename_i payload hverified
        split at hresult
        · exact absurd hresult (hfail failHard_result)
        · rename_i sid hsid
          dsimp only at hresult
          split at hresult
          · exact absurd hresult (hfail failHard_result)
          · rename_i presentedRefresh hrefresh
            split at hresult
            · exact absurd hresult (hfail failHard_result)
            · obtain ⟨hages, row, hcurrent, hlifetime, hrenewed⟩ :=
                refreshRotate_success hresult
              exact ⟨hages, presentedAccess, payload, sid, presentedRefresh, row,
                haccess, hverified, hsid, hrefresh, hcurrent, hlifetime,
                hrenewed⟩

end Pipeline

/-! ## Runs of the browser -/

def Succeeds (b : Browser) (v : RefreshVisit) : Prop :=
  (v.result b).isSuccess = true

/-- The access token has expired, or the lifetime the session still allows ends
no later than the access cookie in the browser. -/
def KeepsPair (b : Browser) (v : RefreshVisit) : Prop :=
  ∀ token payload sid refreshToken row cookie,
    (v.context b).accessToken = some token →
    v.deps.verifyAccessToken token = some payload → payload.sid = some sid →
    (v.context b).refreshToken = some refreshToken →
    (rotateArgs v.deps (v.context b) payload.sub sid refreshToken).current v.db =
      some row →
    b.access = some cookie →
      payload.exp ≤ floorSeconds v.deps.now ∨
        v.receivedAt + max 1 (min v.deps.settings.sessionRefreshTtlSeconds
          (floorSeconds row.sessionExpiresAt - floorSeconds v.deps.now)) * 1000 ≤
            cookie.expiresAt

/-- `p` holds of the browser before every visit and at the end. -/
def Throughout (p : Browser → Prop) : Browser → List RefreshVisit → Prop
  | b, [] => p b
  | b, v :: rest => p b ∧ Throughout p (b.visit v) rest

/-- `p` holds of every visit in the browser it starts from. -/
def AtEach (p : Browser → RefreshVisit → Prop) :
    Browser → List RefreshVisit → Prop
  | _, [] => True
  | b, v :: rest => p b v ∧ AtEach p (b.visit v) rest

theorem presented_isSome {cookie : Cookie} {t : ℤ} :
    (presented (some cookie) t).isSome = true ↔ t < cookie.expiresAt := by
  unfold presented
  dsimp only
  split
  · rename_i hlive
    simp [hlive]
  · rename_i hexpired
    simp [hexpired]

theorem paired_iff {access refresh : Cookie} :
    Paired ⟨some access, some refresh⟩ ↔
      refresh.expiresAt ≤ access.expiresAt := by
  constructor
  · intro hpaired
    have hlast : (presented (some refresh) (refresh.expiresAt - 1)).isSome = true :=
      presented_isSome.mpr (by omega)
    have hsent := presented_isSome.mp (hpaired _ hlast)
    omega
  · intro hle t hsent
    have hlive := presented_isSome.mp hsent
    exact presented_isSome.mpr (by omega)

theorem presentedToken_some {cookie : Option Cookie} {t : ℤ} {token : String}
    (htoken : presentedToken cookie t = some token) :
    ∃ c, cookie = some c := by
  cases cookie with
  | none => cases htoken
  | some c => exact ⟨c, rfl⟩

/-- A successful refresh leaves a pair exactly when it keeps it one. -/
theorem paired_visit_iff {b : Browser} {v : RefreshVisit}
    (hsucceeds : Succeeds b v) : Paired (b.visit v) ↔ KeepsPair b v := by
  unfold Succeeds at hsucceeds
  cases hresult : v.result b with
  | soft => simp [hresult, RefreshPipelineResult.isSuccess] at hsucceeds
  | hard => simp [hresult, RefreshPipelineResult.isSuccess] at hsucceeds
  | unavailable => simp [hresult, RefreshPipelineResult.isSuccess] at hsucceeds
  | internalError => simp [hresult, RefreshPipelineResult.isSuccess] at hsucceeds
  | success newRefresh newAccess refreshMaxAge accessMaxAge =>
      obtain ⟨hages, token, payload, sid, refreshToken, row, hdone⟩ :=
        runRefreshPipeline_success hresult
      obtain ⟨cookie, hcookie⟩ := presentedToken_some hdone.access
      have hrenewed := hdone.renewed
      have hlifetime := hdone.lifetime
      have hkeeps : KeepsPair b v ↔
          (payload.exp ≤ floorSeconds v.deps.now ∨
            v.receivedAt + refreshMaxAge * 1000 ≤ cookie.expiresAt) := by
        rw [hlifetime]
        constructor
        · intro hkeeps
          exact hkeeps token payload sid refreshToken row cookie hdone.access
            hdone.verified hdone.session hdone.refresh hdone.current hcookie
        · intro hcase token' payload' sid' refreshToken' row' cookie' haccess
            hverified hsession hrefresh hcurrent hcookie'
          obtain rfl := Option.some.inj (hdone.access.symm.trans haccess)
          obtain rfl := Option.some.inj (hdone.verified.symm.trans hverified)
          obtain rfl := Option.some.inj (hdone.session.symm.trans hsession)
          obtain rfl := Option.some.inj (hdone.refresh.symm.trans hrefresh)
          obtain rfl := Option.some.inj (hdone.current.symm.trans hcurrent)
          obtain rfl := Option.some.inj (hcookie.symm.trans hcookie')
          exact hcase
      rw [hkeeps]
      cases newAccess with
      | some fresh =>
          have hexpired : payload.exp ≤ floorSeconds v.deps.now := by
            have htrue : accessExpired v.deps payload = true := hrenewed.symm
            simpa [accessExpired] using htrue
          have hvisit : b.visit v =
              ⟨some (setCookie fresh accessMaxAge v.receivedAt),
                some (setCookie newRefresh refreshMaxAge v.receivedAt)⟩ := by
            simp [Browser.visit, hresult, Browser.answered]
          rw [hvisit, paired_iff]
          simp [setCookie, hages, hexpired]
      | none =>
          have hlive : ¬ payload.exp ≤ floorSeconds v.deps.now := by
            have hfalse : accessExpired v.deps payload = false := hrenewed.symm
            simpa [accessExpired] using hfalse
          have hvisit : b.visit v = ⟨some cookie,
              some (setCookie newRefresh refreshMaxAge v.receivedAt)⟩ := by
            simp [Browser.visit, hresult, Browser.answered, hcookie]
          rw [hvisit, paired_iff]
          simp [setCookie, hlive]

/-- An ordinary login leaves a pair. -/
theorem paired_login (a : LoginArgs) (token : String) (receivedAt : ℤ) :
    Paired (a.cookies false token receivedAt) :=
  paired_iff.mpr le_rfl

theorem throughout_paired_iff {b : Browser} {visits : List RefreshVisit}
    (hpaired : Paired b) (hsucceed : AtEach Succeeds b visits) :
    Throughout Paired b visits ↔ AtEach KeepsPair b visits := by
  induction visits generalizing b with
  | nil => exact iff_of_true hpaired trivial
  | cons v rest ih =>
      obtain ⟨hfirst, hrest⟩ := hsucceed
      have hstep := paired_visit_iff hfirst
      constructor
      · rintro ⟨_, hthroughout⟩
        have hnext : Paired (b.visit v) := by
          cases rest with
          | nil => exact hthroughout
          | cons w more => exact hthroughout.1
        exact ⟨hstep.mp hnext, (ih hnext hrest).mp hthroughout⟩
      · rintro ⟨hkeeps, hmore⟩
        have hnext := hstep.mpr hkeeps
        exact ⟨hpaired, (ih hnext hrest).mpr hmore⟩

/-- From an ordinary login on, through any successful refreshes, the access
cookie is sent whenever the refresh cookie is, exactly if every refresh keeps
the pair. -/
theorem cookies_paired_iff (a : LoginArgs) (token : String) (receivedAt : ℤ)
    (visits : List RefreshVisit)
    (hsucceed : AtEach Succeeds (a.cookies false token receivedAt) visits) :
    Throughout Paired (a.cookies false token receivedAt) visits ↔
      AtEach KeepsPair (a.cookies false token receivedAt) visits :=
  throughout_paired_iff (paired_login a token receivedAt) hsucceed

/-! ## A refresh while the access token is live -/

/-- The database after the sample login. -/
def loggedInDb : AuthDb :=
  ((handleLogin freshLogin).runSerial authSchema sampleStart.db).2

/-- A refresh of that session at `now`, answered at once. -/
def sampleVisit (now : ℤ) : RefreshVisit where
  deps :=
    { settings := defaultSettings
      drawT := some 400
      verifyAccessToken token :=
        if token = "jwt" then
          some { sub := 1, sid := some 10, passwordChangeRequired := false,
                 exp := 900 }
        else none
      signAccessToken _ := some "jwt 2"
      hmacRefreshToken token := "hmac of " ++ token
      newRefresh := "token 2"
      auditOk _ := true
      rotateFails _ := false
      invalidateFails _ := false
      now := now
      usedTokenId := 20
      usedClock := now
      sessionClock := now }
  db := loggedInDb
  sourceIp := none
  protocol := none
  host := none
  userAgent := none
  sentAt := now
  receivedAt := now

/-- In the twentieth minute the access token has expired and both cookies are
set again. -/
theorem cookies_paired_later :
    Throughout Paired (freshLogin.cookies false "jwt" 0)
      [sampleVisit 1200000] := by
  have hsucceed : AtEach Succeeds (freshLogin.cookies false "jwt" 0)
      [sampleVisit 1200000] := by
    refine ⟨?_, trivial⟩
    unfold Succeeds
    decide +kernel
  have hkeeps : KeepsPair (freshLogin.cookies false "jwt" 0)
      (sampleVisit 1200000) := by
    have htoken : ((sampleVisit 1200000).context
        (freshLogin.cookies false "jwt" 0)).accessToken = some "jwt" := by
      decide +kernel
    intro token payload sid refreshToken row cookie haccess hverified
    obtain rfl := Option.some.inj (htoken.symm.trans haccess)
    obtain rfl := Option.some.inj hverified
    intro _ _ _ _
    exact Or.inl (by decide)
  exact (cookies_paired_iff freshLogin "jwt" 0 _ hsucceed).mpr ⟨hkeeps, trivial⟩

/-- The session was stored by the login, and a refresh in its first minute
succeeds and leaves a refresh cookie that outlives the access cookie. -/
theorem cookies_stranded :
    ((handleLogin freshLogin).runSerial authSchema sampleStart.db).1 =
        .ok (.login (.success sampleUser false true)) ∧
      AtEach Succeeds (freshLogin.cookies false "jwt" 0) [sampleVisit 60000] ∧
      ¬ Throughout Paired (freshLogin.cookies false "jwt" 0)
        [sampleVisit 60000] := by
  refine ⟨by decide +kernel, ⟨?_, trivial⟩, ?_⟩
  · unfold Succeeds
    decide +kernel
  · rintro ⟨_, hpaired⟩
    have hvisit : (freshLogin.cookies false "jwt" 0).visit (sampleVisit 60000) =
        ⟨some ⟨"jwt", 604800000⟩, some ⟨"token 2", 604860000⟩⟩ := by
      decide +kernel
    have hpair : Paired
        ((freshLogin.cookies false "jwt" 0).visit (sampleVisit 60000)) := hpaired
    rw [hvisit, paired_iff] at hpair
    exact absurd hpair (by decide)

end Untangled.Auth
