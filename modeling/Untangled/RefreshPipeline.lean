import Untangled.JsStrings
import Untangled.SessionSerial
import Untangled.SystemConfig

/-!
# The refresh pipeline

`run_refresh_pipeline` of `refresh_pipeline.ts`: verify the access token,
rotate the refresh token, sign a new access token when the old one has expired,
and audit.  Every collaborator may fail on its own; the result comes with the
steps that were taken.
-/

namespace Untangled.Auth

open ReadCommitted

/-- The claims of an access token that the service reads. -/
structure AccessPayload where
  sub : Uuid
  sid : Option Uuid
  passwordChangeRequired : Bool
  exp : ℤ
  deriving DecidableEq

structure RefreshRequestContext where
  accessToken : Option String
  refreshToken : Option String
  sourceIp : Option String
  protocol : Option String
  host : Option String
  contextPath : String
  userAgent : Option String
  deriving DecidableEq

/-- The units of the text that an event keeps. -/
def boundEventText (raw : String) : List ℕ :=
  if (utf16Units raw).length ≤ usernameEventBound then utf16Units raw
  else (utf16Units raw).take usernameEventBound

/-- The `data` of both events. -/
structure RefreshEventData where
  contextPath : String
  protocol : Option String
  host : Option String
  userAgent : Option (List ℕ)
  deriving DecidableEq

def eventData (ctx : RefreshRequestContext) : RefreshEventData where
  contextPath := ctx.contextPath
  protocol := ctx.protocol
  host := ctx.host
  userAgent := (ctx.userAgent.filter (· ≠ "")).map boundEventText

/-- An event without its correlation id and its time. -/
structure RefreshAuditEvent where
  eventType : String
  actorChannel : String
  outcome : String
  reason : String
  severity : String
  userId : Option Uuid
  ipAddress : Option String
  data : RefreshEventData
  deriving DecidableEq

def refreshAuditEvent (success : Bool) (reason : String) (userId : Option Uuid)
    (ipAddress : Option String) (data : RefreshEventData) : RefreshAuditEvent where
  eventType := "auth.refresh"
  actorChannel := "human"
  outcome := if success then "success" else "failure"
  reason := reason
  severity := if success then "info" else "notice"
  userId := userId
  ipAddress := ipAddress
  data := data

def refreshReuseAuditEvent (userId : Option Uuid) (ipAddress : Option String)
    (data : RefreshEventData) : RefreshAuditEvent where
  eventType := "auth.refresh_reuse"
  actorChannel := "human"
  outcome := "failure"
  reason := "replay"
  severity := "warning"
  userId := userId
  ipAddress := ipAddress
  data := data

/-- The collaborators of one run, with the answer each gives and the steps of
the two transactions that throw.  A `none` answer is a thrown exception. -/
structure RefreshPipelineDeps where
  settings : AuthRuntimeSettings
  drawT : Option ℤ
  verifyAccessToken : String → Option AccessPayload
  signAccessToken : AccessPayload → Option String
  hmacRefreshToken : String → String
  newRefresh : String
  auditOk : RefreshAuditEvent → Bool
  rotateFails : ℕ → Bool
  invalidateFails : ℕ → Bool
  now : ℤ
  usedTokenId : Uuid
  usedClock : ℤ
  sessionClock : ℤ

inductive RefreshPipelineResult
  | success (refreshToken : String) (accessToken : Option String)
      (refreshMaxAge accessMaxAge : ℤ)
  | soft
  | hard
  | unavailable
  | internalError
  deriving DecidableEq

def RefreshPipelineResult.isSuccess : RefreshPipelineResult → Bool
  | .success _ _ _ _ => true
  | _ => false

/-- What a run did, in order. -/
inductive PipelineStep
  | rotateReturned (args : AttemptRotateArgs) (result : AttemptRotateResult)
  | rotateThrew
  | emitted (event : RefreshAuditEvent)
  | emitThrew (event : RefreshAuditEvent)
  | invalidated
  | invalidateThrew
  deriving DecidableEq

structure RefreshRun where
  result : RefreshPipelineResult
  db : AuthDb
  steps : List PipelineStep

section Pipeline

variable (deps : RefreshPipelineDeps) (ctx : RefreshRequestContext)

/-- `sessions.invalidate`, its exception swallowed. -/
def tryInvalidate (userId sessionId : Uuid) (db : AuthDb) :
    PipelineStep × AuthDb :=
  match (invalidateSession userId sessionId).run authSchema
    deps.invalidateFails 0 none db with
  | (.ok _, db') => (.invalidated, db')
  | (.error _, db') => (.invalidateThrew, db')

def failHard (reason : String) (userId : Option Uuid)
    (invalidate : Option (Uuid × Uuid)) (db : AuthDb)
    (steps : List PipelineStep) : RefreshRun :=
  let event := refreshAuditEvent false reason userId ctx.sourceIp (eventData ctx)
  if deps.auditOk event then ⟨.hard, db, steps ++ [.emitted event]⟩
  else
    match invalidate with
    | none => ⟨.unavailable, db, steps ++ [.emitThrew event]⟩
    | some (uid, sid) =>
        let done := tryInvalidate deps uid sid db
        ⟨.unavailable, done.2, steps ++ [.emitThrew event, done.1]⟩

/-- The arguments of `attempt_rotate`. -/
def rotateArgs (userId sessionId : Uuid) (refreshToken : String) :
    AttemptRotateArgs where
  oldHmac := deps.hmacRefreshToken refreshToken
  newHmac := deps.hmacRefreshToken deps.newRefresh
  userId := userId
  sessionId := sessionId
  now := deps.now
  refreshTtlSeconds := deps.settings.sessionRefreshTtlSeconds
  reuseGraceSeconds := deps.settings.sessionRefreshReuseGraceSeconds
  reuseWindowSeconds := deps.settings.sessionRefreshReuseWindowSeconds
  ipAddress := ctx.sourceIp
  userAgent := if ctx.userAgent = some "" then none else ctx.userAgent
  usedTokenId := deps.usedTokenId
  usedClock := deps.usedClock
  sessionClock := deps.sessionClock

def accessExpired (payload : AccessPayload) : Bool :=
  decide (payload.exp ≤ floorSeconds deps.now)

/-- The claims of the access token a refresh signs. -/
def freshAccess (userId sessionId : Uuid) : AccessPayload where
  sub := userId
  sid := some sessionId
  passwordChangeRequired := false
  exp := floorSeconds deps.now + deps.settings.sessionAccessTtlSeconds

/-- The lifetime of the cookies a refresh sets. -/
def refreshRemaining (refreshExpiresAt : ℤ) : ℤ :=
  max 1 (floorSeconds refreshExpiresAt - floorSeconds deps.now)

/-- The last step of a successful rotation: the audit event. -/
def refreshAudited (userId sessionId : Uuid) (accessToken : Option String)
    (refreshExpiresAt : ℤ) (db : AuthDb) (steps : List PipelineStep) :
    RefreshRun :=
  let event :=
    refreshAuditEvent true "refresh_ok" (some userId) ctx.sourceIp (eventData ctx)
  if deps.auditOk event then
    ⟨.success deps.newRefresh accessToken (refreshRemaining deps refreshExpiresAt)
      (refreshRemaining deps refreshExpiresAt), db, steps ++ [.emitted event]⟩
  else
    let done := tryInvalidate deps userId sessionId db
    ⟨.unavailable, done.2, steps ++ [.emitThrew event, done.1]⟩

/-- The rotation has been committed. -/
def refreshRotated (payload : AccessPayload) (sessionId : Uuid)
    (refreshExpiresAt : ℤ) (db : AuthDb) (steps : List PipelineStep) :
    RefreshRun :=
  if accessExpired deps payload then
    match deps.signAccessToken (freshAccess deps payload.sub sessionId) with
    | none =>
        let done := tryInvalidate deps payload.sub sessionId db
        ⟨.internalError, done.2, steps ++ [done.1]⟩
    | some token =>
        refreshAudited deps ctx payload.sub sessionId (some token)
          refreshExpiresAt db steps
  else
    refreshAudited deps ctx payload.sub sessionId none refreshExpiresAt db steps

/-- A consumed token was presented after its grace period. -/
def refreshReplayed (userId : Uuid) (db : AuthDb) (steps : List PipelineStep) :
    RefreshRun :=
  let event := refreshReuseAuditEvent (some userId) ctx.sourceIp (eventData ctx)
  if deps.auditOk event then ⟨.hard, db, steps ++ [.emitted event]⟩
  else ⟨.unavailable, db, steps ++ [.emitThrew event]⟩

/-- The branch on what `attempt_rotate` returned. -/
def refreshOutcome (payload : AccessPayload) (args : AttemptRotateArgs)
    (result : AttemptRotateResult) (db : AuthDb) : RefreshRun :=
  let steps := [PipelineStep.rotateReturned args result]
  let identifiable := some (args.userId, args.sessionId)
  match result with
  | .softReuse => ⟨.soft, db, steps⟩
  | .hardReuse => refreshReplayed deps ctx payload.sub db steps
  | .expired =>
      failHard deps ctx "expired_session" (some payload.sub) identifiable db steps
  | .unknown =>
      failHard deps ctx "unknown_token" (some payload.sub) identifiable db steps
  | .rotated refreshExpiresAt _ =>
      refreshRotated deps ctx payload args.sessionId refreshExpiresAt db steps

def refreshRotate (payload : AccessPayload) (sessionId : Uuid)
    (refreshToken : String) (db : AuthDb) : RefreshRun :=
  let args := rotateArgs deps ctx payload.sub sessionId refreshToken
  match (attemptRotate args).run authSchema deps.rotateFails 0 none db with
  | (.ok (.rotate result), db') => refreshOutcome deps ctx payload args result db'
  | (_, db') => ⟨.internalError, db', [.rotateThrew]⟩

def runRefreshPipeline (db : AuthDb) : RefreshRun :=
  match deps.drawT with
  | none => ⟨.internalError, db, []⟩
  | some _ =>
      match ctx.accessToken with
      | none => failHard deps ctx "missing_cookie" none none db []
      | some token =>
          match deps.verifyAccessToken token with
          | none => failHard deps ctx "invalid_jwt" none none db []
          | some payload =>
              match payload.sid with
              | none => failHard deps ctx "invalid_jwt" (some payload.sub) none db []
              | some sid =>
                  let identifiable := some (payload.sub, sid)
                  match ctx.refreshToken with
                  | none =>
                      failHard deps ctx "missing_cookie" (some payload.sub)
                        identifiable db []
                  | some refreshToken =>
                      if payload.passwordChangeRequired then
                        failHard deps ctx "must_change" (some payload.sub)
                          identifiable db []
                      else refreshRotate deps ctx payload sid refreshToken db

end Pipeline

/-! ## It fails closed -/

/-- No row of that user's session is stored. -/
def SessionGone (db : AuthDb) (userId sessionId : Uuid) : Prop :=
  (∀ r ∈ db.sessions, ¬ (r.id = sessionId ∧ r.userId = userId)) ∧
    ∀ u ∈ db.used, ¬ (u.sessionId = sessionId ∧ u.userId = userId)

/-- The HMAC is stored in neither table. -/
def HmacAbsent (db : AuthDb) (hmac : String) : Prop :=
  (∀ r ∈ db.sessions, r.refreshHmac ≠ some hmac) ∧
    ∀ u ∈ db.used, u.refreshHmac ≠ hmac

/-- What a run guarantees, given the database it started from. -/
structure FailsClosed (ctx : RefreshRequestContext) (db : AuthDb) (run : RefreshRun) :
    Prop where
  success : run.result.isSuccess = true →
    ∃ args refresh session,
      .rotateReturned args (.rotated refresh session) ∈ run.steps ∧
        .emitted (refreshAuditEvent true "refresh_ok" (some args.userId) ctx.sourceIp
          (eventData ctx)) ∈ run.steps
  rolledBack : ∀ args refresh session,
    .rotateReturned args (.rotated refresh session) ∈ run.steps →
    run.result.isSuccess = false →
      .invalidateThrew ∈ run.steps ∨
        (SessionGone run.db args.userId args.sessionId ∧
          (HmacAbsent db args.newHmac → HmacAbsent run.db args.newHmac))
  soft : run.result = .soft → run.db = db

variable {deps : RefreshPipelineDeps} {ctx : RefreshRequestContext} {db : AuthDb}

/-- A run without a successful rotation that ends in failure. -/
theorem failsClosed_of_failure {run : RefreshRun}
    (hresult : run.result.isSuccess = false) (hsoft : run.result ≠ .soft)
    (hsteps : ∀ args refresh session,
      .rotateReturned args (.rotated refresh session) ∉ run.steps) :
    FailsClosed ctx db run where
  success := by
    intro hsuccess
    rw [hresult] at hsuccess
    cases hsuccess
  rolledBack := by
    intro args refresh session hmem
    exact absurd hmem (hsteps args refresh session)
  soft := fun h => absurd h hsoft

theorem tryInvalidate_step (deps : RefreshPipelineDeps)
    (userId sessionId : Uuid) (db : AuthDb) :
    ((tryInvalidate deps userId sessionId db).1 = .invalidateThrew ∧
        (tryInvalidate deps userId sessionId db).2 = db) ∨
      ((tryInvalidate deps userId sessionId db).1 = .invalidated ∧
        (tryInvalidate deps userId sessionId db).2 =
          db.withoutSession userId sessionId) := by
  unfold tryInvalidate
  cases hrun : (invalidateSession userId sessionId).run authSchema
      deps.invalidateFails 0 none db with
  | mk outcome db' =>
      cases outcome with
      | error fault =>
          exact Or.inl ⟨rfl, invalidateSession_atomic.db_eq_of_error hrun⟩
      | ok reply => exact Or.inr ⟨rfl, (invalidateSession_returned hrun).2⟩

theorem failsClosed_failHard {reason : String} {userId : Option Uuid}
    {invalidate : Option (Uuid × Uuid)} {db₀ : AuthDb}
    {steps : List PipelineStep}
    (hsteps : ∀ args refresh session,
      .rotateReturned args (.rotated refresh session) ∉ steps) :
    FailsClosed ctx db₀ (failHard deps ctx reason userId invalidate db steps) := by
  unfold failHard
  dsimp only
  split
  · exact failsClosed_of_failure rfl (by simp) (by simpa using hsteps)
  · cases invalidate with
    | none => exact failsClosed_of_failure rfl (by simp) (by simpa using hsteps)
    | some pair =>
        obtain ⟨uid, sid⟩ := pair
        refine failsClosed_of_failure rfl (by simp) ?_
        intro args refresh session hmem
        simp only [List.mem_append, List.mem_cons, List.not_mem_nil, or_false,
          reduceCtorEq, false_or] at hmem
        obtain hmem | hstep := hmem
        · exact hsteps args refresh session hmem
        · obtain ⟨hthrew, _⟩ | ⟨hdone, _⟩ :=
            tryInvalidate_step deps uid sid db
          · rw [hthrew] at hstep
            cases hstep
          · rw [hdone] at hstep
            cases hstep

/-- After the rotation the new HMAC is stored in the rotated session only. -/
theorem hmacAbsent_withoutSession {a : AttemptRotateArgs} {row : SessionRow}
    (hcurrent : a.current db = some row) (habsent : HmacAbsent db a.newHmac) :
    HmacAbsent ((db.rotated a row).withoutSession a.userId a.sessionId)
      a.newHmac := by
  obtain ⟨hrow, hmatch⟩ := AttemptRotateArgs.current_some hcurrent
  obtain ⟨_, hid, huser⟩ := sessionHolds_iff.mp hmatch
  constructor
  · intro r hr
    obtain ⟨hr, hother⟩ := mem_withoutSession_sessions.mp hr
    obtain rfl | ⟨hold, _⟩ := Table.mem_put.mp hr
    · exact absurd ⟨hid, huser⟩ hother
    · exact habsent.1 r hold
  · intro u hu
    obtain ⟨hu, hother⟩ := mem_withoutSession_used.mp hu
    obtain rfl | ⟨hold, _⟩ := Table.mem_put.mp hu
    · exact absurd ⟨rfl, rfl⟩ hother
    · exact habsent.2 u hold

theorem sessionGone_withoutSession (db : AuthDb) (uid sid : Uuid) :
    SessionGone (db.withoutSession uid sid) uid sid :=
  ⟨fun _ hr => (mem_withoutSession_sessions.mp hr).2,
    fun _ hu => (mem_withoutSession_used.mp hu).2⟩

/-- A committed rotation that is not answered with success was invalidated. -/
theorem failsClosed_rotated {payload : AccessPayload} {a : AttemptRotateArgs}
    (huser : a.userId = payload.sub) {row : SessionRow}
    (hcurrent : a.current db = some row) {refresh session : ℤ} :
    FailsClosed ctx db (refreshRotated deps ctx payload a.sessionId refresh
      (db.rotated a row) [.rotateReturned a (.rotated refresh session)]) := by
  have hinvalidate : ∀ (result : RefreshPipelineResult) (more : List PipelineStep),
      result.isSuccess = false → result ≠ .soft →
      (∀ args refresh session,
        .rotateReturned args (.rotated refresh session) ∉ more) →
      FailsClosed ctx db ⟨result,
        (tryInvalidate deps payload.sub a.sessionId (db.rotated a row)).2,
        [.rotateReturned a (.rotated refresh session)] ++ (more ++
          [(tryInvalidate deps payload.sub a.sessionId (db.rotated a row)).1])⟩ := by
    intro result more hresult hsoft hmore
    refine ⟨?_, ?_, fun h => absurd h hsoft⟩
    · intro hsuccess
      rw [hresult] at hsuccess
      cases hsuccess
    · intro args refresh' session' hmem _
      obtain ⟨hthrew, _⟩ | ⟨hdone, hdb⟩ := tryInvalidate_step deps
        payload.sub a.sessionId (db.rotated a row)
      · refine Or.inl ?_
        rw [hthrew]
        simp
      · refine Or.inr ?_
        rw [hdone] at hmem
        simp only [List.cons_append, List.nil_append, List.mem_cons,
          PipelineStep.rotateReturned.injEq, List.mem_append, List.not_mem_nil,
          or_false, reduceCtorEq] at hmem
        obtain ⟨rfl, _⟩ | hmem := hmem
        · rw [← huser] at hdb
          dsimp only
          rw [← huser, hdb]
          exact ⟨sessionGone_withoutSession _ _ _,
            hmacAbsent_withoutSession hcurrent⟩
        · exact absurd hmem (hmore args refresh' session')
  have haudited : ∀ token, FailsClosed ctx db (refreshAudited deps ctx payload.sub
      a.sessionId token refresh (db.rotated a row)
      [.rotateReturned a (.rotated refresh session)]) := by
    intro token
    unfold refreshAudited
    dsimp only
    split
    · refine ⟨?_, ?_, ?_⟩
      · intro _
        exact ⟨a, refresh, session, by simp, by simp [huser]⟩
      · intro args refresh' session' _ hresult
        cases hresult
      · intro hsoft
        cases hsoft
    · exact hinvalidate .unavailable [.emitThrew _] rfl (by simp) (by simp)
  unfold refreshRotated
  split
  · cases deps.signAccessToken (freshAccess deps payload.sub a.sessionId) with
    | none => exact hinvalidate .internalError [] rfl (by simp) (by simp)
    | some token => exact haudited (some token)
  · exact haudited none

theorem failsClosed_refreshRotate (payload : AccessPayload) (sid : Uuid)
    (refreshToken : String) :
    FailsClosed ctx db (refreshRotate deps ctx payload sid refreshToken db) := by
  unfold refreshRotate
  dsimp only
  have houtcome := attemptRotate_outcome
    (rotateArgs deps ctx payload.sub sid refreshToken) db deps.rotateFails
  cases hrun : (attemptRotate (rotateArgs deps ctx payload.sub sid
      refreshToken)).run authSchema deps.rotateFails 0 none db with
  | mk outcome db' =>
      rw [hrun] at houtcome
      cases houtcome with
      | rotated hcurrent _ _ => exact failsClosed_rotated rfl hcurrent
      | expired hcurrent hexpired =>
          dsimp only [refreshOutcome]
          exact failsClosed_failHard (by simp)
      | unknown hcurrent hconsumed =>
          dsimp only [refreshOutcome]
          exact failsClosed_failHard (by simp)
      | softReuse hcurrent hconsumed hgrace =>
          refine ⟨?_, ?_, fun _ => rfl⟩
          · intro hsuccess
            cases hsuccess
          · intro args refresh session hmem
            simp [refreshOutcome] at hmem
      | hardReuse hcurrent hconsumed hgrace =>
          unfold refreshOutcome refreshReplayed
          dsimp only
          split
          · exact failsClosed_of_failure rfl (by simp) (by simp)
          · exact failsClosed_of_failure rfl (by simp) (by simp)
      | threw fault => exact failsClosed_of_failure rfl (by simp) (by simp)

/-- For every request, every database and every pattern of failures. -/
theorem refreshPipeline_failsClosed (deps : RefreshPipelineDeps)
    (ctx : RefreshRequestContext) (db : AuthDb) :
    FailsClosed ctx db (runRefreshPipeline deps ctx db) := by
  have hnil : ∀ (args : AttemptRotateArgs) (refresh session : ℤ),
      PipelineStep.rotateReturned args (.rotated refresh session) ∉
        ([] : List PipelineStep) := by
    simp
  unfold runRefreshPipeline
  cases deps.drawT with
  | none => exact failsClosed_of_failure rfl (by simp) hnil
  | some t =>
      cases ctx.accessToken with
      | none => exact failsClosed_failHard hnil
      | some token =>
          dsimp only
          cases deps.verifyAccessToken token with
          | none => exact failsClosed_failHard hnil
          | some payload =>
              dsimp only
              cases payload.sid with
              | none => exact failsClosed_failHard hnil
              | some sid =>
                  dsimp only
                  cases ctx.refreshToken with
                  | none => exact failsClosed_failHard hnil
                  | some refreshToken =>
                      dsimp only
                      split
                      · exact failsClosed_failHard hnil
                      · exact failsClosed_refreshRotate payload sid refreshToken

end Untangled.Auth
