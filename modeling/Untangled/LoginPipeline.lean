import Untangled.JsStrings
import Untangled.Login
import Untangled.RateLimitContext
import Untangled.RequestProgram

/-!
# The login pipeline

`run_login_pipeline` of `login_pipeline.ts` as a program that calls its
dependencies: the rate limiter, the user repository, the password hash, the
expiry evaluator, the audit sink and the clock.  Any of them may throw; whatever
throws inside the `try` block ends the login as `internal_error`, after the hash
slot has been given back if one is held.
-/

namespace Untangled.Auth

open RequestProgram

structure LoginRequestContext where
  providedUsername : String
  password : String
  sourceIp : Option String
  protocol : Option String
  host : Option String
  contextPath : String
  userAgent : Option String
deriving DecidableEq

structure LoginPipelineDeps where
  settings : LoginProcessSettings
  dummyHash : String

inductive LoginPipelineResult
  | success (userId : Uuid) (passwordChangeRequired : Bool)
  | denied
  | capacity
  | internalError
deriving DecidableEq

/-- The `data` of an audit event; the last four fields only where the event has them. -/
structure LoginEventData where
  usernameProvided : List ℕ
  usernameKey : String
  protocol : Option String
  host : Option String
  contextPath : String
  userAgent : Option String
  usernameExists : Option Bool
  isActive : Option Bool
  failedLoginCount : Option ℤ
  passwordExpiresAt : Option ℤ
deriving DecidableEq

structure LoginAudit where
  success : Bool
  reason : String
  userId : Option Uuid
  ipAddress : Option String
  capacity : Bool
  data : LoginEventData
deriving DecidableEq

structure PasswordChangeAudit where
  success : Bool
  userId : Uuid
  ipAddress : Option String
  reason : String
  contextPath : Option String
  username : Option String
  invalidateUserSessions : Option Bool
deriving DecidableEq

/-- What a login or a change of password calls.  `admitChangePassword` stands for
everything a change of password does before it asks for a hash slot: it answers
with the status of a refusal or with the admitted request. -/
inductive RequestOp
  | drawT (min max : ℤ)
  | nowMs
  | evaluate (usernameKey : String) (sourceIp : Option String)
  | loadByUsername (folded : String)
  | verifyPassword (hash password : String)
  | classify (user : UserRow) (graceDays : ℤ)
  | setFailedLoginCount (id : Uuid) (count : ℤ)
  | emitLogin (event : LoginAudit)
  | recordFailure (usernameKey : String) (sourceIp : Option String)
  | sleep (ms : ℚ)
  | admitChangePassword
  | executeChangePassword
  | emitPasswordChange (event : PasswordChangeAudit)
  | signAccessToken
deriving DecidableEq

/-- An admitted change of password: whose it is, and from where. -/
structure AdmittedChange where
  userId : Uuid
  sourceIp : Option String
deriving DecidableEq

abbrev RequestAns : RequestOp → Type
  | .drawT _ _ => ℤ
  | .nowMs => ℚ
  | .evaluate _ _ => RateLimitResult
  | .loadByUsername _ => Option UserRow
  | .verifyPassword _ _ => Bool
  | .classify _ _ => ExpiryVerdict
  | .setFailedLoginCount _ _ => Unit
  | .emitLogin _ => Unit
  | .recordFailure _ _ => Unit
  | .sleep _ => Unit
  | .admitChangePassword => ℕ ⊕ AdmittedChange
  | .executeChangePassword => ChangePasswordExecuteResult
  | .emitPasswordChange _ => Unit
  | .signAccessToken => Unit

/-- How a request ends: with the result of the pipeline, with a response, or
with an exception of its own. -/
inductive RequestReply
  | login (result : LoginPipelineResult)
  | response (status : ℕ)
  | thrown
deriving DecidableEq

abbrev RequestProg : Type := Prog RequestOp RequestAns RequestReply

/-! ## Keys and waits -/

def invalidOrOversize : String := "invalid-or-oversize"

def boundUsername (raw : String) : List ℕ :=
  if (utf16Units raw).length ≤ usernameEventBound then utf16Units raw
  else (utf16Units raw).take usernameEventBound

def LoginRequestContext.folded (ctx : LoginRequestContext) : String :=
  foldUsername ctx.providedUsername

def LoginRequestContext.usernameValid (ctx : LoginRequestContext) : Bool :=
  usernameIsValid ctx.folded

def LoginRequestContext.usernameKey (ctx : LoginRequestContext) : String :=
  if ctx.usernameValid then ctx.folded else invalidOrOversize

/-- `remaining_wait_ms` of `padding.ts`. -/
def remainingWaitMs (tMs : ℤ) (rlDelayMs : ℤ) (elapsedMs : ℚ) : ℚ :=
  max 0 (tMs + rlDelayMs - elapsedMs)

/-! ## The program -/

/-- The local variables of the pipeline. -/
structure LoginLocals where
  tMs : ℤ
  startedMs : ℚ
  rlDelayMs : ℤ
  authFailed : Bool
  skipToLanding : Bool
  failureReason : String
  accountIndependent : Bool
  user : Option UserRow
  verifyOk : Bool
  acquired : Bool
  success : Bool
  passwordChangeRequired : Bool

section Pipeline

variable (ctx : LoginRequestContext) (deps : LoginPipelineDeps)

def loginEventData (usernameExists : Option Bool) (user : Option UserRow) : LoginEventData where
  usernameProvided := boundUsername ctx.providedUsername
  usernameKey := ctx.usernameKey
  protocol := ctx.protocol
  host := ctx.host
  contextPath := ctx.contextPath
  userAgent := ctx.userAgent
  usernameExists := usernameExists
  isActive := user.map UserRow.isActive
  failedLoginCount := user.map UserRow.failedLoginCount
  passwordExpiresAt := user.map UserRow.passwordExpiresAt

/-- The `catch` block. -/
def loginCaught (acquired : Bool) : RequestProg :=
  if acquired then .release (.ret (.login .internalError))
  else .ret (.login .internalError)

def loginEnd (s : LoginLocals) : RequestProg :=
  if s.authFailed then
    .await (.recordFailure ctx.usernameKey ctx.sourceIp) (loginCaught s.acquired) fun _ =>
      .await .nowMs (loginCaught s.acquired) fun nowMs =>
        .await (.sleep (remainingWaitMs s.tMs s.rlDelayMs (nowMs - s.startedMs)))
          (loginCaught s.acquired) fun _ => .ret (.login .denied)
  else
    match s.user with
    | none => .ret (.login .internalError)
    | some user => .ret (.login (.success user.id s.passwordChangeRequired))

def loginLandingAudit (s : LoginLocals) : LoginAudit where
  success := s.success
  reason := if s.success then "login_ok" else s.failureReason
  userId := s.user.map UserRow.id
  ipAddress := ctx.sourceIp
  capacity := false
  data := loginEventData ctx (some (ctx.usernameValid && s.user.isSome)) s.user

def loginEmit (s : LoginLocals) : RequestProg :=
  .await (.emitLogin (loginLandingAudit ctx s)) (loginCaught s.acquired) fun _ => loginEnd ctx s

def loginRelease (s : LoginLocals) : RequestProg :=
  if s.acquired then .release (loginEmit ctx { s with acquired := false })
  else loginEmit ctx s

def LoginLocals.withCount (s : LoginLocals) (user : UserRow) (count : ℤ) : LoginLocals :=
  { s with user := some { user with failedLoginCount := count } }

def loginCount (s : LoginLocals) : RequestProg :=
  match s.user with
  | none => loginRelease ctx s
  | some user =>
      if s.success then
        .await (.setFailedLoginCount user.id 0) (loginCaught s.acquired) fun _ =>
          loginRelease ctx (s.withCount user 0)
      else if s.authFailed && !s.accountIndependent then
        .await (.setFailedLoginCount user.id (user.failedLoginCount + 1))
          (loginCaught s.acquired) fun _ =>
          loginRelease ctx (s.withCount user (user.failedLoginCount + 1))
      else
        loginRelease ctx s

def LoginLocals.refuse (s : LoginLocals) (reason : String) : LoginLocals :=
  { s with authFailed := true, failureReason := reason }

def LoginLocals.expiry (s : LoginLocals) (verdict : ExpiryVerdict) : LoginLocals :=
  match verdict with
  | .failure => s.refuse "password_age_locked"
  | .mustChange =>
      { s with success := true, authFailed := false, passwordChangeRequired := true }
  | .normalSuccess =>
      { s with success := true, authFailed := false, passwordChangeRequired := false }

def loginJudge (s : LoginLocals) : RequestProg :=
  if s.skipToLanding then
    loginCount ctx s
  else
    match s.user with
    | none => loginCount ctx (s.refuse "unknown_user")
    | some user =>
        if !s.verifyOk then
          loginCount ctx (s.refuse "bad_password")
        else if !user.isActive then
          loginCount ctx (s.refuse "inactive")
        else if deps.settings.maximumFailedCount ≤ user.failedLoginCount then
          loginCount ctx (s.refuse "failed_count_lockout")
        else
          .await (.classify user deps.settings.passwordGraceDays) (loginCaught s.acquired)
            fun verdict => loginCount ctx (s.expiry verdict)

def loginVerify (s : LoginLocals) : RequestProg :=
  .await (.loadByUsername ctx.folded) (loginCaught s.acquired) fun user =>
    .await (.verifyPassword ((user.map UserRow.passwordHash).getD deps.dummyHash) ctx.password)
      (loginCaught s.acquired) fun verifyOk =>
      loginJudge ctx deps { s with user := user, verifyOk := verifyOk }

def loginCapacityAudit : LoginAudit where
  success := false
  reason := "hash_capacity"
  userId := none
  ipAddress := ctx.sourceIp
  capacity := true
  data := loginEventData ctx none none

def loginAcquire (s : LoginLocals) : RequestProg :=
  if s.skipToLanding then
    loginJudge ctx deps s
  else
    .acquire fun granted =>
      if granted then
        loginVerify ctx deps { s with acquired := true }
      else
        .await (.emitLogin (loginCapacityAudit ctx)) (loginCaught s.acquired) fun _ =>
          .ret (.login .capacity)

/-- What the answer of the rate limiter makes of the locals. -/
def LoginLocals.limited (s : LoginLocals) (rl : RateLimitResult) : LoginLocals :=
  if rl.lockout then
    { s with
      rlDelayMs := rl.delayMs, authFailed := true, skipToLanding := true
      accountIndependent := true
      failureReason := if s.failureReason = "" then "rate_limit_lockout" else s.failureReason }
  else
    { s with rlDelayMs := rl.delayMs }

/-- Whether the password can be one at all. -/
def LoginRequestContext.passwordAcceptable (ctx : LoginRequestContext) : Bool :=
  !(ctx.password == "" || decide (utf16Length ctx.password > passwordSchemaMaxChars))

def LoginLocals.checked (s : LoginLocals) : LoginLocals :=
  if !s.skipToLanding && ctx.usernameValid && !ctx.passwordAcceptable then
    { s with
      authFailed := true, skipToLanding := true, accountIndependent := true
      failureReason := "password_empty_or_oversize" }
  else
    s

def loginLocals (tMs : ℤ) (startedMs : ℚ) : LoginLocals where
  tMs := tMs
  startedMs := startedMs
  rlDelayMs := 0
  authFailed := !ctx.usernameValid
  skipToLanding := !ctx.usernameValid
  failureReason := if ctx.usernameValid then "" else "invalid_username"
  accountIndependent := !ctx.usernameValid
  user := none
  verifyOk := false
  acquired := false
  success := false
  passwordChangeRequired := false

def runLoginPipeline : RequestProg :=
  .await (.drawT deps.settings.processTimeMinimumMs deps.settings.processTimeMaximumMs)
    (.ret (.login .internalError)) fun tMs =>
    .await .nowMs (.ret .thrown) fun startedMs =>
      .await (.evaluate ctx.usernameKey ctx.sourceIp) (loginCaught false) fun rl =>
        loginAcquire ctx deps (((loginLocals ctx tMs startedMs).limited rl).checked ctx)

end Pipeline

end Untangled.Auth
