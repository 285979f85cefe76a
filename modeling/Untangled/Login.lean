import Untangled.ChangePassword

/-!
# Login

`run_login_pipeline` of `login_pipeline.ts` and the rest of `handle_login` in
`http.ts`: the account is loaded, the password verified, the failed-login count
written and the session stored by four separate statements, each committed by
itself.  The rate limiter, the hash slots, the password hash, the audit sink
and the token library enter as the answers they give; a `none` answer is a
thrown exception.
-/

namespace Untangled.Auth

open ReadCommitted

/-! ## Usernames -/

/-- What `String.prototype.trim` removes. -/
def jsWhitespace (c : Char) : Bool :=
  let n := c.toNat
  decide (9 ≤ n ∧ n ≤ 13) || decide (n = 0x20) || decide (n = 0xA0) ||
    decide (n = 0x1680) || decide (0x2000 ≤ n ∧ n ≤ 0x200A) ||
    decide (n = 0x2028) || decide (n = 0x2029) || decide (n = 0x202F) ||
    decide (n = 0x205F) || decide (n = 0x3000) || decide (n = 0xFEFF)

/-- `toLowerCase` as far as a valid username can tell: besides the capital
letters only the Kelvin sign has an ASCII lower case. -/
def foldChar (c : Char) : Char :=
  if c.toNat = 0x212A then 'k' else c.toLower

def foldUsername (raw : String) : String :=
  let trimmed := (raw.toList.dropWhile jsWhitespace).reverse.dropWhile
    jsWhitespace
  String.ofList (trimmed.reverse.map foldChar)

/-- `/^[a-z0-9_]{3,32}$/`. -/
def usernameIsValid (folded : String) : Bool :=
  let chars := folded.toList
  decide (3 ≤ chars.length ∧ chars.length ≤ 32) &&
    chars.all fun c => decide ('a' ≤ c ∧ c ≤ 'z') ||
      decide ('0' ≤ c ∧ c ≤ '9') || decide (c = '_')

/-! ## The request -/

/-- A login request and the answers of everything outside the database.
`rateLimit` is the lockout answer of the limiter, `auditCapacityOk` and
`auditOk` say that the audit sink accepted the event, `signOk` that the access
token could be signed. -/
structure LoginArgs where
  settings : AuthRuntimeSettings
  providedUsername : String
  password : String
  ipAddress : Option String
  userAgent : Option String
  drawT : Option ℤ
  rateLimit : Option Bool
  hashSlot : Bool
  verifyPassword : String → String → Option Bool
  dummyHash : String
  auditCapacityOk : Bool
  auditOk : Bool
  recordFailureOk : Bool
  signOk : Bool
  classifyNow : ℤ
  now : ℤ
  countClock : ℤ
  sessionClock : ℤ
  sid : Uuid
  refreshToken : String
  hmacRefreshToken : String → String

inductive LoginVerdict
  | passed (passwordChangeRequired : Bool)
  | refused
  deriving DecidableEq

/-- What the pipeline concludes once the password has been verified. -/
def loginVerdict (a : LoginArgs) (user : UserRow) (verifyOk : Bool) :
    LoginVerdict :=
  if !verifyOk then .refused
  else if !user.isActive then .refused
  else if user.failedLoginCount ≥ a.settings.login.maximumFailedCount then
    .refused
  else
    match classifyExpiry user a.settings.login.passwordGraceDays
      a.classifyNow with
    | .failure => .refused
    | .mustChange => .passed true
    | .normalSuccess => .passed false

def LoginArgs.times (a : LoginArgs) (mustChange : Bool) : LoginSessionTimes :=
  loginSessionTimes a.now a.settings.sessionAccessTtlSeconds
    a.settings.sessionRefreshTtlSeconds a.settings.sessionTotalTtlSeconds
    mustChange

/-- The HMAC of the refresh token this login would mint. -/
def LoginArgs.newHmac (a : LoginArgs) : String :=
  a.hmacRefreshToken a.refreshToken

/-- The session `handle_login` creates: without a refresh HMAC when the
password has to be changed first. -/
def LoginArgs.newSession (a : LoginArgs) (user : UserRow) (mustChange : Bool) :
    NewUserSession where
  id := a.sid
  userId := user.id
  refreshHmac :=
    if (a.times mustChange).refreshMaxAge.isSome then some a.newHmac else none
  sessionExpiresAt := (a.times mustChange).sessionExpiresAt
  refreshExpiresAt := (a.times mustChange).refreshExpiresAt
  ipAddress := a.ipAddress
  userAgent := a.userAgent

def LoginArgs.sessionRow (a : LoginArgs) (user : UserRow) (mustChange : Bool) :
    SessionRow :=
  (a.newSession user mustChange).row a.sessionClock

/-! ## The program -/

/-- The session is stored; the response depends on signing the token. -/
def loginCreate (a : LoginArgs) (user : UserRow) (mustChange : Bool) :
    AuthProg Reply :=
  .query (.insertUserSession (a.sessionRow user mustChange)) fun _ =>
    .ret (.login (.success user mustChange a.signOk))

def loginPassed (a : LoginArgs) (user : UserRow) (mustChange : Bool) :
    AuthProg Reply :=
  .query (.updateFailedLoginCount user.id 0 (utcSeconds a.countClock)) fun _ =>
    if !a.auditOk then .ret (.login .internalError)
    else loginCreate a user mustChange

/-- The common end of every refused attempt. -/
def loginDenied (a : LoginArgs) : AuthProg Reply :=
  if !a.auditOk then .ret (.login .internalError)
  else if !a.recordFailureOk then .ret (.login .internalError)
  else .ret (.login .denied)

def loginRefused (a : LoginArgs) (user : UserRow) : AuthProg Reply :=
  .query (.updateFailedLoginCount user.id (user.failedLoginCount + 1)
    (utcSeconds a.countClock)) fun _ => loginDenied a

def loginLoaded (a : LoginArgs) (user : Option UserRow) : AuthProg Reply :=
  let hash := (user.map UserRow.passwordHash).getD a.dummyHash
  match a.verifyPassword hash a.password with
  | none => .ret (.login .internalError)
  | some verifyOk =>
      match user with
      | none => loginDenied a
      | some user =>
          match loginVerdict a user verifyOk with
          | .passed mustChange => loginPassed a user mustChange
          | .refused => loginRefused a user

/-- The attempt is refused before the account is looked at. -/
def loginSkips (a : LoginArgs) (lockout : Bool) : Bool :=
  !usernameIsValid (foldUsername a.providedUsername) || lockout ||
    a.password == "" || decide (utf16Length a.password > passwordSchemaMaxChars)

def handleLogin (a : LoginArgs) : AuthProg Reply :=
  match a.drawT, a.rateLimit with
  | none, _ => .ret (.login .internalError)
  | some _, none => .ret (.login .internalError)
  | some _, some lockout =>
      if loginSkips a lockout then loginDenied a
      else if !a.hashSlot then
        if a.auditCapacityOk then .ret (.login .capacity)
        else .ret (.login .internalError)
      else
        .query (.selectUserByUsername (foldUsername a.providedUsername))
          (loginLoaded a)

end Untangled.Auth
