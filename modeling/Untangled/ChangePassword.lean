import Untangled.SessionRepository
import Untangled.SystemConfig

/-!
# The change-password transaction

`evaluate_change_password` and `execute_change_password` of
`change_password.ts` over `make_change_password_apply` of
`change_password_apply.ts`.  The password hash, the strength estimate and the
minted token are library code and enter as fields of the arguments; a `none`
answer is a thrown exception.
-/

namespace Untangled.Auth

open ReadCommitted

/-- `length` of a JavaScript string, in UTF-16 code units. -/
def utf16Length (s : String) : ℕ :=
  (s.toList.map fun c => if c.toNat < 0x10000 then 1 else 2).sum

def passwordSchemaMaxChars : ℕ := 256

structure ChangePasswordInput where
  currentPassword : String
  newPassword : String
  verifyNewPassword : String
  deriving DecidableEq

/-- The arguments of `execute_change_password`.  `sessionId` is absent for a
missing or empty claim.  The clocks stamp the two rows that may be updated. -/
structure ChangePasswordArgs where
  userId : Uuid
  sessionId : Option Uuid
  input : ChangePasswordInput
  invalidateUserSessions : Bool
  settings : AuthRuntimeSettings
  verifyPassword : String → String → Option Bool
  hashPassword : String → Option String
  strengthOk : String → String → String → ℤ → ℤ → Bool
  refreshToken : String
  hmacRefreshToken : String → String
  ipAddress : Option String
  userAgent : Option String
  now : ℤ
  userClock : ℤ
  sessionClock : ℤ

inductive Evaluated
  | ok
  | failed
  | locked
  deriving DecidableEq

/-- Every check of a change request but the stored password itself. -/
def changeInputValid (a : ChangePasswordArgs) (user : UserRow) : Bool :=
  let settings := a.settings.login
  let current := a.input.currentPassword
  let newPw := a.input.newPassword
  !(current == "" || decide (utf16Length current > passwordSchemaMaxChars)) &&
    user.isActive &&
    newPw == a.input.verifyNewPassword &&
    newPw != current &&
    !(decide ((utf16Length newPw : ℤ) < settings.passwordMinimumChars) ||
      decide ((utf16Length newPw : ℤ) > settings.passwordMaximumChars)) &&
    a.strengthOk newPw user.username user.displayName
      settings.passwordGuessPerSecond settings.passwordAcceptableCrackTimeDays

def evaluateChangePassword (a : ChangePasswordArgs) (user : UserRow) :
    Option Evaluated :=
  let settings := a.settings.login
  let current := a.input.currentPassword
  if classifyExpiry user settings.passwordGraceDays a.now = .failure ∨
      user.failedLoginCount ≥ settings.maximumFailedCount
  then some .locked
  else
    match a.verifyPassword user.passwordHash
      (if current = "" then "\x00untangled-change-password-dummy"
        else current) with
    | none => none
    | some currentOk =>
        if currentOk && changeInputValid a user then some .ok else some .failed

def ChangePasswordArgs.passwordUpdate (a : ChangePasswordArgs)
    (user : UserRow) (newHash : String) : PasswordUpdate where
  passwordHash := newHash
  passwordExpiresAt :=
    utcSeconds (a.now + a.settings.login.passwordExpiryDays * 86400000)
  updatedAt := utcSeconds a.userClock
  actorId := user.id

def ChangePasswordArgs.times (a : ChangePasswordArgs) (session : SessionRow) :
    RotateSessionTimes :=
  rotateSessionTimes a.now session.sessionExpiresAt
    a.settings.sessionRefreshTtlSeconds

/-- The HMAC of the first refresh token this call would mint. -/
def ChangePasswordArgs.newHmac (a : ChangePasswordArgs) : String :=
  a.hmacRefreshToken a.refreshToken

def ChangePasswordArgs.sessionUpdate (a : ChangePasswordArgs)
    (session : SessionRow) : SessionUpdate where
  refreshHmac := a.newHmac
  refreshExpiresAt := (a.times session).refreshExpiresAt
  ipAddress := a.ipAddress
  userAgent := a.userAgent
  updatedAt := utcSeconds a.sessionClock

def commitOk (effect : ChangePasswordEffect) (username : String) :
    AuthProg Reply :=
  .commit (.ret (.changed (.ok effect username)))

/-- `issue_first_refresh` and the row count it is judged by. -/
def changeIssue (a : ChangePasswordArgs) (user : UserRow) (sid : Uuid)
    (session : SessionRow) : AuthProg Reply :=
  .query (.issueFirstRefresh sid user.id (a.sessionUpdate session)) fun n =>
    if n = 1 then
      commitOk (.firstRefresh a.refreshToken (a.times session).maxAge)
        user.username
    else commitOk .tokensUnchanged user.username

def changeSession (a : ChangePasswordArgs) (user : UserRow) (sid : Uuid)
    (session : Option SessionRow) : AuthProg Reply :=
  match session with
  | none => commitOk .tokensUnchanged user.username
  | some session =>
      if session.refreshHmac ≠ none
      then commitOk .tokensUnchanged user.username
      else changeIssue a user sid session

/-- `invalidate_all_sessions`, then the commit. -/
def changeLogOut (user : UserRow) : AuthProg Reply :=
  .query (.deleteUsedOfUser user.id) fun _ =>
    .query (.deleteSessionsOfUser user.id) fun _ =>
      commitOk .loggedOut user.username

/-- What follows the password update. -/
def changeEffect (a : ChangePasswordArgs) (user : UserRow) : AuthProg Reply :=
  if a.invalidateUserSessions then changeLogOut user
  else
    match a.sessionId with
    | none => commitOk .tokensUnchanged user.username
    | some sid =>
        .query (.selectUserSession sid user.id) (changeSession a user sid)

/-- The function `run_locked` runs on the locked user row.  An exception is
caught by `run_locked`, which rolls back and rethrows. -/
def changeLocked (a : ChangePasswordArgs) (user : UserRow) : AuthProg Reply :=
  match evaluateChangePassword a user with
  | none => .rollback (.throw .interrupted)
  | some .locked => .commit (.ret (.changed (.locked user.username)))
  | some .failed => .commit (.ret (.changed (.failed user.username)))
  | some .ok =>
      match a.hashPassword a.input.newPassword with
      | none => .rollback (.throw .interrupted)
      | some newHash =>
          .query (.updateUserPassword user.id (a.passwordUpdate user newHash))
            fun _ => changeEffect a user

def changeFound (a : ChangePasswordArgs) (user : Option UserRow) :
    AuthProg Reply :=
  match user with
  | none => .rollback (.ret (.changed .missingUser))
  | some user => changeLocked a user

def executeChangePassword (a : ChangePasswordArgs) : AuthProg Reply :=
  .beginTx (.query (.selectUserForUpdate a.userId) (changeFound a))

end Untangled.Auth
