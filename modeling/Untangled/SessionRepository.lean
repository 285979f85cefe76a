import Untangled.AuthStatements
import Untangled.SessionTimes

/-!
# The session repository

`make_session_repository` of `sessions.ts` and `run_session_cleanup` of
`session_cleanup.ts` as client programs: the statements they send, in order,
with every branch on what a statement returned.
-/

namespace Untangled.Auth

open ReadCommitted

/-- The ids are texts until `::uuid` reads them. -/
structure NewUserSession (Id : Type := Uuid) where
  id : Id
  userId : Id
  refreshHmac : Option String
  sessionExpiresAt : ℤ
  refreshExpiresAt : ℤ
  ipAddress : Option String
  userAgent : Option String
  deriving DecidableEq

/-- The row `create` inserts; `clock` is what `utc_now` reads. -/
def NewUserSession.row (s : NewUserSession) (clock : ℤ) : SessionRow where
  id := s.id
  userId := s.userId
  refreshHmac := s.refreshHmac
  sessionExpiresAt := s.sessionExpiresAt
  refreshExpiresAt := s.refreshExpiresAt
  ipAddress := s.ipAddress
  userAgent := s.userAgent
  createdAt := utcSeconds clock
  updatedAt := utcSeconds clock
  createdBy := systemUserId
  updatedBy := systemUserId

/-- The arguments of `attempt_rotate`, then what the call draws itself: the id
of the used-token row and the two clock readings that stamp the rows. -/
structure AttemptRotateArgs (Id : Type := Uuid) where
  oldHmac : String
  newHmac : String
  userId : Id
  sessionId : Id
  now : ℤ
  refreshTtlSeconds : ℤ
  reuseGraceSeconds : ℤ
  reuseWindowSeconds : ℤ
  ipAddress : Option String
  userAgent : Option String
  usedTokenId : Uuid
  usedClock : ℤ
  sessionClock : ℤ
  deriving DecidableEq

inductive AttemptRotateResult
  | rotated (refreshExpiresAt sessionExpiresAt : ℤ)
  | expired
  | softReuse
  | hardReuse
  | unknown
  deriving DecidableEq

inductive ChangePasswordEffect
  | tokensUnchanged
  | firstRefresh (refreshToken : String) (refreshMaxAge : ℤ)
  | loggedOut
  deriving DecidableEq

inductive ChangePasswordExecuteResult
  | missingUser
  | failed (username : String)
  | locked (username : String)
  | ok (effect : ChangePasswordEffect) (username : String)
  deriving DecidableEq

/-- How a login request ended.  `user` is the account as it was loaded;
`signed` is false when the session row was stored but the access token could
not be signed. -/
inductive LoginResult
  | success (user : UserRow) (mustChange signed : Bool)
  | denied
  | capacity
  | internalError
  deriving DecidableEq

/-- What a call returns. -/
inductive Reply
  | created
  | rotate (result : AttemptRotateResult)
  | invalidated
  | cleaned (usedTokens sessions : ℕ)
  | changed (result : ChangePasswordExecuteResult)
  | login (result : LoginResult)
  deriving DecidableEq

/-! ## `create` -/

def createSession (s : NewUserSession) (clock : ℤ) : AuthProg Reply :=
  .query (.insertUserSession (s.row clock)) fun _ => .ret .created

/-! ## `attempt_rotate` and `invalidate` -/

def withinGrace (usedAt now graceSeconds : ℤ) : Bool :=
  decide (now - usedAt ≤ graceSeconds * 1000)

/-- The row `insert_used_token` stores for a consumed token. -/
def AttemptRotateArgs.usedRow (a : AttemptRotateArgs) : UsedRow where
  id := a.usedTokenId
  refreshHmac := a.oldHmac
  userId := a.userId
  sessionId := a.sessionId
  usedAt := a.now
  expiresAt := a.now + a.reuseWindowSeconds * 1000
  createdAt := utcSeconds a.usedClock
  updatedAt := utcSeconds a.usedClock
  createdBy := systemUserId
  updatedBy := systemUserId

/-- The times of a rotation of the locked row. -/
def AttemptRotateArgs.times (a : AttemptRotateArgs) (row : SessionRow) :
    RotateSessionTimes :=
  rotateSessionTimes a.now row.sessionExpiresAt a.refreshTtlSeconds

def AttemptRotateArgs.update (a : AttemptRotateArgs) (row : SessionRow) :
    SessionUpdate where
  refreshHmac := a.newHmac
  refreshExpiresAt := (a.times row).refreshExpiresAt
  ipAddress := a.ipAddress
  userAgent := a.userAgent
  updatedAt := utcSeconds a.sessionClock

/-- The locked row has reached one of its two expiries. -/
def AttemptRotateArgs.expired (a : AttemptRotateArgs) (row : SessionRow) :
    Bool :=
  decide (row.sessionExpiresAt ≤ a.now) || decide (row.refreshExpiresAt ≤ a.now)

/-- The two deletions of a teardown, then `next`. -/
def deleteSessionChain (userId sessionId : Uuid) (next : AuthProg Reply) :
    AuthProg Reply :=
  .query (.deleteUsedOfSession sessionId userId) fun _ =>
    .query (.deleteUserSession sessionId userId) fun _ => next

def rotateCommit (a : AttemptRotateArgs) (row : SessionRow) : AuthProg Reply :=
  .commit (.ret (.rotate
    (.rotated (a.times row).refreshExpiresAt row.sessionExpiresAt)))

def rotateUpdate (a : AttemptRotateArgs) (row : SessionRow) : AuthProg Reply :=
  .query (.rotateUserSession a.sessionId a.userId (a.update row)) fun _ =>
    rotateCommit a row

def rotateInsert (a : AttemptRotateArgs) (row : SessionRow) : AuthProg Reply :=
  .query (.insertUsedToken a.usedRow) fun _ => rotateUpdate a row

/-- No current token matched: look among the consumed ones. -/
def rotateReuse (a : AttemptRotateArgs) (usedAt : Option ℤ) : AuthProg Reply :=
  match usedAt with
  | none => .commit (.ret (.rotate .unknown))
  | some usedAt =>
      if withinGrace usedAt a.now a.reuseGraceSeconds
      then .commit (.ret (.rotate .softReuse))
      else
        deleteSessionChain a.userId a.sessionId
          (.commit (.ret (.rotate .hardReuse)))

def rotateLocked (a : AttemptRotateArgs) (locked : Option SessionRow) :
    AuthProg Reply :=
  match locked with
  | some row =>
      if a.expired row then .commit (.ret (.rotate .expired))
      else rotateInsert a row
  | none =>
      .query (.selectUsedToken a.oldHmac a.userId a.sessionId) (rotateReuse a)

def rotateSelect (a : AttemptRotateArgs) : AuthProg Reply :=
  .query (.selectSessionForUpdate a.oldHmac a.userId a.sessionId)
    (rotateLocked a)

def attemptRotate (a : AttemptRotateArgs) : AuthProg Reply :=
  .beginTx (rotateSelect a)

def invalidateSession (userId sessionId : Uuid) : AuthProg Reply :=
  .beginTx (deleteSessionChain userId sessionId (.commit (.ret .invalidated)))

/-! ## `run_session_cleanup` -/

def runSessionCleanup (now : ℤ) : AuthProg Reply :=
  .query (.deleteUsedRefreshToken now) fun usedTokens =>
    .query (.deleteExpiredUserSession now) fun sessions =>
      .ret (.cleaned usedTokens sessions)

end Untangled.Auth
