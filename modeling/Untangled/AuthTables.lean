import Untangled.KeyedTable
import Untangled.ReadCommitted

/-!
# The tables of the auth service and its SQL statements

The rows of `user`, `user_session` and `used_refresh_token`, the row-level
writes, and the meaning of every SQL statement the session repository, the
cleanup, the login and the change-password transaction send.

The constraints are the ones the class definitions compile to: primary keys,
the unique columns `refresh_hmac` of both session tables, and the foreign keys
`user_session.user_id`, `used_refresh_token.user_id` and
`used_refresh_token.session_id` with the default `NO ACTION` rule.  The foreign
keys of the audit columns point at the platform principal, which is never
deleted or locked for update, so they can neither fail nor block.

Instants are whole milliseconds since the epoch, the value of a JavaScript
`Date`; the columns are `timestamptz` and keep them exactly.
-/

namespace Untangled.Auth

open ReadCommitted

/-- The value of a `uuid` column. -/
abbrev Uuid := ℕ

/-- `SYSTEM_USER_ID`, which stamps the rows no person wrote. -/
def systemUserId : Uuid := 0x01900000000070008000000000000006

structure UserRow where
  id : Uuid
  username : String
  passwordHash : String
  displayName : String
  isActive : Bool
  failedLoginCount : ℤ
  passwordExpiresAt : ℤ
  updatedAt : ℤ
  updatedBy : Uuid
  deriving DecidableEq

structure SessionRow where
  id : Uuid
  userId : Uuid
  refreshHmac : Option String
  sessionExpiresAt : ℤ
  refreshExpiresAt : ℤ
  ipAddress : Option String
  userAgent : Option String
  createdAt : ℤ
  updatedAt : ℤ
  createdBy : Uuid
  updatedBy : Uuid
  deriving DecidableEq

structure UsedRow where
  id : Uuid
  refreshHmac : String
  userId : Uuid
  sessionId : Uuid
  usedAt : ℤ
  expiresAt : ℤ
  createdAt : ℤ
  updatedAt : ℤ
  createdBy : Uuid
  updatedBy : Uuid
  deriving DecidableEq

instance : Keyed UserRow Uuid := ⟨UserRow.id⟩
instance : Keyed SessionRow Uuid := ⟨SessionRow.id⟩
instance : Keyed UsedRow Uuid := ⟨UsedRow.id⟩

@[simp] theorem key_user (r : UserRow) : key r = r.id := rfl
@[simp] theorem key_session (r : SessionRow) : key r = r.id := rfl
@[simp] theorem key_used (r : UsedRow) : key r = r.id := rfl

@[ext] structure AuthDb where
  users : Table UserRow
  sessions : Table SessionRow
  used : Table UsedRow

/-- The rows that can be locked. -/
inductive RowKey
  | user (id : Uuid)
  | session (id : Uuid)
  | used (id : Uuid)
  deriving DecidableEq

inductive RowWrite
  | putUser (row : UserRow)
  | putSession (row : SessionRow)
  | eraseSession (id : Uuid)
  | putUsed (row : UsedRow)
  | eraseUsed (id : Uuid)
  deriving DecidableEq

def RowWrite.target : RowWrite → RowKey
  | .putUser row => .user row.id
  | .putSession row => .session row.id
  | .eraseSession id => .session id
  | .putUsed row => .used row.id
  | .eraseUsed id => .used id

def RowWrite.apply : RowWrite → AuthDb → AuthDb
  | .putUser row, db => { db with users := db.users.put row }
  | .putSession row, db => { db with sessions := db.sessions.put row }
  | .eraseSession id, db => { db with sessions := db.sessions.erase id }
  | .putUsed row, db => { db with used := db.used.put row }
  | .eraseUsed id, db => { db with used := db.used.erase id }

/-- The columns `attempt_rotate` and `issue_first_refresh` set on a session;
`updated_by` is the platform principal in both. -/
structure SessionUpdate where
  refreshHmac : String
  refreshExpiresAt : ℤ
  ipAddress : Option String
  userAgent : Option String
  updatedAt : ℤ
  deriving DecidableEq

def SessionUpdate.apply (u : SessionUpdate) (r : SessionRow) : SessionRow :=
  { r with
    refreshHmac := some u.refreshHmac
    refreshExpiresAt := u.refreshExpiresAt
    ipAddress := u.ipAddress
    userAgent := u.userAgent
    updatedAt := u.updatedAt
    updatedBy := systemUserId }

@[simp] theorem SessionUpdate.apply_id (u : SessionUpdate) (r : SessionRow) :
    (u.apply r).id = r.id := rfl
@[simp] theorem SessionUpdate.apply_userId (u : SessionUpdate) (r : SessionRow) :
    (u.apply r).userId = r.userId := rfl
@[simp] theorem SessionUpdate.apply_refreshHmac
    (u : SessionUpdate) (r : SessionRow) :
    (u.apply r).refreshHmac = some u.refreshHmac := rfl
@[simp] theorem SessionUpdate.apply_sessionExpiresAt
    (u : SessionUpdate) (r : SessionRow) :
    (u.apply r).sessionExpiresAt = r.sessionExpiresAt := rfl
@[simp] theorem SessionUpdate.apply_refreshExpiresAt
    (u : SessionUpdate) (r : SessionRow) :
    (u.apply r).refreshExpiresAt = u.refreshExpiresAt := rfl

/-- The columns `apply_password_change` sets on a user. -/
structure PasswordUpdate where
  passwordHash : String
  passwordExpiresAt : ℤ
  updatedAt : ℤ
  actorId : Uuid
  deriving DecidableEq

def PasswordUpdate.apply (u : PasswordUpdate) (r : UserRow) : UserRow :=
  { r with
    passwordHash := u.passwordHash
    passwordExpiresAt := u.passwordExpiresAt
    failedLoginCount := 0
    updatedAt := u.updatedAt
    updatedBy := u.actorId }

/-- The SQL statements, each named after the function that sends it. -/
inductive AuthStmt
  | insertUserSession (row : SessionRow)
  | selectSessionForUpdate (refreshHmac : String) (userId id : Uuid)
  | insertUsedToken (row : UsedRow)
  | rotateUserSession (id userId : Uuid) (update : SessionUpdate)
  | selectUsedToken (refreshHmac : String) (userId sessionId : Uuid)
  | deleteUsedOfSession (sessionId userId : Uuid)
  | deleteUserSession (id userId : Uuid)
  | deleteUsedRefreshToken (now : ℤ)
  | deleteExpiredUserSession (now : ℤ)
  | selectUserForUpdate (id : Uuid)
  | selectUserSession (id userId : Uuid)
  | updateUserPassword (id : Uuid) (update : PasswordUpdate)
  | issueFirstRefresh (id userId : Uuid) (update : SessionUpdate)
  | deleteUsedOfUser (userId : Uuid)
  | deleteSessionsOfUser (userId : Uuid)
  | selectUserByUsername (username : String)
  | updateFailedLoginCount (id : Uuid) (count : ℤ) (updatedAt : ℤ)

/-- What a statement returns: the selected row, or the row count. -/
abbrev AuthRes : AuthStmt → Type
  | .selectSessionForUpdate _ _ _ => Option SessionRow
  | .selectUserSession _ _ => Option SessionRow
  | .selectUsedToken _ _ _ => Option ℤ
  | .selectUserForUpdate _ => Option UserRow
  | .selectUserByUsername _ => Option UserRow
  | _ => ℕ

/-! ## The `WHERE` conditions

A comparison with a `NULL` column is not true, so `refresh_hmac = $1` selects
no session whose `refresh_hmac` is `NULL`. -/

def sessionIs (id userId : Uuid) (r : SessionRow) : Bool :=
  decide (r.id = id) && decide (r.userId = userId)

def sessionHolds (refreshHmac : String) (userId id : Uuid)
    (r : SessionRow) : Bool :=
  decide (r.refreshHmac = some refreshHmac) && sessionIs id userId r

def sessionLacksHmac (id userId : Uuid) (r : SessionRow) : Bool :=
  sessionIs id userId r && decide (r.refreshHmac = none)

def sessionOfUser (userId : Uuid) (r : SessionRow) : Bool :=
  decide (r.userId = userId)

def sessionExpired (now : ℤ) (r : SessionRow) : Bool :=
  decide (r.sessionExpiresAt ≤ now) || decide (r.refreshExpiresAt ≤ now)

def usedOfSession (sessionId userId : Uuid) (u : UsedRow) : Bool :=
  decide (u.sessionId = sessionId) && decide (u.userId = userId)

def usedHolds (refreshHmac : String) (userId sessionId : Uuid)
    (u : UsedRow) : Bool :=
  decide (u.refreshHmac = refreshHmac) && usedOfSession sessionId userId u

def usedOfUser (userId : Uuid) (u : UsedRow) : Bool :=
  decide (u.userId = userId)

def usedExpired (now : ℤ) (u : UsedRow) : Bool :=
  decide (u.expiresAt ≤ now)

def userIs (id : Uuid) (r : UserRow) : Bool :=
  decide (r.id = id)

def userNamed (username : String) (r : UserRow) : Bool :=
  decide (r.username = username)

/-! ## What the statements do -/

/-- Row locks of a statement that locks the candidate rows of its snapshot. -/
def sessionLocks (p : SessionRow → Bool) (snap : AuthDb) :
    List (RowKey × LockMode) :=
  (Table.candidates p snap.sessions).map fun id => (.session id, .update)

def usedLocks (p : UsedRow → Bool) (snap : AuthDb) :
    List (RowKey × LockMode) :=
  (Table.candidates p snap.used).map fun id => (.used id, .update)

def userLocks (p : UserRow → Bool) (mode : LockMode) (snap : AuthDb) :
    List (RowKey × LockMode) :=
  (Table.candidates p snap.users).map fun id => (.user id, mode)

/-- The used rows that reference a session about to be deleted. -/
def referencing (p : SessionRow → Bool) (snap cur : AuthDb) : List UsedRow :=
  cur.used.rows.filter fun u =>
    (Table.recheck p snap.sessions cur.sessions).any fun r =>
      decide (r.id = u.sessionId)

/-- `SELECT ... FOR UPDATE` on `user_session`. -/
def lockSession (p : SessionRow → Bool) (snap cur : AuthDb) :
    Except Fault (Option SessionRow × List RowWrite) :=
  .ok ((Table.recheck p snap.sessions cur.sessions).head?, [])

/-- `UPDATE user_session SET ... WHERE p`: the new HMAC must be unique. -/
def updateSessions (p : SessionRow → Bool) (update : SessionUpdate)
    (snap cur : AuthDb) : Except Fault (ℕ × List RowWrite) :=
  let rows := Table.recheck p snap.sessions cur.sessions
  if rows.any fun r => cur.sessions.rows.any fun x =>
      decide (x.id ≠ r.id) && decide (x.refreshHmac = some update.refreshHmac)
  then .error .uniqueViolation
  else .ok (rows.length, rows.map fun r => .putSession (update.apply r))

/-- `DELETE FROM user_session WHERE p`: no used row may be left behind. -/
def deleteSessions (p : SessionRow → Bool) (snap cur : AuthDb) :
    Except Fault (ℕ × List RowWrite) :=
  let rows := Table.recheck p snap.sessions cur.sessions
  if (referencing p snap cur).isEmpty
  then .ok (rows.length, rows.map fun r => .eraseSession r.id)
  else .error .foreignKeyViolation

/-- `DELETE FROM used_refresh_token WHERE p`. -/
def deleteUsed (p : UsedRow → Bool) (snap cur : AuthDb) :
    Except Fault (ℕ × List RowWrite) :=
  let rows := Table.recheck p snap.used cur.used
  .ok (rows.length, rows.map fun u => .eraseUsed u.id)

/-- `UPDATE "user" SET ... WHERE p`. -/
def updateUsers (p : UserRow → Bool) (f : UserRow → UserRow)
    (snap cur : AuthDb) : Except Fault (ℕ × List RowWrite) :=
  let rows := Table.recheck p snap.users cur.users
  .ok (rows.length, rows.map fun r => .putUser (f r))

/-- `INSERT INTO user_session`. -/
def insertSession (row : SessionRow) (cur : AuthDb) :
    Except Fault (ℕ × List RowWrite) :=
  if cur.sessions.rows.any fun x =>
      decide (x.id = row.id) ||
        (row.refreshHmac.isSome && decide (x.refreshHmac = row.refreshHmac))
  then .error .uniqueViolation
  else if cur.users.rows.any (userIs row.userId)
  then .ok (1, [.putSession row])
  else .error .foreignKeyViolation

/-- `INSERT INTO used_refresh_token`. -/
def insertUsed (row : UsedRow) (cur : AuthDb) :
    Except Fault (ℕ × List RowWrite) :=
  if cur.used.rows.any fun x =>
      decide (x.id = row.id) || decide (x.refreshHmac = row.refreshHmac)
  then .error .uniqueViolation
  else if cur.users.rows.any (userIs row.userId) &&
      cur.sessions.rows.any fun r => decide (r.id = row.sessionId)
  then .ok (1, [.putUsed row])
  else .error .foreignKeyViolation

/-- The failed-count update of `users.ts`. -/
def setFailedCount (count : ℤ) (updatedAt : ℤ) (r : UserRow) : UserRow :=
  { r with
    failedLoginCount := count
    updatedAt := updatedAt
    updatedBy := systemUserId }

def AuthStmt.exec : (stmt : AuthStmt) → AuthDb → AuthDb →
    Except Fault (AuthRes stmt × List RowWrite)
  | .insertUserSession row, _, cur => insertSession row cur
  | .selectSessionForUpdate h userId id, snap, cur =>
      lockSession (sessionHolds h userId id) snap cur
  | .insertUsedToken row, _, cur => insertUsed row cur
  | .rotateUserSession id userId update, snap, cur =>
      updateSessions (sessionIs id userId) update snap cur
  | .selectUsedToken h userId sessionId, snap, _ =>
      .ok ((snap.used.rows.find? (usedHolds h userId sessionId)).map
        UsedRow.usedAt, [])
  | .deleteUsedOfSession sessionId userId, snap, cur =>
      deleteUsed (usedOfSession sessionId userId) snap cur
  | .deleteUserSession id userId, snap, cur =>
      deleteSessions (sessionIs id userId) snap cur
  | .deleteUsedRefreshToken now, snap, cur =>
      deleteUsed (usedExpired now) snap cur
  | .deleteExpiredUserSession now, snap, cur =>
      deleteSessions (sessionExpired now) snap cur
  | .selectUserForUpdate id, snap, cur =>
      .ok ((Table.recheck (userIs id) snap.users cur.users).head?, [])
  | .selectUserSession id userId, snap, _ =>
      .ok (snap.sessions.rows.find? (sessionIs id userId), [])
  | .updateUserPassword id update, snap, cur =>
      updateUsers (userIs id) update.apply snap cur
  | .issueFirstRefresh id userId update, snap, cur =>
      updateSessions (sessionLacksHmac id userId) update snap cur
  | .deleteUsedOfUser userId, snap, cur =>
      deleteUsed (usedOfUser userId) snap cur
  | .deleteSessionsOfUser userId, snap, cur =>
      deleteSessions (sessionOfUser userId) snap cur
  | .selectUserByUsername username, snap, _ =>
      .ok (snap.users.rows.find? (userNamed username), [])
  | .updateFailedLoginCount id count updatedAt, snap, cur =>
      updateUsers (userIs id) (setFailedCount count updatedAt) snap cur

/-- The locks of a deletion from `user_session`: the deleted rows, and the
foreign-key check on the used rows that still reference them. -/
def deleteSessionLocks (p : SessionRow → Bool) (snap cur : AuthDb) :
    List (RowKey × LockMode) :=
  sessionLocks p snap ++
    (referencing p snap cur).map fun u => (.used u.id, .keyShare)

def AuthStmt.lockSet : AuthStmt → AuthDb → AuthDb → List (RowKey × LockMode)
  | .insertUserSession row, _, _ =>
      [(.session row.id, .update), (.user row.userId, .keyShare)]
  | .selectSessionForUpdate h userId id, snap, _ =>
      sessionLocks (sessionHolds h userId id) snap
  | .insertUsedToken row, _, _ =>
      [(.used row.id, .update), (.session row.sessionId, .keyShare),
        (.user row.userId, .keyShare)]
  | .rotateUserSession id userId _, snap, _ =>
      sessionLocks (sessionIs id userId) snap
  | .selectUsedToken _ _ _, _, _ => []
  | .deleteUsedOfSession sessionId userId, snap, _ =>
      usedLocks (usedOfSession sessionId userId) snap
  | .deleteUserSession id userId, snap, cur =>
      deleteSessionLocks (sessionIs id userId) snap cur
  | .deleteUsedRefreshToken now, snap, _ => usedLocks (usedExpired now) snap
  | .deleteExpiredUserSession now, snap, cur =>
      deleteSessionLocks (sessionExpired now) snap cur
  | .selectUserForUpdate id, snap, _ => userLocks (userIs id) .update snap
  | .selectUserSession _ _, _, _ => []
  | .updateUserPassword id _, snap, _ => userLocks (userIs id) .noKeyUpdate snap
  | .issueFirstRefresh id userId _, snap, _ =>
      sessionLocks (sessionLacksHmac id userId) snap
  | .deleteUsedOfUser userId, snap, _ => usedLocks (usedOfUser userId) snap
  | .deleteSessionsOfUser userId, snap, cur =>
      deleteSessionLocks (sessionOfUser userId) snap cur
  | .selectUserByUsername _, _, _ => []
  | .updateFailedLoginCount id _ _, snap, _ =>
      userLocks (userIs id) .noKeyUpdate snap

end Untangled.Auth
