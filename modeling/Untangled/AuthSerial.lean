import Untangled.AuthSystem
import Untangled.AuthWrites
import Untangled.ReadCommittedSerial

/-!
# Calls that run alone

The outcome of each call of the service when nothing runs beside it: what it
returns and the database it leaves, with every `DELETE` and `UPDATE` read as an
operation on whole tables.
-/

namespace Untangled.Auth

open ReadCommitted

/-- `DELETE FROM used_refresh_token WHERE p`. -/
def AuthDb.withoutUsed (db : AuthDb) (p : UsedRow → Bool) : AuthDb :=
  { db with used := db.used.filter fun u => !p u }

/-- `DELETE FROM user_session WHERE p`. -/
def AuthDb.withoutSessions (db : AuthDb) (p : SessionRow → Bool) : AuthDb :=
  { db with sessions := db.sessions.filter fun r => !p r }

@[simp] theorem AuthDb.withoutUsed_users (db : AuthDb) (p : UsedRow → Bool) :
    (db.withoutUsed p).users = db.users := rfl
@[simp] theorem AuthDb.withoutUsed_sessions (db : AuthDb) (p : UsedRow → Bool) :
    (db.withoutUsed p).sessions = db.sessions := rfl
@[simp] theorem AuthDb.withoutSessions_users
    (db : AuthDb) (p : SessionRow → Bool) :
    (db.withoutSessions p).users = db.users := rfl
@[simp] theorem AuthDb.withoutSessions_used
    (db : AuthDb) (p : SessionRow → Bool) :
    (db.withoutSessions p).used = db.used := rfl

theorem AuthDb.mem_withoutUsed {db : AuthDb} {p : UsedRow → Bool} {u : UsedRow} :
    u ∈ (db.withoutUsed p).used ↔ u ∈ db.used ∧ p u = false := by
  simp [AuthDb.withoutUsed]

theorem AuthDb.mem_withoutSessions {db : AuthDb} {p : SessionRow → Bool}
    {r : SessionRow} :
    r ∈ (db.withoutSessions p).sessions ↔ r ∈ db.sessions ∧ p r = false := by
  simp [AuthDb.withoutSessions]

/-- A used row still references a session that satisfies `p`. -/
def AuthDb.Referenced (db : AuthDb) (p : SessionRow → Bool) : Prop :=
  ∃ u ∈ db.used, ∃ r ∈ db.sessions, p r = true ∧ r.id = u.sessionId

/-! ## Statements -/

theorem applyAll_eraseUsed (rows : List UsedRow) (db : AuthDb) :
    authSchema.applyAll (rows.map fun u => .eraseUsed u.id) db =
      { db with used := (rows.map key).foldl Table.erase db.used } := by
  induction rows generalizing db with
  | nil => rfl
  | cons u rows ih => exact ih _

theorem applyAll_eraseSession (rows : List SessionRow) (db : AuthDb) :
    authSchema.applyAll (rows.map fun r => .eraseSession r.id) db =
      { db with sessions := (rows.map key).foldl Table.erase db.sessions } := by
  induction rows generalizing db with
  | nil => rfl
  | cons r rows ih => exact ih _

/-- What a deletion from `used_refresh_token` amounts to. -/
theorem applyAll_deleteUsed (p : UsedRow → Bool) (db : AuthDb) :
    authSchema.applyAll
      ((db.used.rows.filter p).map fun u => .eraseUsed u.id) db =
      db.withoutUsed p := by
  rw [applyAll_eraseUsed, Table.foldl_erase]
  rfl

theorem applyAll_deleteSessions (p : SessionRow → Bool) (db : AuthDb) :
    authSchema.applyAll
      ((db.sessions.rows.filter p).map fun r => .eraseSession r.id) db =
      db.withoutSessions p := by
  rw [applyAll_eraseSession, Table.foldl_erase]
  rfl

theorem deleteUsed_self (p : UsedRow → Bool) (db : AuthDb) :
    deleteUsed p db db = .ok ((db.used.rows.filter p).length,
      (db.used.rows.filter p).map fun u => .eraseUsed u.id) := by
  simp only [deleteUsed, Table.recheck_self]

theorem deleteSessions_self (p : SessionRow → Bool) (db : AuthDb)
    (hfree : ¬ db.Referenced p) :
    deleteSessions p db db = .ok ((db.sessions.rows.filter p).length,
      (db.sessions.rows.filter p).map fun r => .eraseSession r.id) := by
  have hempty : referencing p db db = [] := by
    rw [List.eq_nil_iff_forall_not_mem]
    intro u hu
    obtain ⟨hmem, r, hr, hid⟩ := mem_referencing.mp hu
    obtain ⟨hr, hp, _⟩ := Table.mem_recheck.mp hr
    exact hfree ⟨u, hmem, r, hr, hp, hid⟩
  simp only [deleteSessions, hempty, Table.recheck_self, List.isEmpty_nil,
    if_true]

theorem deleteSessions_self_error (p : SessionRow → Bool) (db : AuthDb)
    (hreferenced : db.Referenced p) :
    deleteSessions p db db = .error .foreignKeyViolation := by
  obtain ⟨u, hu, r, hr, hp, hid⟩ := hreferenced
  have hmem : u ∈ referencing p db db :=
    mem_referencing.mpr
      ⟨hu, r, Table.mem_recheck.mpr ⟨hr, hp, r, hr, rfl, hp⟩, hid⟩
  have hne : (referencing p db db).isEmpty = false := by
    rw [List.isEmpty_eq_false_iff]
    exact List.ne_nil_of_mem hmem
  simp [deleteSessions, hne]

section Alone

variable (db : AuthDb)

theorem alone_deleteUsedOfSession (sid uid : Uuid) :
    authSchema.alone (.deleteUsedOfSession sid uid) db =
      .ok ((db.used.rows.filter (usedOfSession sid uid)).length,
        db.withoutUsed (usedOfSession sid uid)) :=
  Schema.alone_of_exec (deleteUsed_self _ db) (applyAll_deleteUsed _ db)

theorem alone_deleteUsedRefreshToken (now : ℤ) :
    authSchema.alone (.deleteUsedRefreshToken now) db =
      .ok ((db.used.rows.filter (usedExpired now)).length,
        db.withoutUsed (usedExpired now)) :=
  Schema.alone_of_exec (deleteUsed_self _ db) (applyAll_deleteUsed _ db)

theorem alone_deleteUsedOfUser (uid : Uuid) :
    authSchema.alone (.deleteUsedOfUser uid) db =
      .ok ((db.used.rows.filter (usedOfUser uid)).length,
        db.withoutUsed (usedOfUser uid)) :=
  Schema.alone_of_exec (deleteUsed_self _ db) (applyAll_deleteUsed _ db)

variable {db}

theorem alone_deleteUserSession {sid uid : Uuid}
    (hfree : ¬ db.Referenced (sessionIs sid uid)) :
    authSchema.alone (.deleteUserSession sid uid) db =
      .ok ((db.sessions.rows.filter (sessionIs sid uid)).length,
        db.withoutSessions (sessionIs sid uid)) :=
  Schema.alone_of_exec (deleteSessions_self _ db hfree)
    (applyAll_deleteSessions _ db)

theorem alone_deleteExpiredUserSession {now : ℤ}
    (hfree : ¬ db.Referenced (sessionExpired now)) :
    authSchema.alone (.deleteExpiredUserSession now) db =
      .ok ((db.sessions.rows.filter (sessionExpired now)).length,
        db.withoutSessions (sessionExpired now)) :=
  Schema.alone_of_exec (deleteSessions_self _ db hfree)
    (applyAll_deleteSessions _ db)

theorem alone_deleteSessionsOfUser {uid : Uuid}
    (hfree : ¬ db.Referenced (sessionOfUser uid)) :
    authSchema.alone (.deleteSessionsOfUser uid) db =
      .ok ((db.sessions.rows.filter (sessionOfUser uid)).length,
        db.withoutSessions (sessionOfUser uid)) :=
  Schema.alone_of_exec (deleteSessions_self _ db hfree)
    (applyAll_deleteSessions _ db)

theorem alone_selectSessionForUpdate (hmac : String) (uid sid : Uuid) :
    authSchema.alone (.selectSessionForUpdate hmac uid sid) db =
      .ok (db.sessions.rows.find? (sessionHolds hmac uid sid), db) := by
  refine Schema.alone_of_exec (?_ : authSchema.exec _ db db = .ok (_, [])) rfl
  simp only [authSchema_exec, AuthStmt.exec, lockSession, Table.recheck_self,
    List.head?_filter]

theorem alone_selectUsedToken (hmac : String) (uid sid : Uuid) :
    authSchema.alone (.selectUsedToken hmac uid sid) db =
      .ok ((db.used.rows.find? (usedHolds hmac uid sid)).map UsedRow.usedAt,
        db) :=
  rfl

theorem alone_selectUserForUpdate (uid : Uuid) :
    authSchema.alone (.selectUserForUpdate uid) db =
      .ok (db.users.rows.find? (userIs uid), db) := by
  refine Schema.alone_of_exec (?_ : authSchema.exec _ db db = .ok (_, [])) rfl
  simp only [authSchema_exec, AuthStmt.exec, Table.recheck_self,
    List.head?_filter]

theorem alone_selectUserSession (sid uid : Uuid) :
    authSchema.alone (.selectUserSession sid uid) db =
      .ok (db.sessions.rows.find? (sessionIs sid uid), db) :=
  rfl

theorem alone_selectUserByUsername (username : String) :
    authSchema.alone (.selectUserByUsername username) db =
      .ok (db.users.rows.find? (userNamed username), db) :=
  rfl

theorem filter_eq_singleton {ρ ι : Type} [Keyed ρ ι] [DecidableEq ι]
    [DecidableEq ρ] {p : ρ → Bool} {t : Table ρ} {row : ρ} (hrow : row ∈ t)
    (hp : p row = true)
    (honly : ∀ r ∈ t, p r = true → key r = key row) :
    t.rows.filter p = [row] := by
  rw [← Table.recheck_self]
  exact recheck_eq_singleton hrow hrow hp honly

/-- An update of the one user with this id. -/
theorem updateUsers_self {uid : Uuid} {f : UserRow → UserRow} {user : UserRow}
    (huser : user ∈ db.users) (hid : user.id = uid) :
    updateUsers (userIs uid) f db db = .ok (1, [.putUser (f user)]) := by
  have hrows : db.users.rows.filter (userIs uid) = [user] := by
    apply filter_eq_singleton huser (by simp [userIs, hid])
    intro r _ hr
    simp only [userIs, decide_eq_true_eq] at hr
    exact hr.trans hid.symm
  simp [updateUsers, Table.recheck_self, hrows]

theorem alone_updateUserPassword {uid : Uuid} {update : PasswordUpdate}
    {user : UserRow} (huser : user ∈ db.users) (hid : user.id = uid) :
    authSchema.alone (.updateUserPassword uid update) db =
      .ok (1, { db with users := db.users.put (update.apply user) }) :=
  Schema.alone_of_exec (updateUsers_self huser hid) rfl

theorem alone_updateFailedLoginCount {uid : Uuid} {count updatedAt : ℤ}
    {user : UserRow} (huser : user ∈ db.users) (hid : user.id = uid) :
    authSchema.alone (.updateFailedLoginCount uid count updatedAt) db =
      .ok (1, { db with
        users := db.users.put (setFailedCount count updatedAt user) }) :=
  Schema.alone_of_exec (updateUsers_self huser hid) rfl

/-- No other session holds the token. -/
def AuthDb.HmacFree (db : AuthDb) (hmac : String) (row : SessionRow) : Prop :=
  ∀ x ∈ db.sessions, x.id ≠ row.id → x.refreshHmac ≠ some hmac

theorem updateSessions_self {p : SessionRow → Bool} {update : SessionUpdate}
    {row : SessionRow} (hrows : db.sessions.rows.filter p = [row])
    (hfree : db.HmacFree update.refreshHmac row) :
    updateSessions p update db db = .ok (1, [.putSession (update.apply row)]) := by
  simp only [updateSessions, Table.recheck_self, hrows]
  rw [if_neg]
  · rfl
  · unfold AuthDb.HmacFree at hfree
    simpa [Table.mem_def] using hfree

theorem updateSessions_self_error {p : SessionRow → Bool}
    {update : SessionUpdate} {row : SessionRow}
    (hrows : db.sessions.rows.filter p = [row])
    (htaken : ¬ db.HmacFree update.refreshHmac row) :
    updateSessions p update db db = .error .uniqueViolation := by
  unfold AuthDb.HmacFree at htaken
  push Not at htaken
  simp only [updateSessions, Table.recheck_self, hrows]
  rw [if_pos]
  simpa [Table.mem_def] using htaken

theorem filter_sessionIs {sid uid : Uuid} {row : SessionRow}
    (hrow : row ∈ db.sessions) (hmatch : sessionIs sid uid row = true) :
    db.sessions.rows.filter (sessionIs sid uid) = [row] := by
  apply filter_eq_singleton hrow hmatch
  intro r _ hr
  simp only [sessionIs, Bool.and_eq_true, decide_eq_true_eq] at hr hmatch
  exact hr.1.trans hmatch.1.symm

theorem filter_sessionLacksHmac {sid uid : Uuid} {row : SessionRow}
    (hrow : row ∈ db.sessions) (hmatch : sessionLacksHmac sid uid row = true) :
    db.sessions.rows.filter (sessionLacksHmac sid uid) = [row] := by
  apply filter_eq_singleton hrow hmatch
  intro r _ hr
  simp only [sessionLacksHmac, sessionIs, Bool.and_eq_true,
    decide_eq_true_eq] at hr hmatch
  exact hr.1.1.trans hmatch.1.1.symm

theorem alone_rotateUserSession {sid uid : Uuid} {update : SessionUpdate}
    {row : SessionRow} (hrow : row ∈ db.sessions)
    (hmatch : sessionIs sid uid row = true)
    (hfree : db.HmacFree update.refreshHmac row) :
    authSchema.alone (.rotateUserSession sid uid update) db =
      .ok (1, { db with sessions := db.sessions.put (update.apply row) }) :=
  Schema.alone_of_exec
    (updateSessions_self (filter_sessionIs hrow hmatch) hfree) rfl

theorem alone_rotateUserSession_error {sid uid : Uuid} {update : SessionUpdate}
    {row : SessionRow} (hrow : row ∈ db.sessions)
    (hmatch : sessionIs sid uid row = true)
    (htaken : ¬ db.HmacFree update.refreshHmac row) :
    authSchema.alone (.rotateUserSession sid uid update) db =
      .error .uniqueViolation :=
  Schema.alone_of_error
    (updateSessions_self_error (filter_sessionIs hrow hmatch) htaken)

theorem alone_issueFirstRefresh {sid uid : Uuid} {update : SessionUpdate}
    {row : SessionRow} (hrow : row ∈ db.sessions)
    (hmatch : sessionLacksHmac sid uid row = true)
    (hfree : db.HmacFree update.refreshHmac row) :
    authSchema.alone (.issueFirstRefresh sid uid update) db =
      .ok (1, { db with sessions := db.sessions.put (update.apply row) }) :=
  Schema.alone_of_exec
    (updateSessions_self (filter_sessionLacksHmac hrow hmatch) hfree) rfl

theorem alone_issueFirstRefresh_error {sid uid : Uuid} {update : SessionUpdate}
    {row : SessionRow} (hrow : row ∈ db.sessions)
    (hmatch : sessionLacksHmac sid uid row = true)
    (htaken : ¬ db.HmacFree update.refreshHmac row) :
    authSchema.alone (.issueFirstRefresh sid uid update) db =
      .error .uniqueViolation :=
  Schema.alone_of_error
    (updateSessions_self_error (filter_sessionLacksHmac hrow hmatch) htaken)

end Alone

end Untangled.Auth
