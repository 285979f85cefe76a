import Untangled.ChangePassword
import Untangled.UuidV7
import Untangled.SessionSerial

/-!
# The session store in memory

`memory_sessions` of `sessions.ts` with `memory_change_password_apply`, next to the
repository and the transaction that work on the database.  The memory compares ids as
texts, the database casts them.  Whatever runs on the database without an exception, with
ids in the spelling of the database, gives the same results in memory and leaves the same
sessions and consumed tokens.
-/

namespace Untangled.Auth

open ReadCommitted BigEndian Uuid7

/-! ## Ids as texts -/

/-- `id::text` and `text::uuid`: the database spells an id in one way, and the cast takes
that and other spellings. -/
structure UuidSpelling where
  text : Uuid → String
  cast : String → Option Uuid
  text_injective : Function.Injective text

/-- The text is an id as the database spells it. -/
def UuidSpelling.Canonical (S : UuidSpelling) (id : String) : Prop :=
  (S.cast id).map S.text = some id

instance (S : UuidSpelling) (id : String) : Decidable (S.Canonical id) :=
  inferInstanceAs (Decidable (_ = _))

def NewUserSession.withIds {Id Id' : Type} (s : NewUserSession Id) (id userId : Id') :
    NewUserSession Id' where
  id := id
  userId := userId
  refreshHmac := s.refreshHmac
  sessionExpiresAt := s.sessionExpiresAt
  refreshExpiresAt := s.refreshExpiresAt
  ipAddress := s.ipAddress
  userAgent := s.userAgent

def AttemptRotateArgs.withIds {Id Id' : Type} (a : AttemptRotateArgs Id)
    (userId sessionId : Id') : AttemptRotateArgs Id' where
  oldHmac := a.oldHmac
  newHmac := a.newHmac
  userId := userId
  sessionId := sessionId
  now := a.now
  refreshTtlSeconds := a.refreshTtlSeconds
  reuseGraceSeconds := a.reuseGraceSeconds
  reuseWindowSeconds := a.reuseWindowSeconds
  ipAddress := a.ipAddress
  userAgent := a.userAgent
  usedTokenId := a.usedTokenId
  usedClock := a.usedClock
  sessionClock := a.sessionClock

structure UsedRefreshRow where
  refreshHmac : String
  userId : String
  sessionId : String
  usedAt : ℤ
  expiresAt : ℤ
  deriving DecidableEq

structure LoadedUser where
  id : String
  username : String
  passwordHash : String
  displayName : String
  isActive : Bool
  failedLoginCount : ℤ
  passwordExpiresAt : ℤ
  deriving DecidableEq

/-! ## The transaction of a change of password -/

/-- The arguments of `issue_first_refresh` and the clock that stamps the row. -/
structure FirstRefreshArgs where
  sessionId : String
  refreshHmac : String
  refreshExpiresAt : ℤ
  ipAddress : Option String
  userAgent : Option String
  clock : ℤ

def FirstRefreshArgs.update (a : FirstRefreshArgs) : SessionUpdate where
  refreshHmac := a.refreshHmac
  refreshExpiresAt := a.refreshExpiresAt
  ipAddress := a.ipAddress
  userAgent := a.userAgent
  updatedAt := utcSeconds a.clock

/-- What a function does with the transaction that `run_locked` hands to it. -/
inductive LockedTx (α : Type) : Type
  | ret (result : α)
  | getSession (sessionId : String) (next : Option (NewUserSession String) → LockedTx α)
  | issueFirstRefresh (args : FirstRefreshArgs) (next : Bool → LockedTx α)
  | invalidateAllSessions (next : LockedTx α)

section Database

variable {α : Type} (S : UuidSpelling)

def loadedUser (row : UserRow) : LoadedUser where
  id := S.text row.id
  username := row.username
  passwordHash := row.passwordHash
  displayName := row.displayName
  isActive := row.isActive
  failedLoginCount := row.failedLoginCount
  passwordExpiresAt := row.passwordExpiresAt

def sessionFromRow (row : SessionRow) : NewUserSession String where
  id := S.text row.id
  userId := S.text row.userId
  refreshHmac := row.refreshHmac
  sessionExpiresAt := row.sessionExpiresAt
  refreshExpiresAt := row.refreshExpiresAt
  ipAddress := row.ipAddress
  userAgent := row.userAgent

def usedFromRow (row : UsedRow) : UsedRefreshRow where
  refreshHmac := row.refreshHmac
  userId := S.text row.userId
  sessionId := S.text row.sessionId
  usedAt := row.usedAt
  expiresAt := row.expiresAt

/-- A statement with `$1::uuid` raises where the text spells no uuid, and the transaction
is rolled back. -/
def withUuid (text : String) (next : Uuid → AuthProg α) : AuthProg α :=
  match S.cast text with
  | some id => next id
  | none => .rollback (.throw .invalidTextRepresentation)

/-- `create` of `make_session_repository` -/
def repositoryCreate (row : NewUserSession String) (clock : ℤ) : AuthProg Reply :=
  withUuid S row.id fun id =>
    withUuid S row.userId fun userId => createSession (row.withIds id userId) clock

/-- `attempt_rotate` of `make_session_repository` -/
def repositoryAttemptRotate (a : AttemptRotateArgs String) : AuthProg Reply :=
  withUuid S a.userId fun userId =>
    withUuid S a.sessionId fun sessionId => attemptRotate (a.withIds userId sessionId)

/-- `invalidate` of `make_session_repository` -/
def repositoryInvalidate (userId sessionId : String) : AuthProg Reply :=
  withUuid S userId fun userId =>
    withUuid S sessionId fun sessionId => invalidateSession userId sessionId

/-- `tx_from_client`, then the commit. -/
def LockedTx.client (userId : Uuid) : LockedTx α → AuthProg (Option α)
  | .ret result => .commit (.ret (some result))
  | .getSession sid next =>
      withUuid S sid fun sessionId =>
        .query (.selectUserSession sessionId userId) fun row =>
          (next (row.map (sessionFromRow S))).client userId
  | .issueFirstRefresh a next =>
      withUuid S a.sessionId fun sessionId =>
        .query (.issueFirstRefresh sessionId userId a.update) fun n =>
          (next (n = 1)).client userId
  | .invalidateAllSessions next =>
      .query (.deleteUsedOfUser userId) fun _ =>
        .query (.deleteSessionsOfUser userId) fun _ => next.client userId

/-- `make_change_password_apply` -/
def runLocked (userId : String) (fn : LoadedUser → LockedTx α) : AuthProg (Option α) :=
  .beginTx (withUuid S userId fun id =>
    .query (.selectUserForUpdate id) fun row =>
      match row with
      | none => .rollback (.ret none)
      | some row => (fn (loadedUser S row)).client S row.id)

end Database

variable {α : Type}

/-! ## In memory -/

/-- `memory_sessions` -/
structure MemorySessions where
  rows : List (NewUserSession String)
  used : List UsedRefreshRow
  deriving DecidableEq

namespace MemorySessions

def create (m : MemorySessions) (row : NewUserSession String) : MemorySessions :=
  { m with rows := m.rows ++ [row] }

def invalidate (m : MemorySessions) (userId sessionId : String) : MemorySessions where
  rows := m.rows.filter fun row => !(row.id = sessionId && row.userId = userId)
  used := m.used.filter fun row => !(row.sessionId = sessionId && row.userId = userId)

def holds (a : AttemptRotateArgs String) (row : NewUserSession String) : Bool :=
  row.refreshHmac = some a.oldHmac && row.userId = a.userId && row.id = a.sessionId

def consumed (a : AttemptRotateArgs String) (row : UsedRefreshRow) : Bool :=
  row.refreshHmac = a.oldHmac && row.userId = a.userId && row.sessionId = a.sessionId

def owned (sessionId userId : String) (row : NewUserSession String) : Bool :=
  row.id = sessionId && row.userId = userId

/-- The first row that matches is replaced in its place. -/
def replaceFirst (p : NewUserSession String → Bool) (row : NewUserSession String)
    (rows : List (NewUserSession String)) : List (NewUserSession String) :=
  rows.set (rows.findIdx p) row

def attemptRotate (m : MemorySessions) (a : AttemptRotateArgs String) :
    AttemptRotateResult × MemorySessions :=
  match m.rows.find? (holds a) with
  | some row =>
      if a.now ≥ row.sessionExpiresAt ∨ a.now ≥ row.refreshExpiresAt then (.expired, m)
      else
        let times := rotateSessionTimes a.now row.sessionExpiresAt a.refreshTtlSeconds
        let usedRow := ⟨a.oldHmac, a.userId, a.sessionId, a.now,
          a.now + a.reuseWindowSeconds * 1000⟩
        let row' := { row with
          refreshHmac := some a.newHmac
          refreshExpiresAt := times.refreshExpiresAt
          ipAddress := a.ipAddress
          userAgent := a.userAgent }
        (.rotated times.refreshExpiresAt row.sessionExpiresAt,
          ⟨replaceFirst (holds a) row' m.rows, m.used ++ [usedRow]⟩)
  | none =>
      match m.used.find? (consumed a) with
      | none => (.unknown, m)
      | some usedRow =>
          if withinGrace usedRow.usedAt a.now a.reuseGraceSeconds then (.softReuse, m)
          else (.hardReuse, m.invalidate a.userId a.sessionId)

def invalidateAllSessions (m : MemorySessions) (userId : String) : MemorySessions where
  rows := m.rows.filter fun row => !(row.userId = userId)
  used := m.used.filter fun row => !(row.userId = userId)

def issueFirstRefresh (m : MemorySessions) (userId : String) (a : FirstRefreshArgs) :
    Bool × MemorySessions :=
  match m.rows.find? (owned a.sessionId userId) with
  | none => (false, m)
  | some row =>
      if row.refreshHmac.isSome then (false, m)
      else
        let row' := { row with
          refreshHmac := some a.refreshHmac
          refreshExpiresAt := a.refreshExpiresAt
          ipAddress := a.ipAddress
          userAgent := a.userAgent }
        (true, { m with rows := replaceFirst (owned a.sessionId userId) row' m.rows })

/-- The transaction of `memory_change_password_apply`. -/
def tx (userId : String) : LockedTx α → MemorySessions → α × MemorySessions
  | .ret result, m => (result, m)
  | .getSession sid next, m =>
      tx userId (next (m.rows.find? (owned sid userId))) m
  | .issueFirstRefresh a next, m =>
      let (issued, m') := m.issueFirstRefresh userId a
      tx userId (next issued) m'
  | .invalidateAllSessions next, m => tx userId next (m.invalidateAllSessions userId)

def runLocked (m : MemorySessions) (loadById : String → Option LoadedUser) (userId : String)
    (fn : LoadedUser → LockedTx α) : Option α × MemorySessions :=
  match loadById userId with
  | none => (none, m)
  | some user =>
      let (result, m') := tx userId (fn user) m
      (some result, m')

end MemorySessions

/-! ## Runs -/

/-- The operations on sessions; `clock` stamps the row in the database. -/
inductive SessionOp (α : Type) : Type
  | create (row : NewUserSession String) (clock : ℤ)
  | attemptRotate (args : AttemptRotateArgs String)
  | invalidate (userId sessionId : String)
  | runLocked (userId : String) (fn : LoadedUser → LockedTx α)

inductive SessionOutcome (α : Type) : Type
  | reply (reply : Reply)
  | locked (result : Option α)
  deriving DecidableEq

def SessionOp.onDatabase (S : UuidSpelling) (db : AuthDb) :
    SessionOp α → Except Fault (SessionOutcome α) × AuthDb
  | .create row clock =>
      ((repositoryCreate S row clock).runSerial authSchema db).map (Except.map .reply) id
  | .attemptRotate args =>
      ((repositoryAttemptRotate S args).runSerial authSchema db).map (Except.map .reply) id
  | .invalidate userId sessionId =>
      ((repositoryInvalidate S userId sessionId).runSerial authSchema db).map
        (Except.map .reply) id
  | .runLocked userId fn =>
      ((Auth.runLocked S userId fn).runSerial authSchema db).map (Except.map .locked) id

def SessionOp.inMemory (loadById : String → Option LoadedUser) (m : MemorySessions) :
    SessionOp α → SessionOutcome α × MemorySessions
  | .create row _ => (.reply .created, m.create row)
  | .attemptRotate args => (m.attemptRotate args).map (fun result => .reply (.rotate result)) id
  | .invalidate userId sessionId => (.reply .invalidated, m.invalidate userId sessionId)
  | .runLocked userId fn => (m.runLocked loadById userId fn).map .locked id

/-- A run that stops at the first exception. -/
def runOnDatabase (S : UuidSpelling) : List (SessionOp α) → AuthDb →
    Except Fault (List (SessionOutcome α) × AuthDb)
  | [], db => .ok ([], db)
  | op :: ops, db =>
      match op.onDatabase S db with
      | (.error fault, _) => .error fault
      | (.ok outcome, db') =>
          (runOnDatabase S ops db').map fun (outcomes, last) => (outcome :: outcomes, last)

def runInMemory (loadById : String → Option LoadedUser) :
    List (SessionOp α) → MemorySessions → List (SessionOutcome α) × MemorySessions
  | [], m => ([], m)
  | op :: ops, m =>
      let (outcome, m') := op.inMemory loadById m
      let (outcomes, last) := runInMemory loadById ops m'
      (outcome :: outcomes, last)

/-! ### Runs with the ids as the database spells them -/

/-- The ids it asks for, whatever stored row it is given. -/
def LockedTx.Canonical (S : UuidSpelling) : LockedTx α → Prop
  | .ret _ => True
  | .getSession sid next =>
      S.Canonical sid ∧ ∀ row : Option SessionRow, (next (row.map (sessionFromRow S))).Canonical S
  | .issueFirstRefresh a next => S.Canonical a.sessionId ∧ ∀ issued, (next issued).Canonical S
  | .invalidateAllSessions next => next.Canonical S

def SessionOp.Canonical (S : UuidSpelling) : SessionOp α → Prop
  | .create row _ => S.Canonical row.id ∧ S.Canonical row.userId
  | .attemptRotate a => S.Canonical a.userId ∧ S.Canonical a.sessionId
  | .invalidate userId sessionId => S.Canonical userId ∧ S.Canonical sessionId
  | .runLocked userId fn =>
      S.Canonical userId ∧ ∀ user : UserRow, (fn (loadedUser S user)).Canonical S

/-! ## What the database holds -/

section Contents

variable (S : UuidSpelling)

/-- The contents of the session tables. -/
def AuthDb.memory (db : AuthDb) : MemorySessions where
  rows := db.sessions.rows.map (sessionFromRow S)
  used := db.used.rows.map (usedFromRow S)

/-- The users of the database, compared as the memory does. -/
def AuthDb.loadById (db : AuthDb) (id : String) : Option LoadedUser :=
  (db.users.rows.map (loadedUser S)).find? fun user => user.id = id

end Contents

section Spelling

variable {S : UuidSpelling} {id : String}

theorem UuidSpelling.text_inj (S : UuidSpelling) {a b : Uuid} :
    S.text a = S.text b ↔ a = b :=
  S.text_injective.eq_iff

theorem UuidSpelling.Canonical.exists_text (h : S.Canonical id) :
    ∃ u, S.text u = id ∧ ∀ next : Uuid → AuthProg α, withUuid S id next = next u := by
  unfold UuidSpelling.Canonical at h
  cases hcast : S.cast id with
  | none =>
      rw [hcast] at h
      cases h
  | some u =>
      rw [hcast, Option.map_some, Option.some.injEq] at h
      refine ⟨u, h, ?_⟩
      intro next
      rw [withUuid, hcast]

end Spelling

theorem set_findIdx
    {rows : List SessionRow} {q : SessionRow → Bool} {row row' : SessionRow}
    (hnodup : (rows.map key).Nodup)
    (hfind : rows.find? q = some row)
    (hkey : row'.id = row.id) :
    rows.set (rows.findIdx q) row' = Table.replaceRows rows row' := by
  induction rows with
  | nil => cases hfind
  | cons x rows ih =>
      have htail : ∀ y ∈ rows, y.id ≠ x.id := by
        intro y hy heq
        rw [List.map_cons, List.nodup_cons] at hnodup
        exact hnodup.1 (List.mem_map.mpr ⟨y, hy, heq⟩)
      rw [Table.replaceRows, List.map_cons]
      by_cases hx : q x = true
      · rw [List.find?_cons_of_pos hx] at hfind
        cases hfind
        have hrest : rows.map (fun y => if key y = key row' then row' else y) = rows := by
          refine (List.map_congr_left fun y hy => ?_).trans (List.map_id _)
          rw [if_neg]
          · rfl
          · intro heq
            exact htail y hy (Eq.trans heq hkey)
        rw [List.findIdx_cons, hx, cond_true, List.set_cons_zero, hrest, if_pos]
        exact hkey.symm
      · rw [List.find?_cons_of_neg hx] at hfind
        have hne : x.id ≠ row'.id := by
          rw [hkey]
          exact (htail row (List.mem_of_find?_eq_some hfind)).symm
        have hfalse : q x = false := by
          simpa using hx
        rw [List.findIdx_cons, hfalse, cond_false, List.set_cons_succ,
          ih (List.nodup_cons.mp hnodup).2 hfind, if_neg]
        · rfl
        · exact hne

section Memory

variable {S : UuidSpelling}

/-- Replacing the first row that matches is the update of the row with its id. -/
theorem replaceFirst_memory
    {db : AuthDb} {p : NewUserSession String → Bool} {q : SessionRow → Bool}
    {row row' : SessionRow}
    (hq : ∀ r, p (sessionFromRow S r) = q r)
    (hfind : db.sessions.rows.find? q = some row)
    (hkey : row'.id = row.id) :
    MemorySessions.replaceFirst p (sessionFromRow S row') (db.memory S).rows =
      (db.sessions.put row').rows.map (sessionFromRow S) := by
  have hcomp : p ∘ sessionFromRow S = q := funext hq
  rw [MemorySessions.replaceFirst, AuthDb.memory, List.findIdx_map, hcomp, ← List.map_set,
    set_findIdx db.sessions.nodup hfind hkey,
    Table.rows_put_of_mem (List.mem_of_find?_eq_some hfind) hkey.symm]

theorem find?_memory_rows
    {db : AuthDb} {p : NewUserSession String → Bool} {q : SessionRow → Bool}
    (hq : ∀ r, p (sessionFromRow S r) = q r) :
    (db.memory S).rows.find? p = (db.sessions.rows.find? q).map (sessionFromRow S) := by
  have hcomp : p ∘ sessionFromRow S = q := funext hq
  rw [AuthDb.memory, List.find?_map, hcomp]

theorem find?_memory_used
    {db : AuthDb} {p : UsedRefreshRow → Bool} {q : UsedRow → Bool}
    (hq : ∀ r, p (usedFromRow S r) = q r) :
    (db.memory S).used.find? p = (db.used.rows.find? q).map (usedFromRow S) := by
  have hcomp : p ∘ usedFromRow S = q := funext hq
  rw [AuthDb.memory, List.find?_map, hcomp]

/-- A deletion by a condition on what the memory keeps of a row. -/
theorem memory_without
    {db : AuthDb} {p : NewUserSession String → Bool} {pUsed : UsedRefreshRow → Bool}
    {q : SessionRow → Bool} {qUsed : UsedRow → Bool}
    (hq : ∀ r, p (sessionFromRow S r) = q r)
    (hqUsed : ∀ r, pUsed (usedFromRow S r) = qUsed r) :
    ((db.withoutUsed qUsed).withoutSessions q).memory S =
      ⟨(db.memory S).rows.filter fun r => !p r,
        (db.memory S).used.filter fun r => !pUsed r⟩ := by
  simp only [AuthDb.memory, AuthDb.withoutSessions, AuthDb.withoutUsed, Table.filter,
    List.filter_map, Function.comp_def, hq, hqUsed]

/-! ### Conditions on texts and on ids -/

theorem owned_sessionFromRow (sid uid : Uuid) (r : SessionRow) :
    MemorySessions.owned (S.text sid) (S.text uid) (sessionFromRow S r) =
      sessionIs sid uid r := by
  simp only [MemorySessions.owned, sessionFromRow, sessionIs, S.text_inj]

theorem holds_sessionFromRow (a : AttemptRotateArgs) (r : SessionRow) :
    MemorySessions.holds (a.withIds (S.text a.userId) (S.text a.sessionId))
      (sessionFromRow S r) = sessionHolds a.oldHmac a.userId a.sessionId r := by
  rw [sessionHolds, sessionIs, Bool.and_comm (decide (r.id = _)), ← Bool.and_assoc]
  simp only [MemorySessions.holds, sessionFromRow, AttemptRotateArgs.withIds, S.text_inj]
  rfl

theorem consumed_usedFromRow (a : AttemptRotateArgs) (r : UsedRow) :
    MemorySessions.consumed (a.withIds (S.text a.userId) (S.text a.sessionId))
      (usedFromRow S r) = usedHolds a.oldHmac a.userId a.sessionId r := by
  rw [usedHolds, usedOfSession, Bool.and_comm (decide (r.sessionId = _)), ← Bool.and_assoc]
  simp only [MemorySessions.consumed, usedFromRow, AttemptRotateArgs.withIds, S.text_inj]
  rfl

theorem loadById_text (db : AuthDb) (id : Uuid) :
    db.loadById S (S.text id) = (db.users.rows.find? (userIs id)).map (loadedUser S) := by
  have hcomp : (fun user : LoadedUser => decide (user.id = S.text id)) ∘ loadedUser S =
      userIs id := by
    funext row
    simp only [Function.comp_apply, loadedUser, S.text_inj]
    rfl
  rw [AuthDb.loadById, List.find?_map, hcomp]

/-! ## The transaction -/

theorem issueFirstRefresh_none
    {db : AuthDb} {sid uid : Uuid} {u : SessionUpdate}
    (h : ∀ r ∈ db.sessions, sessionLacksHmac sid uid r = false) :
    authSchema.alone (.issueFirstRefresh sid uid u) db = .ok (0, db) := by
  have hrows : db.sessions.rows.filter (sessionLacksHmac sid uid) = [] := by
    rw [List.filter_eq_nil_iff]
    intro r hr hlacks
    rw [h r hr] at hlacks
    cases hlacks
  refine Schema.alone_of_exec (?_ : authSchema.exec _ db db = .ok (0, [])) rfl
  simp [AuthStmt.exec, updateSessions, Table.recheck_self, hrows]

theorem issueFirstRefresh_alone
    {db db' : AuthDb} {sid uid : Uuid} {a : FirstRefreshArgs} {n : ℕ}
    (hsid : S.text sid = a.sessionId)
    (h : authSchema.alone (.issueFirstRefresh sid uid a.update) db = .ok (n, db')) :
    (db.memory S).issueFirstRefresh (S.text uid) a = (decide (n = 1), db'.memory S) ∧
      db'.users = db.users := by
  unfold MemorySessions.issueFirstRefresh
  rw [← hsid, find?_memory_rows (owned_sessionFromRow sid uid)]
  cases hfind : db.sessions.rows.find? (sessionIs sid uid) with
  | none =>
      have hnone := @issueFirstRefresh_none db sid uid a.update (by
        intro r hr
        have hr' := List.find?_eq_none.mp hfind r hr
        simp [sessionLacksHmac, hr'])
      rw [hnone] at h
      cases h
      exact ⟨rfl, rfl⟩
  | some row =>
      have hmem : row ∈ db.sessions := List.mem_of_find?_eq_some hfind
      have his : sessionIs sid uid row = true := List.find?_some hfind
      simp only [Option.map_some]
      by_cases hhmac : row.refreshHmac = none
      · have hlacks : sessionLacksHmac sid uid row = true := by
          simp [sessionLacksHmac, his, hhmac]
        by_cases hfree : db.HmacFree a.update.refreshHmac row
        · rw [alone_issueFirstRefresh hmem hlacks hfree] at h
          cases h
          rw [if_neg (by simp [sessionFromRow, hhmac])]
          refine ⟨?_, rfl⟩
          have hput := @replaceFirst_memory S db _ _ row (a.update.apply row)
            (owned_sessionFromRow sid uid) hfind rfl
          exact congrArg (fun rows => (true, { db.memory S with rows := rows })) hput
        · rw [alone_issueFirstRefresh_error hmem hlacks hfree] at h
          cases h
      · have hnone := @issueFirstRefresh_none db sid uid a.update (by
          intro r hr
          by_contra hlacks
          rw [Bool.not_eq_false, sessionLacksHmac, Bool.and_eq_true, decide_eq_true_eq]
            at hlacks
          have hid : r.id = row.id := by
            simp only [sessionIs, Bool.and_eq_true, decide_eq_true_eq] at hlacks his
            exact hlacks.1.1.trans his.1.symm
          rw [Table.eq_of_key_eq hr hmem hid] at hlacks
          exact hhmac hlacks.2)
        rw [hnone] at h
        cases h
        rw [if_pos (by simpa [sessionFromRow, Option.isSome_iff_ne_none] using hhmac)]
        exact ⟨rfl, rfl⟩

/-- What the transaction returns and leaves behind, where it does not throw. -/
theorem run_client
    {t : LockedTx α} {uid : Uuid} {view db db' : AuthDb} {result : Option α} {n : ℕ}
    (hcanonical : t.Canonical S)
    (hrun : (t.client S uid).run authSchema (fun _ => false) n (some view) db =
      (.ok result, db')) :
    ∃ value, result = some value ∧
      MemorySessions.tx (S.text uid) t (view.memory S) = (value, db'.memory S) ∧
        db'.users = view.users := by
  induction t generalizing view n with
  | ret value =>
      cases hrun
      exact ⟨value, rfl, rfl, rfl⟩
  | getSession sid next ih =>
      rcases hcanonical.1.exists_text with ⟨id, rfl, hcast⟩
      rw [LockedTx.client, hcast,
        Prog.run_query_some (alone_selectUserSession id uid)] at hrun
      rcases ih _ (hcanonical.2 _) hrun with ⟨value, hresult, hmemory, husers⟩
      refine ⟨value, hresult, ?_, husers⟩
      rw [MemorySessions.tx, find?_memory_rows (owned_sessionFromRow id uid)]
      exact hmemory
  | issueFirstRefresh a next ih =>
      rcases hcanonical.1.exists_text with ⟨id, hid, hcast⟩
      rw [LockedTx.client, hcast] at hrun
      cases halone : authSchema.alone (.issueFirstRefresh id uid a.update) view with
      | error fault =>
          rw [Prog.run_query_some_error halone] at hrun
          cases hrun
      | ok outcome =>
          rw [Prog.run_query_some halone] at hrun
          rcases ih _ (hcanonical.2 _) hrun with ⟨value, hresult, hmemory, husers⟩
          have hissue := issueFirstRefresh_alone hid halone
          refine ⟨value, hresult, ?_, husers.trans hissue.2⟩
          rw [MemorySessions.tx, hissue.1]
          exact hmemory
  | invalidateAllSessions next ih =>
      rw [LockedTx.client, Prog.run_query_some (alone_deleteUsedOfUser view uid)] at hrun
      by_cases hstuck : (view.withoutUsed (usedOfUser uid)).Referenced (sessionOfUser uid)
      · rw [Prog.run_query_some_error
          (Schema.alone_of_error (deleteSessions_self_error _ _ hstuck))] at hrun
        cases hrun
      · rw [Prog.run_query_some (alone_deleteSessionsOfUser hstuck)] at hrun
        rcases ih hcanonical hrun with ⟨value, hresult, hmemory, husers⟩
        refine ⟨value, hresult, ?_, husers⟩
        rw [@memory_without S view (fun r => r.userId = S.text uid)
          (fun r => r.userId = S.text uid) (sessionOfUser uid) (usedOfUser uid)
          (fun r => by simp only [sessionFromRow, S.text_inj]; rfl)
          (fun r => by simp only [usedFromRow, S.text_inj]; rfl)] at hmemory
        exact hmemory

theorem run_runLocked
    {userId : String} {fn : LoadedUser → LockedTx α} {db db' : AuthDb} {result : Option α}
    (huser : S.Canonical userId) (hfn : ∀ user, (fn (loadedUser S user)).Canonical S)
    (hrun : (runLocked S userId fn).runSerial authSchema db = (.ok result, db')) :
    (db.memory S).runLocked (db.loadById S) userId fn = (result, db'.memory S) ∧
      db'.users = db.users := by
  rcases huser.exists_text with ⟨uid, rfl, hcast⟩
  unfold Prog.runSerial runLocked at hrun
  rw [Prog.run_beginTx, Option.getD_none, hcast,
    Prog.run_query_some (alone_selectUserForUpdate uid)] at hrun
  unfold MemorySessions.runLocked
  rw [loadById_text]
  cases hfind : db.users.rows.find? (userIs uid) with
  | none =>
      rw [hfind] at hrun
      cases hrun
      exact ⟨rfl, rfl⟩
  | some user =>
      rw [hfind] at hrun
      have hfound : userIs uid user = true := List.find?_some hfind
      have hid : user.id = uid := of_decide_eq_true hfound
      rcases run_client (hfn user) hrun with ⟨value, hresult, hmemory, husers⟩
      rw [hid] at hmemory
      simp only [Option.map_some, hmemory, hresult]
      exact ⟨trivial, husers⟩

/-! ## The other operations -/

theorem run_createSession
    {new : NewUserSession} {clock : ℤ} {db db' : AuthDb} {reply : Reply}
    (hrun : (createSession new clock).runSerial authSchema db = (.ok reply, db')) :
    reply = .created ∧ db'.memory S =
      (db.memory S).create (new.withIds (S.text new.id) (S.text new.userId)) ∧
        db'.users = db.users := by
  unfold Prog.runSerial createSession at hrun
  cases hexec : insertSession (new.row clock) db with
  | error fault =>
      rw [Prog.run_query_error (Schema.alone_of_error hexec)] at hrun
      cases hrun
  | ok outcome =>
      rcases outcome with ⟨n, ws⟩
      rcases insertSession_ok hexec with ⟨rfl, hnew, _⟩
      rw [Prog.run_query_none (Schema.alone_of_exec hexec rfl)] at hrun
      cases hrun
      refine ⟨rfl, ?_, rfl⟩
      have hrows : (db.sessions.put (new.row clock)).rows =
          db.sessions.rows ++ [new.row clock] :=
        Table.rows_put_of_fresh hnew
      change MemorySessions.mk
        ((db.sessions.put (new.row clock)).rows.map (sessionFromRow S)) _ = _
      rw [hrows, List.map_append]
      rfl

theorem memory_withoutSession (db : AuthDb) (uid sid : Uuid) :
    (db.withoutSession uid sid).memory S =
      (db.memory S).invalidate (S.text uid) (S.text sid) :=
  memory_without (fun r => by simp only [sessionFromRow, S.text_inj]; rfl)
    (fun r => by simp only [usedFromRow, S.text_inj]; rfl)

theorem run_attemptRotate
    {a : AttemptRotateArgs} {db db' : AuthDb} {reply : Reply}
    (hrun : (attemptRotate a).runSerial authSchema db = (.ok reply, db')) :
    ∃ result, reply = .rotate result ∧
      (db.memory S).attemptRotate (a.withIds (S.text a.userId) (S.text a.sessionId)) =
        (result, db'.memory S) ∧ db'.users = db.users := by
  have hholds := @holds_sessionFromRow S a
  have hconsumes := @consumed_usedFromRow S a
  have hnow : (a.withIds (S.text a.userId) (S.text a.sessionId)).now = a.now := rfl
  generalize htexts : a.withIds (S.text a.userId) (S.text a.sessionId) = texts
    at hholds hconsumes hnow ⊢
  have hcurrentRow : (db.memory S).rows.find? (MemorySessions.holds texts) =
      (a.current db).map (sessionFromRow S) :=
    find?_memory_rows hholds
  have hconsumedRow : (db.memory S).used.find? (MemorySessions.consumed texts) =
      (a.consumed db).map (usedFromRow S) :=
    find?_memory_used hconsumes
  have houtcome := attemptRotate_serial a db
  rw [hrun] at houtcome
  unfold MemorySessions.attemptRotate
  rw [hcurrentRow]
  cases houtcome with
  | @rotated row hcurrent hlive hnew =>
      have hput := @replaceFirst_memory S db _ _ row ((a.update row).apply row)
        hholds hcurrent rfl
      have hrows : (db.used.put a.usedRow).rows = db.used.rows ++ [a.usedRow] :=
        Table.rows_put_of_fresh hnew
      have hexpired : ¬ (texts.now ≥ (sessionFromRow S row).sessionExpiresAt ∨
          texts.now ≥ (sessionFromRow S row).refreshExpiresAt) := by
        rw [hnow]
        simpa [AttemptRotateArgs.expired, sessionFromRow] using hlive
      refine ⟨_, rfl, ?_, rfl⟩
      rw [hcurrent]
      dsimp only [Option.map_some]
      rw [if_neg hexpired]
      have hmemory : (db.rotated a row).memory S =
          ⟨(db.sessions.put ((a.update row).apply row)).rows.map (sessionFromRow S),
            (db.used.put a.usedRow).rows.map (usedFromRow S)⟩ :=
        rfl
      rw [hmemory, ← hput, hrows, List.map_append, ← htexts]
      rfl
  | @expired row hcurrent hexpired =>
      have hlate : texts.now ≥ (sessionFromRow S row).sessionExpiresAt ∨
          texts.now ≥ (sessionFromRow S row).refreshExpiresAt := by
        rw [hnow]
        simpa [AttemptRotateArgs.expired, sessionFromRow] using hexpired
      refine ⟨_, rfl, ?_, rfl⟩
      rw [hcurrent]
      dsimp only [Option.map_some]
      rw [if_pos hlate]
  | unknown hcurrent hconsumed =>
      refine ⟨_, rfl, ?_, rfl⟩
      rw [hcurrent]
      dsimp only [Option.map_none]
      rw [hconsumedRow, hconsumed]
      rfl
  | @softReuse u hcurrent hconsumed hgrace =>
      have hwithin : withinGrace (usedFromRow S u).usedAt texts.now texts.reuseGraceSeconds =
          true := by
        rw [← htexts, withinGrace, decide_eq_true_eq]
        dsimp only [usedFromRow, AttemptRotateArgs.withIds]
        omega
      refine ⟨_, rfl, ?_, rfl⟩
      rw [hcurrent]
      dsimp only [Option.map_none]
      rw [hconsumedRow, hconsumed]
      dsimp only [Option.map_some]
      rw [if_pos hwithin]
  | @hardReuse u hcurrent hconsumed hgrace =>
      have hwithin : ¬ withinGrace (usedFromRow S u).usedAt texts.now texts.reuseGraceSeconds =
          true := by
        rw [← htexts, withinGrace, decide_eq_true_eq]
        dsimp only [usedFromRow, AttemptRotateArgs.withIds]
        omega
      refine ⟨_, rfl, ?_, rfl⟩
      rw [hcurrent]
      dsimp only [Option.map_none]
      rw [hconsumedRow, hconsumed]
      dsimp only [Option.map_some]
      rw [if_neg hwithin, memory_withoutSession, ← htexts]
      rfl

/-! ## The two stores -/

theorem inMemory_of_onDatabase
    {op : SessionOp α} {db db' : AuthDb} {outcome : SessionOutcome α}
    (hcanonical : op.Canonical S) (h : op.onDatabase S db = (.ok outcome, db')) :
    op.inMemory (db.loadById S) (db.memory S) = (outcome, db'.memory S) ∧
      db'.users = db.users := by
  cases op with
  | create new clock =>
      rcases hcanonical.1.exists_text with ⟨id, hid, hcast⟩
      rcases hcanonical.2.exists_text with ⟨uid, huid, hcastUser⟩
      rw [SessionOp.onDatabase, repositoryCreate, hcast, hcastUser] at h
      cases hrun : (createSession (new.withIds id uid) clock).runSerial authSchema db with
      | mk result last =>
          rw [hrun] at h
          cases result with
          | error fault => cases h
          | ok reply =>
              cases h
              rcases @run_createSession S _ _ _ _ _ hrun with ⟨rfl, hmemory, husers⟩
              have hnew : (new.withIds id uid).withIds (S.text id) (S.text uid) = new := by
                rw [hid, huid]
                rfl
              refine ⟨?_, husers⟩
              rw [SessionOp.inMemory]
              exact Prod.ext rfl (hmemory.trans (congrArg _ hnew)).symm
  | attemptRotate a =>
      rcases hcanonical.1.exists_text with ⟨uid, huid, hcastUser⟩
      rcases hcanonical.2.exists_text with ⟨sid, hsid, hcast⟩
      rw [SessionOp.onDatabase, repositoryAttemptRotate, hcastUser, hcast] at h
      cases hrun : (attemptRotate (a.withIds uid sid)).runSerial authSchema db with
      | mk result last =>
          rw [hrun] at h
          cases result with
          | error fault => cases h
          | ok reply =>
              cases h
              rcases @run_attemptRotate S _ _ _ _ hrun with ⟨result, rfl, hmemory, husers⟩
              have hargs : (a.withIds uid sid).withIds (S.text uid) (S.text sid) = a := by
                rw [huid, hsid]
                rfl
              have hrotate : (db.memory S).attemptRotate a = (result, last.memory S) := by
                rw [← hargs]
                exact hmemory
              refine ⟨?_, husers⟩
              rw [SessionOp.inMemory, hrotate]
              rfl
  | invalidate userId sessionId =>
      rcases hcanonical.1.exists_text with ⟨uid, rfl, hcastUser⟩
      rcases hcanonical.2.exists_text with ⟨sid, rfl, hcast⟩
      rw [SessionOp.onDatabase, repositoryInvalidate, hcastUser, hcast] at h
      cases hrun : (invalidateSession uid sid).runSerial authSchema db with
      | mk result last =>
          rw [hrun] at h
          cases result with
          | error fault => cases h
          | ok reply =>
              cases h
              rcases invalidateSession_returned hrun with ⟨rfl, rfl⟩
              exact ⟨Prod.ext rfl (memory_withoutSession db uid sid).symm, rfl⟩
  | runLocked userId fn =>
      cases hrun : (runLocked S userId fn).runSerial authSchema db with
      | mk result last =>
          rw [SessionOp.onDatabase, hrun] at h
          cases result with
          | error fault => cases h
          | ok value =>
              cases h
              rcases run_runLocked hcanonical.1 hcanonical.2 hrun with ⟨hmemory, husers⟩
              refine ⟨?_, husers⟩
              rw [SessionOp.inMemory, hmemory]
              rfl

/-- A run on the database that does not throw is the same run in memory, where the ids
are spelled as the database spells them. -/
theorem memory_refines
    {ops : List (SessionOp α)} {db db' : AuthDb} {outcomes : List (SessionOutcome α)}
    (hcanonical : ∀ op ∈ ops, op.Canonical S)
    (h : runOnDatabase S ops db = .ok (outcomes, db')) :
    runInMemory (db.loadById S) ops (db.memory S) = (outcomes, db'.memory S) := by
  induction ops generalizing db outcomes with
  | nil =>
      cases h
      rfl
  | cons op ops ih =>
      rw [runOnDatabase] at h
      cases hop : op.onDatabase S db with
      | mk result mid =>
          rw [hop] at h
          cases result with
          | error fault => cases h
          | ok outcome =>
              rcases inMemory_of_onDatabase (hcanonical op (.head _)) hop
                with ⟨hmemory, husers⟩
              have hload : mid.loadById S = db.loadById S := by
                unfold AuthDb.loadById
                rw [husers]
              dsimp only at h
              cases hrest : runOnDatabase S ops mid with
              | error fault =>
                  rw [hrest] at h
                  cases h
              | ok last =>
                  rw [hrest] at h
                  cases h
                  have hrun := ih (fun op' hop' => hcanonical op' (.tail _ hop')) hrest
                  rw [hload] at hrun
                  rw [runInMemory, hmemory]
                  dsimp only
                  rw [hrun]

end Memory

/-! ## Ids of hexadecimal digits -/

/-- The spelling in five groups of hexadecimal digits; numbers beyond the uuids have more
digits. -/
def hexSpelling : UuidSpelling where
  text id := String.ofList
    (hyphenate ((digits 16 (if id < 16 ^ 32 then 32 else id) id).map Nat.digitChar))
  cast text := if uuidRe text.toList then some (uuidOfText text.toList) else none
  text_injective := by
    apply Function.LeftInverse.injective (g := fun text => uuidOfText text.toList)
    intro id
    have hlt : id < 16 ^ (if id < 16 ^ 32 then 32 else id) := by
      split
      · assumption
      · exact Nat.lt_pow_self (by norm_num)
    simp only [String.toList_ofList, uuidOfText_hyphenate, Nat.mod_eq_of_lt hlt]

/-- A login that must change the password, the change, a rotation and a replay of the first
token after the grace period. -/
def changedThenReplayed (userId sessionId : String) : List (SessionOp Bool) :=
  [.create ⟨sessionId, userId, none, 9000000, 9000000, none, none⟩ 0,
    .runLocked userId fun _ => .getSession sessionId fun _ =>
      .issueFirstRefresh ⟨sessionId, "first", 5000000, none, none, 0⟩ fun issued => .ret issued,
    .attemptRotate ⟨"first", "second", userId, sessionId, 1000000, 3600, 30, 86400, none, none,
      20, 0, 0⟩,
    .attemptRotate ⟨"first", "third", userId, sessionId, 2000000, 3600, 30, 86400, none, none,
      21, 0, 0⟩]

def adaId : Uuid := 0xada

def adaText : String := "00000000-0000-0000-0000-000000000ada"

def adaUpper : String := "00000000-0000-0000-0000-000000000ADA"

def sessionText : String := "00000000-0000-0000-0000-000000000007"

def oneUser : AuthDb where
  users := Table.empty.put ⟨adaId, "ada", "hash", "Ada", true, 0, 0, 0, 0⟩
  sessions := Table.empty
  used := Table.empty

theorem adaText_canonical : hexSpelling.Canonical adaText := by
  decide +kernel

theorem sessionText_canonical : hexSpelling.Canonical sessionText := by
  decide +kernel

theorem changedThenReplayed_canonical
    {S : UuidSpelling} {userId sessionId : String} (huser : S.Canonical userId)
    (hsession : S.Canonical sessionId) :
    ∀ op ∈ changedThenReplayed userId sessionId, op.Canonical S := by
  intro op hop
  simp only [changedThenReplayed, List.mem_cons, List.not_mem_nil, or_false] at hop
  rcases hop with rfl | rfl | rfl | rfl
  · exact ⟨hsession, huser⟩
  · exact ⟨huser, fun _ => ⟨hsession, fun _ => ⟨hsession, fun _ => trivial⟩⟩⟩
  · exact ⟨huser, hsession⟩
  · exact ⟨huser, hsession⟩

theorem changedThenReplayed_refines :
    ∃ db', runInMemory (oneUser.loadById hexSpelling)
        (changedThenReplayed adaText sessionText) (oneUser.memory hexSpelling) =
      ([.reply .created, .locked (some true), .reply (.rotate (.rotated 4600000 9000000)),
        .reply (.rotate .hardReuse)], AuthDb.memory hexSpelling db') := by
  have hrun : runOnDatabase hexSpelling (changedThenReplayed adaText sessionText) oneUser =
      .ok ([.reply .created, .locked (some true), .reply (.rotate (.rotated 4600000 9000000)),
        .reply (.rotate .hardReuse)], oneUser) := by
    rfl
  exact ⟨_, memory_refines
    (changedThenReplayed_canonical adaText_canonical sessionText_canonical) hrun⟩

/-- A rotation that gives the id of the user in capitals. -/
def rotatedInCapitals : List (SessionOp Bool) :=
  [.create ⟨sessionText, adaText, some "first", 9000000, 5000000, none, none⟩ 0,
    .attemptRotate ⟨"first", "second", adaUpper, sessionText, 1000000, 3600, 30, 86400, none,
      none, 20, 0, 0⟩]

theorem rotatedInCapitals_not_refined :
    (∃ db', runOnDatabase hexSpelling rotatedInCapitals oneUser =
      .ok ([.reply .created, .reply (.rotate (.rotated 4600000 9000000))], db')) ∧
      (runInMemory (oneUser.loadById hexSpelling) rotatedInCapitals
        (oneUser.memory hexSpelling)).1 =
        [.reply .created, .reply (.rotate .unknown)] := by
  constructor
  · exact ⟨_, rfl⟩
  · rfl

end Untangled.Auth
