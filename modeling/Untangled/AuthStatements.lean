import Untangled.AuthTables

/-!
# Statement specifications

What each group of statements returns and writes, and the auth service's
database as an instance of the READ COMMITTED schema.
-/

namespace Untangled.Auth

open ReadCommitted

theorem sessionHolds_iff {hmac : String} {userId id : Uuid} {row : SessionRow} :
    sessionHolds hmac userId id row = true ↔
      row.refreshHmac = some hmac ∧ row.id = id ∧ row.userId = userId := by
  simp [sessionHolds, sessionIs]

theorem sessionLacksHmac_iff {userId id : Uuid} {row : SessionRow} :
    sessionLacksHmac id userId row = true ↔
      (row.id = id ∧ row.userId = userId) ∧ row.refreshHmac = none := by
  simp [sessionLacksHmac, sessionIs]

variable {snap cur : AuthDb}

theorem updateSessions_ok {p : SessionRow → Bool} {update : SessionUpdate}
    {n : ℕ} {ws : List RowWrite}
    (hexec : updateSessions p update snap cur = .ok (n, ws)) :
    n = (Table.recheck p snap.sessions cur.sessions).length ∧
      ws = (Table.recheck p snap.sessions cur.sessions).map
        fun r => .putSession (update.apply r) := by
  unfold updateSessions at hexec
  dsimp only at hexec
  split at hexec
  · cases hexec
  · simp only [Except.ok.injEq, Prod.mk.injEq] at hexec
    exact ⟨hexec.1.symm, hexec.2.symm⟩

theorem deleteSessions_ok {p : SessionRow → Bool}
    {n : ℕ} {ws : List RowWrite}
    (hexec : deleteSessions p snap cur = .ok (n, ws)) :
    referencing p snap cur = [] ∧
      n = (Table.recheck p snap.sessions cur.sessions).length ∧
      ws = (Table.recheck p snap.sessions cur.sessions).map
        fun r => .eraseSession r.id := by
  unfold deleteSessions at hexec
  dsimp only at hexec
  split at hexec
  · rename_i hempty
    simp only [Except.ok.injEq, Prod.mk.injEq] at hexec
    exact ⟨List.isEmpty_iff.mp hempty, hexec.1.symm, hexec.2.symm⟩
  · cases hexec

theorem deleteSessions_error {p : SessionRow → Bool} {fault : Fault}
    (hexec : deleteSessions p snap cur = .error fault) :
    fault = .foreignKeyViolation ∧ referencing p snap cur ≠ [] := by
  unfold deleteSessions at hexec
  dsimp only at hexec
  split at hexec
  · cases hexec
  · rename_i hempty
    refine ⟨(Except.error.inj hexec).symm, ?_⟩
    intro hnil
    exact hempty (List.isEmpty_iff.mpr hnil)

theorem mem_referencing {p : SessionRow → Bool} {u : UsedRow} :
    u ∈ referencing p snap cur ↔
      u ∈ cur.used ∧
        ∃ r ∈ Table.recheck p snap.sessions cur.sessions,
          r.id = u.sessionId := by
  simp [referencing, Table.mem_def]

theorem insertSession_ok {row : SessionRow} {n : ℕ} {ws : List RowWrite}
    (hexec : insertSession row cur = .ok (n, ws)) :
    ws = [.putSession row] ∧ (∀ x ∈ cur.sessions, x.id ≠ row.id) ∧
      (∃ u ∈ cur.users, u.id = row.userId) := by
  unfold insertSession at hexec
  split at hexec
  · cases hexec
  · rename_i hunique
    split at hexec
    · rename_i huser
      simp only [Except.ok.injEq, Prod.mk.injEq] at hexec
      refine ⟨hexec.2.symm, ?_, ?_⟩
      · intro x hx hid
        apply hunique
        exact List.any_eq_true.mpr ⟨x, hx, by simp [hid]⟩
      · obtain ⟨u, hu, hid⟩ := List.any_eq_true.mp huser
        exact ⟨u, hu, by simpa [userIs] using hid⟩
    · cases hexec

theorem insertUsed_ok {row : UsedRow} {n : ℕ} {ws : List RowWrite}
    (hexec : insertUsed row cur = .ok (n, ws)) :
    ws = [.putUsed row] ∧ (∀ x ∈ cur.used, x.id ≠ row.id) := by
  unfold insertUsed at hexec
  split at hexec
  · cases hexec
  · rename_i hunique
    split at hexec
    · simp only [Except.ok.injEq, Prod.mk.injEq] at hexec
      refine ⟨hexec.2.symm, ?_⟩
      intro x hx hid
      apply hunique
      exact List.any_eq_true.mpr ⟨x, hx, by simp [hid]⟩
    · cases hexec

/-- A row a locking `SELECT` returns is a current row that satisfies the
condition, and it is one of the candidates that were locked. -/
theorem lockSession_some {p : SessionRow → Bool} {r : SessionRow}
    {ws : List RowWrite}
    (hexec : lockSession p snap cur = .ok (some r, ws)) :
    r ∈ cur.sessions ∧ p r = true ∧
      (RowKey.session r.id, LockMode.update) ∈ sessionLocks p snap := by
  simp only [lockSession, Except.ok.injEq, Prod.mk.injEq] at hexec
  have hmem : r ∈ Table.recheck p snap.sessions cur.sessions :=
    List.mem_of_head? hexec.1
  refine ⟨(Table.mem_recheck.mp hmem).1, (Table.mem_recheck.mp hmem).2.1, ?_⟩
  exact List.mem_map.mpr ⟨_, Table.key_mem_candidates hmem, rfl⟩

/-! ## Every written row is locked -/

theorem sessionLocks_of_recheck {p : SessionRow → Bool} {r : SessionRow}
    (hr : r ∈ Table.recheck p snap.sessions cur.sessions) :
    (RowKey.session r.id, LockMode.update) ∈ sessionLocks p snap :=
  List.mem_map.mpr ⟨_, Table.key_mem_candidates hr, rfl⟩

theorem updateSessions_locked {p : SessionRow → Bool} {update : SessionUpdate}
    {n : ℕ} {ws : List RowWrite}
    (hexec : updateSessions p update snap cur = .ok (n, ws)) :
    ∀ w ∈ ws, ∃ m, (w.target, m) ∈ sessionLocks p snap ∧ m.isWrite = true := by
  intro w hw
  rw [(updateSessions_ok hexec).2] at hw
  obtain ⟨r, hr, rfl⟩ := List.mem_map.mp hw
  have hlock := sessionLocks_of_recheck hr
  exact ⟨.update, hlock, rfl⟩

theorem deleteSessions_locked {p : SessionRow → Bool}
    {n : ℕ} {ws : List RowWrite}
    (hexec : deleteSessions p snap cur = .ok (n, ws)) :
    ∀ w ∈ ws,
      ∃ m, (w.target, m) ∈ deleteSessionLocks p snap cur ∧
        m.isWrite = true := by
  intro w hw
  rw [(deleteSessions_ok hexec).2.2] at hw
  obtain ⟨r, hr, rfl⟩ := List.mem_map.mp hw
  exact ⟨.update, List.mem_append_left _ (sessionLocks_of_recheck hr), rfl⟩

theorem deleteUsed_locked {p : UsedRow → Bool} {n : ℕ} {ws : List RowWrite}
    (hexec : deleteUsed p snap cur = .ok (n, ws)) :
    ∀ w ∈ ws, ∃ m, (w.target, m) ∈ usedLocks p snap ∧ m.isWrite = true := by
  intro w hw
  simp only [deleteUsed, Except.ok.injEq, Prod.mk.injEq] at hexec
  rw [← hexec.2] at hw
  obtain ⟨u, hu, rfl⟩ := List.mem_map.mp hw
  exact ⟨.update, List.mem_map.mpr ⟨_, Table.key_mem_candidates hu, rfl⟩, rfl⟩

theorem updateUsers_locked {p : UserRow → Bool} {f : UserRow → UserRow}
    {n : ℕ} {ws : List RowWrite}
    (hexec : updateUsers p f snap cur = .ok (n, ws))
    (hf : ∀ r, (f r).id = r.id) :
    ∀ w ∈ ws,
      ∃ m, (w.target, m) ∈ userLocks p .noKeyUpdate snap ∧
        m.isWrite = true := by
  intro w hw
  simp only [updateUsers, Except.ok.injEq, Prod.mk.injEq] at hexec
  rw [← hexec.2] at hw
  obtain ⟨r, hr, rfl⟩ := List.mem_map.mp hw
  refine ⟨.noKeyUpdate, List.mem_map.mpr
    ⟨_, Table.key_mem_candidates hr, ?_⟩, rfl⟩
  simp [RowWrite.target, hf]

theorem AuthStmt.exec_locked {stmt : AuthStmt} {result : AuthRes stmt}
    {ws : List RowWrite} (hexec : stmt.exec snap cur = .ok (result, ws)) :
    ∀ w ∈ ws,
      ∃ m, (w.target, m) ∈ stmt.lockSet snap cur ∧ m.isWrite = true := by
  cases stmt with
  | insertUserSession row =>
      intro w hw
      rw [(insertSession_ok hexec).1, List.mem_singleton] at hw
      subst w
      exact ⟨.update, List.mem_cons_self, rfl⟩
  | insertUsedToken row =>
      intro w hw
      rw [(insertUsed_ok hexec).1, List.mem_singleton] at hw
      subst w
      exact ⟨.update, List.mem_cons_self, rfl⟩
  | selectSessionForUpdate h userId id =>
      simp only [AuthStmt.exec, lockSession, Except.ok.injEq,
        Prod.mk.injEq] at hexec
      simp [← hexec.2]
  | selectUsedToken h userId sessionId =>
      simp only [AuthStmt.exec, Except.ok.injEq, Prod.mk.injEq] at hexec
      simp [← hexec.2]
  | selectUserForUpdate id =>
      simp only [AuthStmt.exec, Except.ok.injEq, Prod.mk.injEq] at hexec
      simp [← hexec.2]
  | selectUserSession id userId =>
      simp only [AuthStmt.exec, Except.ok.injEq, Prod.mk.injEq] at hexec
      simp [← hexec.2]
  | selectUserByUsername username =>
      simp only [AuthStmt.exec, Except.ok.injEq, Prod.mk.injEq] at hexec
      simp [← hexec.2]
  | rotateUserSession id userId update => exact updateSessions_locked hexec
  | issueFirstRefresh id userId update => exact updateSessions_locked hexec
  | deleteUsedOfSession sessionId userId => exact deleteUsed_locked hexec
  | deleteUsedRefreshToken now => exact deleteUsed_locked hexec
  | deleteUsedOfUser userId => exact deleteUsed_locked hexec
  | deleteUserSession id userId => exact deleteSessions_locked hexec
  | deleteExpiredUserSession now => exact deleteSessions_locked hexec
  | deleteSessionsOfUser userId => exact deleteSessions_locked hexec
  | updateUserPassword id update =>
      exact updateUsers_locked hexec fun _ => rfl
  | updateFailedLoginCount id count updatedAt =>
      exact updateUsers_locked hexec fun _ => rfl

/-- The auth service's database under READ COMMITTED. -/
def authSchema : Schema AuthDb RowKey RowWrite AuthStmt AuthRes where
  apply := RowWrite.apply
  target := RowWrite.target
  lockSet := AuthStmt.lockSet
  exec := AuthStmt.exec
  exec_locked := AuthStmt.exec_locked

@[simp] theorem authSchema_apply (w : RowWrite) (db : AuthDb) :
    authSchema.apply w db = w.apply db := rfl
@[simp] theorem authSchema_target (w : RowWrite) :
    authSchema.target w = w.target := rfl
@[simp] theorem authSchema_lockSet (stmt : AuthStmt) (snap cur : AuthDb) :
    authSchema.lockSet stmt snap cur = stmt.lockSet snap cur := rfl
@[simp] theorem authSchema_exec (stmt : AuthStmt) (snap cur : AuthDb) :
    authSchema.exec stmt snap cur = stmt.exec snap cur := rfl

abbrev AuthProg (α : Type) := Prog AuthStmt AuthRes α

end Untangled.Auth
