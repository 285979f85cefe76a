import Untangled.AuthSerial
import Untangled.SessionStages

/-!
# The session repository, undisturbed

What `attempt_rotate` and `invalidate` return and leave behind when they run
alone, with any pattern of steps that throw.
-/

namespace Untangled.Auth

open ReadCommitted

section Teardown

variable {db : AuthDb} {uid sid : Uuid} {n : ℕ}

/-- The database after a teardown. -/
def AuthDb.withoutSession (db : AuthDb) (uid sid : Uuid) : AuthDb :=
  (db.withoutUsed (usedOfSession sid uid)).withoutSessions (sessionIs sid uid)

/-- A used row keeps the session even after its own used rows are gone: it
belongs to another user. -/
def AuthDb.Stuck (db : AuthDb) (uid sid : Uuid) : Prop :=
  (db.withoutUsed (usedOfSession sid uid)).Referenced (sessionIs sid uid)

theorem run_deleteSessionChain {view : AuthDb} (hfree : ¬ view.Stuck uid sid)
    (next : AuthProg Reply) :
    (deleteSessionChain uid sid next).run authSchema (fun _ => false) n
        (some view) db =
      next.run authSchema (fun _ => false) (n + 1 + 1)
        (some (view.withoutSession uid sid)) db := by
  unfold deleteSessionChain
  rw [Prog.run_query_some (alone_deleteUsedOfSession view sid uid),
    Prog.run_query_some (alone_deleteUserSession hfree)]
  rfl

theorem run_deleteSessionChain_error {view : AuthDb}
    (hstuck : view.Stuck uid sid) (next : AuthProg Reply) :
    (deleteSessionChain uid sid next).run authSchema (fun _ => false) n
        (some view) db =
      (.error .foreignKeyViolation, db) := by
  unfold deleteSessionChain
  rw [Prog.run_query_some (alone_deleteUsedOfSession view sid uid),
    Prog.run_query_error (Schema.alone_of_error
      (deleteSessions_self_error _ _ hstuck))]

theorem mem_withoutSession_sessions {r : SessionRow} :
    r ∈ (db.withoutSession uid sid).sessions ↔
      r ∈ db.sessions ∧ ¬ (r.id = sid ∧ r.userId = uid) := by
  simp [AuthDb.withoutSession, AuthDb.withoutSessions, AuthDb.withoutUsed,
    sessionIs, not_and_or, -not_and]

theorem mem_withoutSession_used {u : UsedRow} :
    u ∈ (db.withoutSession uid sid).used ↔
      u ∈ db.used ∧ ¬ (u.sessionId = sid ∧ u.userId = uid) := by
  simp [AuthDb.withoutSession, AuthDb.withoutSessions, AuthDb.withoutUsed,
    usedOfSession, not_and_or, -not_and]

theorem invalidateSession_ok (hfree : ¬ db.Stuck uid sid) :
    (invalidateSession uid sid).runSerial authSchema db =
      (.ok .invalidated, db.withoutSession uid sid) := by
  unfold Prog.runSerial invalidateSession
  rw [Prog.run_beginTx, Option.getD_none, run_deleteSessionChain hfree]
  rfl

theorem invalidateSession_error (hstuck : db.Stuck uid sid) :
    (invalidateSession uid sid).runSerial authSchema db =
      (.error .foreignKeyViolation, db) := by
  unfold Prog.runSerial invalidateSession
  rw [Prog.run_beginTx, Option.getD_none, run_deleteSessionChain_error hstuck]

theorem closing_deleteSessionChain (reply : Reply) :
    (deleteSessionChain uid sid (.commit (.ret reply))).Closing :=
  fun _ _ => ⟨reply, rfl⟩

theorem invalidateSession_atomic : (invalidateSession uid sid).Atomic :=
  ⟨_, rfl, closing_deleteSessionChain _⟩

/-- An `invalidate` that returns has removed the session and its used rows. -/
theorem invalidateSession_returned {fails : ℕ → Bool} {reply : Reply}
    {db' : AuthDb}
    (hrun : (invalidateSession uid sid).run authSchema fails 0 none db =
      (.ok reply, db')) :
    reply = .invalidated ∧ db' = db.withoutSession uid sid := by
  have hserial : (invalidateSession uid sid).runSerial authSchema db =
      (.ok reply, db') := Prog.run_eq_of_ok hrun
  by_cases hstuck : db.Stuck uid sid
  · rw [invalidateSession_error hstuck] at hserial
    cases hserial
  · rw [invalidateSession_ok hstuck] at hserial
    cases hserial
    exact ⟨rfl, rfl⟩

end Teardown

section Rotation

variable {a : AttemptRotateArgs} {db : AuthDb}

/-- The session that currently holds the presented token. -/
def AttemptRotateArgs.current (a : AttemptRotateArgs) (db : AuthDb) :
    Option SessionRow :=
  db.sessions.rows.find? (sessionHolds a.oldHmac a.userId a.sessionId)

/-- The consumed-token row of the presented token. -/
def AttemptRotateArgs.consumed (a : AttemptRotateArgs) (db : AuthDb) :
    Option UsedRow :=
  db.used.rows.find? (usedHolds a.oldHmac a.userId a.sessionId)

/-- The database after a successful exchange. -/
def AuthDb.rotated (db : AuthDb) (a : AttemptRotateArgs) (row : SessionRow) :
    AuthDb :=
  { db with
    sessions := db.sessions.put ((a.update row).apply row)
    used := db.used.put a.usedRow }

theorem attemptRotate_expired {row : SessionRow} (hcurrent : a.current db = some row)
    (hexpired : a.expired row = true) :
    (attemptRotate a).runSerial authSchema db = (.ok (.rotate .expired), db) := by
  unfold Prog.runSerial attemptRotate rotateSelect
  unfold AttemptRotateArgs.current at hcurrent
  rw [Prog.run_beginTx, Option.getD_none,
    Prog.run_query_some (alone_selectSessionForUpdate _ _ _), hcurrent]
  simp [rotateLocked, hexpired]

theorem attemptRotate_reuse (hcurrent : a.current db = none) :
    (attemptRotate a).runSerial authSchema db =
      (rotateReuse a ((a.consumed db).map UsedRow.usedAt)).run authSchema
        (fun _ => false) 3 (some db) db := by
  unfold Prog.runSerial attemptRotate rotateSelect
  unfold AttemptRotateArgs.current at hcurrent
  rw [Prog.run_beginTx, Option.getD_none,
    Prog.run_query_some (alone_selectSessionForUpdate _ _ _), hcurrent]
  unfold rotateLocked
  rw [Prog.run_query_some (alone_selectUsedToken _ _ _)]
  rfl

theorem attemptRotate_unknown (hcurrent : a.current db = none)
    (hconsumed : a.consumed db = none) :
    (attemptRotate a).runSerial authSchema db = (.ok (.rotate .unknown), db) := by
  rw [attemptRotate_reuse hcurrent, hconsumed]
  rfl

theorem attemptRotate_softReuse {u : UsedRow} (hcurrent : a.current db = none)
    (hconsumed : a.consumed db = some u)
    (hgrace : a.now ≤ u.usedAt + a.reuseGraceSeconds * 1000) :
    (attemptRotate a).runSerial authSchema db =
      (.ok (.rotate .softReuse), db) := by
  have hwithin : withinGrace u.usedAt a.now a.reuseGraceSeconds = true := by
    unfold withinGrace
    rw [decide_eq_true_eq]
    omega
  rw [attemptRotate_reuse hcurrent, hconsumed]
  simp [rotateReuse, hwithin]

theorem attemptRotate_hardReuse {u : UsedRow} (hcurrent : a.current db = none)
    (hconsumed : a.consumed db = some u)
    (hgrace : u.usedAt + a.reuseGraceSeconds * 1000 < a.now)
    (hfree : ¬ db.Stuck a.userId a.sessionId) :
    (attemptRotate a).runSerial authSchema db =
      (.ok (.rotate .hardReuse), db.withoutSession a.userId a.sessionId) := by
  have hwithin : withinGrace u.usedAt a.now a.reuseGraceSeconds = false := by
    unfold withinGrace
    rw [decide_eq_false_iff_not]
    omega
  rw [attemptRotate_reuse hcurrent, hconsumed]
  simp only [Option.map_some, rotateReuse, hwithin, Bool.false_eq_true, if_false]
  rw [run_deleteSessionChain hfree]
  rfl

theorem attemptRotate_atomic (a : AttemptRotateArgs) : (attemptRotate a).Atomic := by
  refine ⟨_, rfl, ?_⟩
  intro locked
  cases locked with
  | some row =>
      unfold rotateLocked
      dsimp only
      split
      · exact ⟨_, rfl⟩
      · exact fun _ _ => ⟨_, rfl⟩
  | none =>
      intro usedAt
      unfold rotateReuse
      split
      · exact ⟨_, rfl⟩
      · split
        · exact ⟨_, rfl⟩
        · exact closing_deleteSessionChain _

/-- Every way an undisturbed rotation can end. -/
inductive RotateOutcome (a : AttemptRotateArgs) (db : AuthDb) :
    Except Fault Reply × AuthDb → Prop
  | rotated {row} (hcurrent : a.current db = some row)
      (hlive : a.expired row = false)
      (hnew : ∀ u ∈ db.used, u.id ≠ a.usedTokenId) :
      RotateOutcome a db (.ok (.rotate
        (.rotated (a.times row).refreshExpiresAt row.sessionExpiresAt)),
          db.rotated a row)
  | expired {row} (hcurrent : a.current db = some row)
      (hexpired : a.expired row = true) :
      RotateOutcome a db (.ok (.rotate .expired), db)
  | unknown (hcurrent : a.current db = none) (hconsumed : a.consumed db = none) :
      RotateOutcome a db (.ok (.rotate .unknown), db)
  | softReuse {u} (hcurrent : a.current db = none)
      (hconsumed : a.consumed db = some u)
      (hgrace : a.now ≤ u.usedAt + a.reuseGraceSeconds * 1000) :
      RotateOutcome a db (.ok (.rotate .softReuse), db)
  | hardReuse {u} (hcurrent : a.current db = none)
      (hconsumed : a.consumed db = some u)
      (hgrace : u.usedAt + a.reuseGraceSeconds * 1000 < a.now) :
      RotateOutcome a db
        (.ok (.rotate .hardReuse), db.withoutSession a.userId a.sessionId)
  | threw (fault : Fault) : RotateOutcome a db (.error fault, db)

theorem insertUsed_cases (row : UsedRow) (cur : AuthDb) :
    insertUsed row cur = .ok (1, [.putUsed row]) ∨
      ∃ fault, insertUsed row cur = .error fault := by
  unfold insertUsed
  split
  · exact Or.inr ⟨_, rfl⟩
  · split
    · exact Or.inl rfl
    · exact Or.inr ⟨_, rfl⟩

theorem AttemptRotateArgs.current_some {row : SessionRow}
    (hcurrent : a.current db = some row) :
    row ∈ db.sessions ∧
      sessionHolds a.oldHmac a.userId a.sessionId row = true :=
  ⟨List.mem_of_find?_eq_some hcurrent, List.find?_some hcurrent⟩

theorem attemptRotate_current {row : SessionRow}
    (hcurrent : a.current db = some row) (hlive : a.expired row = false) :
    RotateOutcome a db ((attemptRotate a).runSerial authSchema db) := by
  obtain ⟨hrow, hmatch⟩ := AttemptRotateArgs.current_some hcurrent
  have his : sessionIs a.sessionId a.userId row = true := by
    simp only [sessionHolds, Bool.and_eq_true] at hmatch
    exact hmatch.2
  have hstart : (attemptRotate a).runSerial authSchema db =
      (rotateInsert a row).run authSchema (fun _ => false) 2 (some db) db := by
    unfold Prog.runSerial attemptRotate rotateSelect
    rw [Prog.run_beginTx, Option.getD_none,
      Prog.run_query_some (alone_selectSessionForUpdate _ _ _)]
    have hfind : db.sessions.rows.find?
        (sessionHolds a.oldHmac a.userId a.sessionId) = some row := hcurrent
    rw [hfind]
    simp [rotateLocked, hlive]
  rw [hstart]
  unfold rotateInsert
  obtain hinsert | ⟨fault, hinsert⟩ := insertUsed_cases a.usedRow db
  · rw [Prog.run_query_some (Schema.alone_of_exec hinsert rfl)]
    unfold rotateUpdate
    have hview : row ∈ (authSchema.applyAll [.putUsed a.usedRow] db).sessions :=
      hrow
    by_cases hfree : (authSchema.applyAll [.putUsed a.usedRow] db).HmacFree
        (a.update row).refreshHmac row
    · rw [Prog.run_query_some (alone_rotateUserSession hview his hfree)]
      exact .rotated hcurrent hlive (insertUsed_ok hinsert).2
    · have halone := alone_rotateUserSession_error hview his hfree
      rw [Prog.run_query_some_error halone]
      exact .threw _
  · rw [Prog.run_query_error (Schema.alone_of_error hinsert)]
    exact .threw _

theorem attemptRotate_serial (a : AttemptRotateArgs) (db : AuthDb) :
    RotateOutcome a db ((attemptRotate a).runSerial authSchema db) := by
  cases hcurrent : a.current db with
  | some row =>
      cases hexpired : a.expired row with
      | true =>
          rw [attemptRotate_expired hcurrent hexpired]
          exact .expired hcurrent hexpired
      | false => exact attemptRotate_current hcurrent hexpired
  | none =>
      cases hconsumed : a.consumed db with
      | none =>
          rw [attemptRotate_unknown hcurrent hconsumed]
          exact .unknown hcurrent hconsumed
      | some u =>
          by_cases hgrace : a.now ≤ u.usedAt + a.reuseGraceSeconds * 1000
          · rw [attemptRotate_softReuse hcurrent hconsumed hgrace]
            exact .softReuse hcurrent hconsumed hgrace
          · have hlate : u.usedAt + a.reuseGraceSeconds * 1000 < a.now := by
              omega
            by_cases hstuck : db.Stuck a.userId a.sessionId
            · have hwithin :
                  withinGrace u.usedAt a.now a.reuseGraceSeconds = false := by
                unfold withinGrace
                rw [decide_eq_false_iff_not]
                omega
              rw [attemptRotate_reuse hcurrent, hconsumed]
              simp only [Option.map_some, rotateReuse, hwithin,
                Bool.false_eq_true, if_false]
              rw [run_deleteSessionChain_error hstuck]
              exact .threw _
            · rw [attemptRotate_hardReuse hcurrent hconsumed hlate hstuck]
              exact .hardReuse hcurrent hconsumed hlate

/-- The same whatever steps throw. -/
theorem attemptRotate_outcome (a : AttemptRotateArgs) (db : AuthDb)
    (fails : ℕ → Bool) :
    RotateOutcome a db ((attemptRotate a).run authSchema fails 0 none db) := by
  cases hrun : (attemptRotate a).run authSchema fails 0 none db with
  | mk outcome db' =>
      cases outcome with
      | error fault =>
          obtain rfl := (attemptRotate_atomic a).db_eq_of_error hrun
          exact .threw fault
      | ok reply =>
          have hserial : (attemptRotate a).runSerial authSchema db =
              (.ok reply, db') := Prog.run_eq_of_ok hrun
          rw [← hserial]
          exact attemptRotate_serial a db

end Rotation

end Untangled.Auth
