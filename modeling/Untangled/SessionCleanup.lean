import Untangled.AuthSerial
import Untangled.MustChangeGate

/-!
# The cleanup of expired sessions

`run_session_cleanup` deletes the expired used-token rows and then the expired
sessions.  The two expiries are unrelated: a session may expire while one of
its used-token rows is still within the reuse window, and then the second
deletion runs into the foreign key.
-/

namespace Untangled.Auth

open ReadCommitted

/-- The cleanup at `now` completes and removes exactly what has expired. -/
def CleanupExact (db : AuthDb) (now : ℤ) : Prop :=
  ∃ usedTokens sessions db',
    (runSessionCleanup now).runSerial authSchema db =
        (.ok (.cleaned usedTokens sessions), db') ∧
      (∀ r ∈ db'.sessions,
        now < r.sessionExpiresAt ∧ now < r.refreshExpiresAt) ∧
      (∀ u ∈ db'.used, now < u.expiresAt) ∧
      (∀ r ∈ db.sessions, now < r.sessionExpiresAt →
        now < r.refreshExpiresAt → r ∈ db'.sessions) ∧
      ∀ u ∈ db.used, now < u.expiresAt →
        (∃ r ∈ db.sessions, r.id = u.sessionId ∧ now < r.sessionExpiresAt ∧
          now < r.refreshExpiresAt) → u ∈ db'.used

/-- Every used-token row of an expired session has expired as well. -/
def ExpiredSessionsUnreferenced (db : AuthDb) (now : ℤ) : Prop :=
  ∀ u ∈ db.used, now < u.expiresAt →
    ∀ r ∈ db.sessions, r.id = u.sessionId →
      now < r.sessionExpiresAt ∧ now < r.refreshExpiresAt

theorem sessionExpired_eq_false {now : ℤ} {r : SessionRow} :
    sessionExpired now r = false ↔
      now < r.sessionExpiresAt ∧ now < r.refreshExpiresAt := by
  simp [sessionExpired]

theorem usedExpired_eq_false {now : ℤ} {u : UsedRow} :
    usedExpired now u = false ↔ now < u.expiresAt := by
  simp [usedExpired]

theorem referenced_iff {db : AuthDb} {now : ℤ} :
    (db.withoutUsed (usedExpired now)).Referenced (sessionExpired now) ↔
      ¬ ExpiredSessionsUnreferenced db now := by
  constructor
  · rintro ⟨u, hu, r, hr, hexpired, hid⟩ hall
    obtain ⟨hu, hlive⟩ := AuthDb.mem_withoutUsed.mp hu
    have hunexpired := sessionExpired_eq_false.mpr
      (hall u hu (usedExpired_eq_false.mp hlive) r hr hid)
    rw [hexpired] at hunexpired
    cases hunexpired
  · intro hnot
    by_contra hfree
    apply hnot
    intro u hu hlive r hr hid
    apply sessionExpired_eq_false.mp
    cases hexpired : sessionExpired now r with
    | false => rfl
    | true =>
        exact absurd ⟨u, AuthDb.mem_withoutUsed.mpr
          ⟨hu, usedExpired_eq_false.mpr hlive⟩, r, hr, hexpired, hid⟩ hfree

/-- The cleanup when nothing references an expired session. -/
theorem runSessionCleanup_ok {db : AuthDb} {now : ℤ}
    (hcondition : ExpiredSessionsUnreferenced db now) :
    (runSessionCleanup now).runSerial authSchema db =
      (.ok (.cleaned (db.used.rows.filter (usedExpired now)).length
        (db.sessions.rows.filter (sessionExpired now)).length),
        (db.withoutUsed (usedExpired now)).withoutSessions
          (sessionExpired now)) := by
  have hfree := fun h => referenced_iff.mp h hcondition
  unfold Prog.runSerial runSessionCleanup
  rw [Prog.run_query_none (alone_deleteUsedRefreshToken db now),
    Prog.run_query_none (alone_deleteExpiredUserSession hfree)]
  rfl

/-- Otherwise it stops at the foreign key, its first deletion committed. -/
theorem runSessionCleanup_error {db : AuthDb} {now : ℤ}
    (hcondition : ¬ ExpiredSessionsUnreferenced db now) :
    (runSessionCleanup now).runSerial authSchema db =
      (.error .foreignKeyViolation, db.withoutUsed (usedExpired now)) := by
  unfold Prog.runSerial runSessionCleanup
  rw [Prog.run_query_none (alone_deleteUsedRefreshToken db now)]
  exact Prog.run_query_error (Schema.alone_of_error
    (deleteSessions_self_error _ _ (referenced_iff.mpr hcondition)))

/-- In every database and at every instant the cleanup is exact if and only if
no unexpired used-token row belongs to an expired session. -/
theorem cleanupExact_iff (db : AuthDb) (now : ℤ) :
    CleanupExact db now ↔ ExpiredSessionsUnreferenced db now := by
  constructor
  · rintro ⟨usedTokens, sessions, db', hrun, _⟩
    by_contra hcondition
    rw [runSessionCleanup_error hcondition] at hrun
    cases hrun
  · intro hcondition
    refine ⟨_, _, _, runSessionCleanup_ok hcondition, ?_, ?_, ?_, ?_⟩
    · intro r hr
      exact sessionExpired_eq_false.mp (AuthDb.mem_withoutSessions.mp hr).2
    · intro u hu
      rw [AuthDb.withoutSessions_used] at hu
      exact usedExpired_eq_false.mp (AuthDb.mem_withoutUsed.mp hu).2
    · intro r hr hsession hrefresh
      exact AuthDb.mem_withoutSessions.mpr
        ⟨hr, sessionExpired_eq_false.mpr ⟨hsession, hrefresh⟩⟩
    · intro u hu hlive _
      rw [AuthDb.withoutSessions_used]
      exact AuthDb.mem_withoutUsed.mpr ⟨hu, usedExpired_eq_false.mpr hlive⟩

/-! ## A history that defeats the cleanup -/

def day : ℤ := 86400000

/-- The ordinary login of the sample account under the default settings. -/
def freshLogin : LoginArgs :=
  { sampleLogin with classifyNow := 0, now := 0, countClock := 0, sessionClock := 0 }

/-- A rotation under the default settings. -/
def defaultRotation (old new : String) (usedId : Uuid) (now : ℤ) :
    AttemptRotateArgs where
  oldHmac := old
  newHmac := new
  userId := 1
  sessionId := 10
  now := now
  refreshTtlSeconds := defaultSettings.sessionRefreshTtlSeconds
  reuseGraceSeconds := defaultSettings.sessionRefreshReuseGraceSeconds
  reuseWindowSeconds := defaultSettings.sessionRefreshReuseWindowSeconds
  ipAddress := none
  userAgent := none
  usedTokenId := usedId
  usedClock := now
  sessionClock := now

/-- Spawn a call and let it run to its end. -/
def undisturbed (i : ℕ) (call : Call) (moves : ℕ) : List (Label Call) :=
  .spawn call :: List.replicate moves (.advance i)

/-- A login, and a client that refreshes every six days and once more half a
day before the session's thirty days are over. -/
def longLivedSchedule : List (Label Call) :=
  undisturbed 0 (.login freshLogin) 6 ++
  undisturbed 1 (.attemptRotate
    (defaultRotation "hmac of token 1" "h2" 21 (6 * day))) 8 ++
  undisturbed 2 (.attemptRotate (defaultRotation "h2" "h3" 22 (12 * day))) 8 ++
  undisturbed 3 (.attemptRotate (defaultRotation "h3" "h4" 23 (18 * day))) 8 ++
  undisturbed 4 (.attemptRotate (defaultRotation "h4" "h5" 24 (24 * day))) 8 ++
  undisturbed 5 (.attemptRotate
    (defaultRotation "h5" "h6" 25 (29 * day + day / 2))) 8

def longLivedEnd : Option AuthSystem :=
  System.performAll authSchema Call.start MintsFresh longLivedSchedule sampleStart

/-- The cleanup on the thirtieth day fails after that history. -/
theorem longLivedEnd_cleanup :
    (longLivedEnd.map fun sys =>
      ((runSessionCleanup (30 * day)).runSerial authSchema sys.db).1) =
      some (.error .foreignKeyViolation) := by
  decide +kernel

/-- The cleanup is not exact in every reachable state under accepted settings. -/
theorem cleanupExact_fails :
    settingsFromRow defaultSystemConfigRow = .ok defaultSettings ∧
      ∃ sys, Reachable sys ∧ ¬ CleanupExact sys.db (30 * day) := by
  refine ⟨settingsFromRow_default, ?_⟩
  obtain ⟨sys, hsys, hcleanup⟩ := Option.map_eq_some_iff.mp longLivedEnd_cleanup
  refine ⟨sys, ⟨sampleStart, sampleStart_initial,
    System.performAll_steps hsys⟩, ?_⟩
  rintro ⟨usedTokens, sessions, db', hrun, _⟩
  rw [hrun] at hcleanup
  cases hcleanup

end Untangled.Auth
