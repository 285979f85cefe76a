import Untangled.AuthSerial
import Untangled.MustChangeGate

/-!
# Change-password is atomic and framed

Whatever step of the transaction throws, a change that does not succeed leaves
every table as it was, and a change that succeeds touches the user's row and
what its effect names, and nothing else.
-/

namespace Untangled.Auth

open ReadCommitted

/-! ## One transaction -/

theorem closing_commit (reply : Reply) :
    (Prog.commit (.ret reply) : AuthProg Reply).Closing :=
  ⟨reply, rfl⟩

theorem changeEffect_closing (a : ChangePasswordArgs) (user : UserRow) :
    (changeEffect a user).Closing := by
  unfold changeEffect
  split
  · exact fun _ _ => closing_commit _
  · split
    · exact closing_commit _
    · intro session
      cases session with
      | none => exact closing_commit _
      | some session =>
          unfold changeSession
          dsimp only
          split
          · exact closing_commit _
          · intro n
            dsimp only
            split
            · exact closing_commit _
            · exact closing_commit _

theorem executeChangePassword_atomic (a : ChangePasswordArgs) :
    (executeChangePassword a).Atomic := by
  refine ⟨_, rfl, ?_⟩
  intro user
  cases user with
  | none => exact Or.inl ⟨_, rfl⟩
  | some user =>
      unfold changeFound changeLocked
      dsimp only
      split
      · exact Or.inr ⟨_, rfl⟩
      · exact closing_commit _
      · exact closing_commit _
      · split
        · exact Or.inr ⟨_, rfl⟩
        · exact fun _ => changeEffect_closing a user

/-! ## The frame -/

/-- The user's row after the change. -/
def PasswordChanged (a : ChangePasswordArgs) (db db' : AuthDb) : Prop :=
  ∃ user ∈ db.users, ∃ newHash,
    user.id = a.userId ∧ evaluateChangePassword a user = some .ok ∧
      a.hashPassword a.input.newPassword = some newHash ∧
      db'.users = db.users.put ((a.passwordUpdate user newHash).apply user)

/-- The session tables after the change.  `columns` relates the named session
before and after a first refresh. -/
def SessionEffect (columns : SessionRow → SessionRow → Prop)
    (a : ChangePasswordArgs) (db db' : AuthDb) : ChangePasswordEffect → Prop
  | .tokensUnchanged => db'.sessions = db.sessions ∧ db'.used = db.used
  | .firstRefresh token maxAge =>
      a.invalidateUserSessions = false ∧ db'.used = db.used ∧
        ∃ row ∈ db.sessions, ∃ row',
          a.sessionId = some row.id ∧ row.userId = a.userId ∧
            row.refreshHmac = none ∧
            row'.refreshHmac = some (a.hmacRefreshToken token) ∧
            row'.refreshExpiresAt = (a.times row).refreshExpiresAt ∧
            maxAge = (a.times row).maxAge ∧
            columns row row' ∧ db'.sessions = db.sessions.put row'
  | .loggedOut =>
      db'.sessions = db.sessions.filter (fun r => decide (r.userId ≠ a.userId)) ∧
        db'.used = db.used.filter fun u => decide (u.userId ≠ a.userId)

/-- The rows of every other user are what they were. -/
structure OthersUntouched (a : ChangePasswordArgs) (db db' : AuthDb) : Prop where
  users : ∀ r : UserRow, r.id ≠ a.userId → (r ∈ db'.users ↔ r ∈ db.users)
  sessions : ∀ r : SessionRow, r.userId ≠ a.userId →
    (r ∈ db'.sessions ↔ r ∈ db.sessions)
  used : ∀ u : UsedRow, u.userId ≠ a.userId → (u ∈ db'.used ↔ u ∈ db.used)

def Framed (columns : SessionRow → SessionRow → Prop)
    (a : ChangePasswordArgs) (db : AuthDb) (outcome : Except Fault Reply)
    (db' : AuthDb) : Prop :=
  match outcome with
  | .error _ => db' = db
  | .ok (.changed .missingUser) => db' = db
  | .ok (.changed (.failed _)) => db' = db
  | .ok (.changed (.locked _)) => db' = db
  | .ok (.changed (.ok effect _)) =>
      PasswordChanged a db db' ∧ SessionEffect columns a db db' effect ∧
        OthersUntouched a db db'
  | .ok _ => False

/-- `refresh_hmac`, `refresh_expires_at`, `ip_address` and `user_agent`. -/
def RefreshColumns (row row' : SessionRow) : Prop :=
  row' = { row with
    refreshHmac := row'.refreshHmac
    refreshExpiresAt := row'.refreshExpiresAt
    ipAddress := row'.ipAddress
    userAgent := row'.userAgent }

/-- The same with the audit stamps `updated_at` and `updated_by`. -/
def RefreshColumnsStamped (row row' : SessionRow) : Prop :=
  row' = { row with
    refreshHmac := row'.refreshHmac
    refreshExpiresAt := row'.refreshExpiresAt
    ipAddress := row'.ipAddress
    userAgent := row'.userAgent
    updatedAt := row'.updatedAt
    updatedBy := row'.updatedBy }

/-! ## The run -/

section Undisturbed

variable {a : ChangePasswordArgs} {db : AuthDb} {user : UserRow}
  {newHash : String} {n : ℕ}

/-- The state of the transaction after the password update. -/
def AuthDb.withPassword (db : AuthDb) (a : ChangePasswordArgs) (user : UserRow)
    (newHash : String) : AuthDb :=
  { db with users := db.users.put ((a.passwordUpdate user newHash).apply user) }

theorem mem_users_withPassword (huser : user.id = a.userId) {r : UserRow}
    (hr : r.id ≠ a.userId) :
    r ∈ (db.withPassword a user newHash).users ↔ r ∈ db.users := by
  have hkey : key r ≠ key ((a.passwordUpdate user newHash).apply user) := by
    rw [key_user, key_user]
    exact fun h => hr (h.trans huser)
  simp only [AuthDb.withPassword, Table.mem_put]
  constructor
  · rintro (rfl | ⟨hmem, _⟩)
    · exact absurd rfl hkey
    · exact hmem
  · intro hmem
    exact Or.inr ⟨hmem, hkey⟩

theorem passwordChanged (hmem : user ∈ db.users) (huser : user.id = a.userId)
    (heval : evaluateChangePassword a user = some .ok)
    (hhash : a.hashPassword a.input.newPassword = some newHash) {db' : AuthDb}
    (husers : db'.users = (db.withPassword a user newHash).users) :
    PasswordChanged a db db' :=
  ⟨user, hmem, newHash, huser, heval, hhash, husers⟩

theorem othersUntouched (huser : user.id = a.userId) {db' : AuthDb}
    (husers : db'.users = (db.withPassword a user newHash).users)
    (hsessions : ∀ r : SessionRow, r.userId ≠ a.userId →
      (r ∈ db'.sessions ↔ r ∈ db.sessions))
    (hused : ∀ u : UsedRow, u.userId ≠ a.userId →
      (u ∈ db'.used ↔ u ∈ db.used)) :
    OthersUntouched a db db' where
  users := by
    intro r hr
    rw [husers]
    exact mem_users_withPassword huser hr
  sessions := hsessions
  used := hused

/-- The transaction ends without touching the session tables. -/
theorem framed_tokensUnchanged (hmem : user ∈ db.users)
    (huser : user.id = a.userId)
    (heval : evaluateChangePassword a user = some .ok)
    (hhash : a.hashPassword a.input.newPassword = some newHash) :
    Framed RefreshColumnsStamped a db
      ((commitOk .tokensUnchanged user.username).run authSchema
        (fun _ => false) n (some (db.withPassword a user newHash)) db).1
      ((commitOk .tokensUnchanged user.username).run authSchema
        (fun _ => false) n (some (db.withPassword a user newHash)) db).2 :=
  ⟨passwordChanged hmem huser heval hhash rfl, ⟨rfl, rfl⟩,
    othersUntouched huser rfl (fun _ _ => Iff.rfl) fun _ _ => Iff.rfl⟩

/-- A failed statement ends the transaction. -/
theorem framed_of_error {columns : SessionRow → SessionRow → Prop}
    {fault : Fault} : Framed columns a db (.error fault) db := rfl

theorem framed_logOut (hmem : user ∈ db.users) (huser : user.id = a.userId)
    (heval : evaluateChangePassword a user = some .ok)
    (hhash : a.hashPassword a.input.newPassword = some newHash) :
    Framed RefreshColumnsStamped a db
      ((changeLogOut user).run authSchema (fun _ => false) n
        (some (db.withPassword a user newHash)) db).1
      ((changeLogOut user).run authSchema (fun _ => false) n
        (some (db.withPassword a user newHash)) db).2 := by
  unfold changeLogOut
  rw [Prog.run_query_some (alone_deleteUsedOfUser _ _)]
  by_cases hfree : ((db.withPassword a user newHash).withoutUsed
      (usedOfUser user.id)).Referenced (sessionOfUser user.id)
  · rw [Prog.run_query_error (Schema.alone_of_error
      (deleteSessions_self_error _ _ hfree))]
    exact framed_of_error
  · rw [Prog.run_query_some (alone_deleteSessionsOfUser hfree)]
    refine ⟨passwordChanged hmem huser heval hhash rfl, ⟨?_, ?_⟩,
      othersUntouched huser rfl ?_ ?_⟩
    · apply Table.ext
      apply List.filter_congr
      intro r _
      simp [sessionOfUser, huser]
    · apply Table.ext
      apply List.filter_congr
      intro u _
      simp [usedOfUser, huser]
    · intro r hr
      refine AuthDb.mem_withoutSessions.trans (and_iff_left ?_)
      simpa [sessionOfUser, huser] using hr
    · intro u hu
      refine AuthDb.mem_withoutUsed.trans (and_iff_left ?_)
      simpa [usedOfUser, huser] using hu

theorem framed_issue (hmem : user ∈ db.users) (huser : user.id = a.userId)
    (heval : evaluateChangePassword a user = some .ok)
    (hkeep : a.invalidateUserSessions = false)
    (hhash : a.hashPassword a.input.newPassword = some newHash) {sid : Uuid}
    (hsid : a.sessionId = some sid) {row : SessionRow}
    (hrow : row ∈ db.sessions) (hmatch : sessionLacksHmac sid user.id row = true) :
    Framed RefreshColumnsStamped a db
      ((changeIssue a user sid row).run authSchema (fun _ => false) n
        (some (db.withPassword a user newHash)) db).1
      ((changeIssue a user sid row).run authSchema (fun _ => false) n
        (some (db.withPassword a user newHash)) db).2 := by
  obtain ⟨⟨hid, howner⟩, hnull⟩ := sessionLacksHmac_iff.mp hmatch
  have hview : row ∈ (db.withPassword a user newHash).sessions := hrow
  unfold changeIssue
  by_cases hfree : (db.withPassword a user newHash).HmacFree
      (a.sessionUpdate row).refreshHmac row
  · rw [Prog.run_query_some (alone_issueFirstRefresh hview hmatch hfree)]
    refine ⟨passwordChanged hmem huser heval hhash rfl, ⟨hkeep, rfl, row, hrow,
      (a.sessionUpdate row).apply row, ?_, howner.trans huser, hnull, rfl, rfl,
      rfl, rfl, rfl⟩, othersUntouched huser rfl ?_ fun _ _ => Iff.rfl⟩
    · rw [hsid, hid]
    · intro r hr
      have hother : r ≠ row := by
        rintro rfl
        exact hr (howner.trans huser)
      refine Table.mem_put.trans ?_
      constructor
      · rintro (rfl | ⟨hkept, _⟩)
        · exact absurd (howner.trans huser) hr
        · exact hkept
      · intro hkept
        refine Or.inr ⟨hkept, ?_⟩
        intro hkey
        exact hother (Table.eq_of_key_eq hkept hrow hkey)
  · rw [Prog.run_query_error (Schema.alone_of_error
      (updateSessions_self_error (filter_sessionLacksHmac hview hmatch) hfree))]
    exact framed_of_error

theorem framed_effect (hmem : user ∈ db.users) (huser : user.id = a.userId)
    (heval : evaluateChangePassword a user = some .ok)
    (hhash : a.hashPassword a.input.newPassword = some newHash) :
    Framed RefreshColumnsStamped a db
      ((changeEffect a user).run authSchema (fun _ => false) n
        (some (db.withPassword a user newHash)) db).1
      ((changeEffect a user).run authSchema (fun _ => false) n
        (some (db.withPassword a user newHash)) db).2 := by
  unfold changeEffect
  cases hkeep : a.invalidateUserSessions with
  | true => exact framed_logOut hmem huser heval hhash
  | false =>
      simp only [Bool.false_eq_true, if_false]
      cases hsid : a.sessionId with
      | none => exact framed_tokensUnchanged hmem huser heval hhash
      | some sid =>
          dsimp only
          rw [Prog.run_query_some (alone_selectUserSession sid user.id)]
          cases hfind : (db.withPassword a user newHash).sessions.rows.find?
              (sessionIs sid user.id) with
          | none => exact framed_tokensUnchanged hmem huser heval hhash
          | some row =>
              simp only [changeSession]
              split
              · exact framed_tokensUnchanged hmem huser heval hhash
              · rename_i hnull
                refine framed_issue hmem huser heval hkeep hhash hsid
                  (List.mem_of_find?_eq_some hfind) ?_
                have his := List.find?_some hfind
                simp only [ne_eq, not_not] at hnull
                simpa [sessionLacksHmac, hnull] using his

/-- Without exceptions the transaction is framed. -/
theorem framed_undisturbed (a : ChangePasswordArgs) (db : AuthDb) :
    Framed RefreshColumnsStamped a db
      ((executeChangePassword a).runSerial authSchema db).1
      ((executeChangePassword a).runSerial authSchema db).2 := by
  unfold Prog.runSerial executeChangePassword
  rw [Prog.run_beginTx, Option.getD_none,
    Prog.run_query_some (alone_selectUserForUpdate a.userId)]
  cases hfind : db.users.rows.find? (userIs a.userId) with
  | none => rfl
  | some user =>
      have hmem : user ∈ db.users := List.mem_of_find?_eq_some hfind
      have huser : user.id = a.userId := by
        simpa [userIs] using List.find?_some hfind
      simp only [changeFound, changeLocked]
      cases heval : evaluateChangePassword a user with
      | none => rfl
      | some verdict =>
          cases verdict with
          | locked => rfl
          | failed => rfl
          | ok =>
              cases hhash : a.hashPassword a.input.newPassword with
              | none => rfl
              | some newHash =>
                  dsimp only
                  rw [Prog.run_query_some
                    (alone_updateUserPassword hmem rfl)]
                  exact framed_effect hmem huser heval hhash

end Undisturbed

/-- For every database, every input and every pattern of steps that throw:
unless the change succeeds the tables are as before, and if it does, exactly
the user's password columns and the rows its effect names have changed. -/
theorem changePassword_framed (a : ChangePasswordArgs) (db : AuthDb)
    (fails : ℕ → Bool) :
    Framed RefreshColumnsStamped a db
      ((executeChangePassword a).run authSchema fails 0 none db).1
      ((executeChangePassword a).run authSchema fails 0 none db).2 := by
  cases hrun : (executeChangePassword a).run authSchema fails 0 none db with
  | mk outcome db' =>
      cases outcome with
      | error fault =>
          exact (executeChangePassword_atomic a).db_eq_of_error hrun
      | ok reply =>
          have hserial : (executeChangePassword a).runSerial authSchema db =
              (.ok reply, db') := Prog.run_eq_of_ok hrun
          have hframed := framed_undisturbed a db
          rwa [hserial] at hframed

/-! ## The audit stamps -/

/-- The overdue account with the session its login stored. -/
def gatedDb : AuthDb where
  users := Table.empty.put overdueUser
  sessions := Table.empty.put (sampleLogin.sessionRow overdueUser true)
  used := .empty

/-- A first refresh also moves the session's `updated_at`. -/
theorem changePassword_stamps_session :
    ¬ Framed RefreshColumns sampleChange gatedDb
      ((executeChangePassword sampleChange).run authSchema
        (fun _ => false) 0 none gatedDb).1
      ((executeChangePassword sampleChange).run authSchema
        (fun _ => false) 0 none gatedDb).2 := by
  have houtcome : ((executeChangePassword sampleChange).run authSchema
      (fun _ => false) 0 none gatedDb).1 =
      .ok (.changed (.ok (.firstRefresh "token 2" 604800) "alice")) := by
    decide +kernel
  have hstamps : ((executeChangePassword sampleChange).run authSchema
      (fun _ => false) 0 none gatedDb).2.sessions.rows.map SessionRow.updatedAt =
      [60000] := by
    decide +kernel
  have hbefore : ∀ row ∈ gatedDb.sessions, row.updatedAt = 10000 := by
    decide +kernel
  intro hframed
  rw [houtcome] at hframed
  obtain ⟨_, ⟨_, _, row, hrow, row', _, _, _, _, _, _, hcolumns, hput⟩, _⟩ :=
    hframed
  have hmem : row' ∈ gatedDb.sessions.put row' := Table.mem_put.mpr (Or.inl rfl)
  rw [← hput] at hmem
  have hin : row'.updatedAt ∈ ((executeChangePassword sampleChange).run
      authSchema (fun _ => false) 0 none gatedDb).2.sessions.rows.map
        SessionRow.updatedAt :=
    List.mem_map.mpr ⟨row', hmem, rfl⟩
  have hafter : row'.updatedAt = 60000 := by
    rw [hstamps] at hin
    simpa using hin
  have hsame : row'.updatedAt = row.updatedAt := by
    rw [hcolumns]
  rw [hafter, hbefore row hrow] at hsame
  cases hsame

end Untangled.Auth
