import Untangled.AuthSystem
import Untangled.AuthWrites
import Untangled.ReadCommittedLocking

/-!
# The way to the deletions of a change of password

A change with `invalidate_user_sessions` locks its user, verifies the password
and stores the new one before it deletes the sessions.  Up to then it holds the
lock of the user and nothing else.
-/

namespace Untangled.Auth

open ReadCommitted

/-- The row that stores the new password. -/
def Rehashed (a : ChangePasswordArgs) (row : UserRow) : Prop :=
  row.id = a.userId ∧ a.hashPassword a.input.newPassword = some row.passwordHash

/-- The reply is not that of a change that has logged its user out. -/
def NotLoggedOut (reply : Reply) : Prop :=
  ∀ username, reply ≠ .changed (.ok .loggedOut username)

/-- The transaction has locked its user. -/
structure HoldsUser (a : ChangePasswordArgs) (p : AuthProc) : Prop where
  inTx : p.inTx = true
  locked : (RowKey.user a.userId, LockMode.update) ∈ p.locks

/-- Every lock is one of the user's row. -/
def OnlyUserLocks (a : ChangePasswordArgs) (p : AuthProc) : Prop :=
  ∀ l ∈ p.locks, l.1 = RowKey.user a.userId

/-- The change ends without a deletion; its only fault is that of the password
hash. -/
inductive Withdraws : AuthProg Reply → Prop
  | ret {reply} (hreply : NotLoggedOut reply) : Withdraws (.ret reply)
  | throw : Withdraws (.throw .interrupted)
  | commit {next} (hnext : Withdraws next) : Withdraws (.commit next)
  | rollback {next} (hnext : Withdraws next) : Withdraws (.rollback next)

/-- The positions of a change before its deletions. -/
inductive ApproachAt (a : ChangePasswordArgs) (db : AuthDb) (p : AuthProc) : Prop
  | start (hprog : p.prog = executeChangePassword a) (hwrites : p.writes = [])
      (hlocks : p.locks = [])
  | select
      (hprog : p.prog = .query (.selectUserForUpdate a.userId) (changeFound a))
      (hinTx : p.inTx = true) (hwrites : p.writes = []) (hlocks : p.locks = [])
  | withdrawn (hprog : Withdraws p.prog)
  | update (user : UserRow) (newHash : String) (huser : user.id = a.userId)
      (hhash : a.hashPassword a.input.newPassword = some newHash)
      (hprog : p.prog = .query
        (.updateUserPassword user.id (a.passwordUpdate user newHash))
        fun _ => changeEffect a user)
      (hheld : HoldsUser a p) (honly : OnlyUserLocks a p)
      (hstored : user ∈ db.users)
      (hsnap : ∀ snap, p.snapshot = some snap → user ∈ snap.users)
      (hwrites : p.writes = [])

/-- The new password is pending and the deletions come next. -/
structure LogOutAt (a : ChangePasswordArgs) (p : AuthProc)
    (user row : UserRow) : Prop where
  owner : user.id = a.userId
  prog : p.prog = changeLogOut user
  held : HoldsUser a p
  only : OnlyUserLocks a p
  rehashed : Rehashed a row
  writes : p.writes = [.putUser row]
  snapshot : p.snapshot = none

section Approach

variable {a : ChangePasswordArgs} {sys : AuthSystem} {i : ℕ} {p p' : AuthProc}
  {db' : AuthDb}

theorem HoldsUser.append (hheld : HoldsUser a p) {prog : AuthProg Reply}
    {snapshot : Option AuthDb} {writes : List RowWrite}
    {locks : List (RowKey × LockMode)} :
    HoldsUser a { p with
      prog := prog
      snapshot := snapshot
      writes := writes
      locks := p.locks ++ locks } :=
  ⟨hheld.inTx, List.mem_append_left _ hheld.locked⟩

theorem userLocks_only {userId : Uuid} {mode : LockMode} {snap : AuthDb} :
    ∀ l ∈ userLocks (userIs userId) mode snap, l.1 = RowKey.user userId := by
  intro l hl
  rcases List.mem_map.mp hl with ⟨id, hid, rfl⟩
  rcases List.mem_map.mp hid with ⟨r, hr, rfl⟩
  have hmatch := (List.mem_filter.mp hr).2
  simp only [userIs, decide_eq_true_eq] at hmatch
  rw [key_user, hmatch]

/-- The locked user keeps its row while others make a move. -/
theorem ApproachAt.frame {db : AuthDb} (hat : ApproachAt a db p)
    (husers : ∀ u ∈ db.users,
      (RowKey.user u.id, LockMode.update) ∈ p.locks → u ∈ db'.users) :
    ApproachAt a db' p := by
  cases hat with
  | start hprog hwrites hlocks => exact .start hprog hwrites hlocks
  | select hprog hinTx hwrites hlocks => exact .select hprog hinTx hwrites hlocks
  | withdrawn hprog => exact .withdrawn hprog
  | update user newHash huser hhash hprog hheld honly hstored hsnap hwrites =>
      have hstored' := husers user hstored (by rw [huser]; exact hheld.locked)
      exact .update user newHash huser hhash hprog hheld honly hstored' hsnap
        hwrites

/-- A user somebody has locked keeps its row while others make a move. -/
theorem mem_users_of_locked {j : ℕ} {q : AuthProc} {u : UserRow}
    (hlocked : sys.WellLocked authSchema) (hi : sys.procs[i]? = some p)
    (hj : sys.procs[j]? = some q) (hji : j ≠ i)
    (hmove : p.Move authSchema sys.db (sys.heldByOthers i) db' p')
    (hu : u ∈ sys.db.users)
    (hlock : (RowKey.user u.id, LockMode.update) ∈ q.locks) : u ∈ db'.users := by
  rcases hmove.published hlocked hi with rfl | ⟨ws, rfl, hne⟩
  · exact hu
  · exact (mem_users_applyAll_of_ne fun w hw =>
      hne j q _ _ hji hj hlock rfl w hw).mpr hu

/-- The change has not returned that its user is logged out. -/
theorem ApproachAt.notLoggedOut {db : AuthDb} (hat : ApproachAt a db p)
    (username : String) :
    p.prog ≠ .ret (.changed (.ok .loggedOut username)) := by
  intro hret
  cases hat with
  | start hprog hwrites hlocks => cases hret.symm.trans hprog
  | select hprog hinTx hwrites hlocks => cases hret.symm.trans hprog
  | update user newHash huser hhash hprog hheld honly hstored hsnap hwrites =>
      cases hret.symm.trans hprog
  | withdrawn hprog =>
      rw [hret] at hprog
      cases hprog with
      | ret hreply => exact hreply username rfl

/-- The only fault before the deletions is that of the password library. -/
theorem ApproachAt.fault_eq {db : AuthDb} {fault : Fault} (hat : ApproachAt a db p)
    (hthrow : p.prog = .throw fault) : fault = .interrupted := by
  cases hat with
  | start hprog hwrites hlocks => cases hthrow.symm.trans hprog
  | select hprog hinTx hwrites hlocks => cases hthrow.symm.trans hprog
  | update user newHash huser hhash hprog hheld honly hstored hsnap hwrites =>
      cases hthrow.symm.trans hprog
  | withdrawn hprog =>
      rw [hthrow] at hprog
      cases hprog with
      | throw => rfl

/-- What the locked user row decides. -/
theorem approachAt_locked {db : AuthDb} {user : UserRow}
    (huser : user.id = a.userId) (hprog : p.prog = changeLocked a user)
    (hheld : HoldsUser a p) (honly : OnlyUserLocks a p) (hstored : user ∈ db.users)
    (hsnap : p.snapshot = none) (hwrites : p.writes = []) : ApproachAt a db p := by
  unfold changeLocked at hprog
  cases heval : evaluateChangePassword a user with
  | none =>
      simp only [heval] at hprog
      exact .withdrawn (hprog ▸ .rollback .throw)
  | some verdict =>
      cases verdict with
      | locked =>
          simp only [heval] at hprog
          exact .withdrawn (hprog ▸ .commit (.ret (by simp [NotLoggedOut])))
      | failed =>
          simp only [heval] at hprog
          exact .withdrawn (hprog ▸ .commit (.ret (by simp [NotLoggedOut])))
      | ok =>
          simp only [heval] at hprog
          cases hhash : a.hashPassword a.input.newPassword with
          | none =>
              simp only [hhash] at hprog
              exact .withdrawn (hprog ▸ .rollback .throw)
          | some newHash =>
              simp only [hhash] at hprog
              exact .update user newHash huser hhash hprog hheld honly hstored
                (by simp [hsnap]) hwrites

/-- What the row lock returns. -/
theorem approachAt_found {db snap : AuthDb} {found : Option UserRow}
    {ws : List RowWrite} (hinTx : p.inTx = true) (hwrites : p.writes = [])
    (hlocks : p.locks = [])
    (hexec : (AuthStmt.selectUserForUpdate a.userId).exec snap db =
      .ok (found, ws)) :
    ApproachAt a db { p with
      prog := changeFound a found
      snapshot := none
      writes := p.writes ++ ws
      locks := p.locks ++ userLocks (userIs a.userId) .update snap } := by
  simp only [AuthStmt.exec, Except.ok.injEq, Prod.mk.injEq] at hexec
  rcases hexec with ⟨hfound, rfl⟩
  cases found with
  | none => exact .withdrawn (.rollback (.ret (by simp [NotLoggedOut])))
  | some user =>
      have hmem := List.mem_of_head? hfound
      have huser : user.id = a.userId := by
        simpa [userIs] using (Table.mem_recheck.mp hmem).2.1
      have hlock : (RowKey.user a.userId, LockMode.update) ∈
          userLocks (userIs a.userId) .update snap :=
        List.mem_map.mpr
          ⟨user.id, Table.key_mem_candidates hmem, by rw [huser]⟩
      refine approachAt_locked huser rfl ⟨hinTx, List.mem_append_right _ hlock⟩ ?_
        (Table.mem_recheck.mp hmem).1 rfl (by simp [hwrites])
      intro l hl
      simp only [hlocks, List.nil_append] at hl
      exact userLocks_only l hl

/-- The password update writes the one row that is locked. -/
theorem updateUserPassword_singleton {snap cur : AuthDb} {user : UserRow}
    {update : PasswordUpdate} {n : ℕ} {ws : List RowWrite}
    (hexec : updateUsers (userIs user.id) update.apply snap cur = .ok (n, ws))
    (hcur : user ∈ cur.users) (hsnap : user ∈ snap.users) :
    ws = [.putUser (update.apply user)] := by
  have honly : ∀ r ∈ cur.users, userIs user.id r = true → key r = key user := by
    intro r _ hr
    simpa [userIs] using hr
  have hrows := recheck_eq_singleton hcur hsnap (by simp [userIs]) honly
  simp only [updateUsers, Except.ok.injEq, Prod.mk.injEq] at hexec
  rw [← hexec.2, hrows]
  rfl

/-- One move before the deletions. -/
theorem ApproachAt.move (hat : ApproachAt a sys.db p)
    (hinvalidate : a.invalidateUserSessions = true)
    (hmove : p.Move authSchema sys.db (sys.heldByOthers i) db' p') :
    ApproachAt a db' p' ∨ ∃ user row, LogOutAt a p' user row := by
  cases hat with
  | withdrawn hprog =>
      generalize hsame : p.prog = prog at hprog
      have hrunning := hmove.running
      cases hprog with
      | ret hreply => simp [Proc.running, hsame] at hrunning
      | throw => simp [Proc.running, hsame] at hrunning
      | commit hnext =>
          rcases hmove.of_commit hsame with ⟨rfl, rfl⟩
          exact Or.inl <| .withdrawn hnext
      | rollback hnext =>
          rcases hmove.of_rollback hsame with ⟨rfl, rfl⟩
          exact Or.inl <| .withdrawn hnext
  | start hprog hwrites hlocks =>
      rcases hmove.of_beginTx hprog with ⟨rfl, rfl⟩
      exact Or.inl <| .select rfl rfl hwrites hlocks
  | select hprog hinTx hwrites hlocks =>
      cases hmove.of_query hprog with
      | takeSnapshot hsnap => exact Or.inl <| .select hprog hinTx hwrites hlocks
      | error hsnap hexec => cases hexec
      | auto hsnap htx hfree hexec => simp [hinTx] at htx
      | finish hsnap htx hfree hexec =>
          have hview : p.view authSchema sys.db = sys.db := by
            simp [Proc.view, hwrites]
          rw [hview] at hexec ⊢
          exact Or.inl <| approachAt_found hinTx hwrites hlocks hexec
  | update user newHash huser hhash hprog hheld honly hstored hsnap hwrites =>
      have hview : p.view authSchema sys.db = sys.db := by
        simp [Proc.view, hwrites]
      cases hmove.of_query hprog with
      | takeSnapshot hnone =>
          refine Or.inl <| .update user newHash huser hhash hprog
            ⟨hheld.inTx, hheld.locked⟩ honly hstored ?_ hwrites
          intro snap hsome
          obtain rfl := Option.some.inj hsome
          rw [hview]
          exact hstored
      | error hsome hexec => cases hexec
      | auto hsome htx hfree hexec => simp [hheld.inTx] at htx
      | finish hsome htx hfree hexec =>
          rw [hview] at hexec
          have hws := updateUserPassword_singleton hexec hstored (hsnap _ hsome)
          refine Or.inr ⟨user, (a.passwordUpdate user newHash).apply user, huser,
            ?_, hheld.append, ?_, ⟨huser, hhash⟩, ?_, rfl⟩
          · simp [changeEffect, hinvalidate]
          · intro l hl
            rcases List.mem_append.mp hl with hl | hl
            · exact honly l hl
            · rw [← huser]
              exact userLocks_only l hl
          · simp only [hwrites, hws, List.nil_append]

end Approach

end Untangled.Auth
