import Untangled.LogOutApproach
import Untangled.MustChangeGate

/-!
# A change of password against concurrent logins

A change of password with `invalidate_user_sessions` locks the user, stores the
new hash and deletes every session of the user in one transaction.  A login
reads the hash and stores its session in separate statements.  The row lock
keeps the session of a login from being stored while the change is under way;
nothing keeps it from being stored afterwards.
-/

namespace Untangled.Auth

open ReadCommitted

/-! ## Logins -/

/-- The programs a login goes through. -/
inductive LoginAt (a : LoginArgs) : AuthProg Reply → Prop
  | ret (reply : Reply) : LoginAt a (.ret reply)
  | throw (fault : Fault) : LoginAt a (.throw fault)
  | select (username : String) :
      LoginAt a (.query (.selectUserByUsername username) (loginLoaded a))
  | refused (user : UserRow) : LoginAt a (loginRefused a user)
  | passed (user : UserRow) (mustChange : Bool) :
      LoginAt a (loginPassed a user mustChange)
  | create (user : UserRow) (mustChange : Bool) :
      LoginAt a (loginCreate a user mustChange)

section Login

variable {a : LoginArgs}

theorem loginAt_denied : LoginAt a (loginDenied a) := by
  unfold loginDenied
  split
  · exact .ret _
  · split
    · exact .ret _
    · exact .ret _

theorem loginAt_loaded (found : Option UserRow) :
    LoginAt a (loginLoaded a found) := by
  unfold loginLoaded
  dsimp only
  split
  · exact .ret _
  · cases found with
    | none => exact loginAt_denied
    | some user =>
        dsimp only
        split
        · exact .passed user _
        · exact .refused user

theorem loginAt_handleLogin (a : LoginArgs) : LoginAt a (handleLogin a) := by
  unfold handleLogin
  split
  · exact .ret _
  · exact .ret _
  · split
    · exact loginAt_denied
    · split
      · split
        · exact .ret _
        · exact .ret _
      · exact .select _

theorem loginAt_afterPassed (user : UserRow) (mustChange : Bool) :
    LoginAt a (if !a.auditOk then .ret (.login .internalError)
      else loginCreate a user mustChange) := by
  split
  · exact .ret _
  · exact .create user mustChange

/-- The failed-count update leaves sessions and passwords alone. -/
theorem updateFailedCount_kept {snap cur : AuthDb} {p : UserRow → Bool}
    {count updatedAt : ℤ} {n : ℕ} {ws : List RowWrite}
    (hexec : updateUsers p (setFailedCount count updatedAt) snap cur = .ok (n, ws)) :
    (∀ r, r ∈ (authSchema.applyAll ws cur).sessions ↔ r ∈ cur.sessions) ∧
      ∀ u' ∈ (authSchema.applyAll ws cur).users,
        ∃ u ∈ cur.users, u.id = u'.id ∧ u.passwordHash = u'.passwordHash := by
  simp only [updateUsers, Except.ok.injEq, Prod.mk.injEq] at hexec
  have hws : ∀ w ∈ ws, ∃ u ∈ cur.users,
      w = .putUser (setFailedCount count updatedAt u) := by
    intro w hw
    rw [← hexec.2] at hw
    rcases List.mem_map.mp hw with ⟨u, hu, rfl⟩
    exact ⟨u, (Table.mem_recheck.mp hu).1, rfl⟩
  constructor
  · intro r
    apply mem_sessions_applyAll_of_ne
    intro w hw
    rcases hws w hw with ⟨u, _, rfl⟩
    simp [RowWrite.target]
  · intro u' hu'
    rcases mem_users_applyAll hu' with hput | ⟨hold, _⟩
    · rcases hws _ hput with ⟨u, hu, heq⟩
      have hrow : u' = setFailedCount count updatedAt u := RowWrite.putUser.inj heq
      exact ⟨u, hu, by rw [hrow]; rfl, by rw [hrow]; rfl⟩
    · exact ⟨u', hold, rfl, rfl⟩

/-- What one move of a login does to the committed database. -/
inductive LoginEffect (a : LoginArgs) (held : List (RowKey × LockMode))
    (p p' : AuthProc) (db db' : AuthDb) : Prop
  | silent
      (hsessions : ∀ r, r ∈ db'.sessions ↔ r ∈ db.sessions)
      (hpasswords : ∀ u' ∈ db'.users,
        ∃ u ∈ db.users, u.id = u'.id ∧ u.passwordHash = u'.passwordHash)
  | stored {user mustChange} (hprog : p.prog = loginCreate a user mustChange)
      (hsnap : p.snapshot ≠ none)
      (hfree : ∀ m, (RowKey.user user.id, m) ∈ held →
        LockMode.keyShare.conflicts m = false)
      (husers : db'.users = db.users)
      (hsessions : db'.sessions = db.sessions.put (a.sessionRow user mustChange))
      (hret : p'.prog = .ret (.login (.success user mustChange a.signOk)))

theorem LoginEffect.refl {held : List (RowKey × LockMode)} {p p' : AuthProc}
    (db : AuthDb) : LoginEffect a held p p' db db :=
  .silent (fun _ => Iff.rfl) fun u hu => ⟨u, hu, rfl, rfl⟩

/-- One move of a login. -/
theorem LoginAt.move {sys : AuthSystem} {i : ℕ} {p p' : AuthProc} {db' : AuthDb}
    (hlocked : sys.WellLocked authSchema) (hi : sys.procs[i]? = some p)
    (hat : LoginAt a p.prog) (hinTx : p.inTx = false)
    (hmove : p.Move authSchema sys.db (sys.heldByOthers i) db' p') :
    (LoginAt a p'.prog ∧ p'.inTx = false) ∧
      LoginEffect a (sys.heldByOthers i) p p' sys.db db' := by
  have hview : p.view authSchema sys.db = sys.db := hlocked.view_idle hi hinTx
  -- a statement that has not finished leaves everything as it is
  have hquery : ∀ {stmt : AuthStmt} {next : AuthRes stmt → AuthProg Reply},
      p.prog = .query stmt next →
      (∀ snap result ws, p.snapshot = some snap →
        blocked (authSchema.lockSet stmt snap sys.db) (sys.heldByOthers i) = false →
        stmt.exec snap sys.db = .ok (result, ws) →
        p' = .fresh p.call (next result) →
        LoginAt a (next result) ∧ LoginEffect a (sys.heldByOthers i) p p' sys.db
          (authSchema.applyAll ws sys.db)) →
      (LoginAt a p'.prog ∧ p'.inTx = false) ∧
        LoginEffect a (sys.heldByOthers i) p p' sys.db db' := by
    intro stmt next hprog hfinish
    cases hmove.of_query hprog with
    | takeSnapshot hsnap => exact ⟨⟨hat, hinTx⟩, .refl _⟩
    | error hsnap hexec => exact ⟨⟨.throw _, rfl⟩, .refl _⟩
    | finish hsnap htx hfree hexec =>
        rw [hinTx] at htx
        cases htx
    | auto hsnap htx hfree hexec =>
        rw [hview] at hfree hexec ⊢
        have hdone := hfinish _ _ _ hsnap hfree hexec rfl
        exact ⟨⟨hdone.1, rfl⟩, hdone.2⟩
  generalize hprog : p.prog = prog at hat
  have hrunning := hmove.running
  cases hat with
  | ret reply => simp [Proc.running, hprog] at hrunning
  | throw fault => simp [Proc.running, hprog] at hrunning
  | select username =>
      apply hquery hprog
      intro snap result ws hsnap hfree hexec hp'
      simp only [AuthStmt.exec, Except.ok.injEq, Prod.mk.injEq] at hexec
      rw [← hexec.2]
      exact ⟨loginAt_loaded _, .refl _⟩
  | refused user =>
      apply hquery hprog
      intro snap result ws hsnap hfree hexec hp'
      have hkept := updateFailedCount_kept hexec
      exact ⟨loginAt_denied, .silent hkept.1 hkept.2⟩
  | passed user mustChange =>
      apply hquery hprog
      intro snap result ws hsnap hfree hexec hp'
      have hkept := updateFailedCount_kept hexec
      exact ⟨loginAt_afterPassed user mustChange, .silent hkept.1 hkept.2⟩
  | create user mustChange =>
      apply hquery hprog
      intro snap result ws hsnap hfree hexec hp'
      have hws := (insertSession_ok hexec).1
      subst hws
      refine ⟨.ret _, .stored hprog (by simp [hsnap]) ?_ rfl rfl
        (by rw [hp']; rfl)⟩
      intro m hm
      exact blocked_eq_false_iff.mp hfree (.user user.id) .keyShare m
        (by simp [AuthStmt.lockSet, LoginArgs.sessionRow, LoginArgs.newSession,
          NewUserSession.row]) hm

end Login

/-! ## The change -/

/-- The positions of a change that has not logged its user out. -/
inductive ChangeAt (a : ChangePasswordArgs) (db : AuthDb) (p : AuthProc) : Prop
  | approach (hat : ApproachAt a db p)
  | failed {fault} (hprog : p.prog = .throw fault)
  | logOut {user row : UserRow} (huser : user.id = a.userId)
      (hprog : p.prog = changeLogOut user) (hheld : HoldsUser a p)
      (hrow : Rehashed a row) (hwrites : p.writes = [.putUser row])
  | clear {user row : UserRow} {ws} (huser : user.id = a.userId)
      (hprog : p.prog = .query (.deleteSessionsOfUser user.id) fun _ =>
        commitOk .loggedOut user.username)
      (hheld : HoldsUser a p) (hrow : Rehashed a row)
      (hwrites : p.writes = .putUser row :: ws)
      (hws : ∀ w ∈ ws, ∃ id, w = .eraseUsed id)
      (hsnap : ∀ snap, p.snapshot = some snap →
        ∀ r ∈ db.sessions, r.userId = a.userId → r ∈ snap.sessions)
  | commit {username row ws} (hprog : p.prog = commitOk .loggedOut username)
      (hheld : HoldsUser a p) (hrow : Rehashed a row)
      (hwrites : p.writes = .putUser row :: ws)
      (hws : ∀ w ∈ ws, (∃ id, w = .eraseUsed id) ∨ ∃ id, w = .eraseSession id)
      (herased : ∀ r ∈ db.sessions, r.userId = a.userId →
        .eraseSession r.id ∈ ws)

/-- The user has the new password and no session. -/
structure LoggedOut (a : ChangePasswordArgs) (db : AuthDb) : Prop where
  users : ∀ u ∈ db.users, u.id = a.userId →
    a.hashPassword a.input.newPassword = some u.passwordHash
  sessions : ∀ r ∈ db.sessions, r.userId ≠ a.userId

section Change

variable {a : ChangePasswordArgs} {sys : AuthSystem} {i : ℕ} {p p' : AuthProc}
  {db' : AuthDb}

/-- What other calls do leaves the position alone, as long as they neither
change the locked user nor give it a session. -/
theorem ChangeAt.frame {db : AuthDb} (hat : ChangeAt a db p)
    (husers : ∀ u ∈ db.users,
      (RowKey.user u.id, LockMode.update) ∈ p.locks → u ∈ db'.users)
    (hsessions : (RowKey.user a.userId, LockMode.update) ∈ p.locks →
      ∀ r ∈ db'.sessions, r.userId = a.userId → r ∈ db.sessions) :
    ChangeAt a db' p := by
  cases hat with
  | approach hat => exact .approach (hat.frame husers)
  | failed hprog => exact .failed hprog
  | logOut huser hprog hheld hrow hwrites =>
      exact .logOut huser hprog hheld hrow hwrites
  | clear huser hprog hheld hrow hwrites hws hsnap =>
      refine .clear huser hprog hheld hrow hwrites hws ?_
      intro snap hsome r hr howner
      exact hsnap snap hsome r (hsessions hheld.locked r hr howner) howner
  | commit hprog hheld hrow hwrites hws herased =>
      refine .commit hprog hheld hrow hwrites hws ?_
      intro r hr howner
      exact herased r (hsessions hheld.locked r hr howner) howner

/-- The deletion reaches every session of the user. -/
theorem eraseSession_mem {snap cur : AuthDb} {userId : Uuid} {n : ℕ}
    {ws : List RowWrite}
    (hexec : deleteSessions (sessionOfUser userId) snap cur = .ok (n, ws))
    {r : SessionRow} (hcur : r ∈ cur.sessions) (hsnap : r ∈ snap.sessions)
    (howner : r.userId = userId) : .eraseSession r.id ∈ ws := by
  have hmatch : sessionOfUser userId r = true := by
    simpa [sessionOfUser] using howner
  rw [(deleteSessions_ok hexec).2.2]
  exact List.mem_map.mpr
    ⟨r, Table.mem_recheck.mpr ⟨hcur, hmatch, r, hsnap, rfl, hmatch⟩, rfl⟩

/-- The commit leaves the user with the new password and without sessions. -/
theorem loggedOut_commit {db : AuthDb} {row : UserRow} {ws : List RowWrite}
    (hrow : Rehashed a row)
    (hws : ∀ w ∈ ws, (∃ id, w = .eraseUsed id) ∨ ∃ id, w = .eraseSession id)
    (herased : ∀ r ∈ db.sessions, r.userId = a.userId → .eraseSession r.id ∈ ws) :
    LoggedOut a (authSchema.applyAll (.putUser row :: ws) db) where
  users := by
    intro u hu hid
    rcases mem_users_applyAll hu with hput | ⟨_, hkept⟩
    · rcases List.mem_cons.mp hput with heq | hput
      · rw [RowWrite.putUser.inj heq]
        exact hrow.2
      · rcases hws _ hput with ⟨_, heq⟩ | ⟨_, heq⟩
        · cases heq
        · cases heq
    · have hne := hkept _ (List.mem_cons_self)
      exact absurd (congrArg RowKey.user (hrow.1.trans hid.symm)) hne
  sessions := by
    intro r hr howner
    have hquiet : ∀ w ∈ RowWrite.putUser row :: ws, w.quiet = true := by
      intro w hw
      rcases List.mem_cons.mp hw with rfl | hw
      · rfl
      · rcases hws w hw with ⟨_, rfl⟩ | ⟨_, rfl⟩
        · rfl
        · rfl
    have hold := mem_sessions_applyAll_of_quiet hquiet hr
    have hmem := List.mem_cons_of_mem (RowWrite.putUser row)
      (herased r hold howner)
    exact target_ne_of_mem_sessions hquiet hr _ hmem rfl

/-- The sessions are all visible to the statement that deletes them. -/
theorem mem_sessions_view {row : UserRow} {ws : List RowWrite} {r : SessionRow}
    {db : AuthDb} (hwrites : p.writes = .putUser row :: ws)
    (hws : ∀ w ∈ ws, ∃ id, w = .eraseUsed id) :
    r ∈ (p.view authSchema db).sessions ↔ r ∈ db.sessions := by
  unfold Proc.view
  rw [hwrites]
  apply mem_sessions_applyAll_of_ne
  intro w hw
  rcases List.mem_cons.mp hw with rfl | hw
  · simp [RowWrite.target]
  · rcases hws w hw with ⟨id, rfl⟩
    simp [RowWrite.target]

/-- The change has not returned that its user is logged out. -/
theorem ChangeAt.notLoggedOut {db : AuthDb} (hat : ChangeAt a db p)
    (username : String) :
    p.prog ≠ .ret (.changed (.ok .loggedOut username)) := by
  intro hret
  cases hat with
  | approach hat => exact hat.notLoggedOut username hret
  | failed hprog => cases hret.symm.trans hprog
  | logOut huser hprog hheld hrow hwrites => cases hret.symm.trans hprog
  | clear huser hprog hheld hrow hwrites hws hsnap => cases hret.symm.trans hprog
  | commit hprog hheld hrow hwrites hws herased => cases hret.symm.trans hprog

/-- One move of the change: it goes on, or its commit logs the user out. -/
theorem ChangeAt.move (hat : ChangeAt a sys.db p)
    (hinvalidate : a.invalidateUserSessions = true)
    (hmove : p.Move authSchema sys.db (sys.heldByOthers i) db' p') :
    ChangeAt a db' p' ∨
      ((∃ username, p'.prog = .ret (.changed (.ok .loggedOut username))) ∧
        LoggedOut a db') := by
  cases hat with
  | commit hprog hheld hrow hwrites hws herased =>
      rcases hmove.of_commit hprog with ⟨rfl, rfl⟩
      have hdone := loggedOut_commit hrow hws herased
      rw [← hwrites] at hdone
      exact Or.inr ⟨⟨_, rfl⟩, hdone⟩
  | failed hprog =>
      have hrunning := hmove.running
      simp [Proc.running, hprog] at hrunning
  | approach hat =>
      rcases hat.move hinvalidate hmove with hat' | ⟨user, row, hlogOut⟩
      · exact Or.inl <| .approach hat'
      · exact Or.inl <| .logOut hlogOut.owner hlogOut.prog hlogOut.held
          hlogOut.rehashed hlogOut.writes
  | logOut huser hprog hheld hrow hwrites =>
      cases hmove.of_query hprog with
      | takeSnapshot hnone =>
          exact Or.inl <| .logOut huser hprog ⟨hheld.inTx, hheld.locked⟩ hrow hwrites
      | error hsome hexec => exact Or.inl <| .failed rfl
      | auto hsome htx hfree hexec => simp [hheld.inTx] at htx
      | finish hsome htx hfree hexec =>
          simp only [authSchema_exec, AuthStmt.exec, deleteUsed, Except.ok.injEq,
            Prod.mk.injEq] at hexec
          refine Or.inl <| .clear huser rfl hheld.append hrow
            (congrArg (· ++ _) hwrites) ?_ (by simp)
          · intro w hw
            rw [← hexec.2] at hw
            rcases List.mem_map.mp hw with ⟨u, _, rfl⟩
            exact ⟨u.id, rfl⟩
  | clear huser hprog hheld hrow hwrites hws hsnap =>
      cases hmove.of_query hprog with
      | takeSnapshot hnone =>
          refine Or.inl <| .clear huser hprog ⟨hheld.inTx, hheld.locked⟩ hrow hwrites hws ?_
          intro snap hsome r hr _
          obtain rfl := Option.some.inj hsome
          exact (mem_sessions_view hwrites hws).mpr hr
      | error hsome hexec => exact Or.inl <| .failed rfl
      | auto hsome htx hfree hexec => simp [hheld.inTx] at htx
      | finish hsome htx hfree hexec =>
          refine Or.inl <| .commit rfl hheld.append hrow
            (congrArg (· ++ _) hwrites) ?_ ?_
          · intro w hw
            rcases List.mem_append.mp hw with hw | hw
            · exact Or.inl (hws w hw)
            · rw [(deleteSessions_ok hexec).2.2] at hw
              rcases List.mem_map.mp hw with ⟨r, _, rfl⟩
              exact Or.inr ⟨r.id, rfl⟩
          · intro r hr howner
            apply List.mem_append_right
            exact eraseSession_mem hexec ((mem_sessions_view hwrites hws).mpr hr)
              (hsnap _ hsome r hr howner) (howner.trans huser.symm)

end Change

/-! ## Runs -/

/-- The only calls are logins and the change. -/
def ChangeAmongLogins (a : ChangePasswordArgs) (sys : AuthSystem) :
    Label Call → Prop
  | .spawn call => MintsFresh sys (.spawn call) ∧
      (call = .changePassword a ∨ ∃ login, call = .login login)
  | _ => True

/-- A login of this account stores its session while the account still has the
password that the login has verified. -/
def StoresCurrent (userId : Uuid) (sys : AuthSystem) : Label Call → Prop
  | .advance i => ∀ p login user mustChange, sys.procs[i]? = some p →
      p.call = .login login → p.prog = loginCreate login user mustChange →
      p.snapshot ≠ none → user.id = userId →
      ∃ u ∈ sys.db.users, u.id = userId ∧ u.passwordHash = user.passwordHash
  | _ => True

/-- The session was stored by a login that has verified its password against
this hash. -/
def VerifiedAgainst (sys : AuthSystem) (r : SessionRow) (hash : String) : Prop :=
  ∃ j login user mustChange signed,
    Returned sys j (.login login) (.login (.success user mustChange signed)) ∧
      login.sid = r.id ∧ user.passwordHash = hash

/-- The change has committed and logged its user out. -/
def HasLoggedOut (a : ChangePasswordArgs) (sys : AuthSystem) : Prop :=
  ∃ i username, Returned sys i (.changePassword a)
    (.changed (.ok .loggedOut username))

/-- Once the change has committed, every session of its user was stored by one
of the logins, and by none that has verified the old password. -/
def Evicted (a : ChangePasswordArgs) (old : String) (sys : AuthSystem) : Prop :=
  HasLoggedOut a sys → ∀ r ∈ sys.db.sessions, r.userId = a.userId →
    (∃ hash, VerifiedAgainst sys r hash) ∧ ¬ VerifiedAgainst sys r old

inductive Position (a : ChangePasswordArgs) (db : AuthDb) (q : AuthProc) : Prop
  | login {login} (hcall : q.call = .login login) (hat : LoginAt login q.prog)
      (hinTx : q.inTx = false)
  | change (hcall : q.call = .changePassword a) (hat : ChangeAt a db q)
  | changed {username} (hcall : q.call = .changePassword a)
      (hprog : q.prog = .ret (.changed (.ok .loggedOut username)))

/-- The user has the new password, and every session was stored under it. -/
structure Rekeyed (a : ChangePasswordArgs) (sys : AuthSystem) : Prop where
  users : ∀ u ∈ sys.db.users, u.id = a.userId →
    a.hashPassword a.input.newPassword = some u.passwordHash
  sessions : ∀ r ∈ sys.db.sessions, r.userId = a.userId → ∃ hash,
    VerifiedAgainst sys r hash ∧ a.hashPassword a.input.newPassword = some hash

structure Evicting (a : ChangePasswordArgs) (sys : AuthSystem) : Prop where
  locked : sys.WellLocked authSchema
  apart : CallsApart sys
  positions : ∀ ⦃j : ℕ⦄ ⦃q : AuthProc⦄, sys.procs[j]? = some q →
    Position a sys.db q
  rekeyed : HasLoggedOut a sys → Rekeyed a sys

section Runs

variable {a : ChangePasswordArgs} {sys sys' : AuthSystem} {label : Label Call}

theorem VerifiedAgainst.step {r : SessionRow} {hash : String}
    (hverified : VerifiedAgainst sys r hash) (hstep : AuthStep sys label sys') :
    VerifiedAgainst sys' r hash := by
  rcases hverified with ⟨j, login, user, mustChange, signed, hreturned, hrest⟩
  exact ⟨j, login, user, mustChange, signed, hreturned.step hstep, hrest⟩

theorem Rekeyed.step (hrekeyed : Rekeyed a sys) (hstep : AuthStep sys label sys')
    (husers : ∀ u' ∈ sys'.db.users,
      ∃ u ∈ sys.db.users, u.id = u'.id ∧ u.passwordHash = u'.passwordHash)
    (hsessions : ∀ r ∈ sys'.db.sessions, r.userId = a.userId →
      r ∈ sys.db.sessions ∨ ∃ hash, VerifiedAgainst sys' r hash ∧
        a.hashPassword a.input.newPassword = some hash) :
    Rekeyed a sys' where
  users := by
    intro u' hu' hid
    rcases husers u' hu' with ⟨u, hu, huid, hhash⟩
    rw [← hhash]
    exact hrekeyed.users u hu (huid.trans hid)
  sessions := by
    intro r hr howner
    rcases hsessions r hr howner with hold | hnew
    · rcases hrekeyed.sessions r hold howner with ⟨hash, hverified, hnew⟩
      exact ⟨hash, hverified.step hstep, hnew⟩
    · exact hnew

/-- Two changes among the calls are the same call. -/
theorem Evicting.change_unique (hevicting : Evicting a sys) {i j : ℕ}
    {p q : AuthProc} (hi : sys.procs[i]? = some p) (hj : sys.procs[j]? = some q)
    (hp : p.call = .changePassword a) (hq : q.call = .changePassword a) :
    i = j := by
  by_contra hij
  have hapart := hevicting.apart hij hi hj
  rw [hp, hq] at hapart
  exact hapart.hmac rfl rfl

/-- A change keeps its position while a login makes a move. -/
theorem ChangeAt.afterLogin {login : LoginArgs} {i j : ℕ} {p p' q : AuthProc}
    {db' : AuthDb} (hat : ChangeAt a sys.db q) (hlocked : sys.WellLocked authSchema)
    (hi : sys.procs[i]? = some p) (hj : sys.procs[j]? = some q) (hji : j ≠ i)
    (hmove : p.Move authSchema sys.db (sys.heldByOthers i) db' p')
    (heffect : LoginEffect login (sys.heldByOthers i) p p' sys.db db') :
    ChangeAt a db' q := by
  apply hat.frame
  · intro u hu hlock
    exact mem_users_of_locked hlocked hi hj hji hmove hu hlock
  · intro hlock r hr howner
    cases heffect with
    | silent hsessions hpasswords => exact (hsessions r).mp hr
    | stored hprog hsnap hfree husers hsessions hret =>
        rw [hsessions] at hr
        rcases Table.mem_put.mp hr with rfl | ⟨hold, _⟩
        · -- the foreign-key lock of the insert waits for the change
          have hheld := System.mem_heldByOthers.mpr ⟨j, q, hji, hj, hlock⟩
          rw [← howner] at hheld
          have hfalse := hfree _ hheld
          simp at hfalse
        · exact hold

/-- The sessions stored by a login that verified the current password. -/
theorem Rekeyed.afterLogin {login : LoginArgs} {i : ℕ} {p p' : AuthProc}
    {db' : AuthDb} (hrekeyed : Rekeyed a sys)
    (hstep : AuthStep sys label ⟨db', sys.procs.set i p'⟩)
    (hi : sys.procs[i]? = some p) (hcall : p'.call = .login login)
    (hcurrent : ∀ user mustChange, p.prog = loginCreate login user mustChange →
      p.snapshot ≠ none → user.id = a.userId →
      ∃ u ∈ sys.db.users, u.id = a.userId ∧ u.passwordHash = user.passwordHash)
    (heffect : LoginEffect login (sys.heldByOthers i) p p' sys.db db') :
    Rekeyed a ⟨db', sys.procs.set i p'⟩ := by
  cases heffect with
  | silent hsessions hpasswords =>
      exact hrekeyed.step hstep hpasswords fun r hr _ =>
        Or.inl ((hsessions r).mp hr)
  | stored hprog hsnap hfree husers hsessions hret =>
      rename_i user mustChange
      refine hrekeyed.step hstep ?_ ?_
      · intro u hu
        exact ⟨u, husers ▸ hu, rfl, rfl⟩
      · intro r hr howner
        have hr' : r ∈ sys.db.sessions.put (login.sessionRow user mustChange) :=
          hsessions ▸ hr
        rcases Table.mem_put.mp hr' with rfl | ⟨hold, _⟩
        · rcases hcurrent user mustChange hprog hsnap howner with
            ⟨u, hu, hid, hhash⟩
          have hnew := hrekeyed.users u hu hid
          have hlt : i < sys.procs.length := (List.getElem?_eq_some_iff.mp hi).1
          refine Or.inr ⟨user.passwordHash, ⟨i, login, user, mustChange,
            login.signOk, ⟨p', ?_, hcall, hret⟩, rfl, rfl⟩, hhash ▸ hnew⟩
          simp [hlt]
        · exact Or.inl hold

/-- The invariant while the `i`-th call changes and the others stay. -/
theorem Evicting.afterLogin {login : LoginArgs} {i : ℕ} {p p' : AuthProc}
    {db' : AuthDb} (hevicting : Evicting a sys)
    (hstep : AuthStep sys label ⟨db', sys.procs.set i p'⟩)
    (hfresh : MintsFresh sys label) (hi : sys.procs[i]? = some p)
    (hcall : p.call = .login login) (hat : LoginAt login p.prog)
    (hinTx : p.inTx = false)
    (hcurrent : ∀ user mustChange, p.prog = loginCreate login user mustChange →
      p.snapshot ≠ none → user.id = a.userId →
      ∃ u ∈ sys.db.users, u.id = a.userId ∧ u.passwordHash = user.passwordHash)
    (hmove : p.Move authSchema sys.db (sys.heldByOthers i) db' p') :
    Evicting a ⟨db', sys.procs.set i p'⟩ := by
  have hafter := hat.move hevicting.locked hi hinTx hmove
  have hcall' : p'.call = .login login := hmove.call_eq.trans hcall
  refine ⟨hevicting.locked.step hstep, hevicting.apart.step hfresh hstep, ?_, ?_⟩
  · intro j q hj
    rcases System.getElem?_set_eq hi hj with ⟨_, rfl⟩ | ⟨hji, hj⟩
    · exact .login hcall' hafter.1.1 hafter.1.2
    · cases hevicting.positions hj with
      | login hcallq hatq hinTxq => exact .login hcallq hatq hinTxq
      | changed hcallq hprogq => exact .changed hcallq hprogq
      | change hcallq hatq =>
          exact .change hcallq
            (hatq.afterLogin hevicting.locked hi hj hji hmove hafter.2)
  · rintro ⟨j, username, q, hj, hcallq, hprogq⟩
    rcases System.getElem?_set_eq hi hj with ⟨_, rfl⟩ | ⟨_, hj⟩
    · cases hcall'.symm.trans hcallq
    · have hrekeyed := hevicting.rekeyed ⟨j, username, q, hj, hcallq, hprogq⟩
      exact hrekeyed.afterLogin hstep hi hcall' hcurrent hafter.2

theorem Evicting.afterChange {i : ℕ} {p p' : AuthProc} {db' : AuthDb}
    (hevicting : Evicting a sys) (hinvalidate : a.invalidateUserSessions = true)
    (hstep : AuthStep sys label ⟨db', sys.procs.set i p'⟩)
    (hfresh : MintsFresh sys label) (hi : sys.procs[i]? = some p)
    (hcall : p.call = .changePassword a) (hat : ChangeAt a sys.db p)
    (hmove : p.Move authSchema sys.db (sys.heldByOthers i) db' p') :
    Evicting a ⟨db', sys.procs.set i p'⟩ := by
  have hafter := hat.move hinvalidate hmove
  have hcall' : p'.call = .changePassword a := hmove.call_eq.trans hcall
  -- no other call is a change
  have honly : ∀ {j : ℕ} {q : AuthProc}, j ≠ i → sys.procs[j]? = some q →
      q.call ≠ .changePassword a := by
    intro j q hji hj hcallq
    exact hji (hevicting.change_unique hj hi hcallq hcall)
  refine ⟨hevicting.locked.step hstep, hevicting.apart.step hfresh hstep, ?_, ?_⟩
  · intro j q hj
    rcases System.getElem?_set_eq hi hj with ⟨_, rfl⟩ | ⟨hji, hj⟩
    · rcases hafter with hat' | ⟨⟨username, hprog'⟩, _⟩
      · exact .change hcall' hat'
      · exact .changed hcall' hprog'
    · cases hevicting.positions hj with
      | login hcallq hatq hinTxq => exact .login hcallq hatq hinTxq
      | changed hcallq hprogq => exact absurd hcallq (honly hji hj)
      | change hcallq hatq => exact absurd hcallq (honly hji hj)
  · rintro ⟨j, username, q, hj, hcallq, hprogq⟩
    rcases System.getElem?_set_eq hi hj with ⟨_, rfl⟩ | ⟨hji, hj⟩
    · rcases hafter with hat' | ⟨_, hdone⟩
      · exact absurd hprogq (hat'.notLoggedOut username)
      · exact ⟨hdone.users, fun r hr howner =>
          absurd howner (hdone.sessions r hr)⟩
    · exact absurd hcallq (honly hji hj)

/-- A call that ends with a fault publishes nothing. -/
theorem Evicting.afterFault {i : ℕ} {p : AuthProc} {fault : Fault}
    (hevicting : Evicting a sys)
    (hstep : AuthStep sys label ⟨sys.db, sys.procs.set i (p.fail fault)⟩)
    (hfresh : MintsFresh sys label) (hi : sys.procs[i]? = some p) :
    Evicting a ⟨sys.db, sys.procs.set i (p.fail fault)⟩ := by
  refine ⟨hevicting.locked.step hstep, hevicting.apart.step hfresh hstep, ?_, ?_⟩
  · intro j q hj
    rcases System.getElem?_set_eq hi hj with ⟨_, rfl⟩ | ⟨_, hj⟩
    · cases hevicting.positions hi with
      | login hcall hat hinTx => exact .login hcall (.throw fault) rfl
      | change hcall hat => exact .change hcall (.failed rfl)
      | changed hcall hprog => exact .change hcall (.failed rfl)
    · exact hevicting.positions hj
  · rintro ⟨j, username, q, hj, hcallq, hprogq⟩
    rcases System.getElem?_set_eq hi hj with ⟨_, rfl⟩ | ⟨_, hj⟩
    · cases hprogq
    · have hrekeyed := hevicting.rekeyed ⟨j, username, q, hj, hcallq, hprogq⟩
      exact hrekeyed.step hstep (fun u hu => ⟨u, hu, rfl, rfl⟩)
        fun r hr _ => Or.inl hr

theorem Evicting.afterSpawn {call : Call} (hevicting : Evicting a sys)
    (hstep : AuthStep sys (.spawn call)
      ⟨sys.db, sys.procs ++ [.fresh call call.start]⟩)
    (hfresh : MintsFresh sys (.spawn call))
    (hcall : call = .changePassword a ∨ ∃ login, call = .login login) :
    Evicting a ⟨sys.db, sys.procs ++ [.fresh call call.start]⟩ := by
  have hposition : Position a sys.db (.fresh call call.start) := by
    rcases hcall with rfl | ⟨login, rfl⟩
    · exact .change rfl (.approach (.start rfl rfl rfl))
    · exact .login rfl (loginAt_handleLogin login) rfl
  refine ⟨hevicting.locked.step hstep, hevicting.apart.step hfresh hstep, ?_, ?_⟩
  · intro j q hj
    rcases System.getElem?_append_eq hj with ⟨_, rfl⟩ | hj
    · exact hposition
    · exact hevicting.positions hj
  · rintro ⟨j, username, q, hj, hcallq, hprogq⟩
    rcases System.getElem?_append_eq hj with ⟨_, rfl⟩ | hj
    · cases hcallq
      cases hprogq
    · have hrekeyed := hevicting.rekeyed ⟨j, username, q, hj, hcallq, hprogq⟩
      exact hrekeyed.step hstep (fun u hu => ⟨u, hu, rfl, rfl⟩)
        fun r hr _ => Or.inl hr

theorem ChangeAmongLogins.mintsFresh (hallowed : ChangeAmongLogins a sys label) :
    MintsFresh sys label := by
  cases label with
  | spawn call => exact hallowed.1
  | _ => trivial

theorem Evicting.step (hevicting : Evicting a sys)
    (hinvalidate : a.invalidateUserSessions = true)
    (hallowed : ChangeAmongLogins a sys label)
    (hcurrent : StoresCurrent a.userId sys label) (hstep : AuthStep sys label sys') :
    Evicting a sys' := by
  have hfresh := hallowed.mintsFresh
  cases hstep with
  | spawn call => exact hevicting.afterSpawn (.spawn call) hfresh hallowed.2
  | interrupt hi hrunning =>
      exact hevicting.afterFault (.interrupt hi hrunning) hfresh hi
  | deadlock hi hcycle =>
      exact hevicting.afterFault (.deadlock hi hcycle) hfresh hi
  | advance hi hadvance =>
      have hmove := Proc.advance_move hadvance
      cases hevicting.positions hi with
      | login hcall hat hinTx =>
          exact hevicting.afterLogin (.advance hi hadvance) hfresh hi hcall hat
            hinTx (fun user mustChange => hcurrent _ _ user mustChange hi hcall)
            hmove
      | change hcall hat =>
          exact hevicting.afterChange hinvalidate (.advance hi hadvance) hfresh hi
            hcall hat hmove
      | changed hcall hprog =>
          have hrunning := hmove.running
          simp [Proc.running, hprog] at hrunning

/-- No session of a login with another hash is left. -/
theorem Evicting.evicted (hevicting : Evicting a sys) {old : String}
    (hsalted : a.hashPassword a.input.newPassword ≠ some old) :
    Evicted a old sys := by
  intro hdone r hr howner
  rcases (hevicting.rekeyed hdone).sessions r hr howner with
    ⟨hash, hverified, hnew⟩
  refine ⟨⟨hash, hverified⟩, ?_⟩
  rcases hverified with
    ⟨j, login, user, mustChange, signed, hreturned, hid, hhash⟩
  rintro ⟨k, login', user', mustChange', signed', hreturned', hid', hhash'⟩
  have hjk : j = k := by
    by_contra hne
    obtain ⟨p, hj, hp, _⟩ := hreturned
    obtain ⟨q, hk, hq, _⟩ := hreturned'
    have hapart := hevicting.apart hne hj hk
    rw [hp, hq] at hapart
    exact hapart.id rfl (congrArg some (hid'.trans hid.symm))
  subst k
  rcases hreturned.unique hreturned' with ⟨_, hreply⟩
  have huser : user' = user := by
    simp only [Reply.login.injEq, LoginResult.success.injEq] at hreply
    exact hreply.1
  rw [huser, hhash] at hhash'
  exact hsalted (hnew.trans (congrArg some hhash'))

end Runs

/-- In every run in which each login stores its session while the account still
has the password it verified, the change evicts every holder of an old one. -/
theorem passwordChange_evicts (a : ChangePasswordArgs) (old : String)
    (hinvalidate : a.invalidateUserSessions = true)
    (hsalted : a.hashPassword a.input.newPassword ≠ some old)
    {start sys : AuthSystem} (hidle : start.procs = [])
    (hruns : System.Steps authSchema Call.start
      (fun sys label => ChangeAmongLogins a sys label ∧
        StoresCurrent a.userId sys label)
      start sys) :
    Evicted a old sys := by
  have hevicting : Evicting a sys := by
    induction hruns with
    | refl =>
        refine ⟨.of_forall_idle (by simp [hidle]), ?_, ?_, ?_⟩
        · intro i j p q _ hi
          simp [hidle] at hi
        · intro j q hj
          simp [hidle] at hj
        · rintro ⟨i, username, p, hi, _⟩
          simp [hidle] at hi
    | tail _ hlast ih =>
        rcases hlast with ⟨label, ⟨hallowed, hcurrent⟩, hstep⟩
        exact ih.step hinvalidate hallowed hcurrent hstep
  exact hevicting.evicted hsalted

/-! ## A change between two logins, and one inside a login -/

theorem changeAmongLogins_of {a : ChangePasswordArgs} {sys : AuthSystem}
    {label : Label Call}
    (hspawn : ∀ call, label = .spawn call →
      call = .changePassword a ∨ ∃ login, call = .login login)
    (hfresh : MintsFresh sys label) : ChangeAmongLogins a sys label := by
  cases label with
  | spawn call => exact ⟨hfresh, hspawn call rfl⟩
  | _ => trivial

/-- `StoresCurrent` as a check; the reply names the account that was verified. -/
def storesCurrent (sys : AuthSystem) : Label Call → Bool
  | .advance i =>
      match sys.procs[i]? with
      | none => true
      | some p =>
          match p.prog with
          | .query (.insertUserSession _) next =>
              match next (1 : ℕ) with
              | .ret (.login (.success user _ _)) =>
                  sys.db.users.rows.any fun u =>
                    decide (u.id = user.id) &&
                      decide (u.passwordHash = user.passwordHash)
              | _ => true
          | _ => true
  | _ => true

theorem storesCurrent_spec {userId : Uuid} {sys : AuthSystem} {label : Label Call}
    (hcheck : storesCurrent sys label = true) : StoresCurrent userId sys label := by
  cases label with
  | advance i =>
      intro p login user mustChange hi _ hprog _ hid
      simp only [storesCurrent, hi, hprog, loginCreate, List.any_eq_true,
        Bool.and_eq_true, decide_eq_true_eq] at hcheck
      rcases hcheck with ⟨u, hu, huid, hhash⟩
      exact ⟨u, hu, huid.trans hid, hhash⟩
  | _ => trivial

/-- The change of password with every session invalidated. -/
def logOutChange : ChangePasswordArgs :=
  { sampleChange with invalidateUserSessions := true }

/-- A login with the new password. -/
def secondLogin : LoginArgs :=
  { sampleLogin with
    password := "battery staple 1234"
    sid := 11
    refreshToken := "token 3" }

/-- A login, the change, a login with the new password. -/
def evictionSchedule : List (Label Call) :=
  .spawn (.login sampleLogin) :: List.replicate 6 (.advance 0) ++
    .spawn (.changePassword logOutChange) :: List.replicate 10 (.advance 1) ++
    .spawn (.login secondLogin) :: List.replicate 6 (.advance 2)

def evictionEnd : Option AuthSystem :=
  System.performAll authSchema Call.start
    (fun sys label => MintsFresh sys label ∧ storesCurrent sys label = true)
    evictionSchedule sampleStart

theorem evictionEnd_outcomes :
    evictionEnd.map (fun sys =>
        (outcomes sys, sys.db.sessions.rows.map SessionRow.id)) =
      some ([some (.login (.success sampleUser false true)),
        some (.changed (.ok .loggedOut "alice")),
        some (.login (.success ((logOutChange.passwordUpdate sampleUser
          "hash of battery staple 1234").apply sampleUser) false true))],
        [11]) := by
  decide +kernel

/-- The change logs the first login out and leaves the second one alone. -/
theorem eviction_newLogin :
    ∃ sys, evictionEnd = some sys ∧ HasLoggedOut logOutChange sys ∧
      sys.db.sessions.rows.map SessionRow.id = [11] ∧
      Evicted logOutChange sampleUser.passwordHash sys := by
  rcases Option.map_eq_some_iff.mp evictionEnd_outcomes with ⟨sys, hsys, hend⟩
  rcases Prod.mk.inj hend with ⟨hreplies, hids⟩
  have hcalls := System.performAll_calls hsys
  refine ⟨sys, hsys, ⟨1, "alice", ?_⟩, hids, ?_⟩
  · exact returned_of_outcomes (by rw [hcalls]; rfl) (by rw [hreplies]; rfl)
  · refine passwordChange_evicts logOutChange sampleUser.passwordHash rfl
      (by decide) (rfl : sampleStart.procs = []) ?_
    apply System.performAll_steps_of hsys
    rintro label hlabel s ⟨hfresh, hcheck⟩
    refine ⟨changeAmongLogins_of ?_ hfresh, storesCurrent_spec hcheck⟩
    rintro call rfl
    simp only [evictionSchedule, List.mem_append, List.mem_cons,
      List.mem_replicate, Label.spawn.injEq, reduceCtorEq, and_false,
      or_false] at hlabel
    rcases hlabel with (rfl | rfl) | rfl
    · exact Or.inr ⟨_, rfl⟩
    · exact Or.inl rfl
    · exact Or.inr ⟨_, rfl⟩

/-- The change comes between the verification and the stored session. -/
def lateSchedule : List (Label Call) :=
  .spawn (.login sampleLogin) :: List.replicate 4 (.advance 0) ++
    .spawn (.changePassword logOutChange) :: List.replicate 10 (.advance 1) ++
    List.replicate 2 (.advance 0)

def lateEnd : Option AuthSystem :=
  System.performAll authSchema Call.start MintsFresh lateSchedule sampleStart

theorem lateEnd_outcomes :
    lateEnd.map (fun sys =>
        (outcomes sys, sys.db.sessions.rows.map fun r => (r.id, r.userId))) =
      some ([some (.login (.success sampleUser false true)),
        some (.changed (.ok .loggedOut "alice"))], [(10, 1)]) := by
  decide +kernel

/-- All calls have ended, the change has logged its user out, and the session of
a login that verified the old password is left. -/
theorem passwordChange_evicts_fails :
    logOutChange.invalidateUserSessions = true ∧
      logOutChange.hashPassword logOutChange.input.newPassword ≠
        some sampleUser.passwordHash ∧
      ∃ sys, System.Steps authSchema Call.start (ChangeAmongLogins logOutChange)
          sampleStart sys ∧
        (∀ p ∈ sys.procs, p.running = false) ∧
        ¬ Evicted logOutChange sampleUser.passwordHash sys := by
  refine ⟨rfl, by decide, ?_⟩
  rcases Option.map_eq_some_iff.mp lateEnd_outcomes with ⟨sys, hsys, hend⟩
  rcases Prod.mk.inj hend with ⟨hreplies, hrows⟩
  have hcalls := System.performAll_calls hsys
  have hlogin : Returned sys 0 (.login sampleLogin)
      (.login (.success sampleUser false true)) :=
    returned_of_outcomes (by rw [hcalls]; rfl) (by rw [hreplies]; rfl)
  have hchange : Returned sys 1 (.changePassword logOutChange)
      (.changed (.ok .loggedOut "alice")) :=
    returned_of_outcomes (by rw [hcalls]; rfl) (by rw [hreplies]; rfl)
  refine ⟨sys, ?_, ?_, ?_⟩
  · apply System.performAll_steps_of hsys
    intro label hlabel s hfresh
    refine changeAmongLogins_of ?_ hfresh
    rintro call rfl
    simp only [lateSchedule, List.mem_append, List.mem_cons,
      List.mem_replicate, Label.spawn.injEq, reduceCtorEq, and_false,
      or_false] at hlabel
    rcases hlabel with rfl | rfl
    · exact Or.inr ⟨_, rfl⟩
    · exact Or.inl rfl
  · apply ended_of_outcomes
    rw [hreplies]
    simp
  · intro hevicted
    have hmem : (10, 1) ∈ sys.db.sessions.rows.map fun r => (r.id, r.userId) := by
      rw [hrows]
      exact List.mem_singleton_self _
    rcases List.mem_map.mp hmem with ⟨r, hr, hrow⟩
    rcases Prod.mk.inj hrow with ⟨hid, howner⟩
    have hnone := (hevicted ⟨1, "alice", hchange⟩ r hr howner).2
    exact hnone ⟨0, sampleLogin, sampleUser, false, true, hlogin, hid.symm, rfl⟩

end Untangled.Auth
