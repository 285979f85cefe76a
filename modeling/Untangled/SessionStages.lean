import Untangled.AuthSystem
import Untangled.AuthWrites

/-!
# Where a call can be

`Sends` describes the programs of the service up to the statement that stores
something; `Stage` adds the positions after it, with the row the transaction
has locked and the writes it has pending.  Every call of every reachable state
is at one of these stages.
-/

namespace Untangled.Auth

open ReadCommitted TokenLedger

/-- A program other than a rotation, which stores nothing before it reaches one
of the two statements that can bring a token into use: the session insert and
`issue_first_refresh`.  The flag says whether a transaction is open. -/
inductive Sends (call : Call) : Bool → AuthProg Reply → Prop
  | ret {tx reply} (hevent : call.event reply = none) :
      Sends call tx (.ret reply)
  | throw {tx} (fault : Fault) : Sends call tx (.throw fault)
  | beginTx {tx next} (hnext : Sends call true next) :
      Sends call tx (.beginTx next)
  | commit {tx next} (hnext : Sends call false next) :
      Sends call tx (.commit next)
  | rollback {tx next} (hnext : Sends call false next) :
      Sends call tx (.rollback next)
  | query {tx stmt next} (hquiet : stmt.quiet = true)
      (hnext : ∀ {snap cur result ws},
        stmt.exec snap cur = .ok (result, ws) → Sends call tx (next result)) :
      Sends call tx (.query stmt next)
  | insert {row reply}
      (hevent : call.event reply = some (.opened row.id row.entry)) :
      Sends call false (.query (.insertUserSession row) fun _ => .ret reply)
  | issue {args} {user : UserRow} {sid session} (hcall : call = .changePassword args)
      (hsid : args.sessionId = some sid) (huser : user.id = args.userId) :
      Sends call true (changeIssue args user sid session)

/-- The call has locked a stored session. -/
structure HoldsRow (db : AuthDb) (p : AuthProc) (row : SessionRow) : Prop where
  stored : row ∈ db.sessions
  locked : (RowKey.session row.id, LockMode.update) ∈ p.locks

/-- The position of a call, with what it knows and what it has pending. -/
inductive Stage (db : AuthDb) (p : AuthProc) : Prop
  | ended {reply} (hprog : p.prog = .ret reply)
  | sending (hsends : Sends p.call p.inTx p.prog)
      (hquiet : ∀ w ∈ p.writes, w.quiet = true)
  | rotateStart {args} (hcall : p.call = .attemptRotate args)
      (hprog : p.prog = attemptRotate args) (hwrites : p.writes = [])
  | rotateSelect {args} (hcall : p.call = .attemptRotate args)
      (hprog : p.prog = rotateSelect args) (hinTx : p.inTx = true)
      (hwrites : p.writes = [])
  | rotateInsert {args row} (hcall : p.call = .attemptRotate args)
      (hprog : p.prog = rotateInsert args row) (hinTx : p.inTx = true)
      (hheld : HoldsRow db p row)
      (hmatch : sessionHolds args.oldHmac args.userId args.sessionId row = true)
      (hwrites : p.writes = [])
  | rotateUpdate {args row} (hcall : p.call = .attemptRotate args)
      (hprog : p.prog = rotateUpdate args row) (hinTx : p.inTx = true)
      (hheld : HoldsRow db p row)
      (hmatch : sessionHolds args.oldHmac args.userId args.sessionId row = true)
      (hwrites : p.writes = [.putUsed args.usedRow])
      (hsnap : ∀ {snap}, p.snapshot = some snap → row ∈ snap.sessions)
  | rotateCommit {args row} (hcall : p.call = .attemptRotate args)
      (hprog : p.prog = rotateCommit args row)
      (hheld : HoldsRow db p row)
      (hmatch : sessionHolds args.oldHmac args.userId args.sessionId row = true)
      (hwrites : p.writes =
        [.putUsed args.usedRow, .putSession ((args.update row).apply row)])
  | issued {args} {user : UserRow} {sid session row earlier}
      (hcall : p.call = .changePassword args)
      (hsid : args.sessionId = some sid) (huser : user.id = args.userId)
      (hprog : p.prog = commitOk
        (.firstRefresh args.refreshToken (args.times session).maxAge)
        user.username)
      (hheld : HoldsRow db p row)
      (hmatch : sessionLacksHmac sid args.userId row = true)
      (hquiet : ∀ w ∈ earlier, w.quiet = true)
      (hkept : ∀ w ∈ earlier, w.target ≠ .session row.id)
      (hwrites : p.writes = earlier ++
        [.putSession ((args.sessionUpdate session).apply row)])

/-! ## The programs -/

theorem Sends.tokensUnchanged {args : ChangePasswordArgs} {tx : Bool}
    (username : String) :
    Sends (.changePassword args) tx (commitOk .tokensUnchanged username) :=
  .commit (.ret rfl)

theorem sends_deleteSessionChain {call : Call} {userId sessionId : Uuid}
    {next : AuthProg Reply} {tx : Bool} (hnext : Sends call tx next) :
    Sends call tx (deleteSessionChain userId sessionId next) :=
  .query rfl fun _ => .query rfl fun _ => hnext

theorem sends_rotateReuse (args : AttemptRotateArgs) (usedAt : Option ℤ) :
    Sends (.attemptRotate args) true (rotateReuse args usedAt) := by
  cases usedAt with
  | none => exact .commit (.ret rfl)
  | some usedAt =>
      unfold rotateReuse
      dsimp only
      split
      · exact .commit (.ret rfl)
      · exact sends_deleteSessionChain (.commit (.ret rfl))

theorem sends_changeEffect {args : ChangePasswordArgs} {user : UserRow}
    (huser : user.id = args.userId) :
    Sends (.changePassword args) true (changeEffect args user) := by
  unfold changeEffect
  split
  · exact .query rfl fun _ => .query rfl fun _ => .commit (.ret rfl)
  · cases hsid : args.sessionId with
    | none => exact Sends.tokensUnchanged _
    | some sid =>
        refine .query rfl ?_
        intro snap cur session ws _
        cases session with
        | none => exact Sends.tokensUnchanged _
        | some session =>
            unfold changeSession
            dsimp only
            split
            · exact Sends.tokensUnchanged _
            · exact .issue rfl hsid huser

theorem sends_changeLocked {args : ChangePasswordArgs} {user : UserRow}
    (huser : user.id = args.userId) :
    Sends (.changePassword args) true (changeLocked args user) := by
  unfold changeLocked
  split
  · exact .rollback (.throw _)
  · exact .commit (.ret rfl)
  · exact .commit (.ret rfl)
  · split
    · exact .rollback (.throw _)
    · exact .query rfl fun _ => sends_changeEffect huser

theorem sends_executeChangePassword (args : ChangePasswordArgs) :
    Sends (.changePassword args) false (executeChangePassword args) := by
  refine .beginTx (.query rfl ?_)
  intro snap cur user ws hexec
  cases user with
  | none => exact .rollback (.ret rfl)
  | some user =>
      simp only [AuthStmt.exec, Except.ok.injEq, Prod.mk.injEq] at hexec
      have hmem := (Table.mem_recheck.mp (List.mem_of_head? hexec.1)).2.1
      exact sends_changeLocked (by simpa [userIs] using hmem)

theorem sends_loginDenied (args : LoginArgs) :
    Sends (.login args) false (loginDenied args) := by
  unfold loginDenied
  split
  · exact .ret rfl
  · split <;> exact .ret rfl

theorem sends_loginLoaded (args : LoginArgs) (user : Option UserRow) :
    Sends (.login args) false (loginLoaded args user) := by
  unfold loginLoaded
  dsimp only
  cases args.verifyPassword ((user.map UserRow.passwordHash).getD
    args.dummyHash) args.password with
  | none => exact .ret rfl
  | some verifyOk =>
      cases user with
      | none => exact sends_loginDenied args
      | some user =>
          dsimp only
          cases loginVerdict args user verifyOk with
          | refused => exact .query rfl fun _ => sends_loginDenied args
          | passed mustChange =>
              refine .query rfl fun _ => ?_
              split
              · exact .ret rfl
              · exact .insert rfl

theorem sends_handleLogin (args : LoginArgs) :
    Sends (.login args) false (handleLogin args) := by
  unfold handleLogin
  split
  · exact .ret rfl
  · exact .ret rfl
  · split
    · exact sends_loginDenied args
    · split
      · split <;> exact .ret rfl
      · exact .query rfl fun _ => sends_loginLoaded args _

theorem Sends.event_eq_none {call : Call} {tx : Bool} {reply : Reply}
    (hsends : Sends call tx (.ret reply)) :
    call.event reply = none := by
  cases hsends with
  | ret hevent => exact hevent

theorem Sends.eventOf_eq_none {tx : Bool} {p : AuthProc}
    (hsends : Sends p.call tx p.prog) : eventOf p = none := by
  unfold eventOf
  cases hprog : p.prog with
  | ret reply =>
      rw [hprog] at hsends
      exact hsends.event_eq_none
  | _ => rfl

/-- Every call starts at a stage and has achieved nothing. -/
theorem Stage.start (db : AuthDb) (call : Call) :
    Stage db (.fresh call call.start) ∧
      eventOf (.fresh call call.start) = none := by
  have hsending : Sends call false call.start →
      Stage db (.fresh call call.start) ∧
        eventOf (.fresh call call.start) = none := by
    intro hsends
    exact ⟨.sending hsends (by simp [Proc.fresh]), hsends.eventOf_eq_none⟩
  cases call with
  | attemptRotate args => exact ⟨.rotateStart rfl rfl rfl, rfl⟩
  | create session clock => exact hsending (.insert rfl)
  | invalidate userId sessionId =>
      exact hsending (.beginTx (sends_deleteSessionChain (.commit (.ret rfl))))
  | sessionCleanup now =>
      exact hsending (.query rfl fun _ => .query rfl fun _ => .ret rfl)
  | changePassword args => exact hsending (sends_executeChangePassword args)
  | login args => exact hsending (sends_handleLogin args)

end Untangled.Auth
