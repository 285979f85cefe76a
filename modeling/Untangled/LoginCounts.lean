import Untangled.AuthSerial
import Untangled.MustChangeGate

/-!
# Failed-login counts

A login reads the failed-login count of its account, verifies the password and
stores a count computed from the one it read.  Nothing keeps the count from
changing in between, so attempts can be lost and a locked account can be
unlocked again; where no count changes in between, the logins count as if they
had been served one after the other.
-/

namespace Untangled.Auth

open ReadCommitted

/-! ## The account -/

def account (db : AuthDb) (username : String) : Option UserRow :=
  db.users.rows.find? (userNamed username)

def countOf (db : AuthDb) (username : String) : Option ℤ :=
  (account db username).map UserRow.failedLoginCount

/-- The same account, up to its count and the stamps of the last update. -/
structure SameAccount (row row' : UserRow) : Prop where
  id : row'.id = row.id
  username : row'.username = row.username
  passwordHash : row'.passwordHash = row.passwordHash
  isActive : row'.isActive = row.isActive
  passwordExpiresAt : row'.passwordExpiresAt = row.passwordExpiresAt

theorem SameAccount.refl (row : UserRow) : SameAccount row row := ⟨rfl, rfl, rfl, rfl, rfl⟩

theorem SameAccount.setFailedCount
    {row row' : UserRow} {count updatedAt : ℤ}
    (h : SameAccount row row') :
    SameAccount row (setFailedCount count updatedAt row') :=
  ⟨h.id, h.username, h.passwordHash, h.isActive, h.passwordExpiresAt⟩

theorem account_mem
    {db : AuthDb} {username : String} {row : UserRow}
    (h : account db username = some row) :
    row ∈ db.users ∧ row.username = username :=
  ⟨List.mem_of_find?_eq_some h, by simpa [userNamed] using List.find?_some h⟩

/-- An update of the count leaves the account where it was. -/
theorem account_put
    {db : AuthDb} {username : String} {row : UserRow} {count updatedAt : ℤ}
    (h : account db username = some row) :
    account { db with users := db.users.put (setFailedCount count updatedAt row) } username =
      some (setFailedCount count updatedAt row) := by
  have hmem := (account_mem h).1
  have hrows : (db.users.put (setFailedCount count updatedAt row)).rows =
      Table.replaceRows db.users.rows (setFailedCount count updatedAt row) :=
    Table.rows_put_of_mem hmem rfl
  unfold account at h ⊢
  rw [hrows, Table.replaceRows, List.find?_map]
  have htest : ∀ x ∈ db.users.rows,
      (userNamed username ∘ fun x =>
        if key x = key (setFailedCount count updatedAt row) then
          setFailedCount count updatedAt row
        else x) x = userNamed username x := by
    intro x hx
    by_cases hkey : key x = key (setFailedCount count updatedAt row)
    · have hsame : x = row := Table.eq_of_key_eq hx hmem hkey
      simp only [Function.comp_apply, if_pos hkey]
      rw [hsame]
      rfl
    · simp only [Function.comp_apply, if_neg hkey]
  rw [List.find?_congr htest, h, Option.map_some]
  exact congrArg some (if_pos rfl)

/-! ## What a login makes of the count -/

/-- The login gets as far as the account. -/
structure LoginArgs.ReadsAccount (a : LoginArgs) : Prop where
  draws : a.drawT.isSome
  limited : ∃ lockout, a.rateLimit = some lockout ∧ loginSkips a lockout = false
  slot : a.hashSlot = true

/-- The count a login leaves when nothing runs beside it. -/
def LoginArgs.countAfter (a : LoginArgs) (user : UserRow) : ℤ :=
  match a.drawT, a.rateLimit with
  | some _, some lockout =>
      if loginSkips a lockout || !a.hashSlot then
        user.failedLoginCount
      else
        match a.verifyPassword user.passwordHash a.password with
        | none => user.failedLoginCount
        | some verifyOk =>
            match loginVerdict a user verifyOk with
            | .passed _ => 0
            | .refused => user.failedLoginCount + 1
  | _, _ => user.failedLoginCount

theorem handleLogin_cases
    (a : LoginArgs) :
    (a.ReadsAccount ∧
        handleLogin a =
          .query (.selectUserByUsername (foldUsername a.providedUsername)) (loginLoaded a)) ∨
      ((∃ reply, handleLogin a = .ret reply) ∧
        ∀ user, a.countAfter user = user.failedLoginCount) := by
  have hdenied : ∃ reply, loginDenied a = .ret reply := by
    unfold loginDenied
    split
    · exact ⟨_, rfl⟩
    · split <;> exact ⟨_, rfl⟩
  cases hdraw : a.drawT with
  | none => exact Or.inr ⟨⟨.login .internalError, by simp [handleLogin, hdraw]⟩,
        by simp [LoginArgs.countAfter, hdraw]⟩
  | some t =>
      cases hlimit : a.rateLimit with
      | none =>
          exact Or.inr ⟨⟨.login .internalError, by simp [handleLogin, hdraw, hlimit]⟩,
            by simp [LoginArgs.countAfter, hdraw, hlimit]⟩
      | some lockout =>
          cases hskips : loginSkips a lockout with
          | true =>
              rcases hdenied with ⟨reply, hreply⟩
              exact Or.inr ⟨⟨reply, by simp [handleLogin, hdraw, hlimit, hskips, hreply]⟩,
                by simp [LoginArgs.countAfter, hdraw, hlimit, hskips]⟩
          | false =>
              cases hslot : a.hashSlot with
              | false =>
                  refine Or.inr ⟨?_, by simp [LoginArgs.countAfter, hdraw, hlimit, hslot]⟩
                  cases haudit : a.auditCapacityOk with
                  | false =>
                      exact ⟨_, by simp [handleLogin, hdraw, hlimit, hskips, hslot, haudit]; rfl⟩
                  | true =>
                      exact ⟨_, by simp [handleLogin, hdraw, hlimit, hskips, hslot, haudit]; rfl⟩
              | true =>
                  exact Or.inl ⟨⟨by simp [hdraw], ⟨lockout, hlimit, hskips⟩, hslot⟩,
                    by simp [handleLogin, hdraw, hlimit, hskips, hslot]⟩

/-- What a login that read `user` goes on to do. -/
theorem loginLoaded_cases
    (a : LoginArgs) (user : UserRow) :
    (a.verifyPassword user.passwordHash a.password = none ∧
        (∃ reply, loginLoaded a (some user) = .ret reply)) ∨
      ∃ verifyOk, a.verifyPassword user.passwordHash a.password = some verifyOk ∧
        ((∃ mustChange, loginVerdict a user verifyOk = .passed mustChange ∧
            loginLoaded a (some user) = loginPassed a user mustChange) ∨
          (loginVerdict a user verifyOk = .refused ∧
            loginLoaded a (some user) = loginRefused a user)) := by
  cases hverify : a.verifyPassword user.passwordHash a.password with
  | none => exact Or.inl ⟨rfl, .login .internalError, by simp [loginLoaded, hverify]⟩
  | some verifyOk =>
      refine Or.inr ⟨verifyOk, rfl, ?_⟩
      cases hverdict : loginVerdict a user verifyOk with
      | passed mustChange =>
          exact Or.inl ⟨mustChange, rfl, by simp [loginLoaded, hverify, hverdict]⟩
      | refused => exact Or.inr ⟨rfl, by simp [loginLoaded, hverify, hverdict]⟩

theorem LoginArgs.ReadsAccount.countAfter
    {a : LoginArgs} {user : UserRow}
    (h : a.ReadsAccount) :
    a.countAfter user =
      match a.verifyPassword user.passwordHash a.password with
      | none => user.failedLoginCount
      | some verifyOk =>
          match loginVerdict a user verifyOk with
          | .passed _ => 0
          | .refused => user.failedLoginCount + 1 := by
  rcases Option.isSome_iff_exists.1 h.draws with ⟨t, hdraw⟩
  rcases h.limited with ⟨lockout, hlimit, hskips⟩
  simp [LoginArgs.countAfter, hdraw, hlimit, hskips, h.slot]

/-- The verdict depends on nothing but the account and whether the count has
reached the maximum. -/
theorem SameAccount.loginVerdict_passed
    {a : LoginArgs} {row row' : UserRow} {verifyOk mustChange : Bool}
    (hsame : SameAccount row row')
    (h : loginVerdict a row verifyOk = .passed mustChange)
    (hbelow : row'.failedLoginCount < a.settings.login.maximumFailedCount) :
    loginVerdict a row' verifyOk = .passed mustChange := by
  unfold loginVerdict at h ⊢
  have hexpiry : classifyExpiry row' a.settings.login.passwordGraceDays a.classifyNow =
      classifyExpiry row a.settings.login.passwordGraceDays a.classifyNow := by
    unfold classifyExpiry
    rw [hsame.passwordExpiresAt]
  rw [hsame.isActive, hexpiry, if_neg (show ¬ row'.failedLoginCount ≥ _ by omega)]
  split at h
  · cases h
  · split at h
    · cases h
    · split at h
      · cases h
      · rename_i hverify hactive _
        rw [if_neg hverify, if_neg hactive]
        exact h

theorem SameAccount.loginVerdict_eq
    {a : LoginArgs} {row row' : UserRow} {verifyOk : Bool}
    (hsame : SameAccount row row')
    (hcount : row'.failedLoginCount = row.failedLoginCount) :
    loginVerdict a row' verifyOk = loginVerdict a row verifyOk := by
  unfold loginVerdict classifyExpiry
  rw [hsame.isActive, hsame.passwordExpiresAt, hcount]

theorem loginVerdict_passed_lt
    {a : LoginArgs} {row : UserRow} {verifyOk mustChange : Bool}
    (h : loginVerdict a row verifyOk = .passed mustChange) :
    row.failedLoginCount < a.settings.login.maximumFailedCount := by
  unfold loginVerdict at h
  split at h
  · cases h
  · split at h
    · cases h
    · split at h
      · cases h
      · omega

theorem SameAccount.countAfter_eq
    {a : LoginArgs} {row row' : UserRow}
    (hsame : SameAccount row row')
    (hcount : row'.failedLoginCount = row.failedLoginCount) :
    a.countAfter row' = a.countAfter row := by
  rcases handleLogin_cases a with ⟨hreads, _⟩ | ⟨_, hneutral⟩
  · rw [hreads.countAfter, hreads.countAfter, hsame.passwordHash, hcount]
    cases a.verifyPassword row.passwordHash a.password with
    | none => rfl
    | some verifyOk => simp only [hsame.loginVerdict_eq hcount]
  · rw [hneutral, hneutral, hcount]

/-! ## Serving the logins one after the other -/

/-- The database after the logins have been served alone, in this order. -/
def serialLogins (calls : List LoginArgs) (db : AuthDb) : AuthDb :=
  calls.foldl (fun db a => ((handleLogin a).runSerial authSchema db).2) db

/-- The count that `calls` make of `count`, one after the other. -/
def tally (base : UserRow) (count : ℤ) (calls : List LoginArgs) : ℤ :=
  calls.foldl (fun count a => a.countAfter { base with failedLoginCount := count }) count

theorem SameAccount.countAfter_base
    {base row : UserRow} {a : LoginArgs}
    (h : SameAccount base row) :
    a.countAfter { base with failedLoginCount := row.failedLoginCount } = a.countAfter row :=
  have hsame : SameAccount { base with failedLoginCount := row.failedLoginCount } row :=
    ⟨h.id, h.username, h.passwordHash, h.isActive, h.passwordExpiresAt⟩
  (hsame.countAfter_eq rfl).symm

/-- The session a login stores is no part of the account. -/
theorem loginCreate_users
    {a : LoginArgs} {user : UserRow} {mustChange : Bool} {n : ℕ} {db : AuthDb} :
    ((loginCreate a user mustChange).run authSchema (fun _ => false) n none db).2.users =
      db.users := by
  unfold loginCreate
  cases hexec : insertSession (a.sessionRow user mustChange) db with
  | error fault =>
      rw [Prog.run_query_error (Schema.alone_of_error hexec)]
  | ok outcome =>
      rcases outcome with ⟨count, ws⟩
      rw [Prog.run_query_none (Schema.alone_of_exec hexec rfl), (insertSession_ok hexec).1]
      rfl

theorem loginDenied_run
    {a : LoginArgs} {n : ℕ} {db : AuthDb} :
    ((loginDenied a).run authSchema (fun _ => false) n none db).2 = db := by
  unfold loginDenied
  split
  · rfl
  · split <;> rfl

theorem handleLogin_account
    {a : LoginArgs} {db : AuthDb} {row : UserRow}
    (haccount : account db (foldUsername a.providedUsername) = some row) :
    ∃ row', account ((handleLogin a).runSerial authSchema db).2
        (foldUsername a.providedUsername) = some row' ∧
      SameAccount row row' ∧ row'.failedLoginCount = a.countAfter row := by
  have hmem := (account_mem haccount).1
  rcases handleLogin_cases a with ⟨hreads, hprog⟩ | ⟨⟨reply, hreply⟩, hneutral⟩
  · rw [hprog, hreads.countAfter, Prog.runSerial,
      Prog.run_query_none (alone_selectUserByUsername (foldUsername a.providedUsername))]
    change db.users.rows.find? _ = _ at haccount
    rw [haccount]
    rcases loginLoaded_cases a row with
      ⟨hverify, reply, hreply⟩ | ⟨verifyOk, hverify, hpassed | hrefused⟩
    · rw [hreply, hverify]
      exact ⟨row, haccount, .refl row, rfl⟩
    · rcases hpassed with ⟨mustChange, hverdict, hnext⟩
      rw [hnext, hverify, loginPassed,
        Prog.run_query_none (alone_updateFailedLoginCount hmem rfl)]
      refine ⟨setFailedCount 0 (utcSeconds a.countClock) row, ?_,
        (SameAccount.refl row).setFailedCount, by simp only [hverdict]; rfl⟩
      rw [← account_put haccount]
      split
      · rfl
      · unfold account
        rw [loginCreate_users]
    · rcases hrefused with ⟨hverdict, hnext⟩
      rw [hnext, hverify, loginRefused,
        Prog.run_query_none (alone_updateFailedLoginCount hmem rfl), loginDenied_run]
      exact ⟨_, account_put haccount, (SameAccount.refl row).setFailedCount,
        by simp only [hverdict]; rfl⟩
  · rw [hreply, hneutral]
    exact ⟨row, haccount, .refl row, rfl⟩

theorem SameAccount.trans
    {row row' row'' : UserRow}
    (h : SameAccount row row')
    (h' : SameAccount row' row'') :
    SameAccount row row'' :=
  ⟨h'.id.trans h.id, h'.username.trans h.username, h'.passwordHash.trans h.passwordHash,
    h'.isActive.trans h.isActive, h'.passwordExpiresAt.trans h.passwordExpiresAt⟩

theorem serialLogins_account
    {username : String} {base row : UserRow} {calls : List LoginArgs} {db : AuthDb}
    (hcalls : ∀ a ∈ calls, foldUsername a.providedUsername = username)
    (haccount : account db username = some row)
    (hsame : SameAccount base row) :
    countOf (serialLogins calls db) username =
      some (tally base row.failedLoginCount calls) := by
  induction calls generalizing db row with
  | nil => simp [countOf, serialLogins, tally, haccount]
  | cons a calls ih =>
      have hname := hcalls a List.mem_cons_self
      rw [← hname] at haccount
      rcases handleLogin_account haccount with ⟨row', haccount', hsame', hcount⟩
      rw [hname] at haccount'
      have hrest := ih (fun b hb => hcalls b (List.mem_cons_of_mem a hb)) haccount'
        (hsame.trans hsame')
      have hstep : tally base row.failedLoginCount (a :: calls) =
          tally base row'.failedLoginCount calls := by
        rw [hcount, ← hsame.countAfter_base]
        rfl
      rw [hstep]
      exact hrest

/-! ## Logins side by side -/

/-- The only calls are logins of this account under this maximum. -/
def LoginOf (username : String) (maximum : ℤ) (label : Label Call) : Prop :=
  ∀ call, label = .spawn call → ∃ a, call = .login a ∧
    foldUsername a.providedUsername = username ∧
    a.settings.login.maximumFailedCount = maximum

/-- When a login stores its count, a refused one finds the count it read, and
one that passed finds a count below the maximum. -/
def CountsCurrent (username : String) (sys : AuthSystem) (label : Label Call) : Prop :=
  ∀ i, label = .advance i → ∀ p a, sys.procs[i]? = some p → p.snapshot.isSome →
    p.call = .login a → ∀ count, countOf sys.db username = some count →
      (∀ user, p.prog = loginRefused a user → count = user.failedLoginCount) ∧
        (∀ user mustChange, p.prog = loginPassed a user mustChange →
          count < a.settings.login.maximumFailedCount)

/-- What is left of a login once its count is stored. -/
def LoginRest (a : LoginArgs) (prog : AuthProg Reply) : Prop :=
  (∃ reply, prog = .ret reply) ∨ ∃ user mustChange, prog = loginCreate a user mustChange

/-- Where a login is; `counted` once the account shows what it did. -/
inductive CountingAt (base : UserRow) (a : LoginArgs) (counted : Prop) (p : AuthProc) : Prop
  | loading
      (hprog : p.prog =
        .query (.selectUserByUsername (foldUsername a.providedUsername)) (loginLoaded a))
      (hreads : a.ReadsAccount) (hopen : ¬ counted)
  | passed {user : UserRow} {verifyOk mustChange : Bool}
      (hprog : p.prog = loginPassed a user mustChange)
      (hreads : a.ReadsAccount) (hsame : SameAccount base user)
      (hverify : a.verifyPassword user.passwordHash a.password = some verifyOk)
      (hverdict : loginVerdict a user verifyOk = .passed mustChange) (hopen : ¬ counted)
  | refused {user : UserRow} {verifyOk : Bool}
      (hprog : p.prog = loginRefused a user)
      (hreads : a.ReadsAccount) (hsame : SameAccount base user)
      (hverify : a.verifyPassword user.passwordHash a.password = some verifyOk)
      (hverdict : loginVerdict a user verifyOk = .refused) (hopen : ¬ counted)
  | counted (hcounted : counted) (hrest : LoginRest a p.prog)
  | failed {fault : Fault} (hprog : p.prog = .throw fault)

/-- A login between two statements: it is in no transaction, and what it has
read is an earlier state of the account. -/
structure Outside (base : UserRow) (username : String) (p : AuthProc) : Prop where
  inTx : p.inTx = false
  writes : p.writes = []
  snapshot : ∀ snap, p.snapshot = some snap →
    ∃ row, account snap username = some row ∧ SameAccount base row

theorem Outside.fresh
    {base : UserRow} {username : String} {call : Call} {prog : AuthProg Reply} :
    Outside base username (.fresh call prog) :=
  ⟨rfl, rfl, fun _ hsnap => by cases hsnap⟩

section Moves

variable {base row : UserRow} {username : String} {a : LoginArgs} {counted : Prop}
variable {db db' : AuthDb} {held : List (RowKey × LockMode)} {p p' : AuthProc}

/-- What a move makes of the account: nothing, or what the login makes of it
when it is served alone. -/
def Counts (base row : UserRow) (username : String) (a : LoginArgs) (counted : Prop)
    (db' : AuthDb) (p' : AuthProc) : Prop :=
  ∃ row', account db' username = some row' ∧ SameAccount base row' ∧
    ((row'.failedLoginCount = row.failedLoginCount ∧ CountingAt base a counted p') ∨
      (¬ counted ∧ row'.failedLoginCount = a.countAfter row ∧ CountingAt base a True p'))

theorem CountingAt.of_snapshot
    {p' : AuthProc}
    (h : CountingAt base a counted p)
    (hprog : p'.prog = p.prog) :
    CountingAt base a counted p' := by
  cases h with
  | loading h hreads hopen => exact .loading (hprog.trans h) hreads hopen
  | passed h hreads hsame hverify hverdict hopen =>
      exact .passed (hprog.trans h) hreads hsame hverify hverdict hopen
  | refused h hreads hsame hverify hverdict hopen =>
      exact .refused (hprog.trans h) hreads hsame hverify hverdict hopen
  | counted hcounted hrest => exact .counted hcounted (hprog ▸ hrest)
  | failed h => exact .failed (hprog.trans h)

/-- The `UPDATE` of the count, whatever was read before. -/
theorem exec_updateFailedLoginCount
    {snap : AuthDb} {old : UserRow} {count updatedAt : ℤ} {n : ℕ} {ws : List RowWrite}
    (haccount : account db username = some row)
    (hsnap : account snap username = some old)
    (hid : old.id = row.id)
    (hexec : authSchema.exec (.updateFailedLoginCount row.id count updatedAt) snap db =
      .ok (n, ws)) :
    ws = [.putUser (setFailedCount count updatedAt row)] := by
  have hrows : Table.recheck (userIs row.id) snap.users db.users = [row] := by
    apply recheck_eq_of_old (account_mem haccount).1 (by simp [userIs]) (account_mem hsnap).1 hid
      (by simp [userIs, hid])
    intro r _ hr
    simpa [userIs] using hr
  change updateUsers _ _ snap db = _ at hexec
  simp only [updateUsers, hrows, Except.ok.injEq, Prod.mk.injEq] at hexec
  rw [← hexec.2]
  rfl

/-- What a move does to a query outside a transaction. -/
theorem Outside.move_query
    {stmt : AuthStmt} {next : AuthRes stmt → AuthProg Reply}
    (houtside : Outside base username p)
    (hmove : p.Move authSchema db held db' p')
    (hprog : p.prog = .query stmt next) :
    (db' = db ∧ p' = { p with snapshot := some db } ∧ p.snapshot = none) ∨
      (db' = db ∧ ∃ fault, p' = p.fail fault) ∨
      ∃ snap result ws, p.snapshot = some snap ∧ stmt.exec snap db = .ok (result, ws) ∧
        db' = authSchema.applyAll ws db ∧ p' = .fresh p.call (next result) := by
  have hview : p.view authSchema db = db := by
    rw [Proc.view, houtside.writes, Schema.applyAll_nil]
  cases hmove.of_query hprog with
  | takeSnapshot hsnap =>
      rw [hview]
      exact Or.inl ⟨rfl, rfl, hsnap⟩
  | error hsnap hexec => exact Or.inr (Or.inl ⟨rfl, _, rfl⟩)
  | finish hsnap hinTx hfree hexec =>
      rw [houtside.inTx] at hinTx
      cases hinTx
  | auto hsnap hinTx hfree hexec =>
      rw [hview] at hexec ⊢
      exact Or.inr (Or.inr ⟨_, _, _, hsnap, hexec, rfl, rfl⟩)

/-- The result of a login's `UPDATE`: the account counts it. -/
theorem Outside.afterUpdate
    {snap : AuthDb} {count updatedAt : ℤ} {n : ℕ} {ws : List RowWrite} {user : UserRow}
    {next : AuthProg Reply}
    (houtside : Outside base username p)
    (haccount : account db username = some row)
    (hrow : SameAccount base row)
    (huser : SameAccount base user)
    (hsnap : p.snapshot = some snap)
    (hexec : (AuthStmt.updateFailedLoginCount user.id count updatedAt).exec snap db =
      .ok (n, ws))
    (hopen : ¬ counted)
    (hcount : count = a.countAfter row)
    (hrest : LoginRest a next) :
    Counts base row username a counted (authSchema.applyAll ws db) (.fresh p.call next) := by
  rcases houtside.snapshot snap hsnap with ⟨old, hold, hsame⟩
  rw [huser.id, ← hrow.id] at hexec
  have hws := exec_updateFailedLoginCount haccount hold (hsame.id.trans hrow.id.symm) hexec
  rw [hws]
  exact ⟨_, account_put haccount, hrow.setFailedCount,
    Or.inr ⟨hopen, hcount, .counted trivial hrest⟩⟩

theorem loginDenied_rest : LoginRest a (loginDenied a) := by
  unfold loginDenied
  split
  · exact Or.inl ⟨_, rfl⟩
  · split <;> exact Or.inl ⟨_, rfl⟩

theorem SameAccount.between
    {base row row' : UserRow}
    (h : SameAccount base row)
    (h' : SameAccount base row') :
    SameAccount row row' :=
  ⟨h'.id.trans h.id.symm, h'.username.trans h.username.symm,
    h'.passwordHash.trans h.passwordHash.symm, h'.isActive.trans h.isActive.symm,
    h'.passwordExpiresAt.trans h.passwordExpiresAt.symm⟩

/-- The answer of the `SELECT`: the login goes on from the state of its snapshot. -/
theorem CountingAt.afterLoad
    {old : UserRow} {call : Call}
    (hreads : a.ReadsAccount)
    (hopen : ¬ counted)
    (haccount : account db username = some row)
    (hrow : SameAccount base row)
    (hold : SameAccount base old) :
    Counts base row username a counted db (.fresh call (loginLoaded a (some old))) := by
  refine ⟨row, haccount, hrow, ?_⟩
  rcases loginLoaded_cases a old with
    ⟨hverify, reply, hreply⟩ | ⟨verifyOk, hverify, ⟨mustChange, hverdict, hnext⟩ | ⟨hverdict, hnext⟩⟩
  · right
    rw [hreply]
    refine ⟨hopen, ?_, .counted trivial (Or.inl ⟨reply, rfl⟩)⟩
    rw [hreads.countAfter, (hold.between hrow).passwordHash, hverify]
  · left
    rw [hnext]
    exact ⟨rfl, .passed rfl hreads hold hverify hverdict hopen⟩
  · left
    rw [hnext]
    exact ⟨rfl, .refused rfl hreads hold hverify hverdict hopen⟩

theorem CountingAt.move
    (hat : CountingAt base a counted p)
    (houtside : Outside base username p)
    (hname : foldUsername a.providedUsername = username)
    (haccount : account db username = some row)
    (hrow : SameAccount base row)
    (hcurrent : p.snapshot.isSome →
      (∀ user, p.prog = loginRefused a user → row.failedLoginCount = user.failedLoginCount) ∧
        (∀ user mustChange, p.prog = loginPassed a user mustChange →
          row.failedLoginCount < a.settings.login.maximumFailedCount))
    (hmove : p.Move authSchema db held db' p') :
    Outside base username p' ∧ Counts base row username a counted db' p' := by
  have hopened : ∀ {p' : AuthProc}, p' = { p with snapshot := some db } →
      Outside base username p' ∧ Counts base row username a counted db p' := by
    rintro _ rfl
    refine ⟨⟨houtside.inTx, houtside.writes, ?_⟩, row, haccount, hrow,
      Or.inl ⟨rfl, hat.of_snapshot rfl⟩⟩
    intro snap hsnap
    cases hsnap
    exact ⟨row, haccount, hrow⟩
  have hfailed : ∀ fault, Outside base username (p.fail fault) ∧
      Counts base row username a counted db (p.fail fault) := fun fault =>
    ⟨.fresh, row, haccount, hrow, Or.inl ⟨rfl, .failed rfl⟩⟩
  cases hat with
  | loading hprog hreads hopen =>
      rcases houtside.move_query hmove hprog with
        ⟨rfl, hp', _⟩ | ⟨rfl, fault, rfl⟩ | ⟨snap, result, ws, hsnap, hexec, rfl, rfl⟩
      · exact hopened hp'
      · exact hfailed fault
      · rcases houtside.snapshot snap hsnap with ⟨old, hold, hsame⟩
        rw [← hname] at hold
        simp only [AuthStmt.exec, Except.ok.injEq, Prod.mk.injEq] at hexec
        rcases hexec with ⟨rfl, rfl⟩
        refine ⟨.fresh, ?_⟩
        change Counts _ _ _ _ _ _ (.fresh _ (loginLoaded a (account snap _)))
        rw [hold]
        exact CountingAt.afterLoad hreads hopen haccount hrow hsame
  | passed hprog hreads hsame hverify hverdict hopen =>
      rename_i user verifyOk mustChange
      rcases houtside.move_query hmove hprog with
        ⟨rfl, hp', _⟩ | ⟨rfl, fault, rfl⟩ | ⟨snap, result, ws, hsnap, hexec, rfl, rfl⟩
      · exact hopened hp'
      · exact hfailed fault
      · have hbelow := (hcurrent (by rw [hsnap]; rfl)).2 user mustChange hprog
        have hbetween := hsame.between hrow
        refine ⟨.fresh, houtside.afterUpdate haccount hrow hsame hsnap hexec hopen ?_ ?_⟩
        · rw [hreads.countAfter, hbetween.passwordHash, hverify]
          simp only [hbetween.loginVerdict_passed hverdict hbelow]
        · split
          · exact Or.inl ⟨_, rfl⟩
          · exact Or.inr ⟨_, _, rfl⟩
  | refused hprog hreads hsame hverify hverdict hopen =>
      rename_i user verifyOk
      rcases houtside.move_query hmove hprog with
        ⟨rfl, hp', _⟩ | ⟨rfl, fault, rfl⟩ | ⟨snap, result, ws, hsnap, hexec, rfl, rfl⟩
      · exact hopened hp'
      · exact hfailed fault
      · have hfound := (hcurrent (by rw [hsnap]; rfl)).1 user hprog
        have hbetween := hsame.between hrow
        refine ⟨.fresh, houtside.afterUpdate haccount hrow hsame hsnap hexec hopen ?_
          loginDenied_rest⟩
        rw [hreads.countAfter, hbetween.passwordHash, hverify]
        simp only [hbetween.loginVerdict_eq hfound, hverdict, hfound]
  | counted hcounted hrest =>
      rcases hrest with ⟨reply, hprog⟩ | ⟨user, mustChange, hprog⟩
      · have hrunning := hmove.running
        simp [Proc.running, hprog] at hrunning
      · rcases houtside.move_query hmove hprog with
          ⟨rfl, hp', _⟩ | ⟨rfl, fault, rfl⟩ | ⟨snap, result, ws, hsnap, hexec, rfl, rfl⟩
        · exact hopened hp'
        · exact hfailed fault
        · rw [(insertSession_ok hexec).1]
          exact ⟨.fresh, row, haccount, hrow,
            Or.inl ⟨rfl, .counted hcounted (Or.inl ⟨_, rfl⟩)⟩⟩
  | failed hprog =>
      have hrunning := hmove.running
      simp [Proc.running, hprog] at hrunning

end Moves

/-! ## The logins count as in some order -/

/-- `order` lists the logins that the account shows, in the order in which
they count. -/
structure Tallied (base : UserRow) (username : String) (maximum : ℤ)
    (order : List (ℕ × LoginArgs)) (sys : AuthSystem) : Prop where
  nodup : (order.map Prod.fst).Nodup
  made : ∀ e ∈ order, ∃ p, sys.procs[e.1]? = some p ∧ p.call = .login e.2
  shown : ∃ row, account sys.db username = some row ∧ SameAccount base row ∧
    row.failedLoginCount = tally base base.failedLoginCount (order.map Prod.snd)
  each : ∀ i p, sys.procs[i]? = some p → ∃ a, p.call = .login a ∧
    foldUsername a.providedUsername = username ∧
    a.settings.login.maximumFailedCount = maximum ∧ Outside base username p ∧
    CountingAt base a ((i, a) ∈ order) p

theorem CountingAt.congr
    {base : UserRow} {a : LoginArgs} {counted counted' : Prop} {p : AuthProc}
    (h : CountingAt base a counted p)
    (hiff : counted' ↔ counted) :
    CountingAt base a counted' p :=
  propext hiff ▸ h

theorem tally_snoc
    {base row : UserRow} {count : ℤ} {calls : List LoginArgs} {a : LoginArgs}
    (hrow : SameAccount base row)
    (hcount : row.failedLoginCount = tally base count calls) :
    tally base count (calls ++ [a]) = a.countAfter row := by
  rw [← hrow.countAfter_base, hcount, tally, List.foldl_append]
  rfl

theorem LoginArgs.le_countAfter
    {a : LoginArgs} {row : UserRow}
    (h : a.settings.login.maximumFailedCount ≤ row.failedLoginCount) :
    a.settings.login.maximumFailedCount ≤ a.countAfter row := by
  rcases handleLogin_cases a with ⟨hreads, _⟩ | ⟨_, hneutral⟩
  · rw [hreads.countAfter]
    split
    · exact h
    · split
      · rename_i hverdict
        have hbelow := loginVerdict_passed_lt hverdict
        omega
      · exact Int.le_add_one h
  · rw [hneutral]
    exact h

section Tallies

variable {base : UserRow} {username : String} {maximum : ℤ} {order : List (ℕ × LoginArgs)}
variable {sys : AuthSystem}

theorem Tallied.start
    (hprocs : sys.procs = [])
    (haccount : account sys.db username = some base) :
    Tallied base username maximum [] sys where
  nodup := List.nodup_nil
  made := fun _ he => absurd he List.not_mem_nil
  shown := ⟨base, haccount, .refl base, rfl⟩
  each := fun i p hi => by simp [hprocs] at hi

theorem Tallied.index_lt
    (h : Tallied base username maximum order sys)
    {e : ℕ × LoginArgs}
    (he : e ∈ order) :
    e.1 < sys.procs.length := by
  rcases h.made e he with ⟨p, hp, _⟩
  exact (List.getElem?_eq_some_iff.1 hp).1

/-- A login is added to the order, at an index that is not in it. -/
theorem nodup_snoc_order
    {i : ℕ} {a : LoginArgs}
    (h : (order.map Prod.fst).Nodup)
    (hfresh : ∀ b, (i, b) ∉ order) :
    ((order ++ [(i, a)]).map Prod.fst).Nodup := by
  rw [List.map_append, List.map_singleton, List.nodup_append]
  refine ⟨h, List.nodup_singleton i, ?_⟩
  intro j hj k hk hjk
  have hji : j = i := hjk.trans (List.mem_singleton.1 hk)
  rcases List.mem_map.1 hj with ⟨e, he, rfl⟩
  exact hfresh e.2 (hji ▸ he)

theorem mem_snoc_order_of_ne
    {i j : ℕ} {a b : LoginArgs}
    (hji : j ≠ i) :
    (j, b) ∈ order ++ [(i, a)] ↔ (j, b) ∈ order := by
  simp [hji]

theorem Tallied.afterSpawn
    {a : LoginArgs}
    (h : Tallied base username maximum order sys)
    (hname : foldUsername a.providedUsername = username)
    (hmaximum : a.settings.login.maximumFailedCount = maximum) :
    ∃ order', Tallied base username maximum order'
      ⟨sys.db, sys.procs ++ [.fresh (.login a) (handleLogin a)]⟩ := by
  have hfresh : ∀ b, (sys.procs.length, b) ∉ order := fun b hb =>
    Nat.lt_irrefl _ (h.index_lt hb)
  have hmade : ∀ e ∈ order, ∃ p : AuthProc,
      (sys.procs ++ [.fresh (.login a) (handleLogin a)])[e.1]? = some p ∧
        p.call = .login e.2 := by
    intro e he
    rcases h.made e he with ⟨p, hp, hcall⟩
    exact ⟨p, List.getElem?_append_left (h.index_lt he) ▸ hp, hcall⟩
  rcases handleLogin_cases a with ⟨hreads, hprog⟩ | ⟨⟨reply, hreply⟩, hneutral⟩
  · refine ⟨order, h.nodup, hmade, h.shown, ?_⟩
    intro i p hi
    rcases System.getElem?_append_eq hi with ⟨hlen, hp⟩ | hold
    · subst hlen
      subst hp
      exact ⟨a, rfl, hname, hmaximum, .fresh, .loading hprog hreads (hfresh a)⟩
    · exact h.each i p hold
  · rcases h.shown with ⟨row, haccount, hrow, hcount⟩
    refine ⟨order ++ [(sys.procs.length, a)], nodup_snoc_order h.nodup hfresh, ?_, ?_, ?_⟩
    · intro e he
      rcases List.mem_append.1 he with he | he
      · exact hmade e he
      · rw [List.mem_singleton.1 he]
        exact ⟨_, List.getElem?_concat_length, rfl⟩
    · refine ⟨row, haccount, hrow, ?_⟩
      rw [List.map_append, List.map_singleton, tally_snoc hrow hcount, hneutral]
    · intro i p hi
      rcases System.getElem?_append_eq hi with ⟨hlen, hp⟩ | hold
      · subst hlen
        subst hp
        exact ⟨a, rfl, hname, hmaximum, .fresh, .counted (by simp) (Or.inl ⟨reply, hreply⟩)⟩
      · rcases h.each i p hold with ⟨b, hcall, hb, hmax, houtside, hat⟩
        have hne : i ≠ sys.procs.length :=
          ((List.getElem?_eq_some_iff.1 hold).1).ne
        exact ⟨b, hcall, hb, hmax, houtside, hat.congr (mem_snoc_order_of_ne hne)⟩

/-- Login `i` changes; `counted'` once it is in the new order. -/
theorem Tallied.afterChange
    {i : ℕ} {p p' : AuthProc} {a : LoginArgs} {db' : AuthDb} {row : UserRow}
    (h : Tallied base username maximum order sys)
    (hi : sys.procs[i]? = some p)
    (hcall : p.call = .login a)
    (hcall' : p'.call = p.call)
    (haccount : account sys.db username = some row)
    (hname : foldUsername a.providedUsername = username)
    (hmaximum : a.settings.login.maximumFailedCount = maximum)
    (houtside : Outside base username p')
    (hcounts : Counts base row username a ((i, a) ∈ order) db' p') :
    ∃ order', Tallied base username maximum order' ⟨db', sys.procs.set i p'⟩ := by
  have hmade : ∀ e : ℕ × LoginArgs,
      (∃ q, sys.procs[e.1]? = some q ∧ q.call = .login e.2) →
      ∃ q, (sys.procs.set i p')[e.1]? = some q ∧ q.call = .login e.2 := by
    rintro e ⟨q, hq, hqcall⟩
    by_cases hei : e.1 = i
    · rw [hei, hi, Option.some.injEq] at hq
      refine ⟨p', ?_, hcall'.trans (hq ▸ hqcall)⟩
      rw [hei, List.getElem?_set_self (List.getElem?_eq_some_iff.1 hi).1]
    · exact ⟨q, by rw [List.getElem?_set_ne (Ne.symm hei)]; exact hq, hqcall⟩
  rcases h.shown with ⟨row₀, haccount₀, hrow₀, hcount₀⟩
  obtain rfl : row = row₀ := by simpa [haccount] using haccount₀
  rcases hcounts with ⟨row', haccount', hrow', ⟨hcount, hat⟩ | ⟨hopen, hcount, hat⟩⟩
  · refine ⟨order, h.nodup, fun e he => hmade e (h.made e he), ?_, ?_⟩
    · exact ⟨row', haccount', hrow', hcount.trans hcount₀⟩
    · intro j q hj
      rcases System.getElem?_set_eq hi hj with ⟨rfl, rfl⟩ | ⟨_, hold⟩
      · exact ⟨a, hcall'.trans hcall, hname, hmaximum, houtside, hat⟩
      · exact h.each j q hold
  · have hfresh : ∀ b, (i, b) ∉ order := by
      intro b hb
      rcases h.made _ hb with ⟨q, hq, hqcall⟩
      rw [hi, Option.some.injEq] at hq
      rw [← hq, hcall, Call.login.injEq] at hqcall
      exact hopen (hqcall ▸ hb)
    refine ⟨order ++ [(i, a)], nodup_snoc_order h.nodup hfresh, ?_, ?_, ?_⟩
    · intro e he
      rcases List.mem_append.1 he with he | he
      · exact hmade e (h.made e he)
      · rw [List.mem_singleton.1 he]
        exact hmade (i, a) ⟨p, hi, hcall⟩
    · refine ⟨row', haccount', hrow', ?_⟩
      rw [List.map_append, List.map_singleton, tally_snoc hrow₀ hcount₀, hcount]
    · intro j q hj
      rcases System.getElem?_set_eq hi hj with ⟨rfl, rfl⟩ | ⟨hne, hold⟩
      · exact ⟨a, hcall'.trans hcall, hname, hmaximum, houtside, hat.congr (by simp)⟩
      · rcases h.each j q hold with ⟨b, hbcall, hb, hmax, hbout, hbat⟩
        exact ⟨b, hbcall, hb, hmax, hbout, hbat.congr (mem_snoc_order_of_ne hne)⟩

/-- A step keeps the tally, and a count at the maximum stays at it. -/
theorem Tallied.step
    {sys' : AuthSystem} {label : Label Call}
    (h : Tallied base username maximum order sys)
    (hlogin : LoginOf username maximum label)
    (hcurrent : CountsCurrent username sys label)
    (hstep : AuthStep sys label sys') :
    (∃ order', Tallied base username maximum order' sys') ∧
      ∀ count count', countOf sys.db username = some count →
        countOf sys'.db username = some count' → maximum ≤ count → maximum ≤ count' := by
  rcases h.shown with ⟨row, haccount, hrow, _⟩
  have hcountOf : countOf sys.db username = some row.failedLoginCount := by
    rw [countOf, haccount, Option.map_some]
  cases hstep with
  | spawn call =>
      rcases hlogin call rfl with ⟨a, rfl, hname, hmaximum⟩
      refine ⟨h.afterSpawn hname hmaximum, ?_⟩
      intro count count' hcount hcount' hle
      rw [hcount] at hcount'
      exact (Option.some.inj hcount') ▸ hle
  | advance hi hadvance =>
      rename_i i p db' p'
      rcases h.each i p hi with ⟨a, hcall, hname, hmaximum, houtside, hat⟩
      have hmove := Proc.advance_move hadvance
      have hmoved := hat.move houtside hname haccount hrow
        (fun hsnap => hcurrent i rfl p a hi hsnap hcall _ hcountOf) hmove
      refine ⟨h.afterChange hi hcall hmove.call_eq haccount hname hmaximum hmoved.1 hmoved.2, ?_⟩
      intro count count' hcount hcount' hle
      rcases hmoved.2 with ⟨row', haccount', _, hafter⟩
      have hcount'' : row'.failedLoginCount = count' := by
        simpa [countOf, haccount'] using hcount'
      have hcount₀ : row.failedLoginCount = count := by
        simpa [hcountOf] using hcount
      rcases hafter with ⟨hsame, _⟩ | ⟨_, hsame, _⟩
      · omega
      · have hkept : maximum ≤ a.countAfter row :=
          hmaximum ▸ LoginArgs.le_countAfter (by omega)
        omega
  | interrupt hi hrunning =>
      rename_i i p
      rcases h.each i p hi with ⟨a, hcall, hname, hmaximum, _, _⟩
      refine ⟨h.afterChange hi hcall rfl haccount hname hmaximum .fresh
        ⟨row, haccount, hrow, Or.inl ⟨rfl, .failed rfl⟩⟩, ?_⟩
      intro count count' hcount hcount' hle
      rw [hcount] at hcount'
      exact (Option.some.inj hcount') ▸ hle
  | deadlock hi hcycle =>
      rename_i i p
      rcases h.each i p hi with ⟨a, hcall, hname, hmaximum, _, _⟩
      refine ⟨h.afterChange hi hcall rfl haccount hname hmaximum .fresh
        ⟨row, haccount, hrow, Or.inl ⟨rfl, .failed rfl⟩⟩, ?_⟩
      intro count count' hcount hcount' hle
      rw [hcount] at hcount'
      exact (Option.some.inj hcount') ▸ hle

theorem Tallied.of_steps
    {start : AuthSystem}
    (hprocs : start.procs = [])
    (haccount : account start.db username = some base)
    (hrun : System.Steps authSchema Call.start
      (fun s label => LoginOf username maximum label ∧ CountsCurrent username s label)
      start sys) :
    ∃ order, Tallied base username maximum order sys := by
  induction hrun with
  | refl => exact ⟨[], .start hprocs haccount⟩
  | tail _ hlast ih =>
      rcases hlast with ⟨label, ⟨hlogin, hcurrent⟩, hstep⟩
      rcases ih with ⟨order, h⟩
      exact (h.step hlogin hcurrent hstep).1

end Tallies

/-- The stored count is the one that some of the logins, among them all that
have returned, leave when they are served one after the other. -/
def Serialized (start sys : AuthSystem) (username : String) : Prop :=
  ∃ order : List (ℕ × LoginArgs),
    (order.map Prod.fst).Nodup ∧
    (∀ e ∈ order, ∃ p, sys.procs[e.1]? = some p ∧ p.call = .login e.2) ∧
    (∀ i a reply, Returned sys i (.login a) reply → (i, a) ∈ order) ∧
    countOf sys.db username =
      countOf (serialLogins (order.map Prod.snd) start.db) username

theorem Tallied.serialized
    {base : UserRow} {username : String} {maximum : ℤ} {order : List (ℕ × LoginArgs)}
    {start sys : AuthSystem}
    (h : Tallied base username maximum order sys)
    (haccount : account start.db username = some base) :
    Serialized start sys username := by
  refine ⟨order, h.nodup, h.made, ?_, ?_⟩
  · rintro i a reply ⟨p, hp, hcall, hprog⟩
    rcases h.each i p hp with ⟨b, hbcall, _, _, _, hat⟩
    rw [hcall, Call.login.injEq] at hbcall
    rw [hbcall]
    cases hat with
    | loading hother => rw [hprog] at hother; cases hother
    | passed hother => rw [hprog] at hother; cases hother
    | refused hother => rw [hprog] at hother; cases hother
    | counted hcounted => exact hcounted
    | failed hother => rw [hprog] at hother; cases hother
  · have hnames : ∀ a ∈ order.map Prod.snd, foldUsername a.providedUsername = username := by
      intro a ha
      rcases List.mem_map.1 ha with ⟨e, he, rfl⟩
      rcases h.made e he with ⟨p, hp, hcall⟩
      rcases h.each e.1 p hp with ⟨b, hbcall, hb, _⟩
      rw [hcall, Call.login.injEq] at hbcall
      exact hbcall ▸ hb
    rcases h.shown with ⟨row, hrowAccount, _, hcount⟩
    rw [serialLogins_account hnames haccount (.refl base), countOf, hrowAccount, Option.map_some,
      hcount]

/-- Logins whose counts are current when they are stored count as if served one
after the other, and none of them brings a count at the maximum below it. -/
theorem loginCounts_serialized
    {start sys : AuthSystem} {username : String} {maximum : ℤ} {base : UserRow}
    (hprocs : start.procs = [])
    (haccount : account start.db username = some base)
    (hrun : System.Steps authSchema Call.start
      (fun s label => LoginOf username maximum label ∧ CountsCurrent username s label)
      start sys) :
    Serialized start sys username ∧
      ∀ label sys', LoginOf username maximum label → CountsCurrent username sys label →
        AuthStep sys label sys' → ∀ count count', countOf sys.db username = some count →
          countOf sys'.db username = some count' → maximum ≤ count → maximum ≤ count' := by
  rcases Tallied.of_steps hprocs haccount hrun with ⟨order, h⟩
  exact ⟨h.serialized haccount, fun label sys' hlogin hcurrent hstep =>
    (h.step hlogin hcurrent hstep).2⟩

/-! ## Runs -/

/-- A guess at the password of the account. -/
def wrongLogin : LoginArgs := { sampleLogin with password := "guess", sid := 11 }

theorem loginOf_spawn
    {a : LoginArgs} {username : String} {maximum : ℤ}
    (hname : foldUsername a.providedUsername = username)
    (hmaximum : a.settings.login.maximumFailedCount = maximum) :
    LoginOf username maximum (.spawn (.login a)) := by
  intro call hcall
  cases hcall
  exact ⟨a, rfl, hname, hmaximum⟩

theorem loginOf_advance
    {i : ℕ} {username : String} {maximum : ℤ} :
    LoginOf username maximum (.advance i) := by
  intro call hcall
  cases hcall

/-- The maximum of every login is five, and a login that is about to store a
count stores one more than is stored. -/
def storesNext (sys : AuthSystem) (label : Label Call) : Bool :=
  (sys.procs.all fun p =>
      match p.call with
      | .login a => a.settings.login.maximumFailedCount == 5
      | _ => true) &&
    match label with
    | .advance i =>
        match sys.procs[i]?.map Proc.prog with
        | some (.query (.updateFailedLoginCount _ count _) _) =>
            (countOf sys.db "alice").all fun stored =>
              stored + 1 == count && decide (stored < 5)
        | _ => true
    | _ => true

theorem storesNext_current
    {sys : AuthSystem} {label : Label Call}
    (h : storesNext sys label = true) :
    CountsCurrent "alice" sys label := by
  rintro i rfl p a hi _ hcall count hcount
  simp only [storesNext, Bool.and_eq_true, List.all_eq_true] at h
  rcases h with ⟨hmaximum, h⟩
  constructor
  · intro user hprog
    simp only [hi, Option.map_some, hprog, loginRefused, hcount, Option.all_some,
      Bool.and_eq_true, beq_iff_eq] at h
    omega
  · intro user mustChange hprog
    have hfive := hmaximum p (List.mem_of_getElem? hi)
    simp only [hcall, beq_iff_eq] at hfive
    simp only [hi, Option.map_some, hprog, loginPassed, hcount, Option.all_some,
      Bool.and_eq_true, decide_eq_true_eq] at h
    rw [hfive]
    exact h.2

/-- Two guesses, the second of which reads what the first has stored. -/
def guessSchedule : List (Label Call) :=
  [.spawn (.login wrongLogin), .spawn (.login wrongLogin)] ++ List.replicate 4 (.advance 0) ++
    List.replicate 4 (.advance 1)

/-- Two guesses that both read the count before either stores it. -/
def overlapSchedule : List (Label Call) :=
  [.spawn (.login wrongLogin), .spawn (.login wrongLogin)] ++ List.replicate 2 (.advance 0) ++
    List.replicate 2 (.advance 1) ++ List.replicate 2 (.advance 0) ++ List.replicate 2 (.advance 1)

def overlapEnd : Option AuthSystem :=
  System.performAll authSchema Call.start (fun _ _ => True) overlapSchedule sampleStart

theorem overlapEnd_outcomes :
    overlapEnd.map (fun sys => (outcomes sys, countOf sys.db "alice")) =
      some ([some (.login .denied), some (.login .denied)], some 1) := by
  decide +kernel

theorem serialGuesses :
    countOf (serialLogins [wrongLogin, wrongLogin] sampleStart.db) "alice" = some 2 := by
  decide +kernel

theorem wrongLogin_loginOf
    {label : Label Call} {n : ℕ}
    (hlabel : label = .spawn (.login wrongLogin) ∨ label = .spawn (.login sampleLogin) ∨
      label = .advance n) :
    LoginOf "alice" 5 label := by
  rcases hlabel with rfl | rfl | rfl
  · exact loginOf_spawn (by decide +kernel) rfl
  · exact loginOf_spawn (by decide +kernel) rfl
  · exact loginOf_advance

theorem loginCounts_guesses :
    ∃ sys, System.performAll authSchema Call.start (fun s label => storesNext s label = true)
        guessSchedule sampleStart = some sys ∧
      countOf sys.db "alice" = some 2 ∧ Serialized sampleStart sys "alice" := by
  have hend : (System.performAll authSchema Call.start
      (fun s label => storesNext s label = true) guessSchedule sampleStart).map
        (fun sys => countOf sys.db "alice") = some (some 2) := by
    decide +kernel
  rcases Option.map_eq_some_iff.mp hend with ⟨sys, hsys, hcount⟩
  refine ⟨sys, hsys, hcount, ?_⟩
  have haccount : account sampleStart.db "alice" = some sampleUser := by decide +kernel
  refine (@loginCounts_serialized sampleStart sys "alice" 5 sampleUser rfl haccount ?_).1
  apply System.performAll_steps_of hsys
  intro label hlabel s hnext
  refine ⟨?_, storesNext_current hnext⟩
  simp only [guessSchedule, List.mem_append, List.mem_cons, List.mem_replicate, List.not_mem_nil,
    or_false] at hlabel
  rcases hlabel with ((rfl | rfl) | ⟨_, rfl⟩) | ⟨_, rfl⟩
  · exact wrongLogin_loginOf (n := 0) (Or.inl rfl)
  · exact wrongLogin_loginOf (n := 0) (Or.inl rfl)
  · exact wrongLogin_loginOf (Or.inr (Or.inr rfl))
  · exact wrongLogin_loginOf (Or.inr (Or.inr rfl))

/-- The account of the last example after four failed attempts. -/
def warnedStart : AuthSystem where
  db :=
    { users := Table.empty.put { sampleUser with failedLoginCount := 4 }
      sessions := .empty
      used := .empty }
  procs := []

/-- A login with the right password reads the count, a guess reads it too and
stores the maximum, then the login stores its zero. -/
def unlockSchedule : List (Label Call) :=
  [.spawn (.login sampleLogin), .spawn (.login wrongLogin)] ++ List.replicate 2 (.advance 0) ++
    List.replicate 4 (.advance 1) ++ [.advance 0]

theorem unlockEnd_counts :
    (System.performAll authSchema Call.start (fun _ _ => True) unlockSchedule warnedStart).bind
        (fun sys => (sys.perform authSchema Call.start (.advance 0)).map fun sys' =>
          (countOf sys.db "alice", countOf sys'.db "alice")) = some (some 5, some 0) := by
  decide +kernel

/-- The order of two guesses is all that is open about it. -/
theorem not_serialized_of_two_guesses
    {sys : AuthSystem}
    (hcalls : sys.procs.map Proc.call = [.login wrongLogin, .login wrongLogin])
    (hended : ∀ i < 2, ∃ reply, Returned sys i (.login wrongLogin) reply)
    (hcount : countOf sys.db "alice" = some 1) :
    ¬ Serialized sampleStart sys "alice" := by
  rintro ⟨order, hnodup, hmade, hreturned, hserial⟩
  have hlength : sys.procs.length = 2 := by simpa using congrArg List.length hcalls
  have hsnd : ∀ e ∈ order, e.2 = wrongLogin ∧ e.1 < 2 := by
    intro e he
    rcases hmade e he with ⟨p, hp, hcall⟩
    have hlt := (List.getElem?_eq_some_iff.1 hp).1
    have hmem : p.call ∈ sys.procs.map Proc.call :=
      List.mem_map_of_mem (List.mem_of_getElem? hp)
    rw [hcalls, hcall] at hmem
    simp only [List.mem_cons, Call.login.injEq, List.not_mem_nil, or_false, or_self] at hmem
    exact ⟨hmem, hlength ▸ hlt⟩
  have hperm : (order.map Prod.fst).Perm [0, 1] := by
    rw [List.perm_ext_iff_of_nodup hnodup (by decide)]
    intro i
    constructor
    · intro hi
      rcases List.mem_map.1 hi with ⟨e, he, rfl⟩
      have := (hsnd e he).2
      interval_cases e.1 <;> simp
    · intro hi
      have hlt : i < 2 := by
        simp only [List.mem_cons, List.not_mem_nil, or_false] at hi
        omega
      rcases hended i hlt with ⟨reply, hreply⟩
      exact List.mem_map.2 ⟨_, hreturned i wrongLogin reply hreply, rfl⟩
  have hsize : order.length = 2 := by simpa using hperm.length_eq
  have hsame : order.map Prod.snd = [wrongLogin, wrongLogin] := by
    have hreplicate : order.map Prod.snd = List.replicate order.length wrongLogin := by
      rw [List.eq_replicate_iff]
      refine ⟨by simp, ?_⟩
      intro a ha
      rcases List.mem_map.1 ha with ⟨e, he, rfl⟩
      exact (hsnd e he).1
    rw [hreplicate, hsize]
    rfl
  rw [hsame, serialGuesses, hcount] at hserial
  cases hserial

/-- Of two overlapping guesses one is lost, and a login that overlaps the guess
that locks the account unlocks it. -/
theorem loginCounts_fails :
    (∃ sys, System.Steps authSchema Call.start (fun _ label => LoginOf "alice" 5 label)
        sampleStart sys ∧
      (∀ p ∈ sys.procs, p.running = false) ∧ ¬ Serialized sampleStart sys "alice") ∧
      ∃ sys sys', System.Steps authSchema Call.start (fun _ label => LoginOf "alice" 5 label)
          warnedStart sys ∧
        AuthStep sys (.advance 0) sys' ∧
        countOf sys.db "alice" = some 5 ∧ countOf sys'.db "alice" = some 0 := by
  constructor
  · rcases Option.map_eq_some_iff.mp overlapEnd_outcomes with ⟨sys, hsys, hend⟩
    rcases Prod.mk.inj hend with ⟨hreplies, hcount⟩
    have hcalls := System.performAll_calls hsys
    refine ⟨sys, ?_, ?_, ?_⟩
    · apply System.performAll_steps_of hsys
      intro label hlabel _ _
      simp only [overlapSchedule, List.mem_append, List.mem_cons, List.mem_replicate,
        List.not_mem_nil, or_false] at hlabel
      rcases hlabel with ((((rfl | rfl) | ⟨_, rfl⟩) | ⟨_, rfl⟩) | ⟨_, rfl⟩) | ⟨_, rfl⟩
      · exact wrongLogin_loginOf (n := 0) (Or.inl rfl)
      · exact wrongLogin_loginOf (n := 0) (Or.inl rfl)
      all_goals exact wrongLogin_loginOf (Or.inr (Or.inr rfl))
    · apply ended_of_outcomes
      rw [hreplies]
      simp
    · apply not_serialized_of_two_guesses hcalls _ hcount
      intro i hi
      refine ⟨.login .denied, returned_of_outcomes ?_ ?_⟩
      · rw [hcalls]
        interval_cases i <;> rfl
      · rw [hreplies]
        interval_cases i <;> rfl
  · rcases Option.bind_eq_some_iff.mp unlockEnd_counts with ⟨sys, hsys, hlast⟩
    rcases Option.map_eq_some_iff.mp hlast with ⟨sys', hsys', hcounts⟩
    rcases Prod.mk.inj hcounts with ⟨hcount, hcount'⟩
    refine ⟨sys, sys', ?_, System.perform_step hsys', hcount, hcount'⟩
    apply System.performAll_steps_of hsys
    intro label hlabel _ _
    simp only [unlockSchedule, List.mem_append, List.mem_cons, List.mem_replicate,
      List.not_mem_nil, or_false] at hlabel
    rcases hlabel with (((rfl | rfl) | ⟨_, rfl⟩) | ⟨_, rfl⟩) | rfl
    · exact wrongLogin_loginOf (n := 0) (Or.inr (Or.inl rfl))
    · exact wrongLogin_loginOf (n := 0) (Or.inl rfl)
    all_goals exact wrongLogin_loginOf (Or.inr (Or.inr rfl))

end Untangled.Auth
