import Untangled.ReadCommittedLocking
import Untangled.SessionStages

/-!
# The interleaved service refines the token ledger

Every step of the concurrent system is a step of the abstract ledger: the
create, rotation and first-refresh transactions take effect at their commit as
one atomic exchange, and every other step at most removes entries.
-/

namespace Untangled.Auth

open ReadCommitted TokenLedger

/-- The invariant of every reachable state. -/
structure Staged (sys : AuthSystem) : Prop where
  locked : sys.WellLocked authSchema
  stage : ∀ {i : ℕ} {p : AuthProc}, sys.procs[i]? = some p → Stage sys.db p
  apart : CallsApart sys

/-! ## What the others do -/

theorem HoldsRow.frame {db db' : AuthDb} {p : AuthProc} {row : SessionRow}
    (hheld : HoldsRow db p row)
    (hframe : ∀ r : SessionRow, (RowKey.session r.id, LockMode.update) ∈ p.locks →
      r ∈ db.sessions → r ∈ db'.sessions) :
    HoldsRow db' p row where
  stored := hframe row hheld.locked hheld.stored
  locked := hheld.locked

/-- A stage survives any change that leaves the locked sessions alone. -/
theorem Stage.frame {db db' : AuthDb} {p : AuthProc} (hstage : Stage db p)
    (hframe : ∀ r : SessionRow, (RowKey.session r.id, LockMode.update) ∈ p.locks →
      r ∈ db.sessions → r ∈ db'.sessions) :
    Stage db' p := by
  cases hstage with
  | ended hprog => exact .ended hprog
  | sending hsends hquiet => exact .sending hsends hquiet
  | rotateStart hcall hprog hwrites => exact .rotateStart hcall hprog hwrites
  | rotateSelect hcall hprog hinTx hwrites =>
      exact .rotateSelect hcall hprog hinTx hwrites
  | rotateInsert hcall hprog hinTx hheld hmatch hwrites =>
      exact .rotateInsert hcall hprog hinTx (hheld.frame hframe) hmatch hwrites
  | rotateUpdate hcall hprog hinTx hheld hmatch hwrites hsnap =>
      exact .rotateUpdate hcall hprog hinTx (hheld.frame hframe) hmatch hwrites
        hsnap
  | rotateCommit hcall hprog hheld hmatch hwrites =>
      exact .rotateCommit hcall hprog (hheld.frame hframe) hmatch hwrites
  | issued hcall hsid huser hprog hheld hmatch hquiet hkept hwrites =>
      exact .issued hcall hsid huser hprog (hheld.frame hframe) hmatch hquiet
        hkept hwrites

/-- Rows another call has locked survive every change. -/
theorem Staged.kept {sys : AuthSystem} (hlocked : sys.WellLocked authSchema)
    {i j : ℕ} {p p' q : AuthProc} {db' : AuthDb} (hji : j ≠ i)
    (hi : sys.procs[i]? = some p) (hj : sys.procs[j]? = some q)
    (hchange : System.Change authSchema sys i p db' p') {r : SessionRow}
    (hlock : (RowKey.session r.id, LockMode.update) ∈ q.locks) :
    r ∈ db'.sessions ↔ r ∈ sys.db.sessions := by
  cases hchange with
  | fail fault hrunning => rfl
  | move hmove =>
      obtain rfl | ⟨ws, rfl, hws⟩ := hmove.published hlocked hi
      · rfl
      · exact mem_sessions_applyAll_of_ne (hws j q _ _ hji hj hlock rfl)

/-! ## What a change does to the ledger -/

/-- The change one call makes, seen from the ledger. -/
inductive Achieves (db : AuthDb) (p : AuthProc) (db' : AuthDb) (p' : AuthProc) :
    Prop
  | prune (hsessions : ∀ r ∈ db'.sessions, r ∈ db.sessions)
      (hused : ∀ u ∈ db'.used, u ∈ db.used) (hevent : eventOf p' = eventOf p)
  | record {event db₁} (hsessions : ∀ r ∈ db₁.sessions, r ∈ db.sessions)
      (hused : ∀ u ∈ db₁.used, u ∈ db.used) (hnone : eventOf p = none)
      (hevent : eventOf p' = some event)
      (heffect : (⟨liveOf db₁, spentOf db₁, fun _ : ℕ => none⟩ :
        SessionLedger).Effect event (liveOf db') (spentOf db'))

theorem pruned_of_subset {db db' : AuthDb} {history : ℕ → Option SessionEvent}
    (hsessions : ∀ r ∈ db'.sessions, r ∈ db.sessions)
    (hused : ∀ u ∈ db'.used, u ∈ db.used) :
    (⟨liveOf db, spentOf db, history⟩ : SessionLedger).Pruned
      ⟨liveOf db', spentOf db', history⟩ where
  live := by
    intro id entry hlive
    obtain ⟨r, hr, hid, hentry⟩ := liveOf_eq_some.mp hlive
    exact liveOf_eq_some.mpr ⟨r, hsessions r hr, hid, hentry⟩
  spent := by
    rintro hmac ⟨u, hu, hhmac⟩
    exact ⟨u, hused u hu, hhmac⟩
  history := rfl

/-- The effect of an event does not depend on the history. -/
theorem effect_history {live : Uuid → Option SessionEntry} {spent : Set String}
    {history history' : ℕ → Option SessionEvent} {event : SessionEvent}
    {live' : Uuid → Option SessionEntry} {spent' : Set String}
    (heffect : (⟨live, spent, history⟩ : SessionLedger).Effect event live' spent') :
    (⟨live, spent, history'⟩ : SessionLedger).Effect event live' spent' := by
  cases heffect with
  | opened id entry => exact .opened id entry
  | rotated new hlive htoken => exact .rotated new hlive htoken
  | activated new hlive htoken => exact .activated new hlive htoken

theorem eventOf_eq_some {p : AuthProc} {event : SessionEvent}
    (hevent : eventOf p = some event) :
    ∃ reply, p.prog = .ret reply ∧ p.call.event reply = some event := by
  unfold eventOf at hevent
  cases hprog : p.prog with
  | ret reply => exact ⟨reply, rfl, by simpa [hprog] using hevent⟩
  | _ => simp [hprog] at hevent

theorem Staged.fresh {sys : AuthSystem} (hstaged : Staged sys) {i : ℕ}
    {p p' : AuthProc} (hi : sys.procs[i]? = some p) (hcall : p'.call = p.call)
    (hnone : eventOf p = none) {event : SessionEvent}
    (hevent : eventOf p' = some event) {live : Uuid → Option SessionEntry}
    {spent : Set String} :
    (⟨live, spent, historyOf sys.procs⟩ : SessionLedger).Fresh event := by
  obtain ⟨reply, _, hreply⟩ := eventOf_eq_some hevent
  rw [hcall] at hreply
  have hother : ∀ {j : ℕ} {earlier : SessionEvent},
      historyOf sys.procs j = some earlier →
      ∃ q reply, sys.procs[j]? = some q ∧ q.call.event reply = some earlier ∧
        p.call.Apart q.call := by
    intro j earlier hhistory
    obtain ⟨q, reply, hj, hprog, hearlier⟩ := historyOf_eq_some.mp hhistory
    refine ⟨q, reply, hj, hearlier, hstaged.apart ?_ hi hj⟩
    rintro rfl
    obtain rfl : p = q := by simpa [hi] using hj
    simp [eventOf, hprog, hearlier] at hnone
  constructor
  · intro hmac j earlier hminted hhistory hminted'
    obtain ⟨q, reply', _, hearlier, hapart⟩ := hother hhistory
    exact hapart.hmac (Call.event_minted hreply hminted)
      (Call.event_minted hearlier hminted')
  · intro id j earlier hopened hhistory hopened'
    obtain ⟨q, reply', _, hearlier, hapart⟩ := hother hhistory
    exact hapart.id (Call.event_openedId hreply hopened)
      (Call.event_openedId hearlier hopened')

/-- A change of one call is one step of the ledger. -/
theorem Achieves.ledger_step {sys : AuthSystem} (hstaged : Staged sys) {i : ℕ}
    {p p' : AuthProc} {db' : AuthDb} (hi : sys.procs[i]? = some p)
    (hcall : p'.call = p.call) (hachieves : Achieves sys.db p db' p') :
    (ledgerOf sys).Step (ledgerOf ⟨db', sys.procs.set i p'⟩) := by
  have hlt : i < sys.procs.length := (List.getElem?_eq_some_iff.mp hi).1
  have hself : historyOf sys.procs i = eventOf p := by simp [historyOf, hi]
  unfold ledgerOf
  rw [historyOf_set hlt]
  cases hachieves with
  | prune hsessions hused hevent =>
      rw [hevent, ← hself, Function.update_eq_self]
      exact .prune (pruned_of_subset hsessions hused)
  | record hsessions hused hnone hevent heffect =>
      rw [hevent]
      exact .record i _ (pruned_of_subset hsessions hused)
        (hself.trans hnone) (hstaged.fresh hi hcall hnone hevent)
        (effect_history heffect)

/-! ## Stage by stage -/

theorem eventOf_of_running {p : AuthProc} (hrunning : p.running = true) :
    eventOf p = none := by
  unfold eventOf
  cases hprog : p.prog with
  | ret reply => simp [Proc.running, hprog] at hrunning
  | _ => rfl

theorem Achieves.silent {db : AuthDb} {p p' : AuthProc}
    (hnone : eventOf p = none) (hnone' : eventOf p' = none) :
    Achieves db p db p' :=
  .prune (fun _ hr => hr) (fun _ hu => hu) (hnone'.trans hnone.symm)

theorem Achieves.quiet {db : AuthDb} {p p' : AuthProc} {ws : List RowWrite}
    (hquiet : ∀ w ∈ ws, w.quiet = true) (hnone : eventOf p = none)
    (hnone' : eventOf p' = none) :
    Achieves db p (authSchema.applyAll ws db) p' :=
  .prune (fun _ hr => mem_sessions_applyAll_of_quiet hquiet hr)
    (fun _ hu => mem_used_applyAll_of_quiet hquiet hu)
    (hnone'.trans hnone.symm)

theorem Stage.fail (db : AuthDb) (p : AuthProc) (fault : Fault) :
    Stage db (p.fail fault) :=
  .sending (.throw fault) (by simp [Proc.fail, Proc.fresh])

section Moves

variable {sys : AuthSystem} {i : ℕ} {p p' : AuthProc} {db' : AuthDb}

/-- What every lemma of this section proves of a move. -/
def Advances (sys : AuthSystem) (p : AuthProc) (db' : AuthDb)
    (p' : AuthProc) : Prop :=
  Stage db' p' ∧ Achieves sys.db p db' p'

theorem advances_fail (hrunning : p.running = true) (fault : Fault) :
    Advances sys p sys.db (p.fail fault) :=
  ⟨.fail _ _ _, .silent (eventOf_of_running hrunning) rfl⟩

/-- A call that keeps sending quiet statements only removes rows. -/
theorem advances_query (hlocked : sys.WellLocked authSchema)
    (hi : sys.procs[i]? = some p) (hmove : p.Move authSchema sys.db
      (sys.heldByOthers i) db' p') {stmt : AuthStmt}
    {next : AuthRes stmt → AuthProg Reply} (hprog : p.prog = .query stmt next)
    (hstmt : stmt.quiet = true)
    (hnext : ∀ {snap cur result ws}, stmt.exec snap cur = .ok (result, ws) →
      Sends p.call p.inTx (next result))
    (hquiet : ∀ w ∈ p.writes, w.quiet = true) :
    Advances sys p db' p' := by
  have hnone := eventOf_of_running hmove.running
  cases hmove.of_query hprog with
  | takeSnapshot hsnap =>
      refine ⟨.sending ?_ hquiet, .silent hnone hnone⟩
      rw [hprog]
      exact .query hstmt hnext
  | error hsnap hexec => exact advances_fail hmove.running _
  | finish hsnap hinTx hfree hexec =>
      refine ⟨.sending (hnext hexec) ?_, .silent hnone (hnext hexec).eventOf_eq_none⟩
      intro w hw
      obtain hw | hw := List.mem_append.mp hw
      · exact hquiet w hw
      · exact AuthStmt.exec_quiet hstmt hexec w hw
  | auto hsnap hinTx hfree hexec =>
      have hview : p.view authSchema sys.db = sys.db := by
        unfold Proc.view
        rw [(hlocked.idle hi hinTx).1, Schema.applyAll_nil]
      have hsends := hnext hexec
      rw [hinTx] at hsends
      refine ⟨.sending hsends (by simp [Proc.fresh]), ?_⟩
      rw [hview]
      exact .quiet (AuthStmt.exec_quiet hstmt hexec) hnone
        hsends.eventOf_eq_none

/-- The session insert commits by itself. -/
theorem advances_insert (hlocked : sys.WellLocked authSchema)
    (hi : sys.procs[i]? = some p) (hmove : p.Move authSchema sys.db
      (sys.heldByOthers i) db' p') {row : SessionRow} {reply : Reply}
    (hprog : p.prog = .query (.insertUserSession row) fun _ => .ret reply)
    (hinTx : p.inTx = false)
    (hevent : p.call.event reply = some (.opened row.id row.entry)) :
    Advances sys p db' p' := by
  have hnone := eventOf_of_running hmove.running
  have hidle := hlocked.idle hi hinTx
  cases hmove.of_query hprog with
  | takeSnapshot hsnap =>
      refine ⟨.sending ?_ (by simp [hidle.1]), .silent hnone hnone⟩
      rw [hprog, hinTx]
      exact .insert hevent
  | error hsnap hexec => exact advances_fail hmove.running _
  | finish hsnap hinTx' hfree hexec =>
      rw [hinTx] at hinTx'
      cases hinTx'
  | auto hsnap _ hfree hexec =>
      have hview : p.view authSchema sys.db = sys.db := by
        unfold Proc.view
        rw [hidle.1, Schema.applyAll_nil]
      refine ⟨.ended rfl, ?_⟩
      rw [hview] at hexec ⊢
      rw [(insertSession_ok hexec).1]
      refine .record (fun _ hr => hr) (fun _ hu => hu) hnone hevent ?_
      rw [show liveOf (authSchema.applyAll [.putSession row] sys.db) =
        Function.update (liveOf sys.db) row.id (some row.entry) from
          liveOf_put rfl]
      exact .opened row.id row.entry

/-- The rotation's `SELECT ... FOR UPDATE`. -/
theorem advances_rotateSelect (hmove : p.Move authSchema sys.db
      (sys.heldByOthers i) db' p') {args : AttemptRotateArgs}
    (hcall : p.call = .attemptRotate args) (hprog : p.prog = rotateSelect args)
    (hinTx : p.inTx = true) (hwrites : p.writes = []) :
    Advances sys p db' p' := by
  have hnone := eventOf_of_running hmove.running
  have hquiet : ∀ w ∈ p.writes, w.quiet = true := by simp [hwrites]
  cases hmove.of_query hprog with
  | takeSnapshot hsnap =>
      exact ⟨.rotateSelect hcall hprog hinTx hwrites, .silent hnone hnone⟩
  | error hsnap hexec => exact advances_fail hmove.running _
  | auto hsnap hinTx' hfree hexec =>
      rw [hinTx] at hinTx'
      cases hinTx'
  | @finish snap result ws hsnap _ hfree hexec =>
      have hview : p.view authSchema sys.db = sys.db := by
        unfold Proc.view
        rw [hwrites, Schema.applyAll_nil]
      rw [hview] at hexec
      obtain rfl : ws = [] := by
        simp only [authSchema_exec, AuthStmt.exec, lockSession,
          Except.ok.injEq, Prod.mk.injEq] at hexec
        exact hexec.2.symm
      cases result with
      | none =>
          have hsends : Sends p.call true (rotateLocked args none) := by
            rw [hcall]
            exact .query rfl fun _ => sends_rotateReuse args _
          rw [← hinTx] at hsends
          exact ⟨.sending hsends (by simpa using hquiet),
            .silent hnone hsends.eventOf_eq_none⟩
      | some row =>
          obtain ⟨hmem, hmatch, hlock⟩ := lockSession_some hexec
          cases hexpired : args.expired row with
          | true =>
              have hsends : Sends p.call true (rotateLocked args (some row)) := by
                simp only [rotateLocked, hexpired, if_true]
                rw [hcall]
                exact .commit (.ret rfl)
              rw [← hinTx] at hsends
              exact ⟨.sending hsends (by simpa using hquiet),
                .silent hnone hsends.eventOf_eq_none⟩
          | false =>
              have hnext : rotateLocked args (some row) =
                  rotateInsert args row := by
                simp [rotateLocked, hexpired]
              refine ⟨.rotateInsert hcall hnext hinTx ⟨hmem, ?_⟩ hmatch
                (by simp [hwrites]), .silent hnone ?_⟩
              · exact List.mem_append_right _ hlock
              · exact (by simp [eventOf, hnext, rotateInsert])

theorem HoldsRow.more_locks {db : AuthDb} {row : SessionRow}
    (hheld : HoldsRow db p row) {q : AuthProc}
    (hlocks : ∀ l ∈ p.locks, l ∈ q.locks) : HoldsRow db q row where
  stored := hheld.stored
  locked := hlocks _ hheld.locked

/-- The consumed token is written down. -/
theorem advances_rotateInsert (hmove : p.Move authSchema sys.db
      (sys.heldByOthers i) db' p') {args : AttemptRotateArgs} {row : SessionRow}
    (hcall : p.call = .attemptRotate args)
    (hprog : p.prog = rotateInsert args row) (hinTx : p.inTx = true)
    (hheld : HoldsRow sys.db p row)
    (hmatch : sessionHolds args.oldHmac args.userId args.sessionId row = true)
    (hwrites : p.writes = []) :
    Advances sys p db' p' := by
  have hnone := eventOf_of_running hmove.running
  cases hmove.of_query hprog with
  | takeSnapshot hsnap =>
      exact ⟨.rotateInsert hcall hprog hinTx (hheld.more_locks fun _ hl => hl)
        hmatch hwrites, .silent hnone hnone⟩
  | error hsnap hexec => exact advances_fail hmove.running _
  | auto hsnap hinTx' hfree hexec =>
      rw [hinTx] at hinTx'
      cases hinTx'
  | @finish snap result ws hsnap _ hfree hexec =>
      obtain rfl : ws = [.putUsed args.usedRow] := (insertUsed_ok hexec).1
      refine ⟨.rotateUpdate hcall rfl hinTx
        (hheld.more_locks fun _ hl => List.mem_append_left _ hl) hmatch
        (by simp [hwrites]) (by simp), .silent hnone rfl⟩

/-- The locked session receives its new token. -/
theorem advances_rotateUpdate (hmove : p.Move authSchema sys.db
      (sys.heldByOthers i) db' p') {args : AttemptRotateArgs} {row : SessionRow}
    (hcall : p.call = .attemptRotate args)
    (hprog : p.prog = rotateUpdate args row) (hinTx : p.inTx = true)
    (hheld : HoldsRow sys.db p row)
    (hmatch : sessionHolds args.oldHmac args.userId args.sessionId row = true)
    (hwrites : p.writes = [.putUsed args.usedRow])
    (hseen : ∀ {snap}, p.snapshot = some snap → row ∈ snap.sessions) :
    Advances sys p db' p' := by
  have hnone := eventOf_of_running hmove.running
  have hview : (p.view authSchema sys.db).sessions = sys.db.sessions := by
    unfold Proc.view
    rw [hwrites]
    rfl
  cases hmove.of_query hprog with
  | takeSnapshot hsnap =>
      refine ⟨.rotateUpdate hcall hprog hinTx
        (hheld.more_locks fun _ hl => hl) hmatch hwrites ?_,
        .silent hnone hnone⟩
      intro snap hsome
      obtain rfl := Option.some.inj hsome
      exact hview ▸ hheld.stored
  | error hsnap hexec => exact advances_fail hmove.running _
  | auto hsnap hinTx' hfree hexec =>
      rw [hinTx] at hinTx'
      cases hinTx'
  | @finish snap result ws hsnap _ hfree hexec =>
      have hrow : sessionIs args.sessionId args.userId row = true := by
        simp only [sessionHolds, Bool.and_eq_true] at hmatch
        exact hmatch.2
      obtain rfl : ws = [.putSession ((args.update row).apply row)] :=
        updateSessions_singleton hexec (hview ▸ hheld.stored) (hseen hsnap) hrow
      exact ⟨.rotateCommit hcall rfl
        (hheld.more_locks fun _ hl => List.mem_append_left _ hl) hmatch
        (by simp [hwrites]), .silent hnone rfl⟩

/-- The exchange takes effect at the commit. -/
theorem advances_rotateCommit (hmove : p.Move authSchema sys.db
      (sys.heldByOthers i) db' p') {args : AttemptRotateArgs} {row : SessionRow}
    (hcall : p.call = .attemptRotate args)
    (hprog : p.prog = rotateCommit args row) (hheld : HoldsRow sys.db p row)
    (hmatch : sessionHolds args.oldHmac args.userId args.sessionId row = true)
    (hwrites : p.writes =
      [.putUsed args.usedRow, .putSession ((args.update row).apply row)]) :
    Advances sys p db' p' := by
  have hnone := eventOf_of_running hmove.running
  obtain ⟨rfl, rfl⟩ := hmove.of_commit hprog
  refine ⟨.ended rfl, ?_⟩
  obtain ⟨htoken, hid, huser⟩ := sessionHolds_iff.mp hmatch
  have hview : p.view authSchema sys.db =
      { sys.db with
        sessions := sys.db.sessions.put ((args.update row).apply row)
        used := sys.db.used.put args.usedRow } := by
    unfold Proc.view
    rw [hwrites]
    rfl
  -- An earlier used row of the same id would be overwritten: prune it first.
  obtain ⟨db₁, hsessions, hused⟩ : ∃ db₁ : AuthDb,
      db₁.sessions = sys.db.sessions ∧
        db₁.used = sys.db.used.erase args.usedRow.id :=
    ⟨{ sys.db with used := sys.db.used.erase args.usedRow.id }, rfl, rfl⟩
  have hput : (p.view authSchema sys.db).sessions =
      db₁.sessions.put ((args.update row).apply row) := by
    rw [hview, hsessions]
  have hlive : liveOf (p.view authSchema sys.db) =
      Function.update (liveOf db₁) row.id
        (some ((args.update row).apply row).entry) :=
    liveOf_put hput
  have hspent : spentOf (p.view authSchema sys.db) =
      insert args.oldHmac (spentOf db₁) :=
    spentOf_put (congrArg AuthDb.used hview) hused
  have heffect : (⟨liveOf db₁, spentOf db₁, fun _ : ℕ => none⟩ :
      SessionLedger).Effect
      (.rotated row.id row.entry.owner args.oldHmac args.newHmac)
      (liveOf (p.view authSchema sys.db)) (spentOf (p.view authSchema sys.db)) := by
    rw [hlive, hspent]
    exact .rotated args.newHmac
      (liveOf_of_mem (hsessions ▸ hheld.stored)) htoken
  refine .record (fun _ hr => hsessions ▸ hr) ?_ hnone ?_ heffect
  · intro u hu
    rw [hused] at hu
    exact (Table.mem_erase.mp hu).1
  · simp [eventOf, Proc.fresh, hcall, Call.event, hid, huser]

/-- `issue_first_refresh`, judged by its row count. -/
theorem advances_issue (hmove : p.Move authSchema sys.db
      (sys.heldByOthers i) db' p') {args : ChangePasswordArgs} {user : UserRow}
    {sid : Uuid} {session : SessionRow} (hcall : p.call = .changePassword args)
    (hsid : args.sessionId = some sid) (huser : user.id = args.userId)
    (hprog : p.prog = changeIssue args user sid session) (hinTx : p.inTx = true)
    (hquiet : ∀ w ∈ p.writes, w.quiet = true) :
    Advances sys p db' p' := by
  have hnone := eventOf_of_running hmove.running
  cases hmove.of_query hprog with
  | takeSnapshot hsnap =>
      refine ⟨.sending ?_ hquiet, .silent hnone hnone⟩
      rw [hprog, hinTx]
      exact .issue hcall hsid huser
  | error hsnap hexec => exact advances_fail hmove.running _
  | auto hsnap hinTx' hfree hexec =>
      rw [hinTx] at hinTx'
      cases hinTx'
  | @finish snap n ws hsnap _ hfree hexec =>
      obtain ⟨hn, hws⟩ := updateSessions_ok hexec
      have hle : (Table.recheck (sessionLacksHmac sid user.id) snap.sessions
          (p.view authSchema sys.db).sessions).length ≤ 1 :=
        recheck_length_le_one fun r _ hr => (sessionLacksHmac_iff.mp hr).1.1
      by_cases hone : n = 1
      · obtain ⟨row, hrows⟩ := List.length_eq_one_iff.mp (hn.symm.trans hone)
        have hmem : row ∈ Table.recheck (sessionLacksHmac sid user.id)
            snap.sessions (p.view authSchema sys.db).sessions := by
          rw [hrows]
          exact List.mem_singleton_self row
        have hcur := (Table.mem_recheck.mp hmem).1
        have hstored : row ∈ sys.db.sessions :=
          mem_sessions_applyAll_of_quiet hquiet hcur
        have hmatch : sessionLacksHmac sid args.userId row = true := by
          rw [← huser]
          exact (Table.mem_recheck.mp hmem).2.1
        refine ⟨.issued hcall hsid huser (if_pos hone) ⟨hstored, ?_⟩ hmatch
          hquiet (target_ne_of_mem_sessions hquiet hcur) ?_,
          .silent hnone ?_⟩
        · exact List.mem_append_right _ (sessionLocks_of_recheck hmem)
        · simp [hws, hrows]
        · simp [eventOf, hone, commitOk]
      · have hempty : ws = [] := by
          have hzero : (Table.recheck (sessionLacksHmac sid user.id)
              snap.sessions (p.view authSchema sys.db).sessions).length = 0 := by
            have hne : (Table.recheck (sessionLacksHmac sid user.id)
                snap.sessions (p.view authSchema sys.db).sessions).length ≠ 1 :=
              fun h => hone (hn.trans h)
            omega
          rw [List.length_eq_zero_iff] at hzero
          simp [hws, hzero]
        have hsends : Sends p.call p.inTx
            (commitOk .tokensUnchanged user.username) := by
          rw [hcall]
          exact Sends.tokensUnchanged _
        refine ⟨.sending (by simpa [hone] using hsends)
          (by simpa [hempty] using hquiet), .silent hnone ?_⟩
        simp [eventOf, hone, commitOk]

/-- The first refresh token of a session takes effect at the commit. -/
theorem advances_issued (hmove : p.Move authSchema sys.db
      (sys.heldByOthers i) db' p') {args : ChangePasswordArgs} {user : UserRow}
    {sid : Uuid} {session row : SessionRow} {earlier : List RowWrite}
    (hcall : p.call = .changePassword args) (hsid : args.sessionId = some sid)
    (hprog : p.prog = commitOk
      (.firstRefresh args.refreshToken (args.times session).maxAge)
      user.username)
    (hheld : HoldsRow sys.db p row)
    (hmatch : sessionLacksHmac sid args.userId row = true)
    (hquiet : ∀ w ∈ earlier, w.quiet = true)
    (hkept : ∀ w ∈ earlier, w.target ≠ .session row.id)
    (hwrites : p.writes = earlier ++
      [.putSession ((args.sessionUpdate session).apply row)]) :
    Advances sys p db' p' := by
  have hnone := eventOf_of_running hmove.running
  obtain ⟨rfl, rfl⟩ := hmove.of_commit hprog
  refine ⟨.ended rfl, ?_⟩
  obtain ⟨⟨hid, howner⟩, htoken⟩ := sessionLacksHmac_iff.mp hmatch
  have hview : p.view authSchema sys.db =
      RowWrite.apply (.putSession ((args.sessionUpdate session).apply row))
        (authSchema.applyAll earlier sys.db) := by
    unfold Proc.view
    rw [hwrites, Schema.applyAll_append]
    rfl
  have hstored : row ∈ (authSchema.applyAll earlier sys.db).sessions :=
    (mem_sessions_applyAll_of_ne hkept).mpr hheld.stored
  have hlive : liveOf (p.view authSchema sys.db) =
      Function.update (liveOf (authSchema.applyAll earlier sys.db)) row.id
        (some ((args.sessionUpdate session).apply row).entry) :=
    liveOf_put (congrArg AuthDb.sessions hview)
  have hspent : spentOf (p.view authSchema sys.db) =
      spentOf (authSchema.applyAll earlier sys.db) := by
    rw [hview]
    rfl
  have heffect : (⟨liveOf (authSchema.applyAll earlier sys.db),
      spentOf (authSchema.applyAll earlier sys.db),
      fun _ : ℕ => none⟩ : SessionLedger).Effect
      (.activated row.id row.entry.owner args.newHmac)
      (liveOf (p.view authSchema sys.db)) (spentOf (p.view authSchema sys.db)) := by
    rw [hlive, hspent]
    exact .activated args.newHmac (liveOf_of_mem hstored) htoken
  refine .record (fun _ hr => mem_sessions_applyAll_of_quiet hquiet hr)
    (fun _ hu => mem_used_applyAll_of_quiet hquiet hu) hnone ?_ heffect
  simp [eventOf, Proc.fresh, hcall, Call.event, hsid, hid, howner]

/-- A move from any stage leads to a stage, and is one step of the ledger. -/
theorem Stage.move (hlocked : sys.WellLocked authSchema)
    (hi : sys.procs[i]? = some p) (hstage : Stage sys.db p)
    (hmove : p.Move authSchema sys.db (sys.heldByOthers i) db' p') :
    Advances sys p db' p' := by
  have hnone := eventOf_of_running hmove.running
  cases hstage with
  | ended hprog =>
      have hrunning := hmove.running
      simp [Proc.running, hprog] at hrunning
  | rotateStart hcall hprog hwrites =>
      obtain ⟨rfl, rfl⟩ := hmove.of_beginTx hprog
      exact ⟨.rotateSelect hcall rfl rfl hwrites, .silent hnone rfl⟩
  | rotateSelect hcall hprog hinTx hwrites =>
      exact advances_rotateSelect hmove hcall hprog hinTx hwrites
  | rotateInsert hcall hprog hinTx hheld hmatch hwrites =>
      exact advances_rotateInsert hmove hcall hprog hinTx hheld hmatch hwrites
  | rotateUpdate hcall hprog hinTx hheld hmatch hwrites hsnap =>
      exact advances_rotateUpdate hmove hcall hprog hinTx hheld hmatch hwrites
        hsnap
  | rotateCommit hcall hprog hheld hmatch hwrites =>
      exact advances_rotateCommit hmove hcall hprog hheld hmatch hwrites
  | issued hcall hsid huser hprog hheld hmatch hquiet hkept hwrites =>
      exact advances_issued hmove hcall hsid hprog hheld hmatch hquiet hkept
        hwrites
  | sending hsends hquiet =>
      generalize hprog : p.prog = prog at hsends
      generalize hinTx : p.inTx = tx at hsends
      cases hsends with
      | ret hevent =>
          have hrunning := hmove.running
          simp [Proc.running, hprog] at hrunning
      | throw fault =>
          have hrunning := hmove.running
          simp [Proc.running, hprog] at hrunning
      | beginTx hnext =>
          obtain ⟨rfl, rfl⟩ := hmove.of_beginTx hprog
          exact ⟨.sending hnext hquiet, .silent hnone hnext.eventOf_eq_none⟩
      | commit hnext =>
          obtain ⟨rfl, rfl⟩ := hmove.of_commit hprog
          exact ⟨.sending hnext (by simp [Proc.fresh]),
            .quiet hquiet hnone hnext.eventOf_eq_none⟩
      | rollback hnext =>
          obtain ⟨rfl, rfl⟩ := hmove.of_rollback hprog
          exact ⟨.sending hnext (by simp [Proc.fresh]),
            .silent hnone hnext.eventOf_eq_none⟩
      | query hstmt hnext =>
          refine advances_query hlocked hi hmove hprog hstmt ?_ hquiet
          rw [hinTx]
          exact hnext
      | insert hevent =>
          exact advances_insert hlocked hi hmove hprog hinTx hevent
      | issue hcall hsid huser =>
          exact advances_issue hmove hcall hsid huser hprog hinTx hquiet

theorem Stage.change (hlocked : sys.WellLocked authSchema)
    (hi : sys.procs[i]? = some p) (hstage : Stage sys.db p)
    (hchange : System.Change authSchema sys i p db' p') :
    Advances sys p db' p' := by
  cases hchange with
  | move hmove => exact hstage.move hlocked hi hmove
  | fail fault hrunning => exact advances_fail hrunning fault

end Moves

/-! ## Every run -/

theorem Staged.initial {sys : AuthSystem} (hinitial : Initial sys) :
    Staged sys where
  locked := by
    apply System.WellLocked.of_forall_idle
    simp [hinitial.procs]
  stage := by
    intro i p hi
    simp [hinitial.procs] at hi
  apart := by
    intro i j p q _ hi
    simp [hinitial.procs] at hi

theorem Staged.step {sys sys' : AuthSystem} {label : Label Call}
    (hstaged : Staged sys) (hfresh : MintsFresh sys label)
    (hstep : AuthStep sys label sys') :
    Staged sys' ∧ (ledgerOf sys).Step (ledgerOf sys') := by
  have hlocked' := hstaged.locked.step hstep
  have hapart' : CallsApart sys' := hstaged.apart.step hfresh hstep
  obtain ⟨call, rfl, rfl⟩ | ⟨i, p, db', p', hi, hchange, rfl⟩ :=
    hstep.spawn_or_change
  · have hstart := Stage.start sys.db call
    refine ⟨⟨hlocked', ?_, hapart'⟩, ?_⟩
    · intro j q hj
      obtain ⟨_, rfl⟩ | hj := System.getElem?_append_eq hj
      · exact hstart.1
      · exact hstaged.stage hj
    · unfold ledgerOf
      rw [historyOf_append hstart.2]
      exact .prune (.refl _)
  · obtain ⟨hstage', hachieves⟩ :=
      (hstaged.stage hi).change hstaged.locked hi hchange
    refine ⟨⟨hlocked', ?_, hapart'⟩,
      hachieves.ledger_step hstaged hi hchange.call_eq⟩
    intro j q hj
    obtain ⟨_, rfl⟩ | ⟨hji, hj⟩ := System.getElem?_set_eq hi hj
    · exact hstage'
    · exact (hstaged.stage hj).frame fun r hlock hr =>
        (Staged.kept hstaged.locked hji hi hj hchange hlock).mpr hr

/-- Every run of the service is a run of the ledger. -/
theorem Staged.steps {sys sys' : AuthSystem} (hstaged : Staged sys)
    (hsteps : System.Steps authSchema Call.start MintsFresh sys sys') :
    Staged sys' ∧ (ledgerOf sys).Steps (ledgerOf sys') := by
  induction hsteps with
  | refl => exact ⟨hstaged, Relation.ReflTransGen.refl⟩
  | tail _ hlast ih =>
      obtain ⟨label, hfresh, hstep⟩ := hlast
      obtain ⟨hstaged', hledger⟩ := ih.1.step hfresh hstep
      exact ⟨hstaged', ih.2.tail hledger⟩

theorem Reachable.staged {sys : AuthSystem} (hreachable : Reachable sys) :
    Staged sys := by
  obtain ⟨start, hinitial, hsteps⟩ := hreachable
  exact ((Staged.initial hinitial).steps hsteps).1

theorem ledgerOf_initial {sys : AuthSystem} (hinitial : Initial sys) :
    ledgerOf sys = Ledger.initial := by
  apply Ledger.ext
  · funext id
    simp [ledgerOf, liveOf, sessionWithId, hinitial.sessions, Table.empty,
      Ledger.initial]
  · simp [ledgerOf, spentOf, hinitial.used, Ledger.initial]
  · funext i
    simp [ledgerOf, historyOf, hinitial.procs, Ledger.initial]

/-- The ledger of every reachable state is sound. -/
theorem Reachable.sound {sys : AuthSystem} (hreachable : Reachable sys) :
    (ledgerOf sys).Sound := by
  obtain ⟨start, hinitial, hsteps⟩ := hreachable
  have hledger := ((Staged.initial hinitial).steps hsteps).2
  rw [ledgerOf_initial hinitial] at hledger
  exact Ledger.initial_sound.steps hledger

end Untangled.Auth
