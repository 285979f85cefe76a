import Untangled.SessionRefinement

/-!
# Consumed tokens belong to stored sessions

The foreign key of `used_refresh_token` is checked by each statement against
what that statement sees.  Whoever deletes a session has locked it and has
deleted its consumed tokens before, so in every reachable state each consumed
token references a stored session, and one of the same user.
-/

namespace Untangled.Auth

open ReadCommitted

/-- Every consumed token belongs to a stored session of its user. -/
def Referential (db : AuthDb) : Prop :=
  ∀ u ∈ db.used, ∃ r ∈ db.sessions, r.id = u.sessionId ∧ r.userId = u.userId

/-- Pending deletions of sessions come with those of their consumed tokens. -/
def ClearsChildren (db : AuthDb) (ws : List RowWrite) : Prop :=
  ∀ id, .eraseSession id ∈ ws → ∀ u ∈ db.used, u.sessionId = id →
    .eraseUsed u.id ∈ ws

structure Integral (sys : AuthSystem) : Prop where
  referential : Referential sys.db
  clears : ∀ ⦃i : ℕ⦄ ⦃p : AuthProc⦄, sys.procs[i]? = some p →
    ClearsChildren sys.db p.writes

section Writes

variable {db db' snap cur : AuthDb} {ws : List RowWrite}

/-- A consumed token that is left after quiet writes was not deleted. -/
theorem target_ne_of_mem_used (hquiet : ∀ w ∈ ws, w.quiet = true) {u : UsedRow}
    (hu : u ∈ (authSchema.applyAll ws db).used) :
    ∀ w ∈ ws, w.target ≠ .used u.id := by
  induction ws generalizing db with
  | nil => simp
  | cons w ws ih =>
      have hrest : ∀ w' ∈ ws, w'.quiet = true :=
        fun w' hw' => hquiet w' (.tail _ hw')
      intro w' hw'
      rcases List.mem_cons.mp hw' with rfl | hw'
      · have hleft := mem_used_applyAll_of_quiet hrest hu
        have hw := hquiet w' (.head _)
        cases w' with
        | putSession row => cases hw
        | putUsed row => cases hw
        | putUser row => simp [RowWrite.target]
        | eraseSession id => simp [RowWrite.target]
        | eraseUsed id =>
            have hne : u.id ≠ id := (Table.mem_erase.mp hleft).2
            simpa [RowWrite.target] using Ne.symm hne
      · exact ih hrest hu w' hw'

theorem eraseSession_of_target {w : RowWrite} {id : Uuid} (hquiet : w.quiet = true)
    (htarget : w.target = .session id) : w = .eraseSession id := by
  cases w with
  | eraseSession id' => rw [RowKey.session.inj htarget]
  | putSession row => cases hquiet
  | _ => cases htarget

theorem eraseUsed_of_target {w : RowWrite} {id : Uuid} (hquiet : w.quiet = true)
    (htarget : w.target = .used id) : w = .eraseUsed id := by
  cases w with
  | eraseUsed id' => rw [RowKey.used.inj htarget]
  | putUsed row => cases hquiet
  | _ => cases htarget

/-- A session without a pending deletion stays. -/
theorem mem_sessions_of_not_erased (hquiet : ∀ w ∈ ws, w.quiet = true)
    {r : SessionRow} (hr : r ∈ db.sessions) (hkept : .eraseSession r.id ∉ ws) :
    r ∈ (authSchema.applyAll ws db).sessions := by
  refine (mem_sessions_applyAll_of_ne ?_).mpr hr
  intro w hw htarget
  rw [eraseSession_of_target (hquiet w hw) htarget] at hw
  exact hkept hw

/-- A consumed token that is gone has been deleted. -/
theorem eraseUsed_of_not_mem (hquiet : ∀ w ∈ ws, w.quiet = true) {u : UsedRow}
    (hu : u ∈ db.used) (hgone : u ∉ (authSchema.applyAll ws db).used) :
    .eraseUsed u.id ∈ ws := by
  by_contra hkept
  refine hgone ((mem_used_applyAll_of_ne ?_).mpr hu)
  intro w hw htarget
  rw [eraseUsed_of_target (hquiet w hw) htarget] at hw
  exact hkept hw

theorem Referential.quiet (hreferential : Referential db)
    (hquiet : ∀ w ∈ ws, w.quiet = true) (hclears : ClearsChildren db ws) :
    Referential (authSchema.applyAll ws db) := by
  intro u hu
  have hold := mem_used_applyAll_of_quiet hquiet hu
  rcases hreferential u hold with ⟨r, hr, hid, howner⟩
  refine ⟨r, mem_sessions_of_not_erased hquiet hr ?_, hid, howner⟩
  intro herased
  have hgone := hclears r.id herased u hold hid.symm
  exact target_ne_of_mem_used hquiet hu _ hgone rfl

/-- Sessions may be rewritten as long as they keep their id and their user. -/
theorem Referential.mono (hreferential : Referential db)
    (hused : ∀ u ∈ db'.used, u ∈ db.used)
    (hsessions : ∀ r ∈ db.sessions,
      ∃ r' ∈ db'.sessions, r'.id = r.id ∧ r'.userId = r.userId) :
    Referential db' := by
  intro u hu
  rcases hreferential u (hused u hu) with ⟨r, hr, hid, howner⟩
  rcases hsessions r hr with ⟨r', hr', hid', howner'⟩
  exact ⟨r', hr', hid'.trans hid, howner'.trans howner⟩

end Writes

/-! ## What one move publishes -/

/-- What a move does to the session tables. -/
inductive Published (db : AuthDb) (p : AuthProc) (db' : AuthDb) : Prop
  | quiet (ws : List RowWrite) (hquiet : ∀ w ∈ ws, w.quiet = true)
      (hclears : ClearsChildren db ws) (hdb : db' = authSchema.applyAll ws db)
  | inserted {row reply}
      (hevent : p.call.event reply = some (.opened row.id row.entry))
      (hnew : ∀ x ∈ db.sessions, x.id ≠ row.id)
      (hsessions : db'.sessions = db.sessions.put row) (hused : db'.used = db.used)
  | rotated {args row} (hcall : p.call = .attemptRotate args)
      (hheld : HoldsRow db p row)
      (hmatch : sessionHolds args.oldHmac args.userId args.sessionId row = true)
      (hwrites : .putUsed args.usedRow ∈ p.writes)
      (hsessions : db'.sessions = db.sessions.put ((args.update row).apply row))
      (hused : db'.used = db.used.put args.usedRow)
  | issued {args row ws} (update : SessionUpdate)
      (hcall : p.call = .changePassword args) (hheld : HoldsRow db p row)
      (hquiet : ∀ w ∈ ws, w.quiet = true) (hclears : ClearsChildren db ws)
      (hkept : ∀ w ∈ ws, w.target ≠ .session row.id)
      (hdb : db' = (RowWrite.putSession (update.apply row)).apply
        (authSchema.applyAll ws db))

section Moves

variable {sys : AuthSystem} {i : ℕ} {p p' : AuthProc} {db db' : AuthDb}

theorem Published.refl (db : AuthDb) : Published db p db :=
  .quiet [] (by simp) (by intro id hid; cases hid) rfl

/-- A statement outside a transaction publishes what it writes. -/
theorem Stage.published_auto (hstage : Stage sys.db p) (hinTx : p.inTx = false)
    {stmt : AuthStmt} {next : AuthRes stmt → AuthProg Reply} {snap : AuthDb}
    {result : AuthRes stmt} {ws : List RowWrite}
    (hprog : p.prog = .query stmt next)
    (hexec : stmt.exec snap sys.db = .ok (result, ws)) :
    Published sys.db p (authSchema.applyAll ws sys.db) := by
  cases hstage with
  | ended hret => cases hret.symm.trans hprog
  | rotateStart hcall hstart hwrites => cases hstart.symm.trans hprog
  | rotateSelect hcall hselect htx hwrites => simp [hinTx] at htx
  | rotateInsert hcall hinsert htx hheld hmatch hwrites => simp [hinTx] at htx
  | rotateUpdate hcall hupdate htx hheld hmatch hwrites hsnap => simp [hinTx] at htx
  | rotateCommit hcall hcommit hheld hmatch hwrites =>
      cases hcommit.symm.trans hprog
  | issued hcall hsid huser hcommit hheld hmatch hquiet hkept hwrites =>
      cases hcommit.symm.trans hprog
  | sending hsends hquiet =>
      generalize htx : p.inTx = tx at hsends
      rw [hprog] at hsends
      cases hsends with
      | query hstmt hnext =>
          refine .quiet ws (AuthStmt.exec_quiet hstmt hexec) ?_ rfl
          intro id hid u hu hsession
          exact absurd hsession ((AuthStmt.exec_children hexec hid).2 u hu)
      | insert hevent =>
          have hws := insertSession_ok hexec
          rw [hws.1]
          exact .inserted hevent hws.2.1 rfl rfl
      | issue hcall hsid huser =>
          rw [htx] at hinTx
          cases hinTx

/-- A commit publishes what is pending. -/
theorem Stage.published_commit (hstage : Stage sys.db p)
    (hclears : ClearsChildren sys.db p.writes) {next : AuthProg Reply}
    (hprog : p.prog = .commit next) :
    Published sys.db p (p.view authSchema sys.db) := by
  cases hstage with
  | ended hret => cases hret.symm.trans hprog
  | sending hsends hquiet => exact .quiet p.writes hquiet hclears rfl
  | rotateStart hcall hstart hwrites => cases hstart.symm.trans hprog
  | rotateSelect hcall hselect htx hwrites => cases hselect.symm.trans hprog
  | rotateInsert hcall hinsert htx hheld hmatch hwrites =>
      cases hinsert.symm.trans hprog
  | rotateUpdate hcall hupdate htx hheld hmatch hwrites hsnap =>
      cases hupdate.symm.trans hprog
  | rotateCommit hcall hcommit hheld hmatch hwrites =>
      refine .rotated hcall hheld hmatch (by simp [hwrites]) ?_ ?_
      · simp only [Proc.view, hwrites]
        rfl
      · simp only [Proc.view, hwrites]
        rfl
  | @issued args user sid session row earlier hcall hsid huser hcommit hheld hmatch
      hquiet hkept hwrites =>
      refine .issued (args.sessionUpdate session) hcall hheld hquiet ?_
        hkept ?_
      · intro id hid u hu hsession
        have hmem : .eraseUsed u.id ∈ p.writes :=
          hclears id (by simp [hwrites, hid]) u hu hsession
        simpa [hwrites] using hmem
      · unfold Proc.view
        rw [hwrites, Schema.applyAll_append]
        rfl

theorem Stage.published (hlocked : sys.WellLocked authSchema)
    (hi : sys.procs[i]? = some p) (hstage : Stage sys.db p)
    (hclears : ClearsChildren sys.db p.writes)
    (hmove : p.Move authSchema sys.db (sys.heldByOthers i) db' p') :
    Published sys.db p db' := by
  cases hmove with
  | beginTx hprog => exact .refl _
  | takeSnapshot hprog hsnap => exact .refl _
  | error hprog hsnap hexec => exact .refl _
  | finish hprog hsnap hinTx hfree hexec => exact .refl _
  | rollback hprog => exact .refl _
  | commit hprog => exact hstage.published_commit hclears hprog
  | auto hprog hsnap hinTx hfree hexec =>
      rw [hlocked.view_idle hi hinTx] at hexec ⊢
      exact hstage.published_auto hinTx hprog hexec

/-- A consumed token was there before, or its rotation has locked the session. -/
theorem Published.used_origin (hpublished : Published db p db') {u : UsedRow}
    (hu : u ∈ db'.used) :
    u ∈ db.used ∨ (.putUsed u ∈ p.writes ∧ ∃ row, HoldsRow db p row ∧
      row.id = u.sessionId ∧ row.userId = u.userId) := by
  cases hpublished with
  | quiet ws hquiet hclears hdb =>
      rw [hdb] at hu
      exact Or.inl (mem_used_applyAll_of_quiet hquiet hu)
  | inserted hevent hnew hsessions hused => exact Or.inl (hused ▸ hu)
  | issued update hcall hheld hquiet hclears hkept hdb =>
      rw [hdb] at hu
      exact Or.inl (mem_used_applyAll_of_quiet hquiet hu)
  | rotated hcall hheld hmatch hwrites hsessions hused =>
      rw [hused] at hu
      rcases Table.mem_put.mp hu with rfl | ⟨hold, _⟩
      · rcases sessionHolds_iff.mp hmatch with ⟨_, hid, howner⟩
        exact Or.inr ⟨hwrites, _, hheld, hid, howner⟩
      · exact Or.inl hold

/-- A session was there before under the same user, or is newly stored. -/
theorem Published.sessions_origin (hpublished : Published db p db')
    {r' : SessionRow} (hr' : r' ∈ db'.sessions) :
    (∃ r ∈ db.sessions, r.id = r'.id ∧ r.userId = r'.userId) ∨
      ∃ reply, p.call.event reply = some (.opened r'.id r'.entry) := by
  cases hpublished with
  | quiet ws hquiet hclears hdb =>
      rw [hdb] at hr'
      exact Or.inl ⟨r', mem_sessions_applyAll_of_quiet hquiet hr', rfl, rfl⟩
  | inserted hevent hnew hsessions hused =>
      rw [hsessions] at hr'
      rcases Table.mem_put.mp hr' with rfl | ⟨hold, _⟩
      · exact Or.inr ⟨_, hevent⟩
      · exact Or.inl ⟨r', hold, rfl, rfl⟩
  | rotated hcall hheld hmatch hwrites hsessions hused =>
      rw [hsessions] at hr'
      rcases Table.mem_put.mp hr' with rfl | ⟨hold, _⟩
      · exact Or.inl ⟨_, hheld.stored, rfl, rfl⟩
      · exact Or.inl ⟨r', hold, rfl, rfl⟩
  | issued update hcall hheld hquiet hclears hkept hdb =>
      rw [hdb] at hr'
      rcases Table.mem_put.mp hr' with rfl | ⟨hold, _⟩
      · exact Or.inl ⟨_, hheld.stored, rfl, rfl⟩
      · exact Or.inl ⟨r', mem_sessions_applyAll_of_quiet hquiet hold, rfl, rfl⟩

/-- Storing a session keeps the id and the user of every other one. -/
theorem sessions_kept_put {sessions : Table SessionRow} {row : SessionRow}
    (hrow : ∀ x ∈ sessions, x.id = row.id → x.userId = row.userId)
    {r : SessionRow} (hr : r ∈ sessions) :
    ∃ r' ∈ sessions.put row, r'.id = r.id ∧ r'.userId = r.userId := by
  by_cases hid : r.id = row.id
  · exact ⟨row, Table.mem_put.mpr (Or.inl rfl), hid.symm, (hrow r hr hid).symm⟩
  · exact ⟨r, Table.mem_put.mpr (Or.inr ⟨hr, hid⟩), rfl, rfl⟩

theorem Published.referential (hpublished : Published db p db')
    (hreferential : Referential db) : Referential db' := by
  -- a session is only replaced by one of the same user
  have hsame : ∀ {sessions : Table SessionRow} {row : SessionRow}
      {update : SessionUpdate}, row ∈ sessions →
      ∀ x ∈ sessions, x.id = (update.apply row).id →
        x.userId = (update.apply row).userId := by
    intro sessions row update hrow x hx hid
    rw [Table.eq_of_key_eq hx hrow hid]
    rfl
  cases hpublished with
  | quiet ws hquiet hclears hdb =>
      rw [hdb]
      exact hreferential.quiet hquiet hclears
  | inserted hevent hnew hsessions hused =>
      refine hreferential.mono (fun u hu => hused ▸ hu) fun r hr => ?_
      rw [hsessions]
      exact sessions_kept_put (fun x hx hid => absurd hid (hnew x hx)) hr
  | issued update hcall hheld hquiet hclears hkept hdb =>
      have hstored := (mem_sessions_applyAll_of_ne hkept).mpr hheld.stored
      rw [hdb]
      exact (hreferential.quiet hquiet hclears).mono (fun u hu => hu)
        fun r hr => sessions_kept_put (hsame hstored) hr
  | rotated hcall hheld hmatch hwrites hsessions hused =>
      intro u hu
      rw [hused] at hu
      rw [hsessions]
      rcases Table.mem_put.mp hu with rfl | ⟨hold, _⟩
      · rcases sessionHolds_iff.mp hmatch with ⟨_, hid, howner⟩
        exact ⟨_, Table.mem_put.mpr (Or.inl rfl), hid, howner⟩
      · rcases hreferential u hold with ⟨r, hr, hid, howner⟩
        rcases sessions_kept_put (hsame hheld.stored) hr with
          ⟨r', hr', hid', howner'⟩
        exact ⟨r', hr', hid'.trans hid, howner'.trans howner⟩

/-- Nobody adds a consumed token to a session another call is deleting. -/
theorem ClearsChildren.frame {j : ℕ} {q : AuthProc}
    (hclears : ClearsChildren sys.db q.writes) (hlocked : sys.WellLocked authSchema)
    (hji : j ≠ i) (hi : sys.procs[i]? = some p) (hj : sys.procs[j]? = some q)
    (hpublished : Published sys.db p db') : ClearsChildren db' q.writes := by
  intro id hid u hu hsession
  rcases hpublished.used_origin hu with hold | ⟨_, row, hheld, hrow, _⟩
  · exact hclears id hid u hold hsession
  · have hne := hlocked.target_ne hji hj hi hid hheld.locked rfl
    exact absurd (congrArg RowKey.session (hrow.trans hsession).symm) hne

/-- What a statement in a transaction writes. -/
theorem Stage.clears_finish (hstage : Stage sys.db p)
    (hclears : ClearsChildren sys.db p.writes) {stmt : AuthStmt}
    {next : AuthRes stmt → AuthProg Reply} {snap : AuthDb} {result : AuthRes stmt}
    {ws : List RowWrite} (hprog : p.prog = .query stmt next)
    (hexec : stmt.exec snap (p.view authSchema sys.db) = .ok (result, ws)) :
    ClearsChildren sys.db (p.writes ++ ws) := by
  intro id hid u hu hsession
  rcases List.mem_append.mp hid with hid | hid
  · exact List.mem_append_left _ (hclears id hid u hu hsession)
  · rcases AuthStmt.exec_children hexec hid with ⟨hstmt, hgone⟩
    apply List.mem_append_left
    refine eraseUsed_of_not_mem ?_ hu fun hleft => hgone u hleft hsession
    -- a call that deletes sessions has only deletions pending
    cases hstage with
    | ended hret => cases hret.symm.trans hprog
    | sending hsends hquiet => exact hquiet
    | rotateStart hcall hstart hwrites => simp [hwrites]
    | rotateSelect hcall hselect htx hwrites => simp [hwrites]
    | rotateInsert hcall hinsert htx hheld hmatch hwrites => simp [hwrites]
    | rotateUpdate hcall hupdate htx hheld hmatch hwrites hsnap =>
        cases hupdate.symm.trans hprog
        cases hstmt
    | rotateCommit hcall hcommit hheld hmatch hwrites =>
        cases hcommit.symm.trans hprog
    | issued hcall hsid huser hcommit hheld hmatch hquiet hkept hwrites =>
        cases hcommit.symm.trans hprog

theorem clearsChildren_nil (db : AuthDb) : ClearsChildren db [] := by
  intro id hid
  cases hid

theorem Stage.clears_move (hstage : Stage sys.db p)
    (hclears : ClearsChildren sys.db p.writes)
    (hmove : p.Move authSchema sys.db (sys.heldByOthers i) db' p') :
    ClearsChildren db' p'.writes := by
  cases hmove with
  | beginTx hprog => exact hclears
  | takeSnapshot hprog hsnap => exact hclears
  | error hprog hsnap hexec => exact clearsChildren_nil _
  | auto hprog hsnap hinTx hfree hexec => exact clearsChildren_nil _
  | commit hprog => exact clearsChildren_nil _
  | rollback hprog => exact clearsChildren_nil _
  | finish hprog hsnap hinTx hfree hexec =>
      exact hstage.clears_finish hclears hprog hexec

theorem Integral.step {sys sys' : AuthSystem} {label : Label Call}
    (hintegral : Integral sys) (hstaged : Staged sys)
    (hstep : AuthStep sys label sys') : Integral sys' := by
  rcases hstep.spawn_or_change with
    ⟨call, _, rfl⟩ | ⟨i, p, db', p', hi, hchange, rfl⟩
  · refine ⟨hintegral.referential, ?_⟩
    intro j q hj
    rcases System.getElem?_append_eq hj with ⟨_, rfl⟩ | hj
    · exact clearsChildren_nil _
    · exact hintegral.clears hj
  · cases hchange with
    | fail fault hrunning =>
        refine ⟨hintegral.referential, ?_⟩
        intro j q hj
        rcases System.getElem?_set_eq hi hj with ⟨_, rfl⟩ | ⟨_, hj⟩
        · exact clearsChildren_nil _
        · exact hintegral.clears hj
    | move hmove =>
        have hstage := hstaged.stage hi
        have hclears := hintegral.clears hi
        have hpublished := hstage.published hstaged.locked hi hclears hmove
        refine ⟨hpublished.referential hintegral.referential, ?_⟩
        intro j q hj
        rcases System.getElem?_set_eq hi hj with ⟨_, rfl⟩ | ⟨hji, hj⟩
        · exact hstage.clears_move hclears hmove
        · exact (hintegral.clears hj).frame hstaged.locked hji hi hj hpublished

end Moves

/-- The foreign key holds in every reachable state, and a consumed token has the
user of its session. -/
theorem Reachable.integral {sys : AuthSystem} (hreachable : Reachable sys) :
    Integral sys := by
  rcases hreachable with ⟨start, hinitial, hsteps⟩
  have hstaged := Staged.initial hinitial
  induction hsteps with
  | refl =>
      constructor
      · intro u hu
        simp [hinitial.used] at hu
      · intro i p hi
        simp [hinitial.procs] at hi
  | tail hbefore hlast ih =>
      rcases hlast with ⟨label, _, hstep⟩
      exact ih.step (hstaged.steps hbefore).1 hstep

end Untangled.Auth
