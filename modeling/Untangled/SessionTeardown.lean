import Untangled.LogOutApproach
import Untangled.SessionIntegrity

/-!
# Teardowns against concurrent rotations

`invalidate` and a change of password with `invalidate_user_sessions` delete
the consumed tokens of their sessions first and the sessions second.  A rotation
locks its session first and stores a consumed token second.  What the teardown
has not seen in its first deletion, the foreign key holds against its second.
-/

namespace Untangled.Auth

open ReadCommitted TokenLedger

/-- A teardown of one session, or of all sessions of a user. -/
inductive Teardown
  | session (userId sessionId : Uuid)
  | user (args : ChangePasswordArgs)
      (hinvalidate : args.invalidateUserSessions = true)

namespace Teardown

variable {t : Teardown} {r r' : SessionRow} {u : UsedRow}

def call : Teardown → Call
  | .session userId sessionId => .invalidate userId sessionId
  | .user args _ => .changePassword args

/-- The sessions that are torn down. -/
def torn : Teardown → SessionRow → Bool
  | .session userId sessionId => sessionIs sessionId userId
  | .user args _ => sessionOfUser args.userId

/-- Their consumed tokens. -/
def tornUsed : Teardown → UsedRow → Bool
  | .session userId sessionId => usedOfSession sessionId userId
  | .user args _ => usedOfUser args.userId

/-- The reply of a teardown that has committed its deletions. -/
def Done : Teardown → Reply → Prop
  | .session _ _, reply => reply = .invalidated
  | .user _ _, reply => ∃ username, reply = .changed (.ok .loggedOut username)

/-- The first deletion: the consumed tokens. -/
def deleteUsed : Teardown → AuthStmt
  | .session userId sessionId => .deleteUsedOfSession sessionId userId
  | .user args _ => .deleteUsedOfUser args.userId

/-- The second deletion: the sessions. -/
def deleteSessions : Teardown → AuthStmt
  | .session userId sessionId => .deleteUserSession sessionId userId
  | .user args _ => .deleteSessionsOfUser args.userId

/-- The second deletion, then the commit. -/
def clearSessions (reply : Reply) (t : Teardown) : AuthProg Reply :=
  .query t.deleteSessions fun _ => .commit (.ret reply)

/-- The two deletions, then the commit. -/
def clear (reply : Reply) (t : Teardown) : AuthProg Reply :=
  .query t.deleteUsed fun _ => t.clearSessions reply

/-- A consumed token of a torn-down session is torn down with it. -/
theorem tornUsed_of_torn (htorn : t.torn r = true) (hid : r.id = u.sessionId)
    (howner : r.userId = u.userId) : t.tornUsed u = true := by
  cases t with
  | session userId sessionId =>
      simp only [torn, sessionIs, Bool.and_eq_true, decide_eq_true_eq] at htorn
      simp [tornUsed, usedOfSession, ← hid, ← howner, htorn]
  | user args hinvalidate =>
      simp only [torn, sessionOfUser, decide_eq_true_eq] at htorn
      simp [tornUsed, usedOfUser, ← howner, htorn]

theorem torn_of_tornUsed (htorn : t.tornUsed u = true) (hid : r.id = u.sessionId)
    (howner : r.userId = u.userId) : t.torn r = true := by
  cases t with
  | session userId sessionId =>
      simp only [tornUsed, usedOfSession, Bool.and_eq_true,
        decide_eq_true_eq] at htorn
      simp [torn, sessionIs, hid, howner, htorn]
  | user args hinvalidate =>
      simp only [tornUsed, usedOfUser, decide_eq_true_eq] at htorn
      simp [torn, sessionOfUser, howner, htorn]

theorem torn_congr (hid : r.id = r'.id) (howner : r.userId = r'.userId) :
    t.torn r = t.torn r' := by
  cases t with
  | session userId sessionId => simp [torn, sessionIs, hid, howner]
  | user args hinvalidate => simp [torn, sessionOfUser, howner]

section Statements

variable {snap cur : AuthDb} {ws : List RowWrite}

theorem deleteUsed_ok {result : AuthRes t.deleteUsed}
    (hexec : t.deleteUsed.exec snap cur = .ok (result, ws)) :
    ws = (Table.recheck t.tornUsed snap.used cur.used).map
      fun u => .eraseUsed u.id := by
  cases t with
  | session userId sessionId =>
      cases hexec
      rfl
  | user args hinvalidate =>
      cases hexec
      rfl

theorem deleteUsed_error {fault : Fault} :
    t.deleteUsed.exec snap cur ≠ .error fault := by
  intro hexec
  cases t with
  | session userId sessionId => cases hexec
  | user args hinvalidate => cases hexec

theorem deleteSessions_ok {result : AuthRes t.deleteSessions}
    (hexec : t.deleteSessions.exec snap cur = .ok (result, ws)) :
    ws = (Table.recheck t.torn snap.sessions cur.sessions).map
      fun r => .eraseSession r.id := by
  cases t with
  | session userId sessionId => exact (Auth.deleteSessions_ok hexec).2.2
  | user args hinvalidate => exact (Auth.deleteSessions_ok hexec).2.2

/-- The second deletion fails only at a consumed token the first has left. -/
theorem deleteSessions_error {fault : Fault}
    (hexec : t.deleteSessions.exec snap cur = .error fault) :
    ∃ u ∈ cur.used, ∃ r ∈ cur.sessions, t.torn r = true ∧ r.id = u.sessionId := by
  have hreferencing : referencing t.torn snap cur ≠ [] := by
    cases t with
    | session userId sessionId => exact (Auth.deleteSessions_error hexec).2
    | user args hinvalidate => exact (Auth.deleteSessions_error hexec).2
  rcases List.exists_mem_of_ne_nil _ hreferencing with ⟨u, hmem⟩
  rcases mem_referencing.mp hmem with ⟨hu, r, hr, hid⟩
  have hrow := Table.mem_recheck.mp hr
  exact ⟨u, hu, r, hrow.1, hrow.2.1, hid⟩

end Statements

end Teardown

/-- Neither a session nor a consumed token is left. -/
structure Gone (t : Teardown) (db : AuthDb) : Prop where
  sessions : ∀ r ∈ db.sessions, t.torn r = false
  used : ∀ u ∈ db.used, t.tornUsed u = false

/-! ## Positions of a teardown -/

/-- The position of a teardown, with what it has learned and what it has
pending. -/
inductive TeardownAt (t : Teardown) (db : AuthDb) (p : AuthProc) : Prop
  | start {userId sessionId} (hkind : t = .session userId sessionId)
      (hprog : p.prog = invalidateSession userId sessionId)
      (hsnap : p.snapshot = none) (hwrites : p.writes = [])
  | approach {args hinvalidate} (hkind : t = .user args hinvalidate)
      (hat : ApproachAt args db p)
  | clear {reply} (hprog : p.prog = t.clear reply) (hreply : t.Done reply)
      (hinTx : p.inTx = true) (hwrites : ∀ w ∈ p.writes, ∃ row, w = .putUser row)
      (hsnap : ∀ snap, p.snapshot = some snap → ∀ u ∈ db.used,
        t.tornUsed u = true → u ∈ snap.used)
  | clearSessions {reply} (hprog : p.prog = t.clearSessions reply)
      (hreply : t.Done reply) (hinTx : p.inTx = true)
      (hwrites : ∀ w ∈ p.writes, (∃ row, w = .putUser row) ∨ ∃ id, w = .eraseUsed id)
      (hused : ∀ u ∈ db.used, t.tornUsed u = true → .eraseUsed u.id ∈ p.writes)
      (hsnap : ∀ snap, p.snapshot = some snap → ∀ r ∈ db.sessions,
        t.torn r = true → ∃ old ∈ snap.sessions, old.id = r.id ∧ t.torn old = true)
  | commit {reply} (hprog : p.prog = .commit (.ret reply)) (hreply : t.Done reply)
      (hquiet : ∀ w ∈ p.writes, w.quiet = true)
      (hused : ∀ u ∈ db.used, t.tornUsed u = true → .eraseUsed u.id ∈ p.writes)
      (hsessions : ∀ r ∈ db.sessions, t.torn r = true →
        .eraseSession r.id ∈ p.writes)
  | done {reply} (hprog : p.prog = .ret reply) (hreply : t.Done reply)
      (hgone : Gone t db)

section Moves

variable {t : Teardown} {sys : AuthSystem} {i : ℕ} {p p' : AuthProc}
  {db' : AuthDb}

theorem quiet_of_clear
    (hwrites : ∀ w ∈ p.writes, (∃ row, w = .putUser row) ∨ ∃ id, w = .eraseUsed id) :
    ∀ w ∈ p.writes, w.quiet = true := by
  intro w hw
  rcases hwrites w hw with ⟨row, rfl⟩ | ⟨id, rfl⟩
  · rfl
  · rfl

/-- What the first deletion leaves pending. -/
theorem clear_move {reply : Reply} (hprog : p.prog = t.clear reply)
    (hreply : t.Done reply) (hinTx : p.inTx = true)
    (hwrites : ∀ w ∈ p.writes, ∃ row, w = .putUser row)
    (hsnap : ∀ snap, p.snapshot = some snap → ∀ u ∈ sys.db.used,
      t.tornUsed u = true → u ∈ snap.used)
    (hmove : p.Move authSchema sys.db (sys.heldByOthers i) db' p') :
    TeardownAt t db' p' := by
  have hview : ∀ u, u ∈ (p.view authSchema sys.db).used ↔ u ∈ sys.db.used := by
    intro u
    apply mem_used_applyAll_of_ne
    intro w hw
    rcases hwrites w hw with ⟨row, rfl⟩
    simp [RowWrite.target]
  cases hmove.of_query hprog with
  | takeSnapshot hnone =>
      refine .clear hprog hreply hinTx hwrites ?_
      intro snap hsome u hu _
      rw [← Option.some.inj hsome]
      exact (hview u).mpr hu
  | error hsome hexec => exact absurd hexec Teardown.deleteUsed_error
  | auto hsome htx hfree hexec => simp [hinTx] at htx
  | finish hsome _ hfree hexec =>
      have hws := Teardown.deleteUsed_ok hexec
      refine .clearSessions rfl hreply hinTx ?_ ?_ (by simp)
      · intro w hw
        rcases List.mem_append.mp hw with hw | hw
        · exact Or.inl (hwrites w hw)
        · rw [hws] at hw
          rcases List.mem_map.mp hw with ⟨u, _, rfl⟩
          exact Or.inr ⟨u.id, rfl⟩
      · intro u hu htorn
        apply List.mem_append_right
        rw [hws]
        have hseen := hsnap _ hsome u hu htorn
        have hrow : u ∈ Table.recheck t.tornUsed _ (p.view authSchema sys.db).used :=
          Table.mem_recheck.mpr ⟨(hview u).mpr hu, htorn, u, hseen, rfl, htorn⟩
        exact List.mem_map.mpr ⟨u, hrow, rfl⟩

/-- The second deletion finds every consumed token of its sessions deleted. -/
theorem clearSessions_move {reply : Reply} (hreferential : Referential sys.db)
    (hprog : p.prog = t.clearSessions reply) (hreply : t.Done reply)
    (hinTx : p.inTx = true)
    (hwrites : ∀ w ∈ p.writes, (∃ row, w = .putUser row) ∨ ∃ id, w = .eraseUsed id)
    (hused : ∀ u ∈ sys.db.used, t.tornUsed u = true → .eraseUsed u.id ∈ p.writes)
    (hsnap : ∀ snap, p.snapshot = some snap → ∀ r ∈ sys.db.sessions,
      t.torn r = true → ∃ old ∈ snap.sessions, old.id = r.id ∧ t.torn old = true)
    (hmove : p.Move authSchema sys.db (sys.heldByOthers i) db' p') :
    TeardownAt t db' p' := by
  have hquiet := quiet_of_clear hwrites
  have hview : ∀ r, r ∈ (p.view authSchema sys.db).sessions ↔
      r ∈ sys.db.sessions := by
    intro r
    apply mem_sessions_applyAll_of_ne
    intro w hw
    rcases hwrites w hw with ⟨row, rfl⟩ | ⟨id, rfl⟩
    · simp [RowWrite.target]
    · simp [RowWrite.target]
  cases hmove.of_query hprog with
  | takeSnapshot hnone =>
      refine .clearSessions hprog hreply hinTx hwrites hused ?_
      intro snap hsome r hr htorn
      rw [← Option.some.inj hsome]
      exact ⟨r, (hview r).mpr hr, rfl, htorn⟩
  | error hsome hexec =>
      rcases Teardown.deleteSessions_error hexec with ⟨u, hu, r, hr, htorn, hid⟩
      have hold := mem_used_applyAll_of_quiet hquiet hu
      rcases hreferential u hold with ⟨parent, hparent, hparentId, howner⟩
      -- the session in the way is the one the consumed token belongs to
      have hsame : r = parent :=
        Table.eq_of_key_eq ((hview r).mp hr) hparent (hid.trans hparentId.symm)
      rw [hsame] at htorn
      have herased := hused u hold
        (Teardown.tornUsed_of_torn htorn hparentId howner)
      exact absurd rfl (target_ne_of_mem_used hquiet hu _ herased)
  | auto hsome htx hfree hexec => simp [hinTx] at htx
  | finish hsome _ hfree hexec =>
      have hws := Teardown.deleteSessions_ok hexec
      refine .commit rfl hreply ?_ ?_ ?_
      · intro w hw
        rcases List.mem_append.mp hw with hw | hw
        · exact hquiet w hw
        · rw [hws] at hw
          rcases List.mem_map.mp hw with ⟨r, _, rfl⟩
          rfl
      · intro u hu htorn
        exact List.mem_append_left _ (hused u hu htorn)
      · intro r hr htorn
        apply List.mem_append_right
        rw [hws]
        rcases hsnap _ hsome r hr htorn with ⟨old, hold, hid, htornOld⟩
        have hrow : r ∈ Table.recheck t.torn _ (p.view authSchema sys.db).sessions :=
          Table.mem_recheck.mpr ⟨(hview r).mpr hr, htorn, old, hold, hid, htornOld⟩
        exact List.mem_map.mpr ⟨r, hrow, rfl⟩

/-- The commit of the deletions leaves nothing. -/
theorem commit_gone {db : AuthDb} {ws : List RowWrite}
    (hquiet : ∀ w ∈ ws, w.quiet = true)
    (hused : ∀ u ∈ db.used, t.tornUsed u = true → .eraseUsed u.id ∈ ws)
    (hsessions : ∀ r ∈ db.sessions, t.torn r = true → .eraseSession r.id ∈ ws) :
    Gone t (authSchema.applyAll ws db) := by
  constructor
  · intro r hr
    by_contra htorn
    have herased := hsessions r (mem_sessions_applyAll_of_quiet hquiet hr)
      (by simpa using htorn)
    exact target_ne_of_mem_sessions hquiet hr _ herased rfl
  · intro u hu
    by_contra htorn
    have herased := hused u (mem_used_applyAll_of_quiet hquiet hu)
      (by simpa using htorn)
    exact target_ne_of_mem_used hquiet hu _ herased rfl

/-- A move of the teardown. -/
theorem TeardownAt.move (hat : TeardownAt t sys.db p)
    (hreferential : Referential sys.db)
    (hmove : p.Move authSchema sys.db (sys.heldByOthers i) db' p') :
    TeardownAt t db' p' := by
  cases hat with
  | start hkind hprog hsnap hwrites =>
      rcases hmove.of_beginTx hprog with ⟨rfl, rfl⟩
      rw [hkind]
      exact .clear rfl rfl rfl (by simp [hwrites]) (by simp [hsnap])
  | @approach args hinvalidate hkind hat =>
      rcases hat.move hinvalidate hmove with hat' | ⟨user, row, hout⟩
      · exact .approach hkind hat'
      · have hprog := hout.prog
        unfold changeLogOut at hprog
        rw [hout.owner] at hprog
        rw [hkind]
        refine .clear hprog ⟨user.username, rfl⟩ hout.held.inTx ?_
          (by simp [hout.snapshot])
        intro w hw
        rw [hout.writes, List.mem_singleton] at hw
        exact ⟨row, hw⟩
  | clear hprog hreply hinTx hwrites hsnap =>
      exact clear_move hprog hreply hinTx hwrites hsnap hmove
  | clearSessions hprog hreply hinTx hwrites hused hsnap =>
      exact clearSessions_move hreferential hprog hreply hinTx hwrites hused
        hsnap hmove
  | commit hprog hreply hquiet hused hsessions =>
      rcases hmove.of_commit hprog with ⟨rfl, rfl⟩
      exact .done rfl hreply (commit_gone hquiet hused hsessions)
  | done hprog hreply hgone =>
      have hrunning := hmove.running
      simp [Proc.running, hprog] at hrunning

end Moves

end Untangled.Auth
