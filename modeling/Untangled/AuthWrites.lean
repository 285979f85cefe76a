import Untangled.AuthStatements

/-!
# What writes can change

A published list of writes changes only the rows it targets.  Writes that are
quiet, deletions and writes to `user`, never bring a session or a consumed
token into existence.
-/

namespace Untangled.Auth

open ReadCommitted

variable {db snap cur : AuthDb} {ws : List RowWrite}

/-- The write neither stores a session nor a consumed token. -/
def RowWrite.quiet : RowWrite → Bool
  | .putSession _ => false
  | .putUsed _ => false
  | _ => true

/-- The statement neither stores a session nor a consumed token. -/
def AuthStmt.quiet : AuthStmt → Bool
  | .insertUserSession _ => false
  | .insertUsedToken _ => false
  | .rotateUserSession _ _ _ => false
  | .issueFirstRefresh _ _ _ => false
  | _ => true

/-- The write sets a statement can have. -/
inductive AuthStmt.Wrote (cur : AuthDb) : AuthStmt → List RowWrite → Prop
  | nothing {stmt} (hquiet : stmt.quiet = true) : Wrote cur stmt []
  | insertedSession (row : SessionRow) :
      Wrote cur (.insertUserSession row) [.putSession row]
  | insertedUsed (row : UsedRow) : Wrote cur (.insertUsedToken row) [.putUsed row]
  | updatedSessions {stmt} (rows : List SessionRow) (update : SessionUpdate)
      (hquiet : stmt.quiet = false) :
      Wrote cur stmt (rows.map fun r => .putSession (update.apply r))
  | updatedUsers {stmt} (rows : List UserRow) (f : UserRow → UserRow)
      (hquiet : stmt.quiet = true) :
      Wrote cur stmt (rows.map fun r => .putUser (f r))
  | deletedUsed {stmt} (rows : List UsedRow) (hquiet : stmt.quiet = true) :
      Wrote cur stmt (rows.map fun u => .eraseUsed u.id)
  | deletedSessions {stmt} (rows : List SessionRow) (hquiet : stmt.quiet = true)
      (hchildren : ∀ u ∈ cur.used, ∀ r ∈ rows, r.id ≠ u.sessionId) :
      Wrote cur stmt (rows.map fun r => .eraseSession r.id)

theorem deleteSessions_wrote {stmt : AuthStmt} {p : SessionRow → Bool} {n : ℕ}
    (hquiet : stmt.quiet = true) (hexec : deleteSessions p snap cur = .ok (n, ws)) :
    stmt.Wrote cur ws := by
  rcases deleteSessions_ok hexec with ⟨hnone, _, rfl⟩
  refine .deletedSessions _ hquiet ?_
  intro u hu r hr hid
  have hmem : u ∈ referencing p snap cur := mem_referencing.mpr ⟨hu, r, hr, hid⟩
  rw [hnone] at hmem
  cases hmem

theorem AuthStmt.exec_wrote {stmt : AuthStmt} {result : AuthRes stmt}
    (hexec : stmt.exec snap cur = .ok (result, ws)) : stmt.Wrote cur ws := by
  cases stmt with
  | insertUserSession row =>
      rw [(insertSession_ok hexec).1]
      exact .insertedSession row
  | insertUsedToken row =>
      rw [(insertUsed_ok hexec).1]
      exact .insertedUsed row
  | rotateUserSession id userId update =>
      rw [(updateSessions_ok hexec).2]
      exact .updatedSessions _ update rfl
  | issueFirstRefresh id userId update =>
      rw [(updateSessions_ok hexec).2]
      exact .updatedSessions _ update rfl
  | deleteUserSession id userId => exact deleteSessions_wrote rfl hexec
  | deleteExpiredUserSession now => exact deleteSessions_wrote rfl hexec
  | deleteSessionsOfUser userId => exact deleteSessions_wrote rfl hexec
  | selectSessionForUpdate h userId id =>
      cases hexec
      exact .nothing rfl
  | selectUsedToken h userId sessionId =>
      cases hexec
      exact .nothing rfl
  | selectUserForUpdate id =>
      cases hexec
      exact .nothing rfl
  | selectUserSession id userId =>
      cases hexec
      exact .nothing rfl
  | selectUserByUsername username =>
      cases hexec
      exact .nothing rfl
  | deleteUsedOfSession sessionId userId =>
      cases hexec
      exact .deletedUsed _ rfl
  | deleteUsedRefreshToken now =>
      cases hexec
      exact .deletedUsed _ rfl
  | deleteUsedOfUser userId =>
      cases hexec
      exact .deletedUsed _ rfl
  | updateUserPassword id update =>
      cases hexec
      exact .updatedUsers _ _ rfl
  | updateFailedLoginCount id count updatedAt =>
      cases hexec
      exact .updatedUsers _ _ rfl

theorem AuthStmt.exec_quiet {stmt : AuthStmt} {result : AuthRes stmt}
    (hquiet : stmt.quiet = true) (hexec : stmt.exec snap cur = .ok (result, ws)) :
    ∀ w ∈ ws, w.quiet = true := by
  intro w hw
  cases stmt.exec_wrote hexec with
  | nothing _ => cases hw
  | insertedSession row => cases hquiet
  | insertedUsed row => cases hquiet
  | updatedSessions rows update hnot =>
      rw [hquiet] at hnot
      cases hnot
  | updatedUsers rows f _ =>
      rcases List.mem_map.mp hw with ⟨r, _, rfl⟩
      rfl
  | deletedUsed rows _ =>
      rcases List.mem_map.mp hw with ⟨u, _, rfl⟩
      rfl
  | deletedSessions rows _ _ =>
      rcases List.mem_map.mp hw with ⟨r, _, rfl⟩
      rfl

/-- A deletion of a session that succeeds sees none of its consumed tokens. -/
theorem AuthStmt.exec_children {stmt : AuthStmt} {result : AuthRes stmt}
    {id : Uuid} (hexec : stmt.exec snap cur = .ok (result, ws))
    (hw : .eraseSession id ∈ ws) :
    stmt.quiet = true ∧ ∀ u ∈ cur.used, u.sessionId ≠ id := by
  cases stmt.exec_wrote hexec with
  | nothing _ => cases hw
  | insertedSession row => simp at hw
  | insertedUsed row => simp at hw
  | updatedSessions rows update _ => simp at hw
  | updatedUsers rows f _ => simp at hw
  | deletedUsed rows _ => simp at hw
  | deletedSessions rows hquiet hchildren =>
      rcases List.mem_map.mp hw with ⟨r, hr, heq⟩
      rw [← RowWrite.eraseSession.inj heq]
      exact ⟨hquiet, fun u hu hid => hchildren u hu r hr hid.symm⟩

/-! ## Single writes -/

theorem RowWrite.mem_sessions_of_ne {w : RowWrite} {r : SessionRow}
    (htarget : w.target ≠ .session r.id) :
    r ∈ (w.apply db).sessions ↔ r ∈ db.sessions := by
  cases w with
  | putUser row => exact Iff.rfl
  | putUsed row => exact Iff.rfl
  | eraseUsed id => exact Iff.rfl
  | putSession row =>
      have hne : r.id ≠ row.id := fun h => htarget (congrArg RowKey.session h.symm)
      simp only [RowWrite.apply, Table.mem_put, key_session]
      constructor
      · rintro (rfl | ⟨hr, _⟩)
        · exact absurd rfl hne
        · exact hr
      · intro hr
        exact Or.inr ⟨hr, hne⟩
  | eraseSession id =>
      have hne : r.id ≠ id := fun h => htarget (congrArg RowKey.session h.symm)
      simp only [RowWrite.apply, Table.mem_erase, key_session]
      exact and_iff_left hne

theorem RowWrite.mem_used_of_ne {w : RowWrite} {u : UsedRow}
    (htarget : w.target ≠ .used u.id) :
    u ∈ (w.apply db).used ↔ u ∈ db.used := by
  cases w with
  | putUser row => exact Iff.rfl
  | putSession row => exact Iff.rfl
  | eraseSession id => exact Iff.rfl
  | putUsed row =>
      have hne : u.id ≠ row.id := fun h => htarget (congrArg RowKey.used h.symm)
      simp only [RowWrite.apply, Table.mem_put, key_used]
      constructor
      · rintro (rfl | ⟨hu, _⟩)
        · exact absurd rfl hne
        · exact hu
      · intro hu
        exact Or.inr ⟨hu, hne⟩
  | eraseUsed id =>
      have hne : u.id ≠ id := fun h => htarget (congrArg RowKey.used h.symm)
      simp only [RowWrite.apply, Table.mem_erase, key_used]
      exact and_iff_left hne

theorem RowWrite.mem_users_of_ne {w : RowWrite} {r : UserRow}
    (htarget : w.target ≠ .user r.id) :
    r ∈ (w.apply db).users ↔ r ∈ db.users := by
  cases w with
  | putSession row => exact Iff.rfl
  | eraseSession id => exact Iff.rfl
  | putUsed row => exact Iff.rfl
  | eraseUsed id => exact Iff.rfl
  | putUser row =>
      have hne : r.id ≠ row.id := fun h => htarget (congrArg RowKey.user h.symm)
      simp only [RowWrite.apply, Table.mem_put, key_user]
      constructor
      · rintro (rfl | ⟨hr, _⟩)
        · exact absurd rfl hne
        · exact hr
      · intro hr
        exact Or.inr ⟨hr, hne⟩

theorem RowWrite.mem_sessions_of_quiet {w : RowWrite} (hquiet : w.quiet = true)
    {r : SessionRow} (hr : r ∈ (w.apply db).sessions) : r ∈ db.sessions := by
  cases w with
  | putSession row => cases hquiet
  | putUsed row => cases hquiet
  | putUser row => exact hr
  | eraseUsed id => exact hr
  | eraseSession id => exact (Table.mem_erase.mp hr).1

theorem RowWrite.mem_used_of_quiet {w : RowWrite} (hquiet : w.quiet = true)
    {u : UsedRow} (hu : u ∈ (w.apply db).used) : u ∈ db.used := by
  cases w with
  | putSession row => cases hquiet
  | putUsed row => cases hquiet
  | putUser row => exact hu
  | eraseSession id => exact hu
  | eraseUsed id => exact (Table.mem_erase.mp hu).1

/-! ## Lists of writes -/

theorem mem_sessions_applyAll_of_ne {r : SessionRow}
    (htarget : ∀ w ∈ ws, w.target ≠ .session r.id) :
    r ∈ (authSchema.applyAll ws db).sessions ↔ r ∈ db.sessions := by
  induction ws generalizing db with
  | nil => rfl
  | cons w ws ih =>
      rw [Schema.applyAll_cons, ih fun w' hw' => htarget w' (.tail _ hw')]
      exact RowWrite.mem_sessions_of_ne (htarget w (.head _))

theorem mem_used_applyAll_of_ne {u : UsedRow}
    (htarget : ∀ w ∈ ws, w.target ≠ .used u.id) :
    u ∈ (authSchema.applyAll ws db).used ↔ u ∈ db.used := by
  induction ws generalizing db with
  | nil => rfl
  | cons w ws ih =>
      rw [Schema.applyAll_cons, ih fun w' hw' => htarget w' (.tail _ hw')]
      exact RowWrite.mem_used_of_ne (htarget w (.head _))

theorem mem_users_applyAll_of_ne {r : UserRow}
    (htarget : ∀ w ∈ ws, w.target ≠ .user r.id) :
    r ∈ (authSchema.applyAll ws db).users ↔ r ∈ db.users := by
  induction ws generalizing db with
  | nil => rfl
  | cons w ws ih =>
      rw [Schema.applyAll_cons, ih fun w' hw' => htarget w' (.tail _ hw')]
      exact RowWrite.mem_users_of_ne (htarget w (.head _))

theorem mem_sessions_applyAll_of_quiet (hquiet : ∀ w ∈ ws, w.quiet = true)
    {r : SessionRow} (hr : r ∈ (authSchema.applyAll ws db).sessions) :
    r ∈ db.sessions := by
  induction ws generalizing db with
  | nil => exact hr
  | cons w ws ih =>
      have hrest := ih (fun w' hw' => hquiet w' (.tail _ hw')) hr
      exact RowWrite.mem_sessions_of_quiet (hquiet w (.head _)) hrest

theorem mem_used_applyAll_of_quiet (hquiet : ∀ w ∈ ws, w.quiet = true)
    {u : UsedRow} (hu : u ∈ (authSchema.applyAll ws db).used) :
    u ∈ db.used := by
  induction ws generalizing db with
  | nil => exact hu
  | cons w ws ih =>
      have hrest := ih (fun w' hw' => hquiet w' (.tail _ hw')) hu
      exact RowWrite.mem_used_of_quiet (hquiet w (.head _)) hrest

/-- Where a user's row comes from after a list of writes. -/
theorem mem_users_applyAll {r : UserRow}
    (hr : r ∈ (authSchema.applyAll ws db).users) :
    .putUser r ∈ ws ∨ (r ∈ db.users ∧ ∀ w ∈ ws, w.target ≠ .user r.id) := by
  induction ws generalizing db with
  | nil => exact Or.inr ⟨hr, by simp⟩
  | cons w ws ih =>
      rcases ih hr with hput | ⟨hleft, hrest⟩
      · exact Or.inl (.tail _ hput)
      · by_cases htarget : w.target = .user r.id
        · cases w with
          | putUser row =>
              have hid : row.id = r.id := RowKey.user.inj htarget
              rcases Table.mem_put.mp hleft with rfl | ⟨_, hne⟩
              · exact Or.inl (.head _)
              · exact absurd hid.symm hne
          | _ => cases htarget
        · refine Or.inr ⟨(RowWrite.mem_users_of_ne htarget).mp hleft, ?_⟩
          intro w' hw'
          rcases List.mem_cons.mp hw' with rfl | hw'
          · exact htarget
          · exact hrest w' hw'

/-- A session that is left after quiet writes was not deleted by any of them. -/
theorem target_ne_of_mem_sessions (hquiet : ∀ w ∈ ws, w.quiet = true)
    {r : SessionRow} (hr : r ∈ (authSchema.applyAll ws db).sessions) :
    ∀ w ∈ ws, w.target ≠ .session r.id := by
  induction ws generalizing db with
  | nil => simp
  | cons w ws ih =>
      have hrest : ∀ w' ∈ ws, w'.quiet = true :=
        fun w' hw' => hquiet w' (.tail _ hw')
      intro w' hw'
      obtain rfl | hw' := List.mem_cons.mp hw'
      · have hleft := mem_sessions_applyAll_of_quiet hrest hr
        have hw := hquiet w' (.head _)
        cases w' with
        | putSession row => cases hw
        | putUsed row => cases hw
        | putUser row => simp [RowWrite.target]
        | eraseUsed id => simp [RowWrite.target]
        | eraseSession id =>
            have hne : r.id ≠ id := (Table.mem_erase.mp hleft).2
            simpa [RowWrite.target] using Ne.symm hne
      · exact ih hrest hr w' hw'

/-! ## Statements on one session -/

/-- A condition that one row satisfies selects that row alone, when the
snapshot has a version of it. -/
theorem recheck_eq_of_old {ρ ι : Type} [Keyed ρ ι] [DecidableEq ι]
    [DecidableEq ρ] {p : ρ → Bool} {snap cur : Table ρ} {row old : ρ}
    (hcur : row ∈ cur) (hp : p row = true)
    (hsnap : old ∈ snap) (hkey : key old = key row) (hold : p old = true)
    (honly : ∀ r ∈ cur, p r = true → key r = key row) :
    Table.recheck p snap cur = [row] := by
  have hiff : ∀ r, r ∈ Table.recheck p snap cur ↔ r = row := by
    intro r
    rw [Table.mem_recheck]
    constructor
    · rintro ⟨hr, hpr, _⟩
      exact Table.eq_of_key_eq hr hcur (honly r hr hpr)
    · rintro rfl
      exact ⟨hcur, hp, old, hsnap, hkey, hold⟩
  have hnodup : (Table.recheck p snap cur).Nodup :=
    (List.Nodup.of_map key cur.nodup).filter _
  have hperm : (Table.recheck p snap cur).Perm [row] :=
    (List.perm_ext_iff_of_nodup hnodup (List.nodup_singleton row)).mpr
      fun r => by rw [hiff, List.mem_singleton]
  exact List.perm_singleton.mp hperm

theorem recheck_eq_singleton {ρ ι : Type} [Keyed ρ ι] [DecidableEq ι]
    [DecidableEq ρ] {p : ρ → Bool} {snap cur : Table ρ} {row : ρ}
    (hcur : row ∈ cur) (hsnap : row ∈ snap) (hp : p row = true)
    (honly : ∀ r ∈ cur, p r = true → key r = key row) :
    Table.recheck p snap cur = [row] :=
  recheck_eq_of_old hcur hp hsnap rfl hp honly

/-- A condition that fixes the id selects at most one row. -/
theorem recheck_length_le_one {ρ ι : Type} [Keyed ρ ι] [DecidableEq ι]
    {p : ρ → Bool} {snap cur : Table ρ} {k : ι}
    (honly : ∀ r ∈ cur, p r = true → key r = k) :
    (Table.recheck p snap cur).length ≤ 1 := by
  by_contra hlength
  have hkeys : ((Table.recheck p snap cur).map key).Nodup :=
    cur.nodup.sublist (List.filter_sublist.map key)
  obtain ⟨a, b, rest, hrows⟩ :
      ∃ a b rest, Table.recheck p snap cur = a :: b :: rest := by
    cases hrows : Table.recheck p snap cur with
    | nil => simp [hrows] at hlength
    | cons a tail =>
        cases tail with
        | nil => simp [hrows] at hlength
        | cons b rest => exact ⟨a, b, rest, rfl⟩
  have hkey : ∀ r ∈ Table.recheck p snap cur, key r = k := by
    intro r hr
    exact honly r (Table.mem_recheck.mp hr).1 (Table.mem_recheck.mp hr).2.1
  rw [hrows] at hkeys hkey
  have hab : key a = key b :=
    (hkey a (by simp)).trans (hkey b (by simp)).symm
  simp [hab] at hkeys

/-- A rotation rewrites exactly the row it has locked. -/
theorem updateSessions_singleton {id userId : Uuid} {update : SessionUpdate}
    {row : SessionRow} {n : ℕ}
    (hexec : updateSessions (sessionIs id userId) update snap cur = .ok (n, ws))
    (hcur : row ∈ cur.sessions) (hsnap : row ∈ snap.sessions)
    (hrow : sessionIs id userId row = true) :
    ws = [.putSession (update.apply row)] := by
  have honly : ∀ r ∈ cur.sessions, sessionIs id userId r = true →
      key r = key row := by
    intro r _ hr
    simp only [sessionIs, Bool.and_eq_true, decide_eq_true_eq] at hr hrow
    exact hr.1.trans hrow.1.symm
  rw [(updateSessions_ok hexec).2, recheck_eq_singleton hcur hsnap hrow honly]
  rfl

end Untangled.Auth
