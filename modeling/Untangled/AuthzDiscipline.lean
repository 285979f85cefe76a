import Untangled.AuthzVersion

/-!
# The version discipline of the repository's transactions

A predicate on programs says that every commit behind a privilege change is
behind a bump too.  All calls satisfy it, and it gives the order of committed
states that a cache tagged with the version relies on.
-/

namespace Untangled.Rbac

open ReadCommitted VersionedCache
open Untangled.Auth (Uuid systemUserId)

/-! ## Programs that bump -/

/-- The program may commit only what it has bumped the version for, given
whether it has changed privileges and has bumped in the transaction it is in.
Outside a transaction it sends only statements that satisfy `Outside`. -/
def Bumps {α : Type} (Outside : AuthzStmt → Prop) : Bool → Bool → Bool → AuthzProg α → Prop
  | _, _, _, .ret _ => True
  | _, _, _, .throw _ => True
  | _, _, inTx, .beginTx next => inTx = false ∧ Bumps Outside false false true next
  | touched, bumped, inTx, .query stmt next =>
      (inTx = true → stmt.isRedisWrite = false) ∧ (inTx = false → Outside stmt) ∧
        ∀ result,
          Bumps Outside (touched || stmt.touches) (bumped || stmt.bumps result) inTx (next result)
  | touched, bumped, _, .commit next =>
      (touched = true → bumped = true) ∧ Bumps Outside false false false next
  | _, _, _, .rollback next => Bumps Outside false false false next

section Programs

variable {α : Type} {Outside : AuthzStmt → Prop} {next : AuthzProg α}

/-- In the transaction, whatever it has changed so far. -/
def Changing (Outside : AuthzStmt → Prop) (prog : AuthzProg α) : Prop :=
  ∀ touched, Bumps Outside touched false true prog

theorem changing_query
    {stmt : AuthzStmt} {next : AuthzRes stmt → AuthzProg α}
    (hredis : stmt.isRedisWrite = false)
    (hbumps : ∀ result, stmt.bumps result = false)
    (hnext : ∀ result, Changing Outside (next result)) :
    Changing Outside (.query stmt next) := by
  intro touched
  refine ⟨fun _ => hredis, fun h => absurd h (by simp), ?_⟩
  intro result
  rw [hbumps, Bool.or_false]
  exact hnext result _

theorem changing_sendChange
    {change : RbacChange}
    (hnext : Changing Outside next) :
    Changing Outside (sendChange change next) :=
  changing_query rfl (fun _ => rfl) fun _ => hnext

theorem changing_forEach
    {ι : Type} {items : List ι} {body : ι → AuthzProg α → AuthzProg α}
    (hbody : ∀ item next, Changing Outside next → Changing Outside (body item next))
    (hnext : Changing Outside next) :
    Changing Outside (forEach items body next) := by
  induction items with
  | nil => exact hnext
  | cons item items ih => exact hbody item _ ih

theorem changing_dropPermission
    {id : Uuid}
    (hnext : Changing Outside next) :
    Changing Outside (dropPermission id next) :=
  changing_sendChange (changing_sendChange hnext)

theorem changing_reconcilePermission
    {perm : PermissionRow}
    (hnext : Changing Outside next) :
    Changing Outside (reconcilePermission perm next) := by
  apply changing_query rfl fun _ => rfl
  intro result
  cases result with
  | none => exact changing_sendChange hnext
  | some existingId =>
      simp only
      split
      · exact hnext
      · exact changing_dropPermission (changing_sendChange hnext)

theorem changing_reconcilePermissions
    {catalog : SeedCatalog}
    (hnext : Changing Outside next) :
    Changing Outside (reconcilePermissions catalog next) := by
  apply changing_forEach fun _ _ => changing_reconcilePermission
  split
  · exact hnext
  · apply changing_query rfl fun _ => rfl
    intro ids
    exact changing_forEach (fun _ _ => changing_dropPermission) hnext

theorem changing_upsertRolePermissions
    {catalog : SeedCatalog}
    (hnext : Changing Outside next) :
    Changing Outside (upsertRolePermissions catalog next) :=
  changing_sendChange (changing_forEach (fun _ _ => changing_sendChange) hnext)

theorem changing_upsertRoleChildren
    {catalog : SeedCatalog}
    (hnext : Changing Outside next) :
    Changing Outside (upsertRoleChildren catalog next) :=
  changing_sendChange (changing_forEach (fun _ _ => changing_sendChange) hnext)

theorem changing_upsertUserRoles
    {catalog : SeedCatalog}
    (hnext : Changing Outside next) :
    Changing Outside (upsertUserRoles catalog next) :=
  changing_forEach (fun _ _ => changing_sendChange) hnext

/-- The bump, and the commit behind it. -/
theorem changing_bump
    (hnext : Bumps Outside false false false next) :
    Changing Outside (.query .bumpGlobalAuthzVersion fun
      | none => .rollback (.throw .interrupted)
      | some _ => .commit next) := by
  intro touched
  refine ⟨fun _ => rfl, fun h => absurd h (by simp), ?_⟩
  intro result
  cases result with
  | none => exact trivial
  | some version => exact ⟨fun _ => rfl, hnext⟩

theorem bumps_seedRbac
    {catalog : SeedCatalog}
    (hnext : Bumps Outside false false false next) :
    Bumps Outside false false false (seedRbac catalog next) := by
  refine ⟨rfl, fun _ => rfl, fun h => absurd h (by simp), ?_⟩
  intro _
  exact changing_reconcilePermissions (changing_upsertRolePermissions
    (changing_upsertRoleChildren (changing_upsertUserRoles (changing_bump hnext)))) _

theorem bumps_upsertSystemUser
    (hnext : Bumps Outside false false true next) :
    Bumps Outside false false true (upsertSystemUser next) := by
  refine ⟨fun _ => rfl, fun h => absurd h (by simp), ?_⟩
  intro _
  simpa [AuthzStmt.touches, AuthzStmt.bumps] using hnext

theorem bumps_commit
    (hnext : Bumps Outside false false false next) :
    Bumps Outside false false true (.commit next) :=
  ⟨fun h => absurd h (by simp), hnext⟩

theorem bumps_seedAll
    {catalog : SeedCatalog}
    (hnext : Bumps Outside false false false next) :
    Bumps Outside false false false (seedAll catalog next) := by
  refine ⟨rfl, bumps_upsertSystemUser (bumps_commit (bumps_seedRbac ⟨rfl, ?_⟩))⟩
  exact bumps_upsertSystemUser (bumps_commit hnext)

theorem bumps_migrate
    {early : Bool}
    (hnext : Bumps Outside false false false next) :
    Bumps Outside false false false (migrate early next) := by
  have hlast : Bumps Outside false false true
      (upsertSystemUser (.query .ensureAuthzVersionRow fun _ => .commit next)) := by
    apply bumps_upsertSystemUser
    exact ⟨fun _ => rfl, fun h => absurd h (by simp), fun _ => bumps_commit hnext⟩
  refine ⟨rfl, ?_⟩
  cases early with
  | true => exact bumps_upsertSystemUser hlast
  | false => exact hlast

end Programs

/-- What a call sends outside a transaction: no table is written there, and only
a lookup stores an entry. -/
def AuthzCall.Outside : AuthzCall → AuthzStmt → Prop
  | .lookup _ _ _ _, stmt => stmt.isTableWrite = false
  | _, stmt => stmt.isTableWrite = false ∧ stmt.storesEntry = false

theorem AuthzCall.Outside.not_table
    {call : AuthzCall} {stmt : AuthzStmt}
    (h : call.Outside stmt) :
    stmt.isTableWrite = false := by
  cases call with
  | lookup => exact h
  | seedRbac | seedAll | migrate | expire => exact h.1

theorem bumps_cachedLookup
    {code : LookupCode} {userId : Uuid} {getFails setFails : Bool} {Outside : AuthzStmt → Prop}
    (h : ∀ stmt : AuthzStmt, stmt.isTableWrite = false → Outside stmt) :
    Bumps Outside false false false (cachedLookup code userId getFails setFails) := by
  refine ⟨fun htx => absurd htx (by simp), fun _ => h _ rfl, ?_⟩
  intro version
  cases version with
  | none => exact trivial
  | some globalVersion =>
      refine ⟨fun htx => absurd htx (by simp), fun _ => h _ rfl, ?_⟩
      intro cached
      simp only
      cases validKeys globalVersion cached with
      | some keys => exact trivial
      | none =>
          refine ⟨fun htx => absurd htx (by simp), fun _ => h _ rfl, ?_⟩
          intro tables
          simp only
          cases code.fetch tables userId with
          | error error => exact trivial
          | ok resolved =>
              exact ⟨fun htx => absurd htx (by simp), fun _ => h _ rfl, fun _ => trivial⟩

theorem bumps_start (catalog : SeedCatalog) (call : AuthzCall) :
    Bumps call.Outside false false false (call.start catalog) := by
  cases call with
  | lookup service userId getFails setFails =>
      cases service with
      | api => exact bumps_cachedLookup fun _ h => h
      | auth => exact bumps_cachedLookup fun _ h => h
  | seedRbac => exact bumps_seedRbac trivial
  | seedAll => exact bumps_seedAll trivial
  | migrate early => exact bumps_migrate trivial
  | expire userId =>
      exact ⟨fun htx => absurd htx (by simp), fun _ => ⟨rfl, rfl⟩, fun _ => trivial⟩

/-! ## What a call has pending -/

/-- The state of a call beside the committed database. -/
structure Pending (db : AuthzDb) (p : AuthzProc) : Prop where
  program : ∃ touched bumped, Bumps p.call.Outside touched bumped p.inTx p.prog ∧
    (touched = false → ∀ w ∈ p.writes, w.isRbac = false) ∧
    (bumped = true → db.tag < (p.view authzSchema db).tag)
  grows : db.tag ≤ (p.view authzSchema db).tag
  noRedis : ∀ w ∈ p.writes, w.isRedis = false

theorem pending_fresh
    {db : AuthzDb} {call : AuthzCall} {prog : AuthzProg AuthzReply} {touched : Bool}
    (h : Bumps call.Outside touched false false prog) :
    Pending db (.fresh call prog) where
  program := ⟨touched, false, h, fun _ _ hw => absurd hw List.not_mem_nil,
    fun hbumped => absurd hbumped (by simp)⟩
  grows := le_refl _
  noRedis := fun _ hw => absurd hw List.not_mem_nil

theorem pending_failed
    {db : AuthzDb} {call : AuthzCall} {fault : Fault} :
    Pending db (.fresh call (.throw fault)) := by
  have hprogram : Bumps call.Outside false false false
      (.throw fault : AuthzProg AuthzReply) := trivial
  exact pending_fresh hprogram

/-- `upsert_system_user` is not about to delete a role of the system user. -/
def clearsNothing (db : AuthzDb) (p : AuthzProc) : Bool :=
  match p.prog with
  | .query (.change (.deleteUserRoles userId)) _ =>
      !(p.view authzSchema db).tables.userRoles.rows.any (userRoleOf userId)
  | _ => true

/-- Whenever `upsert_system_user` clears the roles of the system user, it has none. -/
def SystemUserHasNoRoles (sys : AuthzSystem) : Label AuthzCall → Prop
  | .advance i => (sys.procs[i]?).all (clearsNothing sys.db) = true
  | .spawn _ => True
  | .interrupt _ => True
  | .deadlock _ => True

theorem clearsNothing_spec
    {db : AuthzDb} {p : AuthzProc} {stmt : AuthzStmt} {next : AuthzRes stmt → AuthzProg AuthzReply}
    (h : clearsNothing db p = true)
    (hprog : p.prog = .query stmt next) :
    stmt = .change (.deleteUserRoles systemUserId) →
      ∀ row ∈ (p.view authzSchema db).tables.userRoles, row.userId ≠ systemUserId := by
  intro hstmt row hrow huser
  subst hstmt
  unfold clearsNothing at h
  rw [hprog] at h
  simp only [Bool.not_eq_true', List.any_eq_false] at h
  exact h row hrow (by simpa [userRoleOf] using huser)

section Change

variable {sys : AuthzSystem} {i : ℕ} {p p' : AuthzProc} {db' : AuthzDb}

/-- A call that moves keeps to the discipline, and leaves a state that may come
after the one it found. -/
theorem Pending.move
    (hlocked : sys.WellLocked authzSchema)
    (hi : sys.procs[i]? = some p)
    (h : Pending sys.db p)
    (hclears : clearsNothing sys.db p = true)
    (hmove : p.Move authzSchema sys.db (sys.heldByOthers i) db' p') :
    Pending db' p' ∧ Later AuthzDb.tag AuthzDb.privileges sys.db db' := by
  rcases h.program with ⟨touched, bumped, hprogram, huntouched, hbumped⟩
  cases hmove with
  | beginTx hprog =>
      rw [hprog] at hprogram
      rcases hlocked.idle hi hprogram.1 with ⟨hwrites, _⟩
      refine ⟨⟨⟨false, false, hprogram.2, ?_, fun hfalse => absurd hfalse (by simp)⟩, h.grows,
        h.noRedis⟩, .refl⟩
      intro _ w hw
      rw [hwrites] at hw
      exact absurd hw List.not_mem_nil
  | takeSnapshot hprog hsnap =>
      exact ⟨⟨⟨touched, bumped, hprogram, huntouched, hbumped⟩, h.grows, h.noRedis⟩, .refl⟩
  | error hprog hsnap hexec => exact ⟨pending_failed, .refl⟩
  | @finish stmt next snap result ws hprog hsnap hinTx hfree hexec =>
      rw [hprog] at hprogram
      rcases hprogram with ⟨hredis, _, hnext⟩
      rcases AuthzStmt.exec_version hexec with ⟨hforward, hon⟩
      have hview : ({ p with
          prog := next result
          snapshot := none
          writes := p.writes ++ ws
          locks := p.locks ++ authzSchema.lockSet stmt snap (p.view authzSchema sys.db) } :
            AuthzProc).view authzSchema sys.db =
          authzSchema.applyAll ws (p.view authzSchema sys.db) :=
        authzSchema.applyAll_append p.writes ws sys.db
      refine ⟨⟨⟨_, _, hnext result, ?_, ?_⟩, ?_, ?_⟩, .refl⟩
      · intro htouched w hw
        rw [Bool.or_eq_false_iff] at htouched
        rcases List.mem_append.mp hw with hold | hnew
        · exact huntouched htouched.1 w hold
        · exact AuthzStmt.exec_untouched hexec htouched.2 (clearsNothing_spec hclears hprog) w hnew
      · intro hbumps
        rw [hview]
        rcases Bool.or_eq_true_iff.mp hbumps with hold | hnew
        · exact (hbumped hold).trans_le hforward
        · exact h.grows.trans_lt (hon hnew)
      · rw [hview]
        exact h.grows.trans hforward
      · intro w hw
        rcases List.mem_append.mp hw with hold | hnew
        · exact h.noRedis w hold
        · exact AuthzStmt.exec_not_redis hexec (hredis hinTx) w hnew
  | @auto stmt next snap result ws hprog hsnap hinTx hfree hexec =>
      rw [hprog] at hprogram
      rcases hprogram with ⟨_, houtside, hnext⟩
      have hview := hlocked.view_idle hi hinTx
      have hnoBump : bumped = false := by
        rw [Bool.eq_false_iff]
        intro htrue
        have hlt := hbumped htrue
        rw [hview] at hlt
        exact lt_irrefl _ hlt
      have hquiet := AuthzStmt.exec_not_table hexec (houtside hinTx).not_table
      have hbumps : stmt.bumps result = false := by
        cases stmt with
        | bumpGlobalAuthzVersion => exact absurd (houtside hinTx).not_table (by simp [
            AuthzStmt.isTableWrite])
        | _ => rfl
      have hrest := hnext result
      rw [hinTx, hnoBump, hbumps, Bool.or_false] at hrest
      refine ⟨pending_fresh hrest, ?_⟩
      rw [hview]
      apply Later.of_same
      · unfold AuthzDb.tag
        rw [version_applyAll, lastVersion_eq_none fun w hw => (hquiet w hw).2, Option.none_or]
      · unfold AuthzDb.privileges
        rw [tables_applyAll fun w hw => (hquiet w hw).1]
  | commit hprog =>
      rw [hprog] at hprogram
      refine ⟨pending_fresh hprogram.2, h.grows, ?_⟩
      intro htag
      cases htouched : touched with
      | false =>
          unfold AuthzDb.privileges Proc.view
          rw [tables_applyAll (huntouched htouched)]
      | true => exact absurd htag (hbumped (hprogram.1 htouched)).ne
  | rollback hprog =>
      rw [hprog] at hprogram
      exact ⟨pending_fresh hprogram, .refl⟩

/-- What another call publishes leaves a call's pending version where it is: the
row is locked once the version has been set. -/
theorem Pending.other
    {j : ℕ} {q : AuthzProc}
    (hlocked : sys.WellLocked authzSchema)
    (hi : sys.procs[i]? = some p)
    (hj : sys.procs[j]? = some q)
    (hji : j ≠ i)
    (h : Pending sys.db q)
    (hmove : p.Move authzSchema sys.db (sys.heldByOthers i) db' p') :
    Pending db' q := by
  rcases h.program with ⟨touched, bumped, hprogram, huntouched, hbumped⟩
  have hgrows := h.grows
  unfold Proc.view AuthzDb.tag at hgrows hbumped
  rw [version_applyAll] at hgrows hbumped
  cases hlast : lastVersion q.writes with
  | none =>
      rw [hlast, Option.none_or] at hbumped
      refine ⟨⟨touched, bumped, hprogram, huntouched, ?_⟩, ?_, h.noRedis⟩
      · exact fun htrue => absurd (hbumped htrue) (lt_irrefl _)
      · unfold Proc.view AuthzDb.tag
        rw [version_applyAll, hlast, Option.none_or]
  | some version =>
      have hsame : db'.version = sys.db.version := by
        have hset : ∃ w ∈ q.writes, w.newVersion ≠ none := by
          by_contra hnone
          rw [lastVersion_eq_none fun w hw => by_contra fun hnew => hnone ⟨w, hw, hnew⟩] at hlast
          exact absurd hlast (by simp)
        rcases hset with ⟨w, hw, hnew⟩
        rcases hlocked.covered hj hw with ⟨m, hlock, hm⟩
        rcases hmove.published hlocked hi with hdb | ⟨ws, hdb, hws⟩
        · rw [hdb]
        · rw [hdb, version_applyAll, lastVersion_eq_none, Option.none_or]
          intro w' hw'
          by_contra hnew'
          apply hws j q _ m hji hj hlock hm w' hw'
          exact (target_of_newVersion hnew').trans (target_of_newVersion hnew).symm
      refine ⟨⟨touched, bumped, hprogram, huntouched, ?_⟩, ?_, h.noRedis⟩
      · unfold Proc.view AuthzDb.tag
        rw [version_applyAll, hsame]
        exact hbumped
      · unfold Proc.view AuthzDb.tag
        rw [version_applyAll, hsame]
        exact hgrows

end Change

/-! ## Every run -/

structure AuthzDisciplined (sys : AuthzSystem) : Prop where
  locked : sys.WellLocked authzSchema
  pending : ∀ {i : ℕ} {p : AuthzProc}, sys.procs[i]? = some p → Pending sys.db p

theorem AuthzInitial.disciplined
    {sys : AuthzSystem}
    (h : AuthzInitial sys) :
    AuthzDisciplined sys := by
  constructor
  · apply System.WellLocked.of_forall_idle
    intro p hp
    rw [h.procs] at hp
    exact absurd hp List.not_mem_nil
  · intro i p hi
    rw [h.procs] at hi
    exact absurd hi (by simp)

theorem pending_set
    {sys : AuthzSystem} {i j : ℕ} {p p' q : AuthzProc} {db' : AuthzDb}
    (hi : sys.procs[i]? = some p)
    (hself : Pending db' p')
    (hothers : ∀ j q, j ≠ i → sys.procs[j]? = some q → Pending db' q)
    (hj : (sys.procs.set i p')[j]? = some q) :
    Pending db' q := by
  rcases System.getElem?_set_eq hi hj with ⟨_, hq⟩ | ⟨hji, hq⟩
  · rw [hq]
    exact hself
  · exact hothers j q hji hq

theorem AuthzDisciplined.step
    {catalog : SeedCatalog} {sys sys' : AuthzSystem} {label : Label AuthzCall}
    (h : AuthzDisciplined sys)
    (hclears : SystemUserHasNoRoles sys label)
    (hstep : System.Step authzSchema (AuthzCall.start catalog) sys label sys') :
    AuthzDisciplined sys' ∧ Later AuthzDb.tag AuthzDb.privileges sys.db sys'.db := by
  have hlocked := h.locked.step hstep
  cases hstep with
  | spawn call =>
      refine ⟨⟨hlocked, ?_⟩, .refl⟩
      intro j q hj
      rcases System.getElem?_append_eq hj with ⟨_, hq⟩ | hold
      · rw [hq]
        exact pending_fresh (bumps_start catalog call)
      · exact h.pending hold
  | @advance i p db' p' hi hadvance =>
      have hmove := Proc.advance_move hadvance
      have hnothing : clearsNothing sys.db p = true := by
        simpa [SystemUserHasNoRoles, hi] using hclears
      rcases (h.pending hi).move h.locked hi hnothing hmove with ⟨hself, hlater⟩
      refine ⟨⟨hlocked, ?_⟩, hlater⟩
      intro j q hj
      exact pending_set hi hself (fun j q hji hq => (h.pending hq).other h.locked hi hq hji hmove) hj
  | interrupt hi hrunning =>
      refine ⟨⟨hlocked, ?_⟩, .refl⟩
      intro j q hj
      exact pending_set hi pending_failed (fun _ _ _ hq => h.pending hq) hj
  | deadlock hi hcycle =>
      refine ⟨⟨hlocked, ?_⟩, .refl⟩
      intro j q hj
      exact pending_set hi pending_failed (fun _ _ _ hq => h.pending hq) hj

end Untangled.Rbac
