import Untangled.AuthzPrograms
import Untangled.RbacSeed
import Untangled.ReadCommittedSerial

/-!
# The seed among the transactions that change privileges

`Seed.seedRbac` has all the columns that `seed_rbac` writes, `Rbac.seedRbac` those
that permissions are computed from, together with the locks.  When nothing runs
beside it, the second does to its tables what the first does.
-/

namespace Untangled.Seed

open ReadCommitted
open Untangled.Auth (Uuid systemUserId)

/-! ## The columns that permissions are computed from -/

def PermissionRow.authz (r : PermissionRow) : Rbac.PermissionRow :=
  ⟨r.id, r.key⟩

def JoinRow.userRole (r : JoinRow) : Rbac.UserRoleRow :=
  ⟨r.id, r.left, r.right⟩

def JoinRow.roleChild (r : JoinRow) : Rbac.RoleChildRow :=
  ⟨r.id, r.left, r.right⟩

def JoinRow.rolePermission (r : JoinRow) : Rbac.RolePermissionRow :=
  ⟨r.id, r.left, r.right⟩

theorem PermissionRow.key_authz (r : PermissionRow) : Keyed.key r.authz = Keyed.key r := rfl

theorem JoinRow.key_userRole (r : JoinRow) : key r.userRole = key r := rfl

theorem JoinRow.key_roleChild (r : JoinRow) : key r.roleChild = key r := rfl

theorem JoinRow.key_rolePermission (r : JoinRow) : key r.rolePermission = key r := rfl

def SeedTables.authz (t : SeedTables) : Rbac.AuthzTables where
  userRoles := t.userRoles.map JoinRow.userRole JoinRow.key_userRole
  roleChildren := t.roleChildren.map JoinRow.roleChild JoinRow.key_roleChild
  rolePermissions := t.rolePermissions.map JoinRow.rolePermission JoinRow.key_rolePermission
  permissions := t.permissions.map PermissionRow.authz PermissionRow.key_authz

def SeedTables.authzDb (t : SeedTables) (redis : Table Rbac.CacheRow) : Rbac.AuthzDb where
  tables := t.authz
  version := t.version.map Subtype.val
  redis := redis

/-- What is sent of the catalog. -/
def SeedCatalog.sent (C : SeedCatalog) (run : SeedRun) : Rbac.SeedCatalog where
  roleIds := C.roleIds
  permissions := C.permissions.map fun p => ⟨p.id, p.key⟩
  rolePermissions := C.rolePermissions.filterMap fun link =>
    (C.permissionsByKey link.permissionKey).map fun p =>
      ⟨run.newId (link.roleId, p.id), link.roleId, p.id⟩
  roleChildren := C.roleChildren.map fun link =>
    ⟨run.newId (link.parentRoleId, link.childRoleId), link.parentRoleId, link.childRoleId⟩
  userRoles := C.userRoles.map fun link => ⟨link.id, link.userId, link.roleId⟩
  legacyPermissionKeys := C.legacyKeys

/-! ## Statements that are sent alone -/

section Sends

variable {α : Type} {redis : Table Rbac.CacheRow} {run : SeedRun} {C : SeedCatalog}
  {t t' t'' : SeedTables}

/-- Inside a transaction, what the code sends takes the tables from `t` to `t'`. -/
def Sends (redis : Table Rbac.CacheRow) (code : Rbac.AuthzProg α → Rbac.AuthzProg α)
    (t t' : SeedTables) : Prop :=
  ∀ next n db, ∃ m,
    (code next).run Rbac.authzSchema (fun _ => false) n (some (t.authzDb redis)) db =
      next.run Rbac.authzSchema (fun _ => false) m (some (t'.authzDb redis)) db

theorem Sends.refl : Sends (α := α) redis id t t :=
  fun _ n _ => ⟨n, rfl⟩

theorem Sends.trans {code code' : Rbac.AuthzProg α → Rbac.AuthzProg α}
    (h : Sends redis code t t') (h' : Sends redis code' t' t'') :
    Sends redis (code ∘ code') t t'' := by
  intro next n db
  rcases h (code' next) n db with ⟨m, hm⟩
  rcases h' next m db with ⟨m', hm'⟩
  exact ⟨m', hm.trans hm'⟩

theorem applyAll_rbac (ws : List Rbac.RbacWrite) (db : Rbac.AuthzDb) :
    Rbac.authzSchema.applyAll (ws.map .rbac) db =
      { db with tables := ws.foldl (fun tables w => w.apply tables) db.tables } := by
  induction ws generalizing db with
  | nil => rfl
  | cons w ws ih => exact ih _

theorem sends_change {change : Rbac.RbacChange} (ws : List Rbac.RbacWrite)
    (hexec : change.exec t.authz t.authz = .ok ws)
    (hws : ws.foldl (fun tables w => w.apply tables) t.authz = t'.authz)
    (hversion : t'.version = t.version) :
    Sends (α := α) redis (Rbac.sendChange change) t t' := by
  intro next n db
  have hsent : Rbac.authzSchema.exec (.change change) (t.authzDb redis) (t.authzDb redis) =
      .ok ((), ws.map .rbac) := by
    simp only [Rbac.authzSchema, Rbac.AuthzStmt.exec, SeedTables.authzDb, hexec]
  have halone : Rbac.authzSchema.alone (.change change) (t.authzDb redis) =
      .ok ((), t'.authzDb redis) := by
    apply Schema.alone_of_exec hsent
    rw [applyAll_rbac]
    simp only [SeedTables.authzDb, hws, hversion]
  exact ⟨n + 1, Prog.run_query_some halone⟩

/-- A statement that only reads. -/
theorem run_read {stmt : Rbac.AuthzStmt} {result : Rbac.AuthzRes stmt}
    {next : Rbac.AuthzRes stmt → Rbac.AuthzProg α} {n : ℕ} {db : Rbac.AuthzDb}
    (hexec : stmt.exec (t.authzDb redis) (t.authzDb redis) = .ok (result, [])) :
    (Prog.query stmt next).run Rbac.authzSchema (fun _ => false) n
        (some (t.authzDb redis)) db =
      (next result).run Rbac.authzSchema (fun _ => false) (n + 1)
        (some (t.authzDb redis)) db :=
  Prog.run_query_some (Schema.alone_of_exec hexec rfl)

theorem sends_forEach {ι κ : Type} {f : κ → ι}
    {code : ι → Rbac.AuthzProg α → Rbac.AuthzProg α}
    (step : κ → SeedTables → Except Fault SeedTables)
    (hstep : ∀ k t t', step k t = .ok t' → Sends redis (code (f k)) t t')
    {items : List κ} (hrun : items.foldlM (fun t k => step k t) t = .ok t') :
    Sends redis (Rbac.forEach (items.map f) code) t t' := by
  induction items generalizing t with
  | nil =>
      cases hrun
      exact Sends.refl
  | cons k items ih =>
      rw [List.foldlM_cons] at hrun
      rcases Mapping.bind_eq_ok.mp hrun with ⟨t₁, hfirst, hrun⟩
      exact (hstep k t t₁ hfirst).trans (ih hrun)

/-! ## Permissions -/

theorem of_stamped (h : stamped t t' = .ok t'') : t'' = t' := by
  unfold stamped at h
  split at h
  · cases h
    rfl
  · cases h

/-- The writes of a deletion. -/
theorem foldl_eraseRolePermission (rows : List Rbac.RolePermissionRow)
    (tables : Rbac.AuthzTables) :
    (rows.map fun r => Rbac.RbacWrite.eraseRolePermission r.id).foldl
        (fun tables w => w.apply tables) tables =
      { tables with
        rolePermissions := (rows.map key).foldl Table.erase tables.rolePermissions } := by
  induction rows generalizing tables with
  | nil => rfl
  | cons r rows ih => exact ih _

theorem foldl_eraseRoleChild (rows : List Rbac.RoleChildRow) (tables : Rbac.AuthzTables) :
    (rows.map fun r => Rbac.RbacWrite.eraseRoleChild r.id).foldl
        (fun tables w => w.apply tables) tables =
      { tables with
        roleChildren := (rows.map key).foldl Table.erase tables.roleChildren } := by
  induction rows generalizing tables with
  | nil => rfl
  | cons r rows ih => exact ih _

theorem foldl_erasePermission (rows : List Rbac.PermissionRow) (tables : Rbac.AuthzTables) :
    (rows.map fun r => Rbac.RbacWrite.erasePermission r.id).foldl
        (fun tables w => w.apply tables) tables =
      { tables with
        permissions := (rows.map key).foldl Table.erase tables.permissions } := by
  induction rows generalizing tables with
  | nil => rfl
  | cons r rows ih => exact ih _

theorem sends_upsertPermission {perm : SeedPermission}
    (h : upsertPermission run perm t = .ok t') :
    Sends (α := α) redis (Rbac.sendChange (.upsertPermission ⟨perm.id, perm.key⟩)) t t' := by
  unfold upsertPermission at h
  split at h
  · cases h
  · rename_i hfree
    rw [of_stamped h]
    apply sends_change [.putPermission ⟨perm.id, perm.key⟩]
    · rw [Rbac.RbacChange.exec, if_neg]
      intro hany
      rcases List.any_eq_true.mp hany with ⟨x, hx, hclash⟩
      rcases List.mem_map.mp hx with ⟨r, hr, rfl⟩
      simp only [Bool.and_eq_true, decide_eq_true_eq, Bool.not_eq_true', Rbac.permissionIs,
        decide_eq_false_iff_not] at hclash
      exact hfree ⟨r, hr, hclash⟩
    · simp only [SeedTables.authz, Table.map_put]
      rfl
    · rfl

theorem sends_dropPermission (id : Uuid) :
    Sends (α := α) redis (Rbac.dropPermission id) t (dropPermission t id) := by
  let kept : SeedTables :=
    { t with rolePermissions := t.rolePermissions.filter fun r => r.right ≠ id }
  have hgrants : Sends (α := α) redis (Rbac.sendChange (.deleteRolePermissionsOf id)) t kept := by
    refine sends_change _ rfl ?_ rfl
    rw [Table.recheck_self, foldl_eraseRolePermission, Table.foldl_erase]
    simp only [SeedTables.authz, kept]
    rw [Table.map_filter JoinRow.rolePermission JoinRow.key_rolePermission
      (q := fun r => !Rbac.rolePermissionOf id r)]
    intro r
    rw [Rbac.rolePermissionOf, JoinRow.rolePermission, ← decide_not]
  have hexec : (Rbac.RbacChange.deletePermission id).exec kept.authz kept.authz =
      .ok ((Table.recheck (Rbac.permissionIs id) kept.authz.permissions
        kept.authz.permissions).map fun r => .erasePermission r.id) := by
    rw [Rbac.RbacChange.exec, if_neg]
    intro hany
    rcases List.any_eq_true.mp hany with ⟨x, hx, hof⟩
    rcases List.mem_map.mp hx with ⟨r, hr, rfl⟩
    have hkept := (List.mem_filter.mp hr).2
    exact of_decide_eq_true hkept (of_decide_eq_true hof)
  refine hgrants.trans (sends_change _ hexec ?_ rfl)
  rw [Table.recheck_self, foldl_erasePermission, Table.foldl_erase]
  simp only [SeedTables.authz, dropPermission, kept]
  rw [← Table.map_filter PermissionRow.authz PermissionRow.key_authz
    (p := fun r : PermissionRow => decide (r.id ≠ id))]
  · rfl
  · intro r
    rw [Rbac.permissionIs, PermissionRow.authz, ← decide_not]

/-- A row written over a row with the same columns. -/
theorem authz_put_permission {row : PermissionRow} {r : PermissionRow}
    (hr : r ∈ t.permissions) (hsame : row.authz = r.authz) :
    ({ t with permissions := t.permissions.put row } : SeedTables).authz = t.authz := by
  simp only [SeedTables.authz, Table.map_put]
  rw [Table.put_of_mem (show row.authz ∈ _ from ?_)]
  rw [hsame]
  exact List.mem_map_of_mem hr

theorem sends_reconcilePermission {perm : SeedPermission}
    (h : reconcilePermission run perm t = .ok t') :
    Sends (α := α) redis (Rbac.reconcilePermission ⟨perm.id, perm.key⟩) t t' := by
  intro next n db
  have hread : ∀ id,
      (t.permissions.rows.find? fun r => r.key = perm.key).map PermissionRow.id = id →
      (Rbac.AuthzStmt.selectPermissionId perm.key).exec (t.authzDb redis) (t.authzDb redis) =
        .ok (id, []) := by
    intro id hid
    simp only [Rbac.AuthzStmt.exec, SeedTables.authzDb, SeedTables.authz, Table.map,
      List.find?_map, Option.map_map]
    rw [← hid]
    rfl
  unfold Rbac.reconcilePermission
  unfold reconcilePermission at h
  cases hfind : t.permissions.rows.find? fun r => r.key = perm.key with
  | none =>
      rw [hfind] at h
      rw [run_read (hread none (by rw [hfind]; rfl))]
      exact sends_upsertPermission h next (n + 1) db
  | some row =>
      rw [hfind] at h
      rw [run_read (hread (some row.id) (by rw [hfind]; rfl))]
      dsimp only at h ⊢
      split at h
      · rename_i hother
        rw [if_neg hother]
        exact ((sends_dropPermission row.id).trans (sends_upsertPermission h)) next (n + 1) db
      · rename_i hsame
        rw [if_pos (not_not.mp hsame), of_stamped h]
        refine ⟨n + 1, ?_⟩
        have hkey : row.key = perm.key := by simpa using List.find?_some hfind
        rw [SeedTables.authzDb, SeedTables.authzDb,
          authz_put_permission (List.mem_of_find?_eq_some hfind)]
        rw [PermissionRow.authz, PermissionRow.authz, not_not.mp hsame, hkey]
        rfl

theorem sends_dropPermissions (ids : List Uuid) :
    Sends (α := α) redis (Rbac.forEach ids Rbac.dropPermission) t
      (ids.foldl dropPermission t) := by
  induction ids generalizing t with
  | nil => exact Sends.refl
  | cons id ids ih => exact (sends_dropPermission id).trans ih

theorem SeedCatalog.sent_obsolete (C : SeedCatalog) (run : SeedRun) :
    (C.sent run).obsolete = C.obsolete := by
  have hkeys : (C.sent run).permissions.map Rbac.PermissionRow.key =
      C.permissions.map SeedPermission.key := by
    simp only [SeedCatalog.sent, List.map_map]
    rfl
  rw [Rbac.SeedCatalog.obsolete, SeedCatalog.obsolete, hkeys]
  apply List.filter_congr
  intro k _
  rw [← decide_not]

/-- The end of `_reconcile_permissions`. -/
theorem sends_removeObsolete :
    Sends (α := α) redis (fun next =>
      if (C.sent run).obsolete.isEmpty then next
      else .query (.selectPermissionIds (C.sent run).obsolete) fun ids =>
        Rbac.forEach ids Rbac.dropPermission next) t (removeObsolete C t) := by
  intro next n db
  rw [SeedCatalog.sent_obsolete]
  by_cases hnone : C.obsolete = []
  · refine ⟨n, ?_⟩
    simp [removeObsolete, hnone]
  · have hread : (Rbac.AuthzStmt.selectPermissionIds C.obsolete).exec (t.authzDb redis)
        (t.authzDb redis) =
        .ok ((t.permissions.rows.filter fun r => r.key ∈ C.obsolete).map
          PermissionRow.id, []) := by
      simp only [Rbac.AuthzStmt.exec, SeedTables.authzDb, SeedTables.authz, Table.map,
        List.filter_map, List.map_map]
      rfl
    have hsome : ¬ C.obsolete.isEmpty = true := by
      rwa [List.isEmpty_iff]
    dsimp only
    rw [if_neg hsome, run_read hread]
    exact sends_dropPermissions _ next (n + 1) db

theorem sends_reconcilePermissions (h : reconcilePermissions run C t = .ok t') :
    Sends (α := α) redis (Rbac.reconcilePermissions (C.sent run)) t t' := by
  unfold reconcilePermissions at h
  rcases Mapping.bind_eq_ok.mp h with ⟨t₁, hall, hremoved⟩
  cases hremoved
  exact (sends_forEach (reconcilePermission run)
    (fun _ _ _ => sends_reconcilePermission) hall).trans sends_removeObsolete

/-! ## Attachments -/

theorem not_stray {P Q : Prop} [Decidable P] [Decidable Q] [Decidable (¬ P ∨ Q)] :
    (!(decide P && !decide Q)) = decide (¬ P ∨ Q) := by
  by_cases hP : P <;> by_cases hQ : Q <;> simp [hP, hQ]

theorem sends_pruneRolePermissions (roleIds : List Uuid) (keep : List (Uuid × Uuid)) :
    Sends (α := α) redis (Rbac.sendChange (.pruneRolePermissions roleIds keep)) t
      { t with rolePermissions := pruneJoins roleIds keep t.rolePermissions } := by
  refine sends_change _ rfl ?_ rfl
  rw [Table.recheck_self, foldl_eraseRolePermission, Table.foldl_erase]
  simp only [SeedTables.authz, pruneJoins]
  rw [Table.map_filter JoinRow.rolePermission JoinRow.key_rolePermission
    (q := fun r => !Rbac.rolePermissionStray roleIds keep r)]
  intro r
  exact not_stray

theorem sends_pruneRoleChildren (roleIds : List Uuid) (keep : List (Uuid × Uuid)) :
    Sends (α := α) redis (Rbac.sendChange (.pruneRoleChildren roleIds keep)) t
      { t with roleChildren := pruneJoins roleIds keep t.roleChildren } := by
  refine sends_change _ rfl ?_ rfl
  rw [Table.recheck_self, foldl_eraseRoleChild, Table.foldl_erase]
  simp only [SeedTables.authz, pruneJoins]
  rw [Table.map_filter JoinRow.roleChild JoinRow.key_roleChild
    (q := fun r => !Rbac.roleChildStray roleIds keep r)]
  intro r
  exact not_stray

theorem rolePermissionPair_iff {row r : Rbac.RolePermissionRow} :
    Rbac.rolePermissionPair row r = true ↔
      (r.roleId, r.permissionId) = (row.roleId, row.permissionId) := by
  simp [Rbac.rolePermissionPair]

theorem roleChildPair_iff {row r : Rbac.RoleChildRow} :
    Rbac.roleChildPair row r = true ↔
      (r.parentRoleId, r.childRoleId) = (row.parentRoleId, row.childRoleId) := by
  simp [Rbac.roleChildPair]

theorem userRoleClash_iff {row r : Rbac.UserRoleRow} :
    (Rbac.userRoleOf row.userId r && decide (r.roleId = row.roleId) &&
        !decide (r.id = row.id)) = true ↔
      (r.userId, r.roleId) = (row.userId, row.roleId) ∧ r.id ≠ row.id := by
  simp [Rbac.userRoleOf]

/-- What an insertion with `ON CONFLICT` on the pair does to the columns `f`, which
have no stamps. -/
theorem upsertJoin_map {σ : Type} [Keyed σ Uuid] {f : JoinRow → σ}
    (hf : ∀ r, key (f r) = key r) (hstamps : ∀ r stamps, f { r with stamps := stamps } = f r)
    {pair : Uuid × Uuid} {joins joins' : Table JoinRow}
    (h : upsertJoin run pair joins = .ok joins') :
    (∃ row ∈ joins.rows, row.pair = pair ∧ joins'.map f hf = joins.map f hf) ∨
      (∀ row ∈ joins.rows, row.pair ≠ pair ∧ row.id ≠ run.newId pair) ∧
        ∃ stamps, joins'.map f hf =
          (joins.map f hf).put (f ⟨run.newId pair, pair.1, pair.2, stamps⟩) := by
  unfold upsertJoin at h
  cases hfind : joins.rows.find? fun r => r.pair = pair with
  | some row =>
      rw [hfind] at h
      cases h
      have hrow := List.mem_of_find?_eq_some hfind
      refine Or.inl ⟨row, hrow, by simpa using List.find?_some hfind, ?_⟩
      rw [Table.map_put, hstamps, Table.put_of_mem (List.mem_map_of_mem hrow)]
  | none =>
      rw [hfind] at h
      dsimp only at h
      split at h
      · cases h
      · rename_i hfresh
        cases h
        refine Or.inr ⟨fun row hrow => ⟨?_, ?_⟩, _, Table.map_put ..⟩
        · simpa using List.find?_eq_none.mp hfind row hrow
        · intro hid
          exact hfresh (hid ▸ List.mem_map_of_mem hrow)

theorem sends_upsertRolePermission {link : Uuid × SeedPermission}
    (h : upsertRolePermission run link t = .ok t') :
    Sends (α := α) redis (Rbac.sendChange (.upsertRolePermission
      ⟨run.newId (link.1, link.2.id), link.1, link.2.id⟩)) t t' := by
  unfold upsertRolePermission at h
  split at h
  · rename_i hrefs
    rcases Mapping.bind_eq_ok.mp h with ⟨joins, hjoins, h⟩
    rw [of_stamped h]
    rcases upsertJoin_map JoinRow.key_rolePermission (fun _ _ => rfl) hjoins with
      ⟨row, hrow, hpair, hmap⟩ | ⟨hno, stamps, hmap⟩
    · apply sends_change []
      · rw [Rbac.RbacChange.exec, if_pos]
        refine List.any_eq_true.mpr ⟨_, List.mem_map_of_mem hrow, ?_⟩
        exact rolePermissionPair_iff.mpr hpair
      · simp only [SeedTables.authz, hmap, List.foldl_nil]
      · rfl
    · apply sends_change
        [.putRolePermission ⟨run.newId (link.1, link.2.id), link.1, link.2.id⟩]
      · rw [Rbac.RbacChange.exec, if_neg, if_neg, if_pos]
        · rcases List.mem_map.mp hrefs.2 with ⟨p, hp, hid⟩
          refine List.any_eq_true.mpr ⟨_, List.mem_map_of_mem hp, ?_⟩
          exact decide_eq_true hid
        · intro hany
          rcases List.any_eq_true.mp hany with ⟨x, hx, hid⟩
          rcases List.mem_map.mp hx with ⟨r, hr, rfl⟩
          exact (hno r hr).2 (of_decide_eq_true hid)
        · intro hany
          rcases List.any_eq_true.mp hany with ⟨x, hx, hsame⟩
          rcases List.mem_map.mp hx with ⟨r, hr, rfl⟩
          exact (hno r hr).1 (rolePermissionPair_iff.mp hsame)
      · simp only [SeedTables.authz, hmap]
        rfl
      · rfl
  · cases h

theorem sends_upsertRoleChild {link : SeedRoleChild} (h : upsertRoleChild run link t = .ok t') :
    Sends (α := α) redis (Rbac.sendChange (.upsertRoleChild
      ⟨run.newId (link.parentRoleId, link.childRoleId), link.parentRoleId, link.childRoleId⟩))
      t t' := by
  unfold upsertRoleChild at h
  split at h
  · rcases Mapping.bind_eq_ok.mp h with ⟨joins, hjoins, h⟩
    rw [of_stamped h]
    rcases upsertJoin_map JoinRow.key_roleChild (fun _ _ => rfl) hjoins with
      ⟨row, hrow, hpair, hmap⟩ | ⟨hno, stamps, hmap⟩
    · apply sends_change []
      · rw [Rbac.RbacChange.exec, if_pos]
        refine List.any_eq_true.mpr ⟨_, List.mem_map_of_mem hrow, ?_⟩
        exact roleChildPair_iff.mpr hpair
      · simp only [SeedTables.authz, hmap, List.foldl_nil]
      · rfl
    · apply sends_change [.putRoleChild
        ⟨run.newId (link.parentRoleId, link.childRoleId), link.parentRoleId,
          link.childRoleId⟩]
      · rw [Rbac.RbacChange.exec, if_neg, if_neg]
        · intro hany
          rcases List.any_eq_true.mp hany with ⟨x, hx, hid⟩
          rcases List.mem_map.mp hx with ⟨r, hr, rfl⟩
          exact (hno r hr).2 (of_decide_eq_true hid)
        · intro hany
          rcases List.any_eq_true.mp hany with ⟨x, hx, hsame⟩
          rcases List.mem_map.mp hx with ⟨r, hr, rfl⟩
          exact (hno r hr).1 (roleChildPair_iff.mp hsame)
      · simp only [SeedTables.authz, hmap]
        rfl
      · rfl
  · cases h

theorem sends_upsertUserRole {link : SeedUserRole} (h : upsertUserRole run link t = .ok t') :
    Sends (α := α) redis
      (Rbac.sendChange (.upsertUserRole ⟨link.id, link.userId, link.roleId⟩)) t t' := by
  unfold upsertUserRole at h
  split at h
  · cases h
  · rename_i hfree
    split at h
    · rw [of_stamped h]
      apply sends_change [.putUserRole ⟨link.id, link.userId, link.roleId⟩]
      · rw [Rbac.RbacChange.exec, if_neg]
        intro hany
        rcases List.any_eq_true.mp hany with ⟨x, hx, hclash⟩
        rcases List.mem_map.mp hx with ⟨r, hr, rfl⟩
        exact hfree ⟨r, hr, userRoleClash_iff.mp hclash⟩
      · simp only [SeedTables.authz, Table.map_put]
        rfl
      · rfl
    · cases h

/-! ## The whole seed -/

theorem upsertRoles_authzDb (h : upsertRoles run C t = .ok t') :
    t'.authzDb redis = t.authzDb redis := by
  have hall : ∀ roles : List SeedRole, ∀ t t' : SeedTables,
      roles.foldlM (fun t role => upsertRole run role t) t = .ok t' →
      t'.authzDb redis = t.authzDb redis := by
    intro roles
    induction roles with
    | nil =>
        intro t t' h
        cases h
        rfl
    | cons role roles ih =>
        intro t t' h
        rw [List.foldlM_cons] at h
        rcases Mapping.bind_eq_ok.mp h with ⟨t₁, hrole, h⟩
        rw [ih t₁ t' h]
        unfold upsertRole at hrole
        split at hrole
        · cases hrole
        · rw [of_stamped hrole]
          rfl
  exact hall C.roles t t' h

theorem sent_rolePermissions {links : List (Uuid × SeedPermission)}
    (h : C.rolePermissions.mapM (resolveLink C) = .ok links) :
    (C.sent run).rolePermissions =
      links.map fun link => ⟨run.newId (link.1, link.2.id), link.1, link.2.id⟩ := by
  have hall : ∀ wanted : List SeedRolePermission, ∀ links,
      wanted.mapM (resolveLink C) = .ok links →
      (wanted.filterMap fun link => (C.permissionsByKey link.permissionKey).map fun p =>
        (⟨run.newId (link.roleId, p.id), link.roleId, p.id⟩ : Rbac.RolePermissionRow)) =
      links.map fun link => ⟨run.newId (link.1, link.2.id), link.1, link.2.id⟩ := by
    intro wanted
    induction wanted with
    | nil =>
        intro links h
        cases h
        rfl
    | cons link wanted ih =>
        intro links h
        rw [List.mapM_cons] at h
        rcases Mapping.bind_eq_ok.mp h with ⟨found, hlink, h⟩
        rcases Mapping.bind_eq_ok.mp h with ⟨rest, hrest, h⟩
        cases h
        unfold resolveLink at hlink
        split at hlink
        · rename_i p hp
          cases hlink
          simp [hp, ih rest hrest]
        · cases hlink
  exact hall C.rolePermissions links h

theorem sends_upsertRolePermissions (h : upsertRolePermissions run C t = .ok t') :
    Sends (α := α) redis (Rbac.upsertRolePermissions (C.sent run)) t t' := by
  unfold upsertRolePermissions at h
  rcases Mapping.bind_eq_ok.mp h with ⟨links, hlinks, h⟩
  unfold Rbac.upsertRolePermissions
  rw [sent_rolePermissions hlinks, List.map_map]
  exact (sends_pruneRolePermissions _ _).trans
    (sends_forEach (f := fun link : Uuid × SeedPermission =>
        (⟨run.newId (link.1, link.2.id), link.1, link.2.id⟩ : Rbac.RolePermissionRow))
      (upsertRolePermission run) (fun _ _ _ => sends_upsertRolePermission) h)

theorem sends_upsertRoleChildren (h : upsertRoleChildren run C t = .ok t') :
    Sends (α := α) redis (Rbac.upsertRoleChildren (C.sent run)) t t' := by
  unfold Rbac.upsertRoleChildren
  simp only [SeedCatalog.sent, List.map_map]
  exact (sends_pruneRoleChildren _ _).trans
    (sends_forEach (f := fun link : SeedRoleChild =>
        (⟨run.newId (link.parentRoleId, link.childRoleId), link.parentRoleId,
          link.childRoleId⟩ : Rbac.RoleChildRow))
      (upsertRoleChild run) (fun _ _ _ => sends_upsertRoleChild) h)

theorem sends_upsertUserRoles (h : upsertUserRoles run C t = .ok t') :
    Sends (α := α) redis (Rbac.upsertUserRoles (C.sent run)) t t' :=
  sends_forEach
    (f := fun link : SeedUserRole => (⟨link.id, link.userId, link.roleId⟩ : Rbac.UserRoleRow))
    (upsertUserRole run) (fun _ _ _ => sends_upsertUserRole) h

theorem sends_ensureAuthzVersionRow (redis : Table Rbac.CacheRow)
    (h : ensureAuthzVersionRow t = .ok t') :
    Sends (α := α) redis (fun next => .query .ensureAuthzVersionRow fun _ => next) t t' := by
  have halone : Rbac.authzSchema.alone .ensureAuthzVersionRow (t.authzDb redis) =
      .ok ((), t'.authzDb redis) := by
    unfold ensureAuthzVersionRow at h
    cases hversion : t.version with
    | some version =>
        rw [hversion] at h
        cases h
        simp [Schema.alone, Rbac.authzSchema, Rbac.AuthzStmt.exec, SeedTables.authzDb, hversion]
    | none =>
        rw [hversion] at h
        rw [of_stamped h]
        simp [Schema.alone, Schema.applyAll, Rbac.authzSchema, Rbac.AuthzStmt.exec,
          Rbac.AuthzWrite.apply, SeedTables.authzDb, SeedTables.authz, hversion, firstVersion]
  exact fun next n db => ⟨n + 1, Prog.run_query_some halone⟩

theorem alone_bumpGlobalAuthzVersion (redis : Table Rbac.CacheRow)
    (h : bumpGlobalAuthzVersion t = .ok t') :
    ∃ version, Rbac.authzSchema.alone .bumpGlobalAuthzVersion (t.authzDb redis) =
      .ok (some version, t'.authzDb redis) := by
  unfold bumpGlobalAuthzVersion at h
  cases hversion : t.version with
  | none =>
      rw [hversion] at h
      cases h
  | some version =>
      rw [hversion] at h
      rcases Mapping.bind_eq_ok.mp h with ⟨bumped, hbumped, hdone⟩
      cases hdone
      unfold toInt4 at hbumped
      split at hbumped
      · cases hbumped
        refine ⟨version.val + 1, ?_⟩
        simp [Schema.alone, Schema.applyAll, Rbac.authzSchema, Rbac.AuthzStmt.exec,
          Rbac.AuthzWrite.apply, SeedTables.authzDb, SeedTables.authz, hversion]
      · cases hbumped

/-- A seed that succeeds on the tables, sent as one transaction beside which nothing
runs, leaves the columns that permissions are computed from, and the version, as the
seed of the tables does. -/
theorem seedRbac_sends (redis : Table Rbac.CacheRow) (h : seedRbac run C t = .ok t') :
    (Rbac.seedRbac (C.sent run) (.ret .done)).runSerial Rbac.authzSchema (t.authzDb redis) =
      (.ok Rbac.AuthzReply.done, t'.authzDb redis) := by
  rcases Mapping.bind_eq_ok.mp h with ⟨t₁, hensured, h⟩
  rcases Mapping.bind_eq_ok.mp h with ⟨t₂, hroles, h⟩
  rcases Mapping.bind_eq_ok.mp h with ⟨t₃, hpermissions, h⟩
  rcases Mapping.bind_eq_ok.mp h with ⟨t₄, hgrants, h⟩
  rcases Mapping.bind_eq_ok.mp h with ⟨t₅, hchildren, h⟩
  rcases Mapping.bind_eq_ok.mp h with ⟨t₆, hholders, hbumped⟩
  rcases alone_bumpGlobalAuthzVersion redis hbumped with ⟨version, halone⟩
  have hseeded : Sends (α := Rbac.AuthzReply) redis _ t₂ t₆ :=
    (sends_reconcilePermissions hpermissions).trans ((sends_upsertRolePermissions hgrants).trans
      ((sends_upsertRoleChildren hchildren).trans (sends_upsertUserRoles hholders)))
  unfold Prog.runSerial Rbac.seedRbac
  rw [Prog.run_beginTx]
  rcases sends_ensureAuthzVersionRow redis hensured _ 1 (t.authzDb redis) with ⟨n, hsent⟩
  refine hsent.trans ?_
  rw [← upsertRoles_authzDb hroles]
  rcases hseeded _ n (t.authzDb redis) with ⟨m, hsent⟩
  refine hsent.trans ?_
  rw [Prog.run_query_some halone]
  simp

end Sends

end Untangled.Seed
