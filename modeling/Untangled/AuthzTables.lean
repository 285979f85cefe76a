import Untangled.AuthTables
import Untangled.RoleGraph

/-!
# What permissions are computed from, and their cache

The tables behind the effective permissions of a user, the `authz_version` row
and the Redis entries that hold permission keys already computed, with every
statement and command that the cached lookups, the seed and the migration send.

`role` and `user` rows decide nothing here and are left out; where a foreign key
to them would stop a statement, the call ends as one that is interrupted.  A
table that does not exist yet is one without rows.  A Redis command is a
statement that commits by itself.  JSON is read back as it was written, so an
entry is its payload.
-/

namespace Untangled.Rbac

open ReadCommitted
open Untangled.Auth (Uuid systemUserId)

structure UserRoleRow where
  id : Uuid
  userId : Uuid
  roleId : Uuid
deriving DecidableEq

structure RoleChildRow where
  id : Uuid
  parentRoleId : Uuid
  childRoleId : Uuid
deriving DecidableEq

structure RolePermissionRow where
  id : Uuid
  roleId : Uuid
  permissionId : Uuid
deriving DecidableEq

structure PermissionRow where
  id : Uuid
  key : String
deriving DecidableEq

/-- The JSON object under a user's key. -/
structure CachePayload where
  v : ℤ
  keys : List String
deriving DecidableEq

structure CacheRow where
  key : String
  payload : CachePayload
deriving DecidableEq

instance : Keyed UserRoleRow Uuid := ⟨UserRoleRow.id⟩
instance : Keyed RoleChildRow Uuid := ⟨RoleChildRow.id⟩
instance : Keyed RolePermissionRow Uuid := ⟨RolePermissionRow.id⟩
instance : Keyed PermissionRow Uuid := ⟨PermissionRow.id⟩
instance : Keyed CacheRow String := ⟨CacheRow.key⟩

structure AuthzTables where
  userRoles : Table UserRoleRow
  roleChildren : Table RoleChildRow
  rolePermissions : Table RolePermissionRow
  permissions : Table PermissionRow

/-- The tables as the flatten query joins them. -/
def AuthzTables.joined (t : AuthzTables) : RbacTables Uuid Uuid Uuid where
  userRole := t.userRoles.rows.map fun r => (r.userId, r.roleId)
  roleChild := t.roleChildren.rows.map fun r => (r.parentRoleId, r.childRoleId)
  rolePermission := t.rolePermissions.rows.map fun r => (r.roleId, r.permissionId)
  permission := t.permissions.rows.map fun r => (r.id, r.key)

/-- `version` is the singleton row of `authz_version`, if it is there. -/
structure AuthzDb where
  tables : AuthzTables
  version : Option ℤ
  redis : Table CacheRow

/-! ## Writes and locks -/

inductive RbacKey
  | userRole (id : Uuid)
  | roleChild (id : Uuid)
  | rolePermission (id : Uuid)
  | permission (id : Uuid)
deriving DecidableEq

inductive RbacWrite
  | putUserRole (row : UserRoleRow)
  | eraseUserRole (id : Uuid)
  | putRoleChild (row : RoleChildRow)
  | eraseRoleChild (id : Uuid)
  | putRolePermission (row : RolePermissionRow)
  | eraseRolePermission (id : Uuid)
  | putPermission (row : PermissionRow)
  | erasePermission (id : Uuid)
deriving DecidableEq

def RbacWrite.target : RbacWrite → RbacKey
  | .putUserRole row => .userRole row.id
  | .eraseUserRole id => .userRole id
  | .putRoleChild row => .roleChild row.id
  | .eraseRoleChild id => .roleChild id
  | .putRolePermission row => .rolePermission row.id
  | .eraseRolePermission id => .rolePermission id
  | .putPermission row => .permission row.id
  | .erasePermission id => .permission id

def RbacWrite.apply : RbacWrite → AuthzTables → AuthzTables
  | .putUserRole row, t => { t with userRoles := t.userRoles.put row }
  | .eraseUserRole id, t => { t with userRoles := t.userRoles.erase id }
  | .putRoleChild row, t => { t with roleChildren := t.roleChildren.put row }
  | .eraseRoleChild id, t => { t with roleChildren := t.roleChildren.erase id }
  | .putRolePermission row, t => { t with rolePermissions := t.rolePermissions.put row }
  | .eraseRolePermission id, t => { t with rolePermissions := t.rolePermissions.erase id }
  | .putPermission row, t => { t with permissions := t.permissions.put row }
  | .erasePermission id, t => { t with permissions := t.permissions.erase id }

inductive AuthzKey
  | rbac (key : RbacKey)
  | authzVersion
  | redis (key : String)
deriving DecidableEq

inductive AuthzWrite
  | rbac (w : RbacWrite)
  | setVersion (version : ℤ)
  | putEntry (row : CacheRow)
  | eraseEntry (key : String)
deriving DecidableEq

def AuthzWrite.target : AuthzWrite → AuthzKey
  | .rbac w => .rbac w.target
  | .setVersion _ => .authzVersion
  | .putEntry row => .redis row.key
  | .eraseEntry key => .redis key

def AuthzWrite.apply : AuthzWrite → AuthzDb → AuthzDb
  | .rbac w, db => { db with tables := w.apply db.tables }
  | .setVersion version, db => { db with version := some version }
  | .putEntry row, db => { db with redis := db.redis.put row }
  | .eraseEntry key, db => { db with redis := db.redis.erase key }

/-! ## Statements that change privileges -/

inductive RbacChange
  | upsertPermission (row : PermissionRow)
  | deletePermission (id : Uuid)
  | deleteRolePermissionsOf (permissionId : Uuid)
  | pruneRolePermissions (roleIds : List Uuid) (keep : List (Uuid × Uuid))
  | upsertRolePermission (row : RolePermissionRow)
  | pruneRoleChildren (roleIds : List Uuid) (keep : List (Uuid × Uuid))
  | upsertRoleChild (row : RoleChildRow)
  | upsertUserRole (row : UserRoleRow)
  | deleteUserRoles (userId : Uuid)
deriving DecidableEq

def permissionIs (id : Uuid) (r : PermissionRow) : Bool :=
  decide (r.id = id)

def rolePermissionOf (permissionId : Uuid) (r : RolePermissionRow) : Bool :=
  decide (r.permissionId = permissionId)

def rolePermissionStray (roleIds : List Uuid) (keep : List (Uuid × Uuid))
    (r : RolePermissionRow) : Bool :=
  decide (r.roleId ∈ roleIds) && !decide ((r.roleId, r.permissionId) ∈ keep)

def roleChildStray (roleIds : List Uuid) (keep : List (Uuid × Uuid)) (r : RoleChildRow) : Bool :=
  decide (r.parentRoleId ∈ roleIds) && !decide ((r.parentRoleId, r.childRoleId) ∈ keep)

def rolePermissionPair (row r : RolePermissionRow) : Bool :=
  decide (r.roleId = row.roleId) && decide (r.permissionId = row.permissionId)

def roleChildPair (row r : RoleChildRow) : Bool :=
  decide (r.parentRoleId = row.parentRoleId) && decide (r.childRoleId = row.childRoleId)

def userRoleOf (userId : Uuid) (r : UserRoleRow) : Bool :=
  decide (r.userId = userId)

namespace RbacChange

/-- Deletions lock the rows of their snapshot that match; an upsert locks the row
it inserts, and the one it conflicts with. -/
def lockSet : RbacChange → AuthzTables → AuthzTables → List (RbacKey × LockMode)
  | .upsertPermission row, _, _ => [(.permission row.id, .update)]
  | .deletePermission id, snap, _ =>
      (Table.candidates (permissionIs id) snap.permissions).map fun id => (.permission id, .update)
  | .deleteRolePermissionsOf permissionId, snap, _ =>
      (Table.candidates (rolePermissionOf permissionId) snap.rolePermissions).map
        fun id => (.rolePermission id, .update)
  | .pruneRolePermissions roleIds keep, snap, _ =>
      (Table.candidates (rolePermissionStray roleIds keep) snap.rolePermissions).map
        fun id => (.rolePermission id, .update)
  | .upsertRolePermission row, _, cur =>
      (.rolePermission row.id, .update) ::
        (Table.candidates (rolePermissionPair row) cur.rolePermissions).map
          fun id => (.rolePermission id, .noKeyUpdate)
  | .pruneRoleChildren roleIds keep, snap, _ =>
      (Table.candidates (roleChildStray roleIds keep) snap.roleChildren).map
        fun id => (.roleChild id, .update)
  | .upsertRoleChild row, _, cur =>
      (.roleChild row.id, .update) ::
        (Table.candidates (roleChildPair row) cur.roleChildren).map
          fun id => (.roleChild id, .noKeyUpdate)
  | .upsertUserRole row, _, _ => [(.userRole row.id, .update)]
  | .deleteUserRoles userId, snap, _ =>
      (Table.candidates (userRoleOf userId) snap.userRoles).map fun id => (.userRole id, .update)

/-- An upsert over an existing pair leaves the columns that matter as they are. -/
def exec : RbacChange → AuthzTables → AuthzTables → Except Fault (List RbacWrite)
  | .upsertPermission row, _, cur =>
      if cur.permissions.rows.any fun x => decide (x.key = row.key) && !permissionIs row.id x
      then .error .uniqueViolation
      else .ok [.putPermission row]
  | .deletePermission id, snap, cur =>
      if cur.rolePermissions.rows.any (rolePermissionOf id)
      then .error .foreignKeyViolation
      else .ok ((Table.recheck (permissionIs id) snap.permissions cur.permissions).map
        fun r => .erasePermission r.id)
  | .deleteRolePermissionsOf permissionId, snap, cur =>
      .ok ((Table.recheck (rolePermissionOf permissionId) snap.rolePermissions
        cur.rolePermissions).map fun r => .eraseRolePermission r.id)
  | .pruneRolePermissions roleIds keep, snap, cur =>
      .ok ((Table.recheck (rolePermissionStray roleIds keep) snap.rolePermissions
        cur.rolePermissions).map fun r => .eraseRolePermission r.id)
  | .upsertRolePermission row, _, cur =>
      if cur.rolePermissions.rows.any (rolePermissionPair row) then .ok []
      else if cur.rolePermissions.rows.any fun x => decide (x.id = row.id)
      then .error .uniqueViolation
      else if cur.permissions.rows.any (permissionIs row.permissionId)
      then .ok [.putRolePermission row]
      else .error .foreignKeyViolation
  | .pruneRoleChildren roleIds keep, snap, cur =>
      .ok ((Table.recheck (roleChildStray roleIds keep) snap.roleChildren
        cur.roleChildren).map fun r => .eraseRoleChild r.id)
  | .upsertRoleChild row, _, cur =>
      if cur.roleChildren.rows.any (roleChildPair row) then .ok []
      else if cur.roleChildren.rows.any fun x => decide (x.id = row.id)
      then .error .uniqueViolation
      else .ok [.putRoleChild row]
  | .upsertUserRole row, _, cur =>
      if cur.userRoles.rows.any fun x =>
        userRoleOf row.userId x && decide (x.roleId = row.roleId) && !decide (x.id = row.id)
      then .error .uniqueViolation
      else .ok [.putUserRole row]
  | .deleteUserRoles userId, snap, cur =>
      .ok ((Table.recheck (userRoleOf userId) snap.userRoles cur.userRoles).map
        fun r => .eraseUserRole r.id)

theorem mem_candidateLocks
    {ρ : Type} [Keyed ρ Uuid] {p : ρ → Bool} {snap cur : Table ρ} {erase : Uuid → RbacWrite}
    {lock : Uuid → RbacKey} {w : RbacWrite}
    (htarget : ∀ id, (erase id).target = lock id)
    (hw : w ∈ (Table.recheck p snap cur).map fun r => erase (key r)) :
    ∃ m, (w.target, m) ∈ (Table.candidates p snap).map (fun id => (lock id, LockMode.update)) ∧
      m.isWrite = true := by
  rcases List.mem_map.mp hw with ⟨r, hr, hwrite⟩
  subst hwrite
  refine ⟨.update, ?_, rfl⟩
  rw [htarget]
  exact List.mem_map.mpr ⟨key r, Table.key_mem_candidates hr, rfl⟩

theorem exec_locked
    {change : RbacChange} {snap cur : AuthzTables} {ws : List RbacWrite}
    (hexec : change.exec snap cur = .ok ws) :
    ∀ w ∈ ws, ∃ m, (w.target, m) ∈ change.lockSet snap cur ∧ m.isWrite = true := by
  intro w hw
  cases change with
  | upsertPermission row =>
      simp only [exec] at hexec
      split at hexec
      · exact absurd hexec (by simp)
      · simp only [Except.ok.injEq] at hexec
        rw [← hexec, List.mem_singleton] at hw
        subst hw
        exact ⟨.update, List.mem_cons_self, rfl⟩
  | deletePermission id =>
      simp only [exec] at hexec
      split at hexec
      · exact absurd hexec (by simp)
      · simp only [Except.ok.injEq] at hexec
        rw [← hexec] at hw
        exact mem_candidateLocks (fun _ => rfl) hw
  | deleteRolePermissionsOf permissionId =>
      simp only [exec, Except.ok.injEq] at hexec
      rw [← hexec] at hw
      exact mem_candidateLocks (fun _ => rfl) hw
  | pruneRolePermissions roleIds keep =>
      simp only [exec, Except.ok.injEq] at hexec
      rw [← hexec] at hw
      exact mem_candidateLocks (fun _ => rfl) hw
  | upsertRolePermission row =>
      simp only [exec] at hexec
      split at hexec
      · simp only [Except.ok.injEq] at hexec
        rw [← hexec] at hw
        exact absurd hw List.not_mem_nil
      · split at hexec
        · exact absurd hexec (by simp)
        · split at hexec
          · simp only [Except.ok.injEq] at hexec
            rw [← hexec, List.mem_singleton] at hw
            subst hw
            exact ⟨.update, List.mem_cons_self, rfl⟩
          · exact absurd hexec (by simp)
  | pruneRoleChildren roleIds keep =>
      simp only [exec, Except.ok.injEq] at hexec
      rw [← hexec] at hw
      exact mem_candidateLocks (fun _ => rfl) hw
  | upsertRoleChild row =>
      simp only [exec] at hexec
      split at hexec
      · simp only [Except.ok.injEq] at hexec
        rw [← hexec] at hw
        exact absurd hw List.not_mem_nil
      · split at hexec
        · exact absurd hexec (by simp)
        · simp only [Except.ok.injEq] at hexec
          rw [← hexec, List.mem_singleton] at hw
          subst hw
          exact ⟨.update, List.mem_cons_self, rfl⟩
  | upsertUserRole row =>
      simp only [exec] at hexec
      split at hexec
      · exact absurd hexec (by simp)
      · simp only [Except.ok.injEq] at hexec
        rw [← hexec, List.mem_singleton] at hw
        subst hw
        exact ⟨.update, List.mem_cons_self, rfl⟩
  | deleteUserRoles userId =>
      simp only [exec, Except.ok.injEq] at hexec
      rw [← hexec] at hw
      exact mem_candidateLocks (fun _ => rfl) hw

end RbacChange

/-! ## Statements and commands -/

inductive AuthzStmt
  | selectAuthzVersion
  | ensureAuthzVersionRow
  | bumpGlobalAuthzVersion
  | effectivePermissions
  | selectPermissionId (key : String)
  | selectPermissionIds (keys : List String)
  | change (c : RbacChange)
  | redisGet (key : String) (fails : Bool)
  | redisSet (key : String) (payload : CachePayload) (fails : Bool)
  | redisDel (key : String)
deriving DecidableEq

/-- The flatten query is one statement: it is evaluated on the tables as its
snapshot has them. -/
@[reducible] def AuthzRes : AuthzStmt → Type
  | .selectAuthzVersion => Option ℤ
  | .ensureAuthzVersionRow => Unit
  | .bumpGlobalAuthzVersion => Option ℤ
  | .effectivePermissions => RbacTables Uuid Uuid Uuid
  | .selectPermissionId _ => Option Uuid
  | .selectPermissionIds _ => List Uuid
  | .change _ => Unit
  | .redisGet _ _ => Option CachePayload
  | .redisSet _ _ _ => Unit
  | .redisDel _ => Unit

namespace AuthzStmt

def lockSet : AuthzStmt → AuthzDb → AuthzDb → List (AuthzKey × LockMode)
  | .selectAuthzVersion, _, _ => []
  | .ensureAuthzVersionRow, _, cur =>
      if cur.version.isSome then [] else [(.authzVersion, .update)]
  | .bumpGlobalAuthzVersion, _, cur =>
      if cur.version.isSome then [(.authzVersion, .noKeyUpdate)] else []
  | .effectivePermissions, _, _ => []
  | .selectPermissionId _, _, _ => []
  | .selectPermissionIds _, _, _ => []
  | .change c, snap, cur =>
      (c.lockSet snap.tables cur.tables).map fun lock => (.rbac lock.1, lock.2)
  | .redisGet _ _, _, _ => []
  | .redisSet key _ _, _, _ => [(.redis key, .update)]
  | .redisDel key, _, _ => [(.redis key, .update)]

def exec : (stmt : AuthzStmt) → AuthzDb → AuthzDb → Except Fault (AuthzRes stmt × List AuthzWrite)
  | .selectAuthzVersion, snap, _ => .ok (snap.version, [])
  | .ensureAuthzVersionRow, _, cur =>
      .ok ((), if cur.version.isSome then [] else [.setVersion 1])
  | .bumpGlobalAuthzVersion, _, cur =>
      match cur.version with
      | none => .ok (none, [])
      | some version => .ok (some (version + 1), [.setVersion (version + 1)])
  | .effectivePermissions, snap, _ => .ok (snap.tables.joined, [])
  | .selectPermissionId permissionKey, snap, _ =>
      .ok ((snap.tables.permissions.rows.find? fun r => decide (r.key = permissionKey)).map
        PermissionRow.id, [])
  | .selectPermissionIds keys, snap, _ =>
      .ok ((snap.tables.permissions.rows.filter fun r => decide (r.key ∈ keys)).map
        PermissionRow.id, [])
  | .change c, snap, cur =>
      match c.exec snap.tables cur.tables with
      | .error fault => .error fault
      | .ok ws => .ok ((), ws.map .rbac)
  | .redisGet key fails, _, cur =>
      .ok (if fails then none else (cur.redis.find key).map CacheRow.payload, [])
  | .redisSet key payload fails, _, _ =>
      .ok ((), if fails then [] else [.putEntry ⟨key, payload⟩])
  | .redisDel key, _, _ => .ok ((), [.eraseEntry key])

theorem exec_locked
    {stmt : AuthzStmt} {snap cur : AuthzDb} {result : AuthzRes stmt} {ws : List AuthzWrite}
    (hexec : stmt.exec snap cur = .ok (result, ws)) :
    ∀ w ∈ ws, ∃ m, (w.target, m) ∈ stmt.lockSet snap cur ∧ m.isWrite = true := by
  intro w hw
  cases stmt with
  | selectAuthzVersion | effectivePermissions | selectPermissionId | selectPermissionIds
  | redisGet =>
      simp only [exec, Except.ok.injEq, Prod.mk.injEq] at hexec
      rw [← hexec.2] at hw
      exact absurd hw List.not_mem_nil
  | ensureAuthzVersionRow =>
      simp only [exec, Except.ok.injEq, Prod.mk.injEq] at hexec
      simp only [lockSet]
      rw [← hexec.2] at hw
      split at hw
      · exact absurd hw List.not_mem_nil
      · rename_i hnone
        rw [if_neg hnone]
        rw [List.mem_singleton] at hw
        subst hw
        exact ⟨.update, List.mem_cons_self, rfl⟩
  | bumpGlobalAuthzVersion =>
      simp only [exec] at hexec
      simp only [lockSet]
      cases hversion : cur.version with
      | none =>
          simp only [hversion, Except.ok.injEq, Prod.mk.injEq] at hexec
          rw [← hexec.2] at hw
          exact absurd hw List.not_mem_nil
      | some version =>
          simp only [hversion, Except.ok.injEq, Prod.mk.injEq] at hexec
          rw [← hexec.2, List.mem_singleton] at hw
          subst hw
          exact ⟨.noKeyUpdate, List.mem_cons_self, rfl⟩
  | change c =>
      simp only [exec] at hexec
      cases hchange : c.exec snap.tables cur.tables with
      | error fault =>
          rw [hchange] at hexec
          exact absurd hexec (by simp)
      | ok rbacWrites =>
          rw [hchange] at hexec
          simp only [Except.ok.injEq, Prod.mk.injEq] at hexec
          rw [← hexec.2] at hw
          rcases List.mem_map.mp hw with ⟨rbacWrite, hmem, hwrite⟩
          subst hwrite
          rcases RbacChange.exec_locked hchange rbacWrite hmem with ⟨m, hlock, hm⟩
          exact ⟨m, List.mem_map.mpr ⟨_, hlock, rfl⟩, hm⟩
  | redisSet key payload fails =>
      simp only [exec, Except.ok.injEq, Prod.mk.injEq] at hexec
      rw [← hexec.2] at hw
      split at hw
      · exact absurd hw List.not_mem_nil
      · rw [List.mem_singleton] at hw
        subst hw
        exact ⟨.update, List.mem_cons_self, rfl⟩
  | redisDel key =>
      simp only [exec, Except.ok.injEq, Prod.mk.injEq] at hexec
      rw [← hexec.2, List.mem_singleton] at hw
      subst hw
      exact ⟨.update, List.mem_cons_self, rfl⟩

end AuthzStmt

def authzSchema : Schema AuthzDb AuthzKey AuthzWrite AuthzStmt AuthzRes where
  apply := AuthzWrite.apply
  target := AuthzWrite.target
  lockSet := AuthzStmt.lockSet
  exec := AuthzStmt.exec
  exec_locked := AuthzStmt.exec_locked

abbrev AuthzProg (α : Type) := Prog AuthzStmt AuthzRes α

end Untangled.Rbac
