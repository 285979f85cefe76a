import Untangled.AuthTables
import Untangled.DefinitionSets

/-!
# The RBAC seed

`seed_rbac` brings the seed roles, the permissions of the class definitions and
their attachments into a database that operators may have added to.  Every
statement is a function of the tables that fails where PostgreSQL refuses it; the
whole seed is one transaction, so a failure leaves the tables alone.

The three join tables have one row type.  The audit record at the end is taken to
be written.
-/

namespace Untangled.Seed

open ReadCommitted Mapping
open Untangled.Auth (Uuid systemUserId)

/-! ## Tables -/

/-- The audit columns. -/
structure Stamps where
  createdAt : ℤ
  updatedAt : ℤ
  createdBy : Uuid
  updatedBy : Uuid
  deriving DecidableEq

structure RoleRow where
  id : Uuid
  name : String
  displayName : String
  stamps : Stamps
  deriving DecidableEq

structure PermissionRow where
  id : Uuid
  key : String
  className : Option String
  operation : Option String
  stamps : Stamps
  deriving DecidableEq

/-- A row of `role_permission` (role and permission), of `role_child` (parent and
child) or of `user_role` (user and role). -/
structure JoinRow where
  id : Uuid
  left : Uuid
  right : Uuid
  stamps : Stamps
  deriving DecidableEq

instance : Keyed RoleRow Uuid := ⟨RoleRow.id⟩
instance : Keyed PermissionRow Uuid := ⟨PermissionRow.id⟩
instance : Keyed JoinRow Uuid := ⟨JoinRow.id⟩

/-- The columns that a join table is unique by. -/
def JoinRow.pair (r : JoinRow) : Uuid × Uuid :=
  (r.left, r.right)

/-- A value of an `integer` column. -/
abbrev Int4 := {n : ℤ // -2147483648 ≤ n ∧ n ≤ 2147483647}

/-- `version` is the singleton row of `authz_version`, if it is there. -/
structure SeedTables where
  users : List Uuid
  roles : Table RoleRow
  permissions : Table PermissionRow
  rolePermissions : Table JoinRow
  roleChildren : Table JoinRow
  userRoles : Table JoinRow
  version : Option Int4

/-! ## The catalog -/

structure SeedRole where
  id : Uuid
  name : String
  displayName : String
  deriving DecidableEq

structure SeedPermission where
  id : Uuid
  key : String
  className : Option String
  operation : Option String
  deriving DecidableEq

structure SeedRolePermission where
  roleId : Uuid
  permissionKey : String
  deriving DecidableEq

structure SeedRoleChild where
  parentRoleId : Uuid
  childRoleId : Uuid
  deriving DecidableEq

structure SeedUserRole where
  id : Uuid
  userId : Uuid
  roleId : Uuid
  deriving DecidableEq

/-- What is seeded.  Names and ids are distinct, and the attachments are between
things that are seeded too. -/
structure SeedCatalog where
  roles : List SeedRole
  permissions : List SeedPermission
  legacyKeys : List String
  rolePermissions : List SeedRolePermission
  roleChildren : List SeedRoleChild
  userRoles : List SeedUserRole
  roles_nonempty : roles ≠ []
  roleIds_nodup : (roles.map SeedRole.id).Nodup
  roleNames_nodup : (roles.map SeedRole.name).Nodup
  permissionIds_nodup : (permissions.map SeedPermission.id).Nodup
  permissionKeys_nodup : (permissions.map SeedPermission.key).Nodup
  rolePermissions_roles : ∀ l ∈ rolePermissions, l.roleId ∈ roles.map SeedRole.id
  rolePermissions_keys : ∀ l ∈ rolePermissions,
    l.permissionKey ∈ permissions.map SeedPermission.key
  roleChildren_parents : ∀ l ∈ roleChildren, l.parentRoleId ∈ roles.map SeedRole.id
  roleChildren_children : ∀ l ∈ roleChildren, l.childRoleId ∈ roles.map SeedRole.id
  userRoleIds_nodup : (userRoles.map SeedUserRole.id).Nodup
  userRolePairs_nodup : (userRoles.map fun l => (l.userId, l.roleId)).Nodup
  userRoles_roles : ∀ l ∈ userRoles, l.roleId ∈ roles.map SeedRole.id

namespace SeedCatalog

variable (C : SeedCatalog)

def roleIds : List Uuid :=
  C.roles.map SeedRole.id

/-- Legacy keys that are not seeded any more. -/
def obsolete : List String :=
  C.legacyKeys.filter fun k => k ∉ C.permissions.map SeedPermission.key

/-- The dictionary from keys to permissions. -/
def permissionsByKey (permissionKey : String) : Option SeedPermission :=
  C.permissions.find? fun p => p.key = permissionKey

end SeedCatalog

/-! ## The catalog of the platform's class definitions -/

def classOperationKey (className operation : String) : String :=
  className ++ ":" ++ operation

def seedRoles : List SeedRole := [
    ⟨0x01900000000070008000000000000011, "admin", "Administrator"⟩,
    ⟨0x01900000000070008000000000000012, "read_only", "Read Only"⟩,
    ⟨0x01900000000070008000000000000013, "read_write", "Read Write"⟩,
    ⟨0x01900000000070008000000000000014, "change_request_read_write",
      "Change Request Read Write"⟩,
    ⟨0x01900000000070008000000000000015, "incident_read_only", "Incident Read Only"⟩]

/-- The ids are the UUIDv5 of the keys. -/
def seedPermissions : List SeedPermission := [
    ⟨0x9587e3517aa852df935e98dda88e93cd, "admin", none, none⟩,
    ⟨0xf5da649254d95f8e80cb6df6f9570635, "change_request:create",
      some "change_request", some "create"⟩,
    ⟨0x49ae29b15b4c56979d9d96567978d140, "change_request:read",
      some "change_request", some "read"⟩,
    ⟨0xfd0cf7eff5e553a09d92f0e0e980be71, "change_request:search",
      some "change_request", some "search"⟩,
    ⟨0x6afb3fb64a0e55ffa98b1c1faa048ae0, "change_request:update",
      some "change_request", some "update"⟩,
    ⟨0x67e04999af0f5e32a316b0207a8192af, "change_request:delete",
      some "change_request", some "delete"⟩,
    ⟨0xea5a7e128414549892de9a8532476480, "demo_item:create",
      some "demo_item", some "create"⟩,
    ⟨0xeb78d1696aaa5617aacd8285092b516f, "demo_item:read",
      some "demo_item", some "read"⟩,
    ⟨0xe52da50fa33f561c9dd04089324d76d2, "demo_item:search",
      some "demo_item", some "search"⟩,
    ⟨0x30011ea0f8a15e0cadf99536017f2dd8, "demo_item:update",
      some "demo_item", some "update"⟩,
    ⟨0x702eff975bde53f2b5aa26e91ed7a2ea, "demo_item:delete",
      some "demo_item", some "delete"⟩,
    ⟨0x78baa177a77b565795c6e780a2f53b4c, "demo_link:create",
      some "demo_link", some "create"⟩,
    ⟨0x6459c1a0514d5afd82218f538f568bd2, "demo_link:read",
      some "demo_link", some "read"⟩,
    ⟨0x6f3e75bb99495f8885aae59785eef78f, "demo_link:search",
      some "demo_link", some "search"⟩,
    ⟨0xb86aa69d9ac05834a06c1981f0d34ecf, "demo_link:update",
      some "demo_link", some "update"⟩,
    ⟨0xe5ee33f7003b5cd1978b607bc6db3268, "demo_link:delete",
      some "demo_link", some "delete"⟩,
    ⟨0xa60a75acfd9e5f249a8eaabd11008d95, "incident:create",
      some "incident", some "create"⟩,
    ⟨0x77d5b36dceed5c22bfe03293b30b2d13, "incident:read",
      some "incident", some "read"⟩,
    ⟨0x66b03b287d7c573aabe8f2470b3acacc, "incident:search",
      some "incident", some "search"⟩,
    ⟨0x5f0508f09e8a5edbbca8a06d569e4ec7, "incident:update",
      some "incident", some "update"⟩,
    ⟨0x9919c12997ec5e879538cd9b6043c5a6, "incident:delete",
      some "incident", some "delete"⟩,
    ⟨0x4c08f6aee4c654aeb47a78e08277edcf, "system_config:read",
      some "system_config", some "read"⟩,
    ⟨0x9e12430dc1805a32b855f44746512198, "system_config:update",
      some "system_config", some "update"⟩]

def legacySeedPermissionKeys : List String :=
  "admin" :: (["demo_item", "incident", "change_request"].flatMap fun className =>
    ["create", "delete", "read", "update"].map (classOperationKey className))

def seedRoleClasses : List String :=
  ["demo_item", "incident", "change_request"]

def rolePermissionKeys (roleName : String) : List String :=
  if roleName = "admin" then ["admin"]
  else if roleName = "read_only" then
    seedRoleClasses.flatMap fun className =>
      [classOperationKey className "read", classOperationKey className "search"]
  else if roleName = "read_write" then
    seedRoleClasses.flatMap fun className =>
      ["create", "update"].map (classOperationKey className)
  else if roleName = "change_request_read_write" then
    ["create", "read", "search", "update"].map (classOperationKey "change_request")
  else if roleName = "incident_read_only" then
    ["read", "search"].map (classOperationKey "incident")
  else []

def seedUserRoles : List SeedUserRole := [
    ⟨0x01900000000070008000000000000280, 0x01900000000070008000000000000001,
      0x01900000000070008000000000000011⟩,
    ⟨0x01900000000070008000000000000281, 0x01900000000070008000000000000002,
      0x01900000000070008000000000000012⟩,
    ⟨0x01900000000070008000000000000282, 0x01900000000070008000000000000003,
      0x01900000000070008000000000000013⟩,
    ⟨0x01900000000070008000000000000283, 0x01900000000070008000000000000004,
      0x01900000000070008000000000000014⟩,
    ⟨0x01900000000070008000000000000284, 0x01900000000070008000000000000005,
      0x01900000000070008000000000000015⟩]

def seedCatalog : SeedCatalog where
  roles := seedRoles
  permissions := seedPermissions
  legacyKeys := legacySeedPermissionKeys
  rolePermissions := seedRoles.flatMap fun role =>
    (rolePermissionKeys role.name).map fun k => ⟨role.id, k⟩
  roleChildren := [⟨0x01900000000070008000000000000013, 0x01900000000070008000000000000012⟩]
  userRoles := seedUserRoles
  roles_nonempty := by decide
  roleIds_nodup := by decide
  roleNames_nodup := by decide
  permissionIds_nodup := by decide
  permissionKeys_nodup := by decide
  rolePermissions_roles := by decide
  rolePermissions_keys := by decide
  roleChildren_parents := by decide
  roleChildren_children := by decide
  userRoleIds_nodup := by decide
  userRolePairs_nodup := by decide
  userRoles_roles := by decide

/-- What a run draws from outside: the time, and a new id for the join row of a
pair. -/
structure SeedRun where
  now : ℤ
  newId : Uuid × Uuid → Uuid

/-! ## Statements -/

section Statements

variable (run : SeedRun)

/-- The stamps after an upsert. -/
def upsertStamps : Option Stamps → Stamps
  | none => ⟨run.now, run.now, systemUserId, systemUserId⟩
  | some s => { s with updatedAt := run.now, updatedBy := systemUserId }

/-- A row that is stamped references the system user. -/
def stamped (t t' : SeedTables) : Except Fault SeedTables :=
  if systemUserId ∈ t.users then .ok t' else .error .foreignKeyViolation

/-- The version of a new row. -/
def firstVersion : Int4 := ⟨1, by decide⟩

def ensureAuthzVersionRow (t : SeedTables) : Except Fault SeedTables :=
  match t.version with
  | some _ => .ok t
  | none => stamped t { t with version := some firstVersion }

/-- What an `integer` column does with a number. -/
def toInt4 (n : ℤ) : Except Fault Int4 :=
  if h : -2147483648 ≤ n ∧ n ≤ 2147483647 then .ok ⟨n, h⟩
  else .error .numericValueOutOfRange

/-- No row is a `RuntimeError`. -/
def bumpGlobalAuthzVersion (t : SeedTables) : Except Fault SeedTables :=
  match t.version with
  | some version => do
      let bumped ← toInt4 (version.val + 1)
      pure { t with version := some bumped }
  | none => .error .interrupted

def seededRole (role : SeedRole) (t : SeedTables) : RoleRow where
  id := role.id
  name := role.name
  displayName := role.displayName
  stamps := upsertStamps run ((t.roles.find role.id).map RoleRow.stamps)

/-- Role names are unique. -/
def upsertRole (role : SeedRole) (t : SeedTables) : Except Fault SeedTables :=
  if ∃ r ∈ t.roles.rows, r.name = role.name ∧ r.id ≠ role.id then .error .uniqueViolation
  else stamped t { t with roles := t.roles.put (seededRole run role t) }

def seededPermission (perm : SeedPermission) (t : SeedTables) : PermissionRow where
  id := perm.id
  key := perm.key
  className := perm.className
  operation := perm.operation
  stamps := upsertStamps run ((t.permissions.find perm.id).map PermissionRow.stamps)

/-- The insertion with `ON CONFLICT (id)`. -/
def upsertPermission (perm : SeedPermission) (t : SeedTables) : Except Fault SeedTables :=
  if ∃ r ∈ t.permissions.rows, r.key = perm.key ∧ r.id ≠ perm.id then
    .error .uniqueViolation
  else stamped t { t with permissions := t.permissions.put (seededPermission run perm t) }

/-- A permission goes after its grants. -/
def dropPermission (t : SeedTables) (id : Uuid) : SeedTables :=
  { t with
    rolePermissions := t.rolePermissions.filter fun r => r.right ≠ id
    permissions := t.permissions.erase id }

/-- A row that has the key under the seeded id is updated in place. -/
def reconcilePermission (perm : SeedPermission) (t : SeedTables) :
    Except Fault SeedTables :=
  match t.permissions.rows.find? fun r => r.key = perm.key with
  | some row =>
      if row.id ≠ perm.id then upsertPermission run perm (dropPermission t row.id)
      else stamped t { t with permissions := t.permissions.put (seededPermission run perm t) }
  | none => upsertPermission run perm t

def removeObsolete (C : SeedCatalog) (t : SeedTables) : SeedTables :=
  ((t.permissions.rows.filter fun r => r.key ∈ C.obsolete).map PermissionRow.id).foldl
    dropPermission t

def reconcilePermissions (C : SeedCatalog) (t : SeedTables) : Except Fault SeedTables := do
  let t ← C.permissions.foldlM (fun t p => reconcilePermission run p t) t
  pure (removeObsolete C t)

theorem lawfulBEq_pair : LawfulBEq (Uuid × Uuid) :=
  inferInstance

attribute [local instance] lawfulBEq_pair in
/-- The deletion of the seed roles' rows that are not to be kept. -/
def pruneJoins (roleIds : List Uuid) (keepPairs : List (Uuid × Uuid))
    (joins : Table JoinRow) : Table JoinRow :=
  joins.filter fun r => r.left ∉ roleIds ∨ r.pair ∈ keepPairs

/-- The insertion with `ON CONFLICT` on the pair. -/
def upsertJoin (pair : Uuid × Uuid) (joins : Table JoinRow) :
    Except Fault (Table JoinRow) :=
  match joins.rows.find? fun r => r.pair = pair with
  | some row => .ok (joins.put { row with stamps := upsertStamps run (some row.stamps) })
  | none =>
      if run.newId pair ∈ joins.rows.map JoinRow.id then .error .uniqueViolation
      else .ok (joins.put ⟨run.newId pair, pair.1, pair.2, upsertStamps run none⟩)

def upsertRolePermission (link : Uuid × SeedPermission) (t : SeedTables) :
    Except Fault SeedTables :=
  if link.1 ∈ t.roles.rows.map RoleRow.id ∧
      link.2.id ∈ t.permissions.rows.map PermissionRow.id then do
    let joins ← upsertJoin run (link.1, link.2.id) t.rolePermissions
    stamped t { t with rolePermissions := joins }
  else .error .foreignKeyViolation

/-- The permission of a link; a key without one is a `KeyError`. -/
def resolveLink (C : SeedCatalog) (link : SeedRolePermission) :
    Except Fault (Uuid × SeedPermission) :=
  match C.permissionsByKey link.permissionKey with
  | some p => .ok (link.roleId, p)
  | none => .error .interrupted

def upsertRolePermissions (C : SeedCatalog) (t : SeedTables) :
    Except Fault SeedTables := do
  let links ← C.rolePermissions.mapM (resolveLink C)
  let kept := pruneJoins C.roleIds (links.map fun l => (l.1, l.2.id)) t.rolePermissions
  links.foldlM (fun t link => upsertRolePermission run link t)
    { t with rolePermissions := kept }

def upsertRoleChild (link : SeedRoleChild) (t : SeedTables) : Except Fault SeedTables :=
  if link.parentRoleId ∈ t.roles.rows.map RoleRow.id ∧
      link.childRoleId ∈ t.roles.rows.map RoleRow.id then do
    let joins ← upsertJoin run (link.parentRoleId, link.childRoleId) t.roleChildren
    stamped t { t with roleChildren := joins }
  else .error .foreignKeyViolation

def upsertRoleChildren (C : SeedCatalog) (t : SeedTables) : Except Fault SeedTables :=
  let kept := pruneJoins C.roleIds
    (C.roleChildren.map fun l => (l.parentRoleId, l.childRoleId)) t.roleChildren
  C.roleChildren.foldlM (fun t link => upsertRoleChild run link t)
    { t with roleChildren := kept }

def seededUserRole (link : SeedUserRole) (t : SeedTables) : JoinRow where
  id := link.id
  left := link.userId
  right := link.roleId
  stamps := upsertStamps run ((t.userRoles.find link.id).map JoinRow.stamps)

/-- The insertion with `ON CONFLICT (id)`; the pair is unique as well. -/
def upsertUserRole (link : SeedUserRole) (t : SeedTables) : Except Fault SeedTables :=
  if ∃ r ∈ t.userRoles.rows, r.pair = (link.userId, link.roleId) ∧ r.id ≠ link.id then
    .error .uniqueViolation
  else if link.userId ∈ t.users ∧ link.roleId ∈ t.roles.rows.map RoleRow.id then
    stamped t { t with userRoles := t.userRoles.put (seededUserRole run link t) }
  else .error .foreignKeyViolation

def upsertUserRoles (C : SeedCatalog) (t : SeedTables) : Except Fault SeedTables :=
  C.userRoles.foldlM (fun t link => upsertUserRole run link t) t

def upsertRoles (C : SeedCatalog) (t : SeedTables) : Except Fault SeedTables :=
  C.roles.foldlM (fun t role => upsertRole run role t) t

def seedRbac (C : SeedCatalog) (t : SeedTables) : Except Fault SeedTables := do
  let t ← ensureAuthzVersionRow t
  let t ← upsertRoles run C t
  let t ← reconcilePermissions run C t
  let t ← upsertRolePermissions run C t
  let t ← upsertRoleChildren run C t
  let t ← upsertUserRoles run C t
  bumpGlobalAuthzVersion t

end Statements

/-! ## What the tables say -/

namespace SeedTables

variable (t : SeedTables)

/-- The unique columns and the foreign keys of the join tables. -/
structure Valid : Prop where
  permissionKeys : (t.permissions.rows.map PermissionRow.key).Nodup
  rolePermissionPairs : (t.rolePermissions.rows.map JoinRow.pair).Nodup
  roleChildPairs : (t.roleChildren.rows.map JoinRow.pair).Nodup
  userRolePairs : (t.userRoles.rows.map JoinRow.pair).Nodup
  rolePermissions : ∀ r ∈ t.rolePermissions, r.left ∈ t.roles.rows.map RoleRow.id ∧
    r.right ∈ t.permissions.rows.map PermissionRow.id
  roleChildren : ∀ r ∈ t.roleChildren, r.left ∈ t.roles.rows.map RoleRow.id ∧
    r.right ∈ t.roles.rows.map RoleRow.id
  userRoles : ∀ r ∈ t.userRoles, r.left ∈ t.users ∧ r.right ∈ t.roles.rows.map RoleRow.id

def grantedKeys (roleId : Uuid) : Set String :=
  {k | ∃ g ∈ t.rolePermissions, g.left = roleId ∧
    ∃ p ∈ t.permissions, p.id = g.right ∧ p.key = k}

def children (roleId : Uuid) : Set Uuid :=
  {c | (roleId, c) ∈ t.roleChildren.rows.map JoinRow.pair}

def holders (roleId : Uuid) : Set Uuid :=
  {u | (u, roleId) ∈ t.userRoles.rows.map JoinRow.pair}

end SeedTables

end Untangled.Seed
