import Untangled.AuthzTables

/-!
# Cached permission lookups and the transactions that change privileges

The cached lookup of the backend and that of the auth service, which share one
Redis key for each user, and `seed_rbac`, `seed_all` and the end of `migrate`,
with everything they send that bears on permissions or on `authz_version`.
-/

namespace Untangled.Rbac

open ReadCommitted
open Untangled.Auth (Uuid systemUserId)

inductive AuthzReply
  | permissionKeys (keys : Finset String)
  | sortedKeys (keys : List String)
  | done
deriving DecidableEq

/-- The permission keys that a call returned, if it was a lookup. -/
def AuthzReply.keys : AuthzReply → Option (Finset String)
  | .permissionKeys keys => some keys
  | .sortedKeys keys => some keys.toFinset
  | .done => none

/-! ## Cached lookups -/

def authzUserKeyPrefix : String := "untangled.authz.user:"

def authzUserRedisKey (userId : Uuid) : String := authzUserKeyPrefix ++ numberText userId

/-- Where the lookups of the two services differ. -/
structure LookupCode where
  Keys : Type
  fetch : RbacTables Uuid Uuid Uuid → Uuid → Except RoleGraphError Keys
  toPayload : Keys → List String
  ofPayload : List String → Keys
  reply : Keys → AuthzReply

/-- The keys of an entry, if its version is the one just read. -/
def validKeys (globalVersion : ℤ) : Option CachePayload → Option (List String)
  | none => none
  | some payload => if payload.v = globalVersion then some payload.keys else none

section Lookup

variable (code : LookupCode) (userId : Uuid) (getFails setFails : Bool)

def writeEntry (globalVersion : ℤ) (resolved : code.Keys) : AuthzProg AuthzReply :=
  .query (.redisSet (authzUserRedisKey userId) ⟨globalVersion, code.toPayload resolved⟩ setFails)
    fun _ => .ret (code.reply resolved)

def resolveKeys (globalVersion : ℤ) : AuthzProg AuthzReply :=
  .query .effectivePermissions fun tables =>
    match code.fetch tables userId with
    | .error _ => .throw .interrupted
    | .ok resolved => writeEntry code userId setFails globalVersion resolved

def readEntry (globalVersion : ℤ) : AuthzProg AuthzReply :=
  .query (.redisGet (authzUserRedisKey userId) getFails) fun cached =>
    match validKeys globalVersion cached with
    | some keys => .ret (code.reply (code.ofPayload keys))
    | none => resolveKeys code userId setFails globalVersion

/-- Version, entry, flatten query, entry again.  `getFails` and `setFails` tell
whether Redis fails the commands; a lookup without Redis is one that both fail. -/
def cachedLookup : AuthzProg AuthzReply :=
  .query .selectAuthzVersion fun
    | none => .throw .interrupted
    | some globalVersion => readEntry code userId getFails setFails globalVersion

end Lookup

/-- `sorted(keys)` -/
def sortedKeys (keys : Finset String) : List String :=
  Quot.liftOn keys.val (fun l => l.insertionSort (· ≤ ·)) fun l l' h =>
    ((l.perm_insertionSort _).trans (h.trans (l'.perm_insertionSort _).symm)).eq_of_sortedLE
      List.sortedLE_insertionSort List.sortedLE_insertionSort

def apiLookup : LookupCode where
  Keys := Finset String
  fetch := fetchEffectivePermissionKeys
  toPayload := sortedKeys
  ofPayload := List.toFinset
  reply := .permissionKeys

/-- `fetch_effective_permission_keys_cached` of the backend. -/
def fetchEffectivePermissionKeysCached (userId : Uuid) (getFails setFails : Bool) :
    AuthzProg AuthzReply :=
  cachedLookup apiLookup userId getFails setFails

namespace AuthService

def authLookup : LookupCode where
  Keys := List String
  fetch := AuthService.fetchEffectivePermissionKeys
  toPayload := id
  ofPayload := sortStrings
  reply := .sortedKeys

/-- `fetch_effective_permission_keys_cached` of the auth service. -/
def fetchEffectivePermissionKeysCached (userId : Uuid) (getFails setFails : Bool) :
    AuthzProg AuthzReply :=
  cachedLookup authLookup userId getFails setFails

end AuthService

/-! ## Transactions that change privileges -/

/-- The seed's roles, permissions and attachments; `rolePermissions` names the
permissions by the ids that `seed_permissions_by_key` gives. -/
structure SeedCatalog where
  roleIds : List Uuid
  permissions : List PermissionRow
  rolePermissions : List RolePermissionRow
  roleChildren : List RoleChildRow
  userRoles : List UserRoleRow
  legacyPermissionKeys : List String

section Seed

variable {α : Type}

def forEach {ι : Type} (items : List ι) (body : ι → AuthzProg α → AuthzProg α)
    (next : AuthzProg α) : AuthzProg α :=
  items.foldr body next

def sendChange (change : RbacChange) (next : AuthzProg α) : AuthzProg α :=
  .query (.change change) fun _ => next

/-- What `upsert_system_user` does about roles. -/
def upsertSystemUser (next : AuthzProg α) : AuthzProg α :=
  sendChange (.deleteUserRoles systemUserId) next

/-- Drop joins, then the row. -/
def dropPermission (id : Uuid) (next : AuthzProg α) : AuthzProg α :=
  sendChange (.deleteRolePermissionsOf id) (sendChange (.deletePermission id) next)

/-- A row that keeps its id keeps its key too. -/
def reconcilePermission (perm : PermissionRow) (next : AuthzProg α) : AuthzProg α :=
  .query (.selectPermissionId perm.key) fun
    | none => sendChange (.upsertPermission perm) next
    | some existingId =>
        if existingId = perm.id then next
        else dropPermission existingId (sendChange (.upsertPermission perm) next)

def SeedCatalog.obsolete (catalog : SeedCatalog) : List String :=
  catalog.legacyPermissionKeys.filter fun key =>
    !decide (key ∈ catalog.permissions.map PermissionRow.key)

/-- `_reconcile_permissions` -/
def reconcilePermissions (catalog : SeedCatalog) (next : AuthzProg α) : AuthzProg α :=
  forEach catalog.permissions reconcilePermission <|
    if catalog.obsolete.isEmpty then next
    else .query (.selectPermissionIds catalog.obsolete) fun ids => forEach ids dropPermission next

/-- `_upsert_role_permissions` -/
def upsertRolePermissions (catalog : SeedCatalog) (next : AuthzProg α) : AuthzProg α :=
  sendChange (.pruneRolePermissions catalog.roleIds
      (catalog.rolePermissions.map fun link => (link.roleId, link.permissionId))) <|
    forEach catalog.rolePermissions (fun link => sendChange (.upsertRolePermission link)) next

/-- `_upsert_role_children` -/
def upsertRoleChildren (catalog : SeedCatalog) (next : AuthzProg α) : AuthzProg α :=
  sendChange (.pruneRoleChildren catalog.roleIds
      (catalog.roleChildren.map fun link => (link.parentRoleId, link.childRoleId))) <|
    forEach catalog.roleChildren (fun link => sendChange (.upsertRoleChild link)) next

/-- `_upsert_user_roles` -/
def upsertUserRoles (catalog : SeedCatalog) (next : AuthzProg α) : AuthzProg α :=
  forEach catalog.userRoles (fun link => sendChange (.upsertUserRole link)) next

def seedRbac (catalog : SeedCatalog) (next : AuthzProg α) : AuthzProg α :=
  .beginTx <|
    .query .ensureAuthzVersionRow fun _ =>
      reconcilePermissions catalog <|
        upsertRolePermissions catalog <|
          upsertRoleChildren catalog <|
            upsertUserRoles catalog <|
              .query .bumpGlobalAuthzVersion fun
                | none => .rollback (.throw .interrupted)
                | some _ => .commit next

/-- The users are committed together with the first `upsert_system_user`. -/
def seedAll (catalog : SeedCatalog) (next : AuthzProg α) : AuthzProg α :=
  .beginTx <| upsertSystemUser <| .commit <|
    seedRbac catalog <|
      .beginTx <| upsertSystemUser <| .commit next

/-- `early` when a foreign key to `user` is added: the system user is ensured
before it, and once more at the end. -/
def migrate (early : Bool) (next : AuthzProg α) : AuthzProg α :=
  let last := upsertSystemUser <| .query .ensureAuthzVersionRow fun _ => .commit next
  .beginTx <| if early then upsertSystemUser last else last

end Seed

/-! ## Calls -/

inductive Service
  | api
  | auth
deriving DecidableEq

def Service.code : Service → LookupCode
  | .api => apiLookup
  | .auth => AuthService.authLookup

/-- `expire` stands for the expiry of an entry and for
`invalidate_user_authz_cache`. -/
inductive AuthzCall
  | lookup (service : Service) (userId : Uuid) (getFails setFails : Bool)
  | seedRbac
  | seedAll
  | migrate (early : Bool)
  | expire (userId : Uuid)
deriving DecidableEq

def AuthzCall.start (catalog : SeedCatalog) : AuthzCall → AuthzProg AuthzReply
  | .lookup .api userId getFails setFails =>
      fetchEffectivePermissionKeysCached userId getFails setFails
  | .lookup .auth userId getFails setFails =>
      AuthService.fetchEffectivePermissionKeysCached userId getFails setFails
  | .seedRbac => Rbac.seedRbac catalog (.ret .done)
  | .seedAll => Rbac.seedAll catalog (.ret .done)
  | .migrate early => Rbac.migrate early (.ret .done)
  | .expire userId => .query (.redisDel (authzUserRedisKey userId)) fun _ => .ret .done

abbrev AuthzProc := Proc AuthzDb AuthzKey AuthzWrite AuthzStmt AuthzRes AuthzCall AuthzReply

abbrev AuthzSystem := System AuthzDb AuthzKey AuthzWrite AuthzStmt AuthzRes AuthzCall AuthzReply

/-- No calls yet and nothing cached; the tables hold anything. -/
structure AuthzInitial (sys : AuthzSystem) : Prop where
  procs : sys.procs = []
  redis : sys.db.redis = Table.empty

end Untangled.Rbac
