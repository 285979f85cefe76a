import Untangled.AuthzPrograms
import Untangled.ReadCommittedLocking
import Untangled.VersionedCache

/-!
# Every privilege change bumps the version

A transaction that changes what permissions are computed from bumps
`authz_version` before it commits, except `upsert_system_user`: it deletes the
roles of the system user without a bump.  As long as it finds none to delete,
committed states with the same version give everybody the same permissions.
-/

namespace Untangled.Rbac

open ReadCommitted VersionedCache
open Untangled.Auth (Uuid systemUserId)

/-- No row comes before every version. -/
def versionTag : Option ℤ → WithBot ℤ
  | none => ⊥
  | some version => (version : WithBot ℤ)

/-- The version of a committed state. -/
def AuthzDb.tag (db : AuthzDb) : WithBot ℤ := versionTag db.version

/-- What permissions are computed from. -/
def AuthzDb.privileges (db : AuthzDb) : RbacTables Uuid Uuid Uuid := db.tables.joined

/-! ## Which writes do what -/

namespace AuthzWrite

def isRbac : AuthzWrite → Bool
  | .rbac _ => true
  | _ => false

def isRedis : AuthzWrite → Bool
  | .putEntry _ => true
  | .eraseEntry _ => true
  | _ => false

def newVersion : AuthzWrite → Option ℤ
  | .setVersion version => some version
  | _ => none

end AuthzWrite

/-- The version that the writes leave, if they set it. -/
def lastVersion : List AuthzWrite → Option ℤ
  | [] => none
  | w :: ws => (lastVersion ws).or w.newVersion

section Writes

variable {ws : List AuthzWrite} {db : AuthzDb}

theorem tables_applyAll
    (h : ∀ w ∈ ws, w.isRbac = false) :
    (authzSchema.applyAll ws db).tables = db.tables := by
  induction ws generalizing db with
  | nil => rfl
  | cons w ws ih =>
      rw [Schema.applyAll_cons, ih fun w' hw' => h w' (List.mem_cons_of_mem w hw')]
      have hw := h w List.mem_cons_self
      cases w with
      | rbac w => exact absurd hw (by simp [AuthzWrite.isRbac])
      | setVersion version => rfl
      | putEntry row => rfl
      | eraseEntry key => rfl

theorem version_applyAll :
    (authzSchema.applyAll ws db).version = (lastVersion ws).or db.version := by
  induction ws generalizing db with
  | nil => rfl
  | cons w ws ih =>
      rw [Schema.applyAll_cons, ih, lastVersion, Option.or_assoc]
      cases w with
      | rbac w => rfl
      | setVersion version => rfl
      | putEntry row => rfl
      | eraseEntry key => rfl

theorem lastVersion_eq_none
    (h : ∀ w ∈ ws, w.newVersion = none) :
    lastVersion ws = none := by
  induction ws with
  | nil => rfl
  | cons w ws ih =>
      rw [lastVersion, ih fun w' hw' => h w' (List.mem_cons_of_mem w hw'), Option.none_or]
      exact h w List.mem_cons_self

theorem target_of_newVersion
    {w : AuthzWrite}
    (h : w.newVersion ≠ none) :
    w.target = .authzVersion := by
  cases w with
  | setVersion version => rfl
  | rbac w => exact absurd rfl h
  | putEntry row => exact absurd rfl h
  | eraseEntry key => exact absurd rfl h

end Writes

/-! ## Which statements do what -/

namespace AuthzStmt

/-- What a statement writes is of this kind. -/
def mayWrite : AuthzStmt → AuthzWrite → Bool
  | .change _, w => w.isRbac
  | .ensureAuthzVersionRow, w => w.newVersion.isSome
  | .bumpGlobalAuthzVersion, w => w.newVersion.isSome
  | .redisSet _ _ _, w => w.isRedis
  | .redisDel _, w => w.isRedis
  | .selectAuthzVersion, _ => false
  | .effectivePermissions, _ => false
  | .selectPermissionId _, _ => false
  | .selectPermissionIds _, _ => false
  | .redisGet _ _, _ => false

/-- Changes privileges, the clearing of the system user's roles apart. -/
def touches : AuthzStmt → Bool
  | .change (.deleteUserRoles userId) => !decide (userId = systemUserId)
  | .change _ => true
  | _ => false

def bumps : (stmt : AuthzStmt) → AuthzRes stmt → Bool
  | .bumpGlobalAuthzVersion, result => result.isSome
  | _, _ => false

def isTableWrite : AuthzStmt → Bool
  | .change _ => true
  | .ensureAuthzVersionRow => true
  | .bumpGlobalAuthzVersion => true
  | _ => false

def isRedisWrite : AuthzStmt → Bool
  | .redisSet _ _ _ => true
  | .redisDel _ => true
  | _ => false

def storesEntry : AuthzStmt → Bool
  | .redisSet _ _ _ => true
  | _ => false

variable {stmt : AuthzStmt} {snap cur : AuthzDb} {result : AuthzRes stmt} {ws : List AuthzWrite}

theorem exec_mayWrite
    (hexec : stmt.exec snap cur = .ok (result, ws)) :
    ∀ w ∈ ws, stmt.mayWrite w = true := by
  intro w hw
  cases stmt with
  | selectAuthzVersion | effectivePermissions | selectPermissionId | selectPermissionIds
  | redisGet =>
      simp only [exec, Except.ok.injEq, Prod.mk.injEq] at hexec
      rw [← hexec.2] at hw
      exact absurd hw List.not_mem_nil
  | ensureAuthzVersionRow =>
      simp only [exec, Except.ok.injEq, Prod.mk.injEq] at hexec
      rw [← hexec.2] at hw
      split at hw
      · exact absurd hw List.not_mem_nil
      · rw [List.mem_singleton] at hw
        rw [hw]
        rfl
  | bumpGlobalAuthzVersion =>
      simp only [exec] at hexec
      cases hversion : cur.version with
      | none =>
          simp only [hversion, Except.ok.injEq, Prod.mk.injEq] at hexec
          rw [← hexec.2] at hw
          exact absurd hw List.not_mem_nil
      | some version =>
          simp only [hversion, Except.ok.injEq, Prod.mk.injEq] at hexec
          rw [← hexec.2, List.mem_singleton] at hw
          rw [hw]
          rfl
  | change c =>
      simp only [exec] at hexec
      cases hchange : c.exec snap.tables cur.tables with
      | error fault =>
          rw [hchange] at hexec
          exact absurd hexec (by simp)
      | ok rbacWrites =>
          rw [hchange] at hexec
          simp only [Except.ok.injEq, Prod.mk.injEq] at hexec
          rw [← hexec.2] at hw
          rcases List.mem_map.mp hw with ⟨rbacWrite, _, hwrite⟩
          rw [← hwrite]
          rfl
  | redisSet key payload fails =>
      simp only [exec, Except.ok.injEq, Prod.mk.injEq] at hexec
      rw [← hexec.2] at hw
      split at hw
      · exact absurd hw List.not_mem_nil
      · rw [List.mem_singleton] at hw
        rw [hw]
        rfl
  | redisDel key =>
      simp only [exec, Except.ok.injEq, Prod.mk.injEq] at hexec
      rw [← hexec.2, List.mem_singleton] at hw
      rw [hw]
      rfl

theorem exec_not_redis
    (hexec : stmt.exec snap cur = .ok (result, ws))
    (h : stmt.isRedisWrite = false) :
    ∀ w ∈ ws, w.isRedis = false := by
  intro w hw
  have hmay := exec_mayWrite hexec w hw
  cases stmt with
  | redisSet | redisDel => exact absurd h (by simp [isRedisWrite])
  | selectAuthzVersion | effectivePermissions | selectPermissionId | selectPermissionIds
  | redisGet => exact absurd hmay (by simp [mayWrite])
  | change | ensureAuthzVersionRow | bumpGlobalAuthzVersion =>
      cases w with
      | rbac | setVersion => rfl
      | putEntry | eraseEntry => exact absurd hmay (by simp [mayWrite, AuthzWrite.isRbac,
          AuthzWrite.newVersion])

theorem exec_not_table
    (hexec : stmt.exec snap cur = .ok (result, ws))
    (h : stmt.isTableWrite = false) :
    ∀ w ∈ ws, w.isRbac = false ∧ w.newVersion = none := by
  intro w hw
  have hmay := exec_mayWrite hexec w hw
  cases stmt with
  | change | ensureAuthzVersionRow | bumpGlobalAuthzVersion =>
      exact absurd h (by simp [isTableWrite])
  | selectAuthzVersion | effectivePermissions | selectPermissionId | selectPermissionIds
  | redisGet => exact absurd hmay (by simp [mayWrite])
  | redisSet | redisDel =>
      cases w with
      | rbac | setVersion => exact absurd hmay (by simp [mayWrite, AuthzWrite.isRedis])
      | putEntry | eraseEntry => exact ⟨rfl, rfl⟩

/-- A statement that touches no privileges writes none; the system user's roles
are cleared without a write where there are none. -/
theorem exec_untouched
    (hexec : stmt.exec snap cur = .ok (result, ws))
    (h : stmt.touches = false)
    (hclears : stmt = .change (.deleteUserRoles systemUserId) →
      ∀ row ∈ cur.tables.userRoles, row.userId ≠ systemUserId) :
    ∀ w ∈ ws, w.isRbac = false := by
  by_cases htable : stmt.isTableWrite = false
  · exact fun w hw => (exec_not_table hexec htable w hw).1
  · cases stmt with
    | change c =>
        cases c with
        | deleteUserRoles userId =>
            simp only [touches, Bool.not_eq_false', decide_eq_true_eq] at h
            subst h
            have hnone : Table.recheck (userRoleOf systemUserId) snap.tables.userRoles
                cur.tables.userRoles = [] := by
              rw [List.eq_nil_iff_forall_not_mem]
              intro row hrow
              rcases Table.mem_recheck.mp hrow with ⟨hmem, hmatches, _⟩
              exact hclears rfl row hmem (by simpa [userRoleOf] using hmatches)
            simp only [exec, RbacChange.exec, hnone, List.map_nil, Except.ok.injEq,
              Prod.mk.injEq] at hexec
            rw [← hexec.2]
            intro w hw
            exact absurd hw List.not_mem_nil
        | _ => exact absurd h (by simp [touches])
    | ensureAuthzVersionRow | bumpGlobalAuthzVersion =>
        intro w hw
        have hmay := exec_mayWrite hexec w hw
        cases w with
        | rbac => exact absurd hmay (by simp [mayWrite, AuthzWrite.newVersion])
        | setVersion | putEntry | eraseEntry => rfl
    | _ => exact absurd rfl htable

theorem lt_versionTag_succ (version : ℤ) :
    versionTag (some version) < versionTag (some (version + 1)) :=
  WithBot.coe_lt_coe.mpr (lt_add_one version)

/-- No statement sets the version back, and the bump moves it on. -/
theorem exec_version
    (hexec : stmt.exec snap cur = .ok (result, ws)) :
    cur.tag ≤ (authzSchema.applyAll ws cur).tag ∧
      (stmt.bumps result = true → cur.tag < (authzSchema.applyAll ws cur).tag) := by
  unfold AuthzDb.tag
  rw [version_applyAll]
  have hquiet : (∀ w ∈ ws, w.newVersion = none) →
      versionTag cur.version ≤ versionTag ((lastVersion ws).or cur.version) := by
    intro hnone
    rw [lastVersion_eq_none hnone, Option.none_or]
  cases stmt with
  | selectAuthzVersion | effectivePermissions | selectPermissionId | selectPermissionIds
  | redisGet | redisSet | redisDel =>
      refine ⟨hquiet fun w hw => (exec_not_table hexec rfl w hw).2, ?_⟩
      intro hbumps
      exact absurd hbumps (by simp [bumps])
  | change c =>
      refine ⟨hquiet ?_, ?_⟩
      · intro w hw
        have hmay := exec_mayWrite hexec w hw
        cases w with
        | setVersion => exact absurd hmay (by simp [mayWrite, AuthzWrite.isRbac])
        | rbac | putEntry | eraseEntry => rfl
      · intro hbumps
        exact absurd hbumps (by simp [bumps])
  | ensureAuthzVersionRow =>
      refine ⟨?_, fun hbumps => absurd hbumps (by simp [bumps])⟩
      simp only [exec, Except.ok.injEq, Prod.mk.injEq] at hexec
      rw [← hexec.2]
      cases hversion : cur.version with
      | none => exact bot_le
      | some version => exact le_refl _
  | bumpGlobalAuthzVersion =>
      simp only [exec] at hexec
      cases hversion : cur.version with
      | none =>
          simp only [hversion, Except.ok.injEq, Prod.mk.injEq] at hexec
          refine ⟨bot_le, ?_⟩
          intro hbumps
          rw [← hexec.1] at hbumps
          exact absurd hbumps (by simp [bumps])
      | some version =>
          simp only [hversion, Except.ok.injEq, Prod.mk.injEq] at hexec
          rw [← hexec.2]
          exact ⟨(lt_versionTag_succ version).le, fun _ => lt_versionTag_succ version⟩

end AuthzStmt

end Untangled.Rbac
