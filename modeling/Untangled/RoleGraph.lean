import Untangled.JsStrings
import Untangled.RecursiveQuery

/-!
# Effective permissions of a user

Roles nest: the permissions of a role are its own and those of its children,
recursively.  The flatten query walks down the `role_child` edges from the roles
assigned to a user and reports, besides the permission keys it meets, whether it
met a cycle and whether edges lead on beyond the last depth.  The backend and
the auth service run the same query and fail when either flag is set.
-/

namespace Untangled.Rbac

open RecursiveQuery

variable {υ ρ π : Type*}

structure RbacTables (υ ρ π : Type*) where
  userRole : List (υ × ρ)
  roleChild : List (ρ × ρ)
  rolePermission : List (ρ × π)
  permission : List (π × String)
deriving DecidableEq

structure FlattenRow where
  hasCycle : Bool
  depthExceeded : Bool
  key : Option String
deriving DecidableEq

structure RoleGraphError where
  message : String
deriving DecidableEq

/-- Inclusive: directly assigned roles are depth 1. -/
def maxRoleGraphDepth : ℕ := 16

section Query

variable [DecidableEq υ] [DecidableEq ρ] [DecidableEq π]

namespace RbacTables

variable (t : RbacTables υ ρ π)

def seeds (userId : υ) : List ρ :=
  (t.userRole.filter fun ur => ur.1 = userId).map Prod.snd

def roleTree (userId : υ) (maxDepth : ℕ) : List (Row ρ) :=
  walkRows t.roleChild maxDepth (t.seeds userId)

def hasCycle (tree : List (Row ρ)) : Bool :=
  tree.any fun rt => rt.isCycle

def depthExceeded (tree : List (Row ρ)) (maxDepth : ℕ) : Bool :=
  tree.any fun rt =>
    t.roleChild.any fun rc => rc.1 = rt.node && maxDepth ≤ rt.depth && !rt.isCycle

def permissionKeys (roleId : ρ) : List String :=
  (t.rolePermission.filter fun rp => rp.1 = roleId).flatMap fun rp =>
    (t.permission.filter fun perm => perm.1 = rp.2).map Prod.snd

def keys (tree : List (Row ρ)) : List String :=
  ((tree.filter fun rt => !rt.isCycle).flatMap fun rt => t.permissionKeys rt.node).eraseDups

/-- `effective_permissions.sql`: one row for each key, or a single row without one. -/
def effectivePermissionsSql (userId : υ) (maxDepth : ℕ) : List FlattenRow :=
  let tree := t.roleTree userId maxDepth
  let row := FlattenRow.mk (hasCycle tree) (t.depthExceeded tree maxDepth)
  match t.keys tree with
  | [] => [row none]
  | keys => keys.map fun key => row (some key)

end RbacTables

variable [ToString υ]

def cycleError (userId : υ) : RoleGraphError :=
  ⟨s!"role graph cycle detected while resolving permissions for user {userId}"⟩

def depthError (userId : υ) : RoleGraphError :=
  ⟨s!"role graph exceeds max depth {maxRoleGraphDepth} while resolving permissions for user {userId}"⟩

/-- `fetch_effective_permission_keys` of the backend. -/
def fetchEffectivePermissionKeys
    (t : RbacTables υ ρ π) (userId : υ) : Except RoleGraphError (Finset String) :=
  let rows := t.effectivePermissionsSql userId maxRoleGraphDepth
  if rows.isEmpty then
    .ok ∅
  else if rows.any fun row => row.hasCycle then
    .error (cycleError userId)
  else if rows.any fun row => row.depthExceeded then
    .error (depthError userId)
  else
    .ok (rows.filterMap fun row => row.key).toFinset

end Query

namespace AuthService

variable [DecidableEq υ] [DecidableEq ρ] [DecidableEq π] [ToString υ]

/-- The copy of `MAX_ROLE_GRAPH_DEPTH` in the auth service. -/
def maxRoleGraphDepth : ℕ := 16

/-- `fetch_effective_permission_keys` of the auth service. -/
def fetchEffectivePermissionKeys
    (t : RbacTables υ ρ π) (userId : υ) : Except RoleGraphError (List String) :=
  let rows := t.effectivePermissionsSql userId maxRoleGraphDepth
  if rows.any fun row => row.hasCycle then
    .error ⟨s!"role graph cycle detected while resolving permissions for user {userId}"⟩
  else if rows.any fun row => row.depthExceeded then
    .error
      ⟨s!"role graph exceeds max depth {maxRoleGraphDepth} while resolving permissions for user {userId}"⟩
  else
    .ok (sortStrings (rows.filterMap fun row => row.key).eraseDups)

end AuthService

/-! ## What the roles of a user give -/

namespace RbacTables

variable (t : RbacTables υ ρ π)

def Assigned (userId : υ) (roleId : ρ) : Prop := (userId, roleId) ∈ t.userRole

def Child (parent child : ρ) : Prop := (parent, child) ∈ t.roleChild

def Grants (roleId : ρ) (key : String) : Prop :=
  ∃ permissionId, (roleId, permissionId) ∈ t.rolePermission ∧ (permissionId, key) ∈ t.permission

/-- The role is one of the user's or nested in one of them. -/
def Holds (userId : υ) (roleId : ρ) : Prop :=
  ∃ assigned, t.Assigned userId assigned ∧ Relation.ReflTransGen t.Child assigned roleId

def effectiveKeys (userId : υ) : Set String :=
  {key | ∃ roleId, t.Holds userId roleId ∧ t.Grants roleId key}

/-- Some walk from a role of the user visits more roles than the bound, each
counted as often as it is visited. -/
def TooDeep (userId : υ) : Prop :=
  ∃ walk, IsWalk t.Child (t.Assigned userId) walk ∧ maxRoleGraphDepth < walk.length

def ReachesCycle (userId : υ) : Prop :=
  ∃ roleId, t.Holds userId roleId ∧ Relation.TransGen t.Child roleId roleId

theorem holds_iff_walk
    {userId : υ} {roleId : ρ} :
    t.Holds userId roleId ↔
      ∃ front, IsWalk t.Child (t.Assigned userId) (front ++ [roleId]) := by
  constructor
  · rintro ⟨assigned, hassigned, hreaches⟩
    exact exists_walk_of_reaches hassigned hreaches
  · rintro ⟨front, hwalk⟩
    rcases hwalk.head with ⟨assigned, hhead, hassigned⟩
    have hfrom : IsWalk t.Child (· = assigned) (front ++ [roleId]) :=
      ⟨⟨assigned, hhead, rfl⟩, hwalk.chain⟩
    exact ⟨assigned, hassigned, hfrom.reaches (by simp)⟩

/-- A cycle that the user's roles reach makes walks of every length. -/
theorem ReachesCycle.tooDeep
    {t : RbacTables υ ρ π} {userId : υ}
    (h : t.ReachesCycle userId) :
    t.TooDeep userId := by
  rcases h with ⟨roleId, hholds, hcycle⟩
  rcases t.holds_iff_walk.1 hholds with ⟨front, hwalk⟩
  rcases exists_chain_of_cycle hcycle maxRoleGraphDepth with ⟨more, hmore, hlength⟩
  refine ⟨front ++ roleId :: more, hwalk.append hmore, ?_⟩
  simp only [List.length_append, List.length_cons]
  omega

section Rows

variable [DecidableEq υ] [DecidableEq ρ]

omit [DecidableEq ρ] in
theorem mem_seeds
    {userId : υ} {roleId : ρ} :
    roleId ∈ t.seeds userId ↔ t.Assigned userId roleId := by
  simp only [seeds, Assigned, List.mem_map, List.mem_filter, decide_eq_true_eq, Prod.exists]
  constructor
  · rintro ⟨_, _, ⟨hmem, rfl⟩, rfl⟩
    exact hmem
  · intro hmem
    exact ⟨userId, roleId, ⟨hmem, rfl⟩, rfl⟩

theorem mem_roleTree
    {userId : υ} {maxDepth : ℕ} {row : Row ρ} :
    row ∈ t.roleTree userId maxDepth ↔
      ∃ front roleId,
        row = .ofWalk front roleId ∧ (front = [] ∨ front.length < maxDepth) ∧
        front.Nodup ∧ IsWalk t.Child (t.Assigned userId) (front ++ [roleId]) := by
  have hstarts : (· ∈ t.seeds userId) = t.Assigned userId :=
    funext fun _ => propext t.mem_seeds
  rw [roleTree, mem_walkRows, hstarts]
  rfl

theorem hasCycle_iff
    {userId : υ} {maxDepth : ℕ} :
    hasCycle (t.roleTree userId maxDepth) ↔
      ∃ front roleId, roleId ∈ front ∧ front.length < maxDepth ∧ front.Nodup ∧
        IsWalk t.Child (t.Assigned userId) (front ++ [roleId]) := by
  simp only [hasCycle, List.any_eq_true, mem_roleTree]
  constructor
  · rintro ⟨_, ⟨front, roleId, rfl, hlength, hnodup, hwalk⟩, hmarked⟩
    have hrepeat : roleId ∈ front := by simpa [Row.ofWalk] using hmarked
    have hne : front ≠ [] := List.ne_nil_of_mem hrepeat
    exact ⟨front, roleId, hrepeat, hlength.resolve_left hne, hnodup, hwalk⟩
  · rintro ⟨front, roleId, hrepeat, hlength, hnodup, hwalk⟩
    exact ⟨_, ⟨front, roleId, rfl, Or.inr hlength, hnodup, hwalk⟩, by simpa [Row.ofWalk]⟩

theorem depthExceeded_iff
    {userId : υ} {maxDepth : ℕ} :
    t.depthExceeded (t.roleTree userId maxDepth) maxDepth ↔
      ∃ front roleId child, (front = [] ∨ front.length < maxDepth) ∧
        maxDepth ≤ front.length + 1 ∧ (front ++ [roleId]).Nodup ∧
        IsWalk t.Child (t.Assigned userId) (front ++ [roleId] ++ [child]) := by
  simp only [depthExceeded, List.any_eq_true, Bool.and_eq_true, decide_eq_true_eq,
    Bool.not_eq_true', Prod.exists, mem_roleTree]
  constructor
  · rintro ⟨_, ⟨front, roleId, rfl, hlength, hnodup, hwalk⟩, parent, child, hedge,
      ⟨hparent, hdepth⟩, hmarked⟩
    have hfresh : roleId ∉ front := by simpa [Row.ofWalk] using hmarked
    have hroleId : parent = roleId := hparent
    subst hroleId
    exact ⟨front, parent, child, hlength, hdepth, nodup_snoc.2 ⟨hnodup, hfresh⟩,
      isWalk_snoc.2 ⟨hwalk, hedge⟩⟩
  · rintro ⟨front, roleId, child, hlength, hdepth, hnodup, hwalk⟩
    rcases nodup_snoc.1 hnodup with ⟨hfront, hfresh⟩
    rcases isWalk_snoc.1 hwalk with ⟨hwalk', hedge⟩
    exact ⟨_, ⟨front, roleId, rfl, hlength, hfront, hwalk'⟩, roleId, child, hedge,
      ⟨rfl, hdepth⟩, by simpa [Row.ofWalk]⟩

/-- A walk beyond the last depth runs into its first repetition within the
depth, or leads on from the last depth. -/
theorem flags_of_walk
    {userId : υ} {maxDepth : ℕ} {walk : List ρ}
    (hpos : 0 < maxDepth)
    (hwalk : IsWalk t.Child (t.Assigned userId) walk)
    (hlong : maxDepth < walk.length) :
    hasCycle (t.roleTree userId maxDepth) ∨
      t.depthExceeded (t.roleTree userId maxDepth) maxDepth := by
  have hupTo : IsWalk t.Child (t.Assigned userId) (walk.take (maxDepth + 1)) := by
    apply hwalk.front (List.take_prefix _ _)
    rw [← List.length_pos_iff, List.length_take]
    omega
  have hlength : (walk.take (maxDepth + 1)).length = maxDepth + 1 := by
    rw [List.length_take]
    omega
  rcases List.eq_nil_or_concat (walk.take (maxDepth + 1)) with hnil | ⟨inside, child, hchild⟩
  · simp [hnil] at hlength
  rw [List.concat_eq_append] at hchild
  rw [hchild] at hupTo hlength
  have hinside : inside.length = maxDepth := by simpa using hlength
  by_cases hnodup : inside.Nodup
  · right
    rcases List.eq_nil_or_concat inside with hnil | ⟨front, roleId, hlast⟩
    · simp [hnil] at hinside
      omega
    rw [List.concat_eq_append] at hlast
    subst hlast
    have hfront : front.length + 1 = maxDepth := by simpa using hinside
    exact t.depthExceeded_iff.2
      ⟨front, roleId, child, Or.inr (by omega), by omega, hnodup, hupTo⟩
  · left
    rcases exists_firstRepetition hnodup with ⟨front, roleId, hshorter, hfront, hrepeat⟩
    have hshort := hshorter.length_le
    rw [hinside, List.length_append, List.length_singleton] at hshort
    exact t.hasCycle_iff.2 ⟨front, roleId, hrepeat, by omega, hfront,
      hupTo.front (hshorter.trans (List.prefix_append inside [child])) (by simp)⟩

theorem walk_of_flags
    {userId : υ} {maxDepth : ℕ}
    (hflags : hasCycle (t.roleTree userId maxDepth) ∨
      t.depthExceeded (t.roleTree userId maxDepth) maxDepth) :
    ∃ walk, IsWalk t.Child (t.Assigned userId) walk ∧ maxDepth < walk.length := by
  rcases hflags with hcycle | hdeep
  · rcases t.hasCycle_iff.1 hcycle with ⟨front, roleId, hrepeat, _, _, hwalk⟩
    exact hwalk.exists_longer (fun hnodup => (nodup_snoc.1 hnodup).2 hrepeat) maxDepth
  · rcases t.depthExceeded_iff.1 hdeep with ⟨front, roleId, child, _, hdepth, _, hwalk⟩
    refine ⟨_, hwalk, ?_⟩
    simp only [List.length_append, List.length_singleton]
    omega

theorem flags_iff_tooDeep
    {userId : υ} :
    (hasCycle (t.roleTree userId maxRoleGraphDepth) ∨
      t.depthExceeded (t.roleTree userId maxRoleGraphDepth) maxRoleGraphDepth) ↔
      t.TooDeep userId := by
  constructor
  · exact t.walk_of_flags
  · rintro ⟨walk, hwalk, hlong⟩
    exact t.flags_of_walk (by decide) hwalk hlong

variable [DecidableEq π]

omit [DecidableEq υ] in
theorem mem_keys
    {tree : List (Row ρ)} {key : String} :
    key ∈ t.keys tree ↔ ∃ rt ∈ tree, rt.isCycle = false ∧ t.Grants rt.node key := by
  simp only [keys, permissionKeys, Grants, List.mem_eraseDups, List.mem_flatMap, List.mem_filter,
    List.mem_map, Bool.not_eq_true', decide_eq_true_eq, Prod.exists]
  constructor
  · rintro ⟨rt, ⟨hmem, hcycle⟩, _, p, ⟨hrp, rfl⟩, _, _, ⟨hperm, rfl⟩, rfl⟩
    exact ⟨rt, hmem, hcycle, _, hrp, hperm⟩
  · rintro ⟨rt, hmem, hcycle, p, hrp, hperm⟩
    exact ⟨rt, ⟨hmem, hcycle⟩, rt.node, p, ⟨hrp, rfl⟩, p, key, ⟨hperm, rfl⟩, rfl⟩

/-- Without a walk beyond the bound no walk repeats a role, so the query visits
every role the user holds. -/
theorem mem_keys_iff
    {userId : υ} {key : String}
    (h : ¬ t.TooDeep userId) :
    key ∈ t.keys (t.roleTree userId maxRoleGraphDepth) ↔ key ∈ t.effectiveKeys userId := by
  rw [mem_keys]
  constructor
  · rintro ⟨_, hrow, _, hgrants⟩
    rcases t.mem_roleTree.1 hrow with ⟨front, roleId, rfl, _, _, hwalk⟩
    exact ⟨roleId, t.holds_iff_walk.2 ⟨front, hwalk⟩, hgrants⟩
  · rintro ⟨roleId, hholds, hgrants⟩
    rcases t.holds_iff_walk.1 hholds with ⟨front, hwalk⟩
    have hlength : (front ++ [roleId]).length ≤ maxRoleGraphDepth := by
      by_contra hlong
      exact h ⟨_, hwalk, by omega⟩
    have hnodup : (front ++ [roleId]).Nodup := by
      by_contra hrepeats
      exact h (hwalk.exists_longer hrepeats maxRoleGraphDepth)
    rcases nodup_snoc.1 hnodup with ⟨hfront, hfresh⟩
    rw [List.length_append, List.length_singleton] at hlength
    refine ⟨.ofWalk front roleId, t.mem_roleTree.2
      ⟨front, roleId, rfl, Or.inr (by omega), hfront, hwalk⟩, ?_, hgrants⟩
    simpa [Row.ofWalk] using hfresh

/-! ## The result of the query -/

theorem any_effectivePermissionsSql
    {userId : υ} {maxDepth : ℕ} {test : FlattenRow → Bool} {b : Bool}
    (h : ∀ key, test ⟨hasCycle (t.roleTree userId maxDepth),
      t.depthExceeded (t.roleTree userId maxDepth) maxDepth, key⟩ = b) :
    (t.effectivePermissionsSql userId maxDepth).any test = b := by
  simp only [effectivePermissionsSql]
  cases hkeys : t.keys (t.roleTree userId maxDepth) with
  | nil => simp [h]
  | cons key keys => cases b <;> simp [h]

theorem any_hasCycle
    {userId : υ} {maxDepth : ℕ} :
    ((t.effectivePermissionsSql userId maxDepth).any fun row => row.hasCycle) =
      hasCycle (t.roleTree userId maxDepth) :=
  t.any_effectivePermissionsSql fun _ => rfl

theorem any_depthExceeded
    {userId : υ} {maxDepth : ℕ} :
    ((t.effectivePermissionsSql userId maxDepth).any fun row => row.depthExceeded) =
      t.depthExceeded (t.roleTree userId maxDepth) maxDepth :=
  t.any_effectivePermissionsSql fun _ => rfl

theorem keys_effectivePermissionsSql
    {userId : υ} {maxDepth : ℕ} :
    (t.effectivePermissionsSql userId maxDepth).filterMap FlattenRow.key =
      t.keys (t.roleTree userId maxDepth) := by
  simp only [effectivePermissionsSql]
  cases hkeys : t.keys (t.roleTree userId maxDepth) with
  | nil => rfl
  | cons key keys => simp [List.filterMap_map]

theorem effectivePermissionsSql_ne_nil
    {userId : υ} {maxDepth : ℕ} :
    (t.effectivePermissionsSql userId maxDepth).isEmpty = false := by
  simp only [effectivePermissionsSql]
  cases hkeys : t.keys (t.roleTree userId maxDepth) with
  | nil => rfl
  | cons key keys => rfl

end Rows

end RbacTables

section Fetch

variable [DecidableEq υ] [DecidableEq ρ] [DecidableEq π] [ToString υ]
variable (t : RbacTables υ ρ π) (userId : υ)

theorem fetchEffectivePermissionKeys_eq :
    fetchEffectivePermissionKeys t userId =
      if RbacTables.hasCycle (t.roleTree userId maxRoleGraphDepth) then
        .error (cycleError userId)
      else if t.depthExceeded (t.roleTree userId maxRoleGraphDepth) maxRoleGraphDepth then
        .error (depthError userId)
      else
        .ok (t.keys (t.roleTree userId maxRoleGraphDepth)).toFinset := by
  simp only [fetchEffectivePermissionKeys]
  rw [t.any_hasCycle, t.any_depthExceeded, t.keys_effectivePermissionsSql,
    t.effectivePermissionsSql_ne_nil]
  rfl

theorem fetchEffectivePermissionKeys_error :
    (∃ error, fetchEffectivePermissionKeys t userId = .error error) ↔ t.TooDeep userId := by
  rw [fetchEffectivePermissionKeys_eq, ← t.flags_iff_tooDeep]
  split
  · simp_all
  · split <;> simp_all

theorem fetchEffectivePermissionKeys_ok
    {userId : υ} {keys : Finset String}
    (h : fetchEffectivePermissionKeys t userId = .ok keys) :
    (keys : Set String) = t.effectiveKeys userId := by
  have hshallow : ¬ t.TooDeep userId := by
    intro hdeep
    rcases (fetchEffectivePermissionKeys_error t userId).2 hdeep with ⟨error, herror⟩
    rw [herror] at h
    cases h
  rw [fetchEffectivePermissionKeys_eq] at h
  split at h
  · cases h
  · split at h
    · cases h
    · cases h
      ext key
      rw [← t.mem_keys_iff hshallow]
      simp

/-- Both services resolve a user alike, down to the text of the failure. -/
theorem AuthService.fetchEffectivePermissionKeys_toFinset :
    (AuthService.fetchEffectivePermissionKeys t userId).map List.toFinset =
      Rbac.fetchEffectivePermissionKeys t userId := by
  have hdepth : AuthService.maxRoleGraphDepth = Rbac.maxRoleGraphDepth := rfl
  rw [fetchEffectivePermissionKeys_eq]
  simp only [AuthService.fetchEffectivePermissionKeys, hdepth, t.any_hasCycle,
    t.any_depthExceeded, t.keys_effectivePermissionsSql]
  split
  · rfl
  · split
    · rfl
    · have hkeys : ∀ keys : List String,
          (sortStrings keys.eraseDups).toFinset = keys.toFinset := by
        intro keys
        ext key
        simp
      exact congrArg Except.ok (hkeys _)

/-- Flattening fails exactly when some walk from the user's roles visits more
than sixteen roles, and else yields exactly the keys of the roles the user
holds, in both services. -/
theorem flatten_exact :
    ((∃ error, fetchEffectivePermissionKeys t userId = .error error) ↔ t.TooDeep userId) ∧
      (t.ReachesCycle userId → ∃ error, fetchEffectivePermissionKeys t userId = .error error) ∧
      (∀ keys, fetchEffectivePermissionKeys t userId = .ok keys →
        (keys : Set String) = t.effectiveKeys userId) ∧
      (AuthService.fetchEffectivePermissionKeys t userId).map List.toFinset =
        fetchEffectivePermissionKeys t userId := by
  refine ⟨fetchEffectivePermissionKeys_error t userId, ?_, ?_, ?_⟩
  · intro hcycle
    exact (fetchEffectivePermissionKeys_error t userId).2 hcycle.tooDeep
  · intro keys hkeys
    exact fetchEffectivePermissionKeys_ok t hkeys
  · exact AuthService.fetchEffectivePermissionKeys_toFinset t userId

end Fetch

end Untangled.Rbac
