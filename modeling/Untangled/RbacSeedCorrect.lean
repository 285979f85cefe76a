import Untangled.RbacSeedTwice

/-!
# What the RBAC seed owns

`seedRbac` brings in what it is for, and touches nothing else, exactly on the
tables in which no attachment of a seed user stands under another id, no seeded id
holds an attachment of another role, no other role is granted a permission that
the seed replaces or takes over, and the version can still be counted up twice.
-/

namespace Untangled.Seed

open ReadCommitted Mapping
open Untangled.Auth (Uuid systemUserId)

variable {run : SeedRun} {C : SeedCatalog} {t t' : SeedTables}

/-! ## The aim -/

structure Reconciled (C : SeedCatalog) (t t' : SeedTables) : Prop where
  roles : ∀ s ∈ C.roles, ∃ r ∈ t'.roles, r.id = s.id ∧ r.name = s.name
  grants : ∀ s ∈ C.roles, t'.grantedKeys s.id = {k | ⟨s.id, k⟩ ∈ C.rolePermissions}
  children : ∀ s ∈ C.roles, t'.children s.id = {c | ⟨s.id, c⟩ ∈ C.roleChildren}
  holders : ∀ l ∈ C.userRoles, l.userId ∈ t'.holders l.roleId
  otherGrants : ∀ roleId ∉ C.roleIds,
    t'.grantedKeys roleId = t.grantedKeys roleId \ {k | k ∈ C.obsolete}
  otherChildren : ∀ roleId ∉ C.roleIds, t'.children roleId = t.children roleId
  otherHolders : ∀ roleId ∉ C.roleIds, t'.holders roleId = t.holders roleId

/-- The seed succeeds, does what it is for, and changes nothing the second time. -/
def ReconcilesItsOwn (C : SeedCatalog) (run : SeedRun) (t : SeedTables) : Prop :=
  ∃ t', seedRbac run C t = .ok t' ∧ Reconciled C t t' ∧
    ∀ again : SeedRun, ∃ t'', seedRbac again C t' = .ok t'' ∧ SameButTimes t' t''

/-- The ids that a run draws are new and distinct. -/
structure SeedRun.Fresh (run : SeedRun) (t : SeedTables) : Prop where
  distinct : Function.Injective run.newId
  rolePermissions : ∀ r ∈ t.rolePermissions, ∀ pair, r.id ≠ run.newId pair
  roleChildren : ∀ r ∈ t.roleChildren, ∀ pair, r.id ≠ run.newId pair

/-! ## The tables on which it succeeds -/

/-- The row stays and gets the key `k` in place of its own. -/
def SeedCatalog.TakesOver (C : SeedCatalog) (x : PermissionRow) (k : String) : Prop :=
  ∃ p, firstMet C.permissions x = some p ∧ p.id = x.id ∧ p.key = k ∧ x.key ≠ k

/-- The row goes because its key is seeded under another id. -/
def SeedCatalog.Replaces (C : SeedCatalog) (x : PermissionRow) : Prop :=
  ∃ p, firstMet C.permissions x = some p ∧ p.id ≠ x.id

def SeedTables.Granted (t : SeedTables) (roleId : Uuid) (x : PermissionRow) : Prop :=
  x ∈ t.permissions ∧ (roleId, x.id) ∈ pairsOf t.rolePermissions

/-- A role that is granted a row under a key that is taken from it, or given to it,
is granted the key by another row that has it, or gets it. -/
def GrantsKept (C : SeedCatalog) (t : SeedTables) (roleId : Uuid) : Prop :=
  ∀ x, t.Granted roleId x →
    (∀ k, C.TakesOver x k → ∃ y, t.Granted roleId y ∧ y.key = k) ∧
    (C.Replaces x ∨ (∃ k, C.TakesOver x k) →
      x.key ∈ C.obsolete ∨ ∃ y, t.Granted roleId y ∧ C.TakesOver y x.key)

/-- The version can be counted up by two runs. -/
def VersionRoom (t : SeedTables) : Prop :=
  (t.version.getD firstVersion).val + 2 ≤ 2147483647

/-- Nothing that operators added is in the way of the seed. -/
structure OutOfTheWay (C : SeedCatalog) (t : SeedTables) : Prop where
  system : systemUserId ∈ t.users
  pairs : Unobstructed C.userRoles t.userRoles
  ids : ∀ r ∈ t.userRoles, r.id ∈ C.userRoles.map SeedUserRole.id → r.right ∈ C.roleIds
  grants : ∀ roleId ∉ C.roleIds, GrantsKept C t roleId
  version : VersionRoom t

/-! ## Grants of other roles -/

theorem mem_grantedKeys {roleId : Uuid} {k : String} :
    k ∈ t.grantedKeys roleId ↔ ∃ x, t.Granted roleId x ∧ x.key = k := by
  constructor
  · rintro ⟨g, hg, hleft, x, hx, hid, hkey⟩
    exact ⟨x, ⟨hx, mem_pairsOf.mpr ⟨g, hg, Prod.ext hleft hid.symm⟩⟩, hkey⟩
  · rintro ⟨x, ⟨hx, hpair⟩, hkey⟩
    rcases mem_pairsOf.mp hpair with ⟨g, hg, hsame⟩
    exact ⟨g, hg, congrArg Prod.fst hsame, x, hx, (congrArg Prod.snd hsame).symm, hkey⟩

theorem mem_keptKeys {roleId : Uuid} {k : String} :
    (∃ g ∈ t.rolePermissions, g.left = roleId ∧
      ∃ x ∈ t.permissions, x.id = g.right ∧ C.keptKey x = some k) ↔
      ∃ x, t.Granted roleId x ∧ C.keptKey x = some k := by
  constructor
  · rintro ⟨g, hg, hleft, x, hx, hid, hkey⟩
    exact ⟨x, ⟨hx, mem_pairsOf.mpr ⟨g, hg, Prod.ext hleft hid.symm⟩⟩, hkey⟩
  · rintro ⟨x, ⟨hx, hpair⟩, hkey⟩
    rcases mem_pairsOf.mp hpair with ⟨g, hg, hsame⟩
    exact ⟨g, hg, congrArg Prod.fst hsame, x, hx, (congrArg Prod.snd hsame).symm, hkey⟩

theorem SeedCatalog.TakesOver.keptKey {x : PermissionRow} {k : String}
    (h : C.TakesOver x k) : C.keptKey x = some k := by
  rcases h with ⟨p, hmet, hid, rfl, _⟩
  exact C.keptKey_of_some hmet hid

theorem grantsKept_iff (hunique : UniqueKeys t) (roleId : Uuid) :
    {k | ∃ g ∈ t.rolePermissions, g.left = roleId ∧
      ∃ x ∈ t.permissions, x.id = g.right ∧ C.keptKey x = some k} =
        t.grantedKeys roleId \ {k | k ∈ C.obsolete} ↔ GrantsKept C t roleId := by
  rw [Set.ext_iff]
  simp only [Set.mem_ofPred_eq, mem_keptKeys, Set.mem_sdiff, mem_grantedKeys]
  constructor
  · intro hsame x hx
    refine ⟨?_, ?_⟩
    · intro k htakes
      exact ((hsame k).mp ⟨x, hx, htakes.keptKey⟩).1
    · intro hmoved
      by_cases hobsolete : x.key ∈ C.obsolete
      · exact Or.inl hobsolete
      · rcases (hsame x.key).mpr ⟨⟨x, hx, rfl⟩, hobsolete⟩ with ⟨y, hy, hkept⟩
        -- a row that keeps the key would be the row that loses it
        have hother : y.key ≠ x.key := by
          intro hkey
          have hboth : y = x := hunique y hy.1 x hx.1 hkey
          rw [hboth] at hkept
          rcases hmoved with ⟨p, hmet, hid⟩ | ⟨k, htakes⟩
          · rcases C.keptKey_eq_some hkept with ⟨q, hmet', hid', _⟩ | ⟨hmet', _⟩
            · rw [hmet] at hmet'
              cases hmet'
              exact hid hid'
            · rw [hmet] at hmet'
              cases hmet'
          · rw [htakes.keptKey] at hkept
            rcases htakes with ⟨_, _, _, _, hne⟩
            exact hne (Option.some.inj hkept).symm
        rcases C.keptKey_eq_some hkept with ⟨q, hmet, hid, hkey⟩ | ⟨_, _, hkey⟩
        · exact Or.inr ⟨y, hy, q, hmet, hid, hkey, hother⟩
        · exact absurd hkey hother
  · intro hkept k
    constructor
    · rintro ⟨x, hx, hkey⟩
      rcases C.keptKey_eq_some hkey with ⟨p, hmet, hid, rfl⟩ | ⟨_, hobsolete, rfl⟩
      · refine ⟨?_, C.not_obsolete (firstMet_eq_some hmet).1⟩
        by_cases hsame : x.key = p.key
        · exact ⟨x, hx, hsame⟩
        · exact (hkept x hx).1 p.key ⟨p, hmet, hid, rfl, hsame⟩
      · exact ⟨⟨x, hx, rfl⟩, hobsolete⟩
    · rintro ⟨⟨x, hx, rfl⟩, hobsolete⟩
      have hregained : C.Replaces x ∨ (∃ k, C.TakesOver x k) →
          ∃ y, t.Granted roleId y ∧ C.keptKey y = some x.key := by
        intro hmoved
        rcases (hkept x hx).2 hmoved with hgone | ⟨y, hy, htakes⟩
        · exact absurd hgone hobsolete
        · exact ⟨y, hy, htakes.keptKey⟩
      cases hmet : firstMet C.permissions x with
      | none => exact ⟨x, hx, C.keptKey_of_none hmet hobsolete⟩
      | some p =>
          by_cases hid : p.id = x.id
          · by_cases hkey : x.key = p.key
            · exact ⟨x, hx, by rw [C.keptKey_of_some hmet hid, hkey]⟩
            · exact hregained (Or.inr ⟨p.key, p, hmet, hid, rfl, hkey⟩)
          · exact hregained (Or.inl ⟨p, hmet, hid⟩)

/-! ## The tables before the attachments of users -/

theorem SeedTables.Valid.uniqueKeys (hvalid : t.Valid) : UniqueKeys t :=
  fun _ hr _ hr' hkey => List.inj_on_of_nodup_map hvalid.permissionKeys hr hr' hkey

theorem uniquePairs_of_nodup {joins : Table JoinRow} (h : (pairsOf joins).Nodup) :
    UniquePairs joins :=
  fun _ hr _ hr' hpair => List.inj_on_of_nodup_map h hr hr' hpair

/-- What the seed has written when it comes to the attachments of users. -/
structure NearlySeeded (C : SeedCatalog) (links : List (Uuid × SeedPermission))
    (t middle : SeedTables) : Prop where
  users : middle.users = t.users
  userRoles : middle.userRoles = t.userRoles
  version : middle.version = some (t.version.getD firstVersion)
  roles : ∀ s ∈ C.roles, ∃ r ∈ middle.roles, s.Matches r
  names : NamesFree C middle
  permissions : ∀ p ∈ C.permissions, ∃ r ∈ middle.permissions, p.Matches r
  unique : UniqueKeys middle
  current : ∀ r ∈ middle.permissions, r.key ∉ C.obsolete
  rolePermissions : ∃ joins, JoinsSeeded C.roleIds (linkPairs links) joins
      middle.rolePermissions ∧
    ∀ roleId, { middle with rolePermissions := joins }.grantedKeys roleId =
      {k | ∃ g ∈ t.rolePermissions, g.left = roleId ∧
        ∃ x ∈ t.permissions, x.id = g.right ∧ C.keptKey x = some k}
  roleChildren : JoinsSeeded C.roleIds C.childPairs t.roleChildren middle.roleChildren

theorem roleIds_there (hroles : ∀ s ∈ C.roles, ∃ r ∈ t.roles, s.Matches r) :
    ∀ id ∈ C.roleIds, id ∈ t.roles.rows.map RoleRow.id := by
  intro id hid
  rcases List.mem_map.mp hid with ⟨s, hs, rfl⟩
  rcases hroles s hs with ⟨r, hr, hmatch⟩
  exact List.mem_map.mpr ⟨r, hr, hmatch.1⟩

theorem ensureAuthzVersionRow_spec (hsystem : systemUserId ∈ t.users) :
    ∃ t', ensureAuthzVersionRow t = .ok t' ∧ t' = { t with version := t'.version } ∧
      t'.version = some (t.version.getD firstVersion) := by
  unfold ensureAuthzVersionRow
  cases hversion : t.version with
  | some version => exact ⟨t, rfl, rfl, by rw [hversion]; rfl⟩
  | none => exact ⟨_, stamped_ok hsystem, rfl, rfl⟩

/-- The row is counted up as long as the column holds the number. -/
theorem bumpGlobalAuthzVersion_spec {version : Int4} (hversion : t.version = some version) :
    bumpGlobalAuthzVersion t = .ok t' ↔
      ∃ h : version.val + 1 ≤ 2147483647,
        t' = { t with version := some ⟨version.val + 1, by omega, h⟩ } := by
  have hlow := version.property.1
  rw [bumpGlobalAuthzVersion, hversion]
  by_cases hroom : version.val + 1 ≤ 2147483647
  · have hfits : toInt4 (version.val + 1) = .ok ⟨version.val + 1, by omega, hroom⟩ :=
      dif_pos ⟨by omega, hroom⟩
    constructor
    · intro h
      dsimp only at h
      rw [hfits] at h
      cases h
      exact ⟨hroom, rfl⟩
    · rintro ⟨_, rfl⟩
      dsimp only
      rw [hfits]
      rfl
  · have hfull : toInt4 (version.val + 1) = .error .numericValueOutOfRange :=
      dif_neg fun h => hroom h.2
    constructor
    · intro h
      dsimp only at h
      rw [hfull] at h
      cases h
    · rintro ⟨h, _⟩
      exact absurd h hroom

theorem bumpGlobalAuthzVersion_room {version : Int4} (hversion : t.version = some version)
    (hroom : version.val + 1 ≤ 2147483647) :
    ∃ bumped, bumpGlobalAuthzVersion t = .ok { t with version := some bumped } :=
  ⟨_, (bumpGlobalAuthzVersion_spec hversion).mpr ⟨hroom, rfl⟩⟩

/-- The seed up to the attachments of users never fails. -/
theorem seedRbac_upto (hvalid : t.Valid) (hsystem : systemUserId ∈ t.users)
    (hnames : NamesFree C t) (hfresh : run.Fresh t) :
    ∃ links middle, LinksResolved C links ∧ NearlySeeded C links t middle ∧
      seedRbac run C t = upsertUserRoles run C middle >>= bumpGlobalAuthzVersion := by
  rcases ensureAuthzVersionRow_spec hsystem with ⟨t₁, hensure, hframe₁, hversion⟩
  have husers₁ : systemUserId ∈ t₁.users := by rw [hframe₁]; exact hsystem
  have hnames₁ : NamesFree C t₁ := by rw [hframe₁]; exact hnames
  rcases @upsertRoles_spec run C t₁ C.roles (fun _ h => h) C.roleIds_nodup husers₁ hnames₁
    with ⟨t₂, hroles, hseeded, _⟩
  have hframe₂ : t₂ = { t with version := t₁.version, roles := t₂.roles } := by
    rw [hseeded.frame, hframe₁]
  have husers₂ : systemUserId ∈ t₂.users := by rw [hframe₂]; exact hsystem
  have hpermissions₂ : t₂.permissions = t.permissions := by rw [hframe₂]
  have hgrants₂ : t₂.rolePermissions = t.rolePermissions := by rw [hframe₂]
  have hunique₂ : UniqueKeys t₂ := by
    rw [UniqueKeys, hpermissions₂]
    exact hvalid.uniqueKeys
  rcases @reconcilePermissions_spec run C t₂ husers₂ hunique₂
    (by rw [hpermissions₂, hgrants₂]; exact fun g hg => (hvalid.rolePermissions g hg).2)
    with ⟨t₃, hreconcile, hpermissions⟩
  have hframe₃ : t₃ = { t with
      version := t₁.version, roles := t₂.roles, permissions := t₃.permissions
      rolePermissions := t₃.rolePermissions } := by
    rw [hpermissions.frame, hframe₂]
  have husers₃ : systemUserId ∈ t₃.users := by rw [hframe₃]; exact hsystem
  have hroles₃ : t₃.roles = t₂.roles := by rw [hframe₃]
  have hthere : ∀ id ∈ C.roleIds, id ∈ t₃.roles.rows.map RoleRow.id := by
    rw [hroles₃]
    exact roleIds_there hseeded.seeded
  have hold : ∀ g ∈ t₃.rolePermissions, g ∈ t.rolePermissions := by
    intro g hg
    have hg₂ := hpermissions.grants g hg
    rwa [hgrants₂] at hg₂
  rcases resolveLinks_spec C with ⟨links, hmap, hlinks⟩
  have hpairs : ∀ pair ∈ linkPairs links, pair.1 ∈ C.roleIds := by
    intro pair hpair
    rcases List.mem_map.mp hpair with ⟨l, hl, rfl⟩
    exact (hlinks.listed l hl).2.1
  have huniquePairs : UniquePairs t₃.rolePermissions := fun r hr r' hr' =>
    uniquePairs_of_nodup hvalid.rolePermissionPairs r (hold r hr) r' (hold r' hr')
  rcases @seedJoins_spec run t₃.rolePermissions C.roleIds (linkPairs links) hpairs
    huniquePairs hfresh.distinct (fun r hr => hfresh.rolePermissions r (hold r hr))
    with ⟨joins, hfold, hjoins⟩
  have hgrants := @upsertRolePermissions_spec run C t₃ links hmap hlinks husers₃ hthere
    (fun p hp => by
      rcases hpermissions.seeded p hp with ⟨r, hr, hmatch⟩
      exact List.mem_map.mpr ⟨r, hr, hmatch.1⟩) joins hfold
  have hchildPairs : ∀ pair ∈ C.childPairs, pair.1 ∈ C.roleIds := by
    intro pair hpair
    rcases List.mem_map.mp hpair with ⟨l, hl, rfl⟩
    exact C.roleChildren_parents l hl
  have hchildren₃ : t₃.roleChildren = t.roleChildren := by rw [hframe₃]
  rcases @seedJoins_spec run t₃.roleChildren C.roleIds C.childPairs hchildPairs
    (by rw [hchildren₃]; exact uniquePairs_of_nodup hvalid.roleChildPairs) hfresh.distinct
    (by rw [hchildren₃]; exact hfresh.roleChildren) with ⟨childJoins, hchildFold, hchildJoins⟩
  have hchildren := @upsertRoleChildren_spec run C { t₃ with rolePermissions := joins }
    husers₃ hthere childJoins hchildFold
  refine ⟨links, { t₃ with rolePermissions := joins, roleChildren := childJoins }, hlinks,
    ⟨?_, ?_, ?_, ?_, ?_, hpermissions.seeded, hpermissions.unique, hpermissions.current,
      ⟨t₃.rolePermissions, hjoins, ?_⟩, ?_⟩, ?_⟩
  · change t₃.users = t.users
    rw [hframe₃]
  · change t₃.userRoles = t.userRoles
    rw [hframe₃]
  · change t₃.version = _
    rw [hframe₃]
    exact hversion
  · change ∀ s ∈ C.roles, ∃ r ∈ t₃.roles, s.Matches r
    rw [hroles₃]
    exact hseeded.seeded
  · change ∀ r ∈ t₃.roles, _
    rw [hroles₃]
    exact hseeded.names
  · intro roleId
    have hkeys := hpermissions.grantedKeys roleId
    rw [hpermissions₂, hgrants₂] at hkeys
    exact hkeys
  · rw [← hchildren₃]
    exact hchildJoins
  · unfold seedRbac upsertRoles
    rw [hensure]
    change ((C.roles.foldlM (fun t role => upsertRole run role t) t₁) >>= _) = _
    rw [hroles]
    change (reconcilePermissions run C t₂ >>= _) = _
    rw [hreconcile]
    change (upsertRolePermissions run C t₃ >>= _) = _
    rw [hgrants]
    change (upsertRoleChildren run C { t₃ with rolePermissions := joins } >>= _) = _
    rw [hchildren]
    rfl

/-! ## The end of the seed -/

variable {links : List (Uuid × SeedPermission)} {middle : SeedTables}

theorem NearlySeeded.roleIds (h : NearlySeeded C links t middle) :
    ∀ l ∈ C.userRoles, l.roleId ∈ middle.roles.rows.map RoleRow.id :=
  fun l hl => roleIds_there h.roles _ (C.userRoles_roles l hl)

theorem NearlySeeded.seedGrants (h : NearlySeeded C links t middle)
    (hlinks : LinksResolved C links) {s : SeedRole} (hs : s ∈ C.roles) :
    middle.grantedKeys s.id = {k | ⟨s.id, k⟩ ∈ C.rolePermissions} := by
  rcases h.rolePermissions with ⟨joins, hjoins, _⟩
  have hid : s.id ∈ C.roleIds := List.mem_map.mpr ⟨s, hs, rfl⟩
  apply Set.ext
  intro k
  constructor
  · rintro ⟨g, hg, hleft, r, hr, hright, rfl⟩
    rcases List.mem_map.mp (hjoins.only g hg (hleft ▸ hid)) with ⟨l, hl, hpair⟩
    rcases hlinks.listed l hl with ⟨hp, _, hlisted⟩
    rcases h.permissions l.2 hp with ⟨r', hr', hmatch⟩
    have hsame : r = r' := by
      apply middle.permissions.eq_of_key_eq hr hr'
      exact hright.trans ((congrArg Prod.snd hpair).symm.trans hmatch.1.symm)
    have hrole : l.1 = s.id := (congrArg Prod.fst hpair).trans hleft
    rw [hrole] at hlisted
    rw [Set.mem_ofPred_eq, hsame, hmatch.2.1]
    exact hlisted
  · intro hk
    rcases hlinks.complete _ hk with ⟨p, hp, hkey, hl⟩
    rcases hjoins.seeded (s.id, p.id) (List.mem_map.mpr ⟨_, hl, rfl⟩) with ⟨g, hg, hpair, _⟩
    rcases h.permissions p hp with ⟨r, hr, hmatch⟩
    refine ⟨g, hg, congrArg Prod.fst hpair, r, hr, ?_, hmatch.2.1.trans hkey⟩
    exact hmatch.1.trans (congrArg Prod.snd hpair).symm

theorem NearlySeeded.otherGrants (h : NearlySeeded C links t middle) {roleId : Uuid}
    (hother : roleId ∉ C.roleIds) :
    middle.grantedKeys roleId = {k | ∃ g ∈ t.rolePermissions, g.left = roleId ∧
      ∃ x ∈ t.permissions, x.id = g.right ∧ C.keptKey x = some k} := by
  rcases h.rolePermissions with ⟨joins, hjoins, hkeys⟩
  rw [← hkeys roleId]
  apply Set.ext
  intro k
  constructor
  · rintro ⟨g, hg, hleft, hr⟩
    exact ⟨g, (hjoins.others g (hleft ▸ hother)).mp hg, hleft, hr⟩
  · rintro ⟨g, hg, hleft, hr⟩
    exact ⟨g, (hjoins.others g (hleft ▸ hother)).mpr hg, hleft, hr⟩

theorem NearlySeeded.seedChildren (h : NearlySeeded C links t middle) {s : SeedRole}
    (hs : s ∈ C.roles) : middle.children s.id = {c | ⟨s.id, c⟩ ∈ C.roleChildren} := by
  have hid : s.id ∈ C.roleIds := List.mem_map.mpr ⟨s, hs, rfl⟩
  apply Set.ext
  intro c
  constructor
  · intro hc
    rcases mem_pairsOf.mp hc with ⟨r, hr, hpair⟩
    have hleft : r.left = s.id := congrArg Prod.fst hpair
    rcases List.mem_map.mp (h.roleChildren.only r hr (hleft ▸ hid)) with ⟨l, hl, hl'⟩
    have hboth := Prod.mk.inj (hl'.trans hpair)
    have hsame : l = ⟨s.id, c⟩ := by rw [← hboth.1, ← hboth.2]
    rw [Set.mem_ofPred_eq, ← hsame]
    exact hl
  · intro hc
    rcases h.roleChildren.seeded (s.id, c) (List.mem_map.mpr ⟨_, hc, rfl⟩)
      with ⟨r, hr, hpair, _⟩
    exact mem_pairsOf.mpr ⟨r, hr, hpair⟩

theorem NearlySeeded.otherChildren (h : NearlySeeded C links t middle) {roleId : Uuid}
    (hother : roleId ∉ C.roleIds) : middle.children roleId = t.children roleId := by
  apply Set.ext
  intro c
  have hmem : ∀ r : JoinRow, r.pair = (roleId, c) →
      (r ∈ middle.roleChildren ↔ r ∈ t.roleChildren) := by
    intro r hpair
    have hleft : r.left = roleId := congrArg Prod.fst hpair
    exact h.roleChildren.others r (hleft ▸ hother)
  constructor
  · intro hc
    rcases mem_pairsOf.mp hc with ⟨r, hr, hpair⟩
    exact mem_pairsOf.mpr ⟨r, (hmem r hpair).mp hr, hpair⟩
  · intro hc
    rcases mem_pairsOf.mp hc with ⟨r, hr, hpair⟩
    exact mem_pairsOf.mpr ⟨r, (hmem r hpair).mpr hr, hpair⟩

/-- The users of other roles stay when no seeded id held an attachment to one. -/
theorem otherHolders_iff (hunique : UniquePairs t.userRoles)
    (hlinks : LinksSeeded C.userRoles t.userRoles t'.userRoles) :
    (∀ roleId ∉ C.roleIds, t'.holders roleId = t.holders roleId) ↔
      ∀ r ∈ t.userRoles, r.id ∈ C.userRoles.map SeedUserRole.id → r.right ∈ C.roleIds := by
  have horigin : ∀ r ∈ t'.userRoles, r.right ∉ C.roleIds →
      r ∈ t.userRoles ∧ r.id ∉ C.userRoles.map SeedUserRole.id := by
    intro r hr hother
    rcases hlinks.origin r hr with ⟨l, hl, hmatch⟩ | hold
    · have hright : r.right = l.roleId := congrArg Prod.snd hmatch.2.1
      exact absurd (hright ▸ C.userRoles_roles l hl) hother
    · exact hold
  constructor
  · intro hsame r hr hid
    by_contra hother
    have hthere : r.left ∈ t.holders r.right := mem_pairsOf.mpr ⟨r, hr, rfl⟩
    rw [← hsame r.right hother] at hthere
    rcases mem_pairsOf.mp hthere with ⟨r', hr', hpair⟩
    have hright : r'.right = r.right := congrArg Prod.snd hpair
    rcases horigin r' hr' (hright ▸ hother) with ⟨hold, hid'⟩
    exact hid' (hunique r' hold r hr hpair ▸ hid)
  · intro hids roleId hother
    apply Set.ext
    intro u
    constructor
    · intro hu
      rcases mem_pairsOf.mp hu with ⟨r, hr, hpair⟩
      have hright : r.right = roleId := congrArg Prod.snd hpair
      exact mem_pairsOf.mpr ⟨r, (horigin r hr (hright ▸ hother)).1, hpair⟩
    · intro hu
      rcases mem_pairsOf.mp hu with ⟨r, hr, hpair⟩
      have hright : r.right = roleId := congrArg Prod.snd hpair
      refine mem_pairsOf.mpr ⟨r, hlinks.kept r hr ?_, hpair⟩
      exact fun hid => hother (hright ▸ hids r hr hid)

/-- The seed run once more on what it has written, up to its last statement. -/
theorem NearlySeeded.again (h : NearlySeeded C links t middle)
    (hlinks : LinksResolved C links) (hsystem : systemUserId ∈ t.users)
    (husers : ∀ l ∈ C.userRoles, l.userId ∈ t.users) {joins : Table JoinRow}
    (hseeded : LinksSeeded C.userRoles t.userRoles joins) (hunique : UniquePairs joins)
    (version : Int4) (again : SeedRun) :
    ∃ t'', seedRbac again C { middle with userRoles := joins, version := some version } =
        bumpGlobalAuthzVersion t'' ∧ t''.version = some version ∧
      SameButTimes { middle with userRoles := joins, version := some version } t'' := by
  have hsystem' : systemUserId ∈ middle.users := by rw [h.users]; exact hsystem
  rcases @upsertRoles_again again C { middle with userRoles := joins, version := some version }
    C.roles (fun _ h => h) hsystem' h.names h.roles with ⟨t₁, hroles, hsame₁, hframe₁⟩
  have hpermissions₁ : t₁.permissions = middle.permissions := by rw [hframe₁]
  have hunique₁ : UniqueKeys t₁ := by
    rw [UniqueKeys, hpermissions₁]
    exact h.unique
  have hsystem₁ : systemUserId ∈ t₁.users := by rw [hframe₁]; exact hsystem'
  rcases @reconcileEntries_again again t₁ C.permissions hsystem₁ hunique₁
    (by rw [hpermissions₁]; exact h.permissions) with ⟨t₂, hentries, hsame₂, hframe₂⟩
  rw [hpermissions₁] at hsame₂
  have hcurrent₂ : ∀ r ∈ t₂.permissions, r.key ∉ C.obsolete := by
    intro r hr
    rcases SameRows.mem hsame₂.symm hr with ⟨r', hr', hrow⟩
    have hkey := congrArg PermissionRow.key hrow
    rw [show r.key = r'.key from hkey.symm]
    exact h.current r' hr'
  have hreconcile : reconcilePermissions again C t₁ = .ok t₂ := by
    rw [reconcilePermissions, hentries]
    change Except.ok (removeObsolete C t₂) = _
    rw [removeObsolete_again hcurrent₂]
  have hframe₂' : t₂ = { middle with
      userRoles := joins, version := some version, roles := t₁.roles
      permissions := t₂.permissions } := by
    rw [hframe₂, hframe₁]
  have hsystem₂ : systemUserId ∈ t₂.users := by rw [hframe₂']; exact hsystem'
  have hroles₂ : t₂.roles = t₁.roles := by rw [hframe₂']
  have hseededRoles : ∀ s ∈ C.roles, ∃ r ∈ t₂.roles, s.Matches r := by
    rw [hroles₂]
    intro s hs
    rcases h.roles s hs with ⟨r, hr, hmatch⟩
    rcases SameRows.mem hsame₁ hr with ⟨r', hr', hrow⟩
    exact ⟨r', hr', hmatch.congr hrow⟩
  have hthere := roleIds_there hseededRoles
  have hpermissions₂ : ∀ p ∈ C.permissions,
      p.id ∈ t₂.permissions.rows.map PermissionRow.id := by
    intro p hp
    rcases h.permissions p hp with ⟨r, hr, hmatch⟩
    rcases SameRows.mem hsame₂ hr with ⟨r', hr', hrow⟩
    exact List.mem_map.mpr ⟨r', hr', (hmatch.congr hrow).1⟩
  rcases resolveLinks_spec C with ⟨links', hmap, hlinks'⟩
  have hgrants₂ : t₂.rolePermissions = middle.rolePermissions := by rw [hframe₂']
  have hchildren₂ : t₂.roleChildren = middle.roleChildren := by rw [hframe₂']
  rcases h.rolePermissions with ⟨old, hold, _⟩
  -- the links resolve to the same pairs
  have hpairs : ∀ pair, pair ∈ linkPairs links' ↔ pair ∈ linkPairs links := by
    have hincl : ∀ {ls ls' : List (Uuid × SeedPermission)}, LinksResolved C ls →
        LinksResolved C ls' → ∀ pair ∈ linkPairs ls, pair ∈ linkPairs ls' := by
      intro ls ls' hls hls' pair hpair
      rcases List.mem_map.mp hpair with ⟨l, hl, rfl⟩
      rcases hls.listed l hl with ⟨hp, _, hlisted⟩
      rcases hls'.complete _ hlisted with ⟨q, hq, hkey, hmem⟩
      have hsame : q = l.2 := List.inj_on_of_nodup_map C.permissionKeys_nodup hq hp hkey
      rw [hsame] at hmem
      exact List.mem_map.mpr ⟨_, hmem, rfl⟩
    exact fun pair => ⟨hincl hlinks' hlinks pair, hincl hlinks hlinks' pair⟩
  have hpruned : pruneJoins C.roleIds (linkPairs links') t₂.rolePermissions =
      middle.rolePermissions := by
    rw [hgrants₂]
    apply pruneJoins_again
    exact fun r hr hleft => (hpairs _).mpr (hold.only r hr hleft)
  rcases @upsertJoins_again again middle.rolePermissions (linkPairs links') hold.unique
    (fun pair hpair => hold.seeded pair ((hpairs pair).mp hpair))
    with ⟨grants, hgrantFold, hgrantSame⟩
  have hgrants := @upsertRolePermissions_spec again C t₂ links' hmap hlinks' hsystem₂ hthere
    hpermissions₂ grants (by rw [hpruned]; exact hgrantFold)
  have hprunedChildren : pruneJoins C.roleIds C.childPairs t₂.roleChildren =
      middle.roleChildren := by
    rw [hchildren₂]
    exact pruneJoins_again h.roleChildren.only
  rcases @upsertJoins_again again middle.roleChildren C.childPairs h.roleChildren.unique
    h.roleChildren.seeded with ⟨children, hchildFold, hchildSame⟩
  have hchildren := @upsertRoleChildren_spec again C { t₂ with rolePermissions := grants }
    hsystem₂ hthere children (by
      rw [show ({ t₂ with rolePermissions := grants } : SeedTables).roleChildren =
        t₂.roleChildren from rfl, hprunedChildren]
      exact hchildFold)
  have hlinks₂ : t₂.userRoles = joins := by rw [hframe₂']
  have husers₂ : t₂.users = t.users := by rw [hframe₂']; exact h.users
  rcases @upsertUserRoles_again again { t₂ with
      rolePermissions := grants, roleChildren := children } C.userRoles hsystem₂
    (fun l hl => by change l.userId ∈ t₂.users; rw [husers₂]; exact husers l hl)
    (fun l hl => hthere _ (C.userRoles_roles l hl))
    (by change UniquePairs t₂.userRoles; rw [hlinks₂]; exact hunique)
    (by change ∀ l ∈ C.userRoles, ∃ r ∈ t₂.userRoles, l.Matches r
        rw [hlinks₂]; exact hseeded.seeded) with ⟨t₃, huserFold, huserSame, hframe₃⟩
  have hversion₃ : t₃.version = some version := by rw [hframe₃]; rw [hframe₂']
  refine ⟨t₃, ?_, hversion₃, ?_, ?_, ?_, ?_, ?_, ?_⟩
  · unfold seedRbac upsertRoles
    change ((C.roles.foldlM (fun t role => upsertRole again role t) _) >>= _) = _
    rw [hroles]
    change (reconcilePermissions again C t₁ >>= _) = _
    rw [hreconcile]
    change (upsertRolePermissions again C t₂ >>= _) = _
    rw [hgrants]
    change (upsertRoleChildren again C { t₂ with rolePermissions := grants } >>= _) = _
    rw [hchildren]
    change (upsertUserRoles again C { t₂ with
      rolePermissions := grants, roleChildren := children } >>= _) = _
    rw [upsertUserRoles, huserFold]
    rfl
  · change middle.users = t₃.users
    rw [hframe₃, hframe₂']
  · change SameRows middle.roles t₃.roles
    rw [hframe₃]
    change SameRows middle.roles t₂.roles
    rw [hroles₂]
    exact hsame₁
  · change SameRows middle.permissions t₃.permissions
    rw [hframe₃]
    exact hsame₂
  · change SameRows middle.rolePermissions t₃.rolePermissions
    rw [hframe₃]
    exact hgrantSame
  · change SameRows middle.roleChildren t₃.roleChildren
    rw [hframe₃]
    exact hchildSame
  · change SameRows joins t₃.userRoles
    rw [← hlinks₂]
    exact huserSame

/-! ## When the seed touches only what it owns -/

theorem stamped_error (hsystem : systemUserId ∉ t.users) :
    stamped t t' = .error .foreignKeyViolation :=
  if_neg hsystem

/-- Without the system user the first role is refused. -/
theorem system_of_seeded (h : seedRbac run C t = .ok t') : systemUserId ∈ t.users := by
  by_contra hsystem
  unfold seedRbac at h
  rcases bind_eq_ok.mp h with ⟨t₁, hensure, h⟩
  have husers : t₁.users = t.users := by
    unfold ensureAuthzVersionRow at hensure
    split at hensure
    · cases hensure
      rfl
    · rw [stamped_error hsystem] at hensure
      cases hensure
  rcases bind_eq_ok.mp h with ⟨t₂, hroles, _⟩
  unfold upsertRoles at hroles
  cases hlist : C.roles with
  | nil => exact C.roles_nonempty hlist
  | cons s roles =>
      rw [hlist, List.foldlM_cons] at hroles
      rcases bind_eq_ok.mp hroles with ⟨middle, hfirst, _⟩
      unfold upsertRole at hfirst
      split at hfirst
      · cases hfirst
      · rw [stamped_error (husers ▸ hsystem)] at hfirst
        cases hfirst

theorem seedRbac_reconciles_iff (hvalid : t.Valid) (hnames : NamesFree C t)
    (husers : ∀ l ∈ C.userRoles, l.userId ∈ t.users) (hfresh : run.Fresh t) :
    ReconcilesItsOwn C run t ↔ OutOfTheWay C t := by
  by_cases hsystem : systemUserId ∈ t.users
  swap
  · constructor
    · rintro ⟨t', hok, _⟩
      exact absurd (system_of_seeded hok) hsystem
    · intro h
      exact absurd h.system hsystem
  rcases seedRbac_upto hvalid hsystem hnames hfresh with ⟨links, middle, hlinks, hnear, hrun⟩
  have hsystem' : systemUserId ∈ middle.users := hnear.users ▸ hsystem
  have husers' : ∀ l ∈ C.userRoles, l.userId ∈ middle.users := by
    rw [hnear.users]
    exact husers
  have hunique : UniquePairs t.userRoles := uniquePairs_of_nodup hvalid.userRolePairs
  have hunobstructed : (∃ t', upsertUserRoles run C middle = .ok t') ↔
      Unobstructed C.userRoles t.userRoles := by
    rw [← hnear.userRoles]
    exact upsertUserRoles_ok_iff C.userRolePairs_nodup hsystem' husers' hnear.roleIds
  -- the tables of a run that succeeds
  have hend : ∀ t', seedRbac run C t = .ok t' → ∃ joins version,
      t' = { middle with userRoles := joins, version := some version } ∧
        version.val = (t.version.getD firstVersion).val + 1 ∧
        LinksSeeded C.userRoles t.userRoles joins ∧ UniquePairs joins := by
    intro t' hok
    rw [hrun] at hok
    rcases bind_eq_ok.mp hok with ⟨t₁, hattach, hbump⟩
    rcases upsertUserRoles_spec C.userRoleIds_nodup hsystem' husers' hnear.roleIds
      (by rw [hnear.userRoles]; exact hunique) hattach with ⟨hseeded, huniqueEnd, hframe⟩
    have hversion : t₁.version = some (t.version.getD firstVersion) := by
      rw [hframe]
      exact hnear.version
    rcases (bumpGlobalAuthzVersion_spec hversion).mp hbump with ⟨_, rfl⟩
    rw [hnear.userRoles] at hseeded
    exact ⟨t₁.userRoles, _, by rw [hframe], rfl, hseeded, huniqueEnd⟩
  constructor
  · rintro ⟨t', hok, hreconciled, hagain⟩
    rcases hend t' hok with ⟨joins, version, rfl, hcounted, hseeded, huniqueEnd⟩
    refine ⟨hsystem, ?_, ?_, ?_, ?_⟩
    · rw [hrun] at hok
      rcases bind_eq_ok.mp hok with ⟨t₁, hattach, _⟩
      exact hunobstructed.mp ⟨t₁, hattach⟩
    · exact (otherHolders_iff hunique hseeded).mp hreconciled.otherHolders
    · intro roleId hother
      rw [← grantsKept_iff hvalid.uniqueKeys, ← hreconciled.otherGrants roleId hother]
      exact (hnear.otherGrants hother).symm
    · -- the second run counts the version up once more
      rcases hagain run with ⟨t'', hok', _⟩
      rcases hnear.again hlinks hsystem husers hseeded huniqueEnd version run
        with ⟨t₂, hrun', hversion, _⟩
      rw [hrun'] at hok'
      rcases (bumpGlobalAuthzVersion_spec hversion).mp hok' with ⟨hroom, _⟩
      unfold VersionRoom
      omega
  · intro h
    have hroom := h.version
    unfold VersionRoom at hroom
    rcases hunobstructed.mpr h.pairs with ⟨t₁, hattach⟩
    have hok : ∃ t', seedRbac run C t = .ok t' := by
      rcases upsertUserRoles_spec C.userRoleIds_nodup hsystem' husers' hnear.roleIds
        (by rw [hnear.userRoles]; exact hunique) hattach with ⟨_, _, hframe⟩
      have hversion : t₁.version = some (t.version.getD firstVersion) := by
        rw [hframe]
        exact hnear.version
      rcases bumpGlobalAuthzVersion_room hversion (by omega) with ⟨bumped, hbump⟩
      refine ⟨{ t₁ with version := some bumped }, ?_⟩
      rw [hrun, hattach]
      exact hbump
    rcases hok with ⟨t', hok⟩
    rcases hend t' hok with ⟨joins, version, rfl, hcounted, hseeded, huniqueEnd⟩
    refine ⟨_, hok, ⟨?_, ?_, ?_, ?_, ?_, ?_, ?_⟩, ?_⟩
    · intro s hs
      rcases hnear.roles s hs with ⟨r, hr, hmatch⟩
      exact ⟨r, hr, hmatch.1, hmatch.2.1⟩
    · exact fun s hs => hnear.seedGrants hlinks hs
    · exact fun s hs => hnear.seedChildren hs
    · intro l hl
      rcases hseeded.seeded l hl with ⟨r, hr, hmatch⟩
      exact mem_pairsOf.mpr ⟨r, hr, hmatch.2.1⟩
    · intro roleId hother
      rw [(grantsKept_iff hvalid.uniqueKeys roleId).mpr (h.grants roleId hother) |>.symm]
      exact hnear.otherGrants hother
    · exact fun roleId hother => hnear.otherChildren hother
    · exact (otherHolders_iff hunique hseeded).mpr h.ids
    · intro again
      rcases hnear.again hlinks hsystem husers hseeded huniqueEnd version again
        with ⟨t₂, hrun', hversion, hsame⟩
      rcases bumpGlobalAuthzVersion_room hversion (by omega) with ⟨bumped, hbump⟩
      exact ⟨{ t₂ with version := some bumped }, hrun'.trans hbump, hsame.users, hsame.roles,
        hsame.permissions, hsame.rolePermissions, hsame.roleChildren, hsame.userRoles⟩

/-! ## Tables that operators have added to -/

/-- New ids lie above every id in use. -/
def drawnAbove : SeedRun where
  now := 1
  newId pair := 2 ^ 200 + Nat.pair pair.1 pair.2

theorem drawnAbove_fresh
    (hrolePermissions : ∀ r ∈ t.rolePermissions.rows, r.id < 2 ^ 200)
    (hroleChildren : ∀ r ∈ t.roleChildren.rows, r.id < 2 ^ 200) :
    drawnAbove.Fresh t where
  distinct := by
    intro pair pair' hsame
    have hpairs : Nat.pair pair.1 pair.2 = Nat.pair pair'.1 pair'.2 := Nat.add_left_cancel hsame
    exact Prod.ext_iff.mpr (Nat.pair_eq_pair.mp hpairs)
  rolePermissions r hr pair := by
    have hlt := hrolePermissions r hr
    exact Nat.ne_of_lt (Nat.lt_of_lt_of_le hlt (Nat.le_add_right _ _))
  roleChildren r hr pair := by
    have hlt := hroleChildren r hr
    exact Nat.ne_of_lt (Nat.lt_of_lt_of_le hlt (Nat.le_add_right _ _))

/-- The system user and the seed users, and a role of the operators. -/
def operatorTables (permissions : Table PermissionRow)
    (rolePermissions userRoles : Table JoinRow) : SeedTables where
  users := systemUserId :: seedUserRoles.map SeedUserRole.userId
  roles := ⟨[⟨0x11, "on_call", "On Call", ⟨0, 0, systemUserId, systemUserId⟩⟩,
    ⟨0x01900000000070008000000000000011, "admin", "Administrator",
      ⟨0, 0, systemUserId, systemUserId⟩⟩], by decide⟩
  permissions := permissions
  rolePermissions := rolePermissions
  roleChildren := .empty
  userRoles := userRoles
  version := some firstVersion

/-- `incident:read` under an id of its own, and its grant to the role. -/
def grantedByHand : SeedTables :=
  operatorTables
    ⟨[⟨0x22, "incident:read", some "incident", some "read",
      ⟨0, 0, systemUserId, systemUserId⟩⟩], by decide⟩
    ⟨[⟨0x33, 0x11, 0x22, ⟨0, 0, systemUserId, systemUserId⟩⟩], by decide⟩ .empty

/-- The first seed user holds the first seed role, under an id of its own. -/
def attachedByHand : SeedTables :=
  operatorTables .empty .empty
    ⟨[⟨0x44, 0x01900000000070008000000000000001, 0x01900000000070008000000000000011,
      ⟨0, 0, systemUserId, systemUserId⟩⟩], by decide⟩

/-- A key that is not seeded, granted to the role. -/
def customGrant : SeedTables :=
  operatorTables
    ⟨[⟨0x22, "incident:escalate", some "incident", some "escalate",
      ⟨0, 0, systemUserId, systemUserId⟩⟩], by decide⟩
    ⟨[⟨0x33, 0x11, 0x22, ⟨0, 0, systemUserId, systemUserId⟩⟩], by decide⟩ .empty

theorem grantedByHand_valid : grantedByHand.Valid := by
  constructor <;> decide

theorem attachedByHand_valid : attachedByHand.Valid := by
  constructor <;> decide

theorem customGrant_valid : customGrant.Valid := by
  constructor <;> decide

theorem operatorTables_namesFree (permissions : Table PermissionRow)
    (rolePermissions userRoles : Table JoinRow) :
    NamesFree seedCatalog (operatorTables permissions rolePermissions userRoles) := by
  intro r hr
  rcases List.mem_cons.mp hr with rfl | hr
  · decide
  · rcases List.mem_singleton.mp hr with rfl
    decide

theorem custom_grant_kept : ReconcilesItsOwn seedCatalog drawnAbove customGrant := by
  apply (seedRbac_reconciles_iff customGrant_valid (operatorTables_namesFree _ _ _) (by decide)
    (drawnAbove_fresh (by decide) (by decide))).mpr
  refine ⟨by decide, ?_, by decide, ?_, by unfold VersionRoom; decide⟩
  · intro before l after _ r hr
    cases hr
  · intro roleId _ x hx
    have hmet : firstMet seedCatalog.permissions x = none := by
      rw [List.mem_singleton.mp hx.1]
      decide
    constructor
    · rintro k ⟨p, hp, _⟩
      rw [hmet] at hp
      cases hp
    · rintro (⟨p, hp, _⟩ | ⟨k, p, hp, _⟩)
      · rw [hmet] at hp
        cases hp
      · rw [hmet] at hp
        cases hp

/-- An attachment made by hand stops the seed, and a grant made by hand is lost. -/
theorem seed_touches_others :
    (attachedByHand.Valid ∧ NamesFree seedCatalog attachedByHand ∧
      (∀ l ∈ seedCatalog.userRoles, l.userId ∈ attachedByHand.users) ∧
      drawnAbove.Fresh attachedByHand ∧
      ¬ReconcilesItsOwn seedCatalog drawnAbove attachedByHand) ∧
    grantedByHand.Valid ∧ NamesFree seedCatalog grantedByHand ∧
      (∀ l ∈ seedCatalog.userRoles, l.userId ∈ grantedByHand.users) ∧
      drawnAbove.Fresh grantedByHand ∧
      ¬ReconcilesItsOwn seedCatalog drawnAbove grantedByHand := by
  refine ⟨⟨attachedByHand_valid, operatorTables_namesFree _ _ _, by decide,
    drawnAbove_fresh (by decide) (by decide), ?_⟩, grantedByHand_valid,
    operatorTables_namesFree _ _ _, by decide, drawnAbove_fresh (by decide) (by decide), ?_⟩
  · rintro ⟨t', hok, _⟩
    have hrefused : (seedRbac drawnAbove seedCatalog attachedByHand).toBool = false := by
      decide +kernel
    rw [hok] at hrefused
    cases hrefused
  · rintro ⟨t', hok, hreconciled, _⟩
    have hlost : (match seedRbac drawnAbove seedCatalog grantedByHand with
        | .ok t => t.rolePermissions.rows.all fun g => g.left ≠ 0x11
        | .error _ => true) = true := by
      decide +kernel
    rw [hok] at hlost
    have hkeys := hreconciled.otherGrants 0x11 (by decide)
    have hread : "incident:read" ∈ grantedByHand.grantedKeys 0x11 \
        {k | k ∈ seedCatalog.obsolete} := by
      refine ⟨⟨_, .head _, rfl, _, .head _, rfl, rfl⟩, ?_⟩
      decide
    rw [← hkeys] at hread
    rcases hread with ⟨g, hg, hleft, _⟩
    have hother := List.all_eq_true.mp hlost g hg
    simp [hleft] at hother

end Untangled.Seed
