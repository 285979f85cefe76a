import Untangled.RbacSeedJoins

/-!
# The RBAC seed over its own result

Where everything is seeded already, every statement of the seed finds its own row
and writes the time of the update, and nothing else.
-/

namespace Untangled.Seed

open ReadCommitted Mapping
open Untangled.Auth (Uuid systemUserId)

variable {run : SeedRun} {C : SeedCatalog} {t t' : SeedTables}

/-! ## Rows without the time of their update -/

def Stamps.untimed (s : Stamps) : Stamps :=
  { s with updatedAt := 0 }

/-- Rows that carry the time of their last update. -/
class Timed (ρ : Type) where
  untimed : ρ → ρ

export Timed (untimed)

instance : Timed RoleRow := ⟨fun r => { r with stamps := r.stamps.untimed }⟩
instance : Timed PermissionRow := ⟨fun r => { r with stamps := r.stamps.untimed }⟩
instance : Timed JoinRow := ⟨fun r => { r with stamps := r.stamps.untimed }⟩

theorem untimed_upsertStamps {s : Stamps} (h : s.updatedBy = systemUserId) :
    (upsertStamps run (some s)).untimed = s.untimed := by
  rw [upsertStamps, Stamps.untimed, Stamps.untimed, ← h]

section Rows

variable {ρ : Type} [Keyed ρ Uuid] [Timed ρ]

def SameRows (rows rows' : Table ρ) : Prop :=
  rows.rows.map untimed = rows'.rows.map untimed

theorem SameRows.refl (rows : Table ρ) : SameRows rows rows := rfl

theorem SameRows.trans {rows rows' rows'' : Table ρ} (h : SameRows rows rows')
    (h' : SameRows rows' rows'') : SameRows rows rows'' :=
  Eq.trans h h'

theorem SameRows.mem {rows rows' : Table ρ} (h : SameRows rows rows') {r : ρ}
    (hr : r ∈ rows) : ∃ r' ∈ rows', untimed r' = untimed r := by
  have hmem : untimed r ∈ rows'.rows.map untimed := h ▸ List.mem_map.mpr ⟨r, hr, rfl⟩
  exact List.mem_map.mp hmem

theorem SameRows.put {rows : Table ρ} {old new : ρ} (hold : old ∈ rows)
    (hkey : key old = key new) (hsame : untimed new = untimed old) :
    SameRows rows (rows.put new) := by
  rw [SameRows, Table.rows_put_of_mem hold hkey, Table.replaceRows, List.map_map]
  apply List.map_congr_left
  intro r hr
  by_cases hr' : key r = key new
  · have hboth : r = old := rows.eq_of_key_eq hr hold (hr'.trans hkey.symm)
    rw [Function.comp_apply, if_pos hr', hsame, hboth]
  · rw [Function.comp_apply, if_neg hr']

end Rows

/-- Nothing but times and the authorization version differs. -/
structure SameButTimes (t t' : SeedTables) : Prop where
  users : t.users = t'.users
  roles : SameRows t.roles t'.roles
  permissions : SameRows t.permissions t'.permissions
  rolePermissions : SameRows t.rolePermissions t'.rolePermissions
  roleChildren : SameRows t.roleChildren t'.roleChildren
  userRoles : SameRows t.userRoles t'.userRoles

/-! ## Roles -/

theorem SeedRole.Matches.congr {s : SeedRole} {r r' : RoleRow} (h : s.Matches r)
    (hsame : untimed r' = untimed r) : s.Matches r' := by
  have hid := congrArg RoleRow.id hsame
  have hname := congrArg RoleRow.name hsame
  have hdisplay := congrArg RoleRow.displayName hsame
  have hby := congrArg (fun r : RoleRow => r.stamps.updatedBy) hsame
  exact ⟨hid.trans h.1, hname.trans h.2.1, hdisplay.trans h.2.2.1, hby.trans h.2.2.2⟩

theorem seededRole_same {s : SeedRole} {r : RoleRow} (hr : r ∈ t.roles)
    (hmatch : s.Matches r) : SameRows t.roles (t.roles.put (seededRole run s t)) := by
  have hfind : t.roles.find s.id = some r := Table.find_eq_some.mpr ⟨hr, hmatch.1⟩
  apply SameRows.put hr hmatch.1
  change ({ seededRole run s t with stamps := _ } : RoleRow) = { r with stamps := _ }
  rw [seededRole, hfind, Option.map_some, untimed_upsertStamps hmatch.2.2.2, ← hmatch.1,
    ← hmatch.2.1, ← hmatch.2.2.1]

theorem upsertRoles_again {roles : List SeedRole} (hroles : ∀ s ∈ roles, s ∈ C.roles)
    (hsystem : systemUserId ∈ t.users) (hnames : NamesFree C t)
    (hseeded : ∀ s ∈ roles, ∃ r ∈ t.roles, s.Matches r) :
    ∃ t', roles.foldlM (fun t s => upsertRole run s t) t = .ok t' ∧
      SameRows t.roles t'.roles ∧ t' = { t with roles := t'.roles } := by
  induction roles generalizing t with
  | nil => exact ⟨t, rfl, .refl _, rfl⟩
  | cons s roles ih =>
      have hs : s ∈ C.roles := hroles s (.head _)
      rcases hseeded s (.head _) with ⟨r, hr, hmatch⟩
      have hfirst : SameRows t.roles (t.roles.put (seededRole run s t)) :=
        seededRole_same hr hmatch
      have hstill : ∀ s' ∈ roles, ∃ r ∈ t.roles.put (seededRole run s t), s'.Matches r := by
        intro s' hs'
        rcases hseeded s' (.tail _ hs') with ⟨r', hr', hmatch'⟩
        rcases hfirst.mem hr' with ⟨r'', hr'', hsame⟩
        exact ⟨r'', hr'', hmatch'.congr hsame⟩
      rcases ih (t := { t with roles := t.roles.put (seededRole run s t) })
        (fun s' h => hroles s' (.tail _ h)) hsystem (hnames.upsertRole hs) hstill
        with ⟨t', hfold, hrest, hframe⟩
      refine ⟨t', ?_, hfirst.trans hrest, by rw [hframe]⟩
      rw [List.foldlM_cons, upsertRole_ok hsystem hnames hs]
      exact hfold

/-! ## Permissions -/

theorem SeedPermission.Matches.congr {p : SeedPermission} {r r' : PermissionRow}
    (h : p.Matches r) (hsame : untimed r' = untimed r) : p.Matches r' := by
  have hid := congrArg PermissionRow.id hsame
  have hkey := congrArg PermissionRow.key hsame
  have hclass := congrArg PermissionRow.className hsame
  have hoperation := congrArg PermissionRow.operation hsame
  have hby := congrArg (fun r : PermissionRow => r.stamps.updatedBy) hsame
  exact ⟨hid.trans h.1, hkey.trans h.2.1, hclass.trans h.2.2.1,
    hoperation.trans h.2.2.2.1, hby.trans h.2.2.2.2⟩

theorem seededPermission_same {p : SeedPermission} {r : PermissionRow}
    (hr : r ∈ t.permissions) (hmatch : p.Matches r) :
    SameRows t.permissions (t.permissions.put (seededPermission run p t)) := by
  have hfind : t.permissions.find p.id = some r := Table.find_eq_some.mpr ⟨hr, hmatch.1⟩
  apply SameRows.put hr hmatch.1
  change ({ seededPermission run p t with stamps := _ } : PermissionRow) =
    { r with stamps := _ }
  rw [seededPermission, hfind, Option.map_some, untimed_upsertStamps hmatch.2.2.2.2,
    ← hmatch.1, ← hmatch.2.1, ← hmatch.2.2.1, ← hmatch.2.2.2.1]

theorem reconcilePermission_again (hsystem : systemUserId ∈ t.users)
    (hunique : UniqueKeys t) {p : SeedPermission} {r : PermissionRow}
    (hr : r ∈ t.permissions) (hmatch : p.Matches r) :
    reconcilePermission run p t =
      .ok { t with permissions := t.permissions.put (seededPermission run p t) } := by
  unfold reconcilePermission
  cases hfind : t.permissions.rows.find? fun r => r.key = p.key with
  | none =>
      have hno := mem_find?_eq_none hfind hr
      simp [hmatch.2.1] at hno
  | some row =>
      have hkey : row.key = p.key := by simpa using List.find?_some hfind
      have hrow : row = r := hunique row (List.mem_of_find?_eq_some hfind) r hr
        (hkey.trans hmatch.2.1.symm)
      simp only [hrow, hmatch.1, ne_eq, not_true_eq_false, if_false]
      exact stamped_ok hsystem

theorem SameRows.uniqueKeys (h : SameRows t.permissions t'.permissions)
    (hunique : UniqueKeys t) : UniqueKeys t' := by
  intro r hr r' hr' hkey
  rcases SameRows.mem h.symm hr with ⟨x, hx, hsame⟩
  rcases SameRows.mem h.symm hr' with ⟨x', hx', hsame'⟩
  have hkeys : x.key = x'.key := (congrArg PermissionRow.key hsame).trans
    (hkey.trans (congrArg PermissionRow.key hsame').symm)
  have hid := congrArg PermissionRow.id hsame
  have hid' := congrArg PermissionRow.id hsame'
  rw [hunique x hx x' hx' hkeys] at hid
  exact t'.permissions.eq_of_key_eq hr hr' (hid.symm.trans hid')

theorem reconcileEntries_again {perms : List SeedPermission}
    (hsystem : systemUserId ∈ t.users) (hunique : UniqueKeys t)
    (hseeded : ∀ p ∈ perms, ∃ r ∈ t.permissions, p.Matches r) :
    ∃ t', perms.foldlM (fun t p => reconcilePermission run p t) t = .ok t' ∧
      SameRows t.permissions t'.permissions ∧
      t' = { t with permissions := t'.permissions } := by
  induction perms generalizing t with
  | nil => exact ⟨t, rfl, .refl _, rfl⟩
  | cons p perms ih =>
      rcases hseeded p (.head _) with ⟨r, hr, hmatch⟩
      have hfirst : SameRows t.permissions
          (t.permissions.put (seededPermission run p t)) := seededPermission_same hr hmatch
      have hstill : ∀ q ∈ perms,
          ∃ r ∈ t.permissions.put (seededPermission run p t), q.Matches r := by
        intro q hq
        rcases hseeded q (.tail _ hq) with ⟨r', hr', hmatch'⟩
        rcases hfirst.mem hr' with ⟨r'', hr'', hsame⟩
        exact ⟨r'', hr'', hmatch'.congr hsame⟩
      rcases ih (t := { t with permissions := t.permissions.put (seededPermission run p t) })
        hsystem (SameRows.uniqueKeys hfirst hunique) hstill with ⟨t', hfold, hrest, hframe⟩
      refine ⟨t', ?_, hfirst.trans hrest, by rw [hframe]⟩
      rw [List.foldlM_cons, reconcilePermission_again hsystem hunique hr hmatch]
      exact hfold

theorem removeObsolete_again (hcurrent : ∀ r ∈ t.permissions, r.key ∉ C.obsolete) :
    removeObsolete C t = t := by
  have hnone : (t.permissions.rows.filter fun r => r.key ∈ C.obsolete) = [] := by
    apply List.filter_eq_nil_iff.mpr
    intro r hr
    simpa using hcurrent r hr
  rw [removeObsolete, hnone]
  rfl

/-! ## Joins -/

theorem SeededJoin.congr {joins joins' : Table JoinRow} {pair : Uuid × Uuid}
    (h : SeededJoin joins pair) (hsame : SameRows joins joins') : SeededJoin joins' pair := by
  rcases h with ⟨r, hr, hpair, hby⟩
  rcases hsame.mem hr with ⟨r', hr', hrow⟩
  exact ⟨r', hr', (congrArg JoinRow.pair hrow).trans hpair,
    (congrArg (fun r : JoinRow => r.stamps.updatedBy) hrow).trans hby⟩

theorem SameRows.uniquePairs {joins joins' : Table JoinRow} (h : SameRows joins joins')
    (hunique : UniquePairs joins) : UniquePairs joins' := by
  intro r hr r' hr' hpair
  rcases SameRows.mem h.symm hr with ⟨x, hx, hsame⟩
  rcases SameRows.mem h.symm hr' with ⟨x', hx', hsame'⟩
  have hpairs : x.pair = x'.pair := (congrArg JoinRow.pair hsame).trans
    (hpair.trans (congrArg JoinRow.pair hsame').symm)
  have hid := congrArg JoinRow.id hsame
  have hid' := congrArg JoinRow.id hsame'
  rw [hunique x hx x' hx' hpairs] at hid
  exact joins'.eq_of_key_eq hr hr' (hid.symm.trans hid')

theorem upsertJoin_again {joins : Table JoinRow} {pair : Uuid × Uuid}
    (hunique : UniquePairs joins) (hseeded : SeededJoin joins pair) :
    ∃ joins', upsertJoin run pair joins = .ok joins' ∧ SameRows joins joins' := by
  rcases hseeded with ⟨r, hr, hpair, hby⟩
  unfold upsertJoin
  cases hfind : joins.rows.find? fun r => r.pair = pair with
  | none =>
      have hno := mem_find?_eq_none hfind hr
      simp [hpair] at hno
  | some row =>
      have hrowPair : row.pair = pair := by simpa using List.find?_some hfind
      have hrow : row = r := hunique row (List.mem_of_find?_eq_some hfind) r hr
        (hrowPair.trans hpair.symm)
      subst hrow
      refine ⟨_, rfl, SameRows.put hr rfl ?_⟩
      change ({ row with stamps := _ } : JoinRow) = { row with stamps := _ }
      rw [untimed_upsertStamps hby]

theorem upsertJoins_again {joins : Table JoinRow} {pairs : List (Uuid × Uuid)}
    (hunique : UniquePairs joins) (hseeded : ∀ pair ∈ pairs, SeededJoin joins pair) :
    ∃ joins', pairs.foldlM (fun j pair => upsertJoin run pair j) joins = .ok joins' ∧
      SameRows joins joins' := by
  induction pairs generalizing joins with
  | nil => exact ⟨joins, rfl, .refl _⟩
  | cons pair pairs ih =>
      rcases @upsertJoin_again run _ _ hunique (hseeded pair (.head _))
        with ⟨middle, hstep, hfirst⟩
      rcases ih (hfirst.uniquePairs hunique)
        (fun p hp => (hseeded p (.tail _ hp)).congr hfirst) with ⟨joins', hfold, hrest⟩
      refine ⟨joins', ?_, hfirst.trans hrest⟩
      rw [List.foldlM_cons, hstep]
      exact hfold

theorem pruneJoins_again {roleIds : List Uuid} {pairs : List (Uuid × Uuid)}
    {joins : Table JoinRow} (honly : ∀ r ∈ joins, r.left ∈ roleIds → r.pair ∈ pairs) :
    pruneJoins roleIds pairs joins = joins := by
  apply Table.ext
  apply List.filter_eq_self.mpr
  intro r hr
  rw [decide_eq_true_eq]
  by_cases hleft : r.left ∈ roleIds
  · exact Or.inr (honly r hr hleft)
  · exact Or.inl hleft

/-! ## Attachments of users -/

theorem SeedUserRole.Matches.congr {l : SeedUserRole} {r r' : JoinRow} (h : l.Matches r)
    (hsame : untimed r' = untimed r) : l.Matches r' := by
  have hid := congrArg JoinRow.id hsame
  have hpair := congrArg JoinRow.pair hsame
  have hby := congrArg (fun r : JoinRow => r.stamps.updatedBy) hsame
  exact ⟨hid.trans h.1, hpair.trans h.2.1, hby.trans h.2.2⟩

theorem seededUserRole_same {l : SeedUserRole} {r : JoinRow} (hr : r ∈ t.userRoles)
    (hmatch : l.Matches r) :
    SameRows t.userRoles (t.userRoles.put (seededUserRole run l t)) := by
  have hfind : t.userRoles.find l.id = some r := Table.find_eq_some.mpr ⟨hr, hmatch.1⟩
  have hleft : r.left = l.userId := congrArg Prod.fst hmatch.2.1
  have hright : r.right = l.roleId := congrArg Prod.snd hmatch.2.1
  apply SameRows.put hr hmatch.1
  change ({ seededUserRole run l t with stamps := _ } : JoinRow) = { r with stamps := _ }
  rw [seededUserRole, hfind, Option.map_some, untimed_upsertStamps hmatch.2.2, ← hmatch.1,
    ← hleft, ← hright]

theorem upsertUserRoles_again {links : List SeedUserRole}
    (hsystem : systemUserId ∈ t.users) (husers : ∀ l ∈ links, l.userId ∈ t.users)
    (hroles : ∀ l ∈ links, l.roleId ∈ t.roles.rows.map RoleRow.id)
    (hunique : UniquePairs t.userRoles)
    (hseeded : ∀ l ∈ links, ∃ r ∈ t.userRoles, l.Matches r) :
    ∃ t', links.foldlM (fun t l => upsertUserRole run l t) t = .ok t' ∧
      SameRows t.userRoles t'.userRoles ∧ t' = { t with userRoles := t'.userRoles } := by
  induction links generalizing t with
  | nil => exact ⟨t, rfl, .refl _, rfl⟩
  | cons l links ih =>
      rcases hseeded l (.head _) with ⟨r, hr, hmatch⟩
      have hfirst : SameRows t.userRoles (t.userRoles.put (seededUserRole run l t)) :=
        seededUserRole_same hr hmatch
      have hfree : ∀ r' ∈ t.userRoles, r'.pair = l.pair → r'.id = l.id := by
        intro r' hr' hpair
        rw [hunique r' hr' r hr (hpair.trans hmatch.2.1.symm)]
        exact hmatch.1
      have hstill : ∀ l' ∈ links,
          ∃ r ∈ t.userRoles.put (seededUserRole run l t), l'.Matches r := by
        intro l' hl'
        rcases hseeded l' (.tail _ hl') with ⟨r', hr', hmatch'⟩
        rcases hfirst.mem hr' with ⟨r'', hr'', hsame⟩
        exact ⟨r'', hr'', hmatch'.congr hsame⟩
      rcases ih (t := { t with userRoles := t.userRoles.put (seededUserRole run l t) })
        hsystem (fun l' h => husers l' (.tail _ h)) (fun l' h => hroles l' (.tail _ h))
        (hfirst.uniquePairs hunique) hstill with ⟨t', hfold, hrest, hframe⟩
      refine ⟨t', ?_, hfirst.trans hrest, by rw [hframe]⟩
      rw [List.foldlM_cons, (upsertUserRole_ok_iff hsystem (husers l (.head _))
        (hroles l (.head _))).mpr ⟨hfree, rfl⟩]
      exact hfold

end Untangled.Seed
