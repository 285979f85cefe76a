import Untangled.RbacSeed

/-!
# Roles and permissions after the RBAC seed

What the first two phases of `seedRbac` leave in the tables.  A permission row is
met by the first entry of the catalog that has its key or its id, and goes if that
entry has another id.
-/

namespace Untangled.Seed

open ReadCommitted Mapping
open Untangled.Auth (Uuid systemUserId)

variable {run : SeedRun} {C : SeedCatalog} {t t' : SeedTables}

theorem stamped_ok (hsystem : systemUserId ∈ t.users) : stamped t t' = .ok t' :=
  if_pos hsystem

theorem mem_find?_eq_none {ρ : Type} {p : ρ → Bool} {rows : List ρ}
    (h : rows.find? p = none) {r : ρ} (hr : r ∈ rows) : p r = false := by
  have hnone := List.find?_eq_none.mp h r hr
  simpa using hnone

/-! ## Roles -/

def SeedRole.Matches (s : SeedRole) (r : RoleRow) : Prop :=
  r.id = s.id ∧ r.name = s.name ∧ r.displayName = s.displayName ∧
    r.stamps.updatedBy = systemUserId

/-- No other role has the name of a seed role. -/
def NamesFree (C : SeedCatalog) (t : SeedTables) : Prop :=
  ∀ r ∈ t.roles, ∀ s ∈ C.roles, r.name = s.name → r.id = s.id

theorem upsertStamps_updatedBy (old : Option Stamps) :
    (upsertStamps run old).updatedBy = systemUserId := by
  cases old <;> rfl

theorem seededRole_matches (s : SeedRole) : s.Matches (seededRole run s t) :=
  ⟨rfl, rfl, rfl, upsertStamps_updatedBy _⟩

theorem SeedCatalog.role_of_name {s s' : SeedRole} (hs : s ∈ C.roles) (hs' : s' ∈ C.roles)
    (hname : s.name = s'.name) : s = s' :=
  List.inj_on_of_nodup_map C.roleNames_nodup hs hs' hname

theorem upsertRole_ok (hsystem : systemUserId ∈ t.users) (hnames : NamesFree C t)
    {s : SeedRole} (hs : s ∈ C.roles) :
    upsertRole run s t = .ok { t with roles := t.roles.put (seededRole run s t) } := by
  rw [upsertRole, if_neg, stamped_ok hsystem]
  rintro ⟨r, hr, hname, hid⟩
  exact hid (hnames r hr s hs hname)

theorem NamesFree.upsertRole (hnames : NamesFree C t) {s : SeedRole} (hs : s ∈ C.roles) :
    NamesFree C { t with roles := t.roles.put (seededRole run s t) } := by
  intro r hr s' hs' hname
  rcases Table.mem_put.mp hr with rfl | ⟨hr, _⟩
  · have hsame : s = s' := C.role_of_name hs hs' hname
    rw [← hsame]
    rfl
  · exact hnames r hr s' hs' hname

/-- The roles after the first phase. -/
structure RolesSeeded (C : SeedCatalog) (roles : List SeedRole) (t t' : SeedTables) :
    Prop where
  seeded : ∀ s ∈ roles, ∃ r ∈ t'.roles, s.Matches r
  names : NamesFree C t'
  frame : t' = { t with roles := t'.roles }

theorem upsertRoles_spec {roles : List SeedRole} (hroles : ∀ s ∈ roles, s ∈ C.roles)
    (hids : (roles.map SeedRole.id).Nodup) (hsystem : systemUserId ∈ t.users)
    (hnames : NamesFree C t) :
    ∃ t', roles.foldlM (fun t s => upsertRole run s t) t = .ok t' ∧
      RolesSeeded C roles t t' ∧
      ∀ r ∈ t.roles, r.id ∉ roles.map SeedRole.id → r ∈ t'.roles := by
  induction roles generalizing t with
  | nil => exact ⟨t, rfl, ⟨by simp, hnames, rfl⟩, fun r hr _ => hr⟩
  | cons s roles ih =>
      have hs : s ∈ C.roles := hroles s (.head _)
      rw [List.map_cons, List.nodup_cons] at hids
      rcases ih (fun s' h => hroles s' (.tail _ h)) hids.2
        (t := { t with roles := t.roles.put (seededRole run s t) }) hsystem
        (hnames.upsertRole hs) with ⟨t', hfold, hseeded, hkept⟩
      refine ⟨t', ?_, ⟨?_, hseeded.names, ?_⟩, ?_⟩
      · rw [List.foldlM_cons, upsertRole_ok hsystem hnames hs]
        exact hfold
      · intro s' hs'
        rcases List.mem_cons.mp hs' with rfl | hs'
        · exact ⟨_, hkept _ (Table.mem_put.mpr (Or.inl rfl)) hids.1, seededRole_matches s'⟩
        · exact hseeded.seeded s' hs'
      · rw [hseeded.frame]
      · intro r hr hid
        rw [List.map_cons, List.mem_cons, not_or] at hid
        exact hkept r (Table.mem_put.mpr (Or.inr ⟨hr, hid.1⟩)) hid.2

/-! ## Permissions -/

def SeedPermission.Matches (p : SeedPermission) (r : PermissionRow) : Prop :=
  r.id = p.id ∧ r.key = p.key ∧ r.className = p.className ∧ r.operation = p.operation ∧
    r.stamps.updatedBy = systemUserId

def UniqueKeys (t : SeedTables) : Prop :=
  ∀ r ∈ t.permissions, ∀ r' ∈ t.permissions, r.key = r'.key → r = r'

/-- The first entry that has the key or the id of a row. -/
def firstMet (perms : List SeedPermission) (x : PermissionRow) : Option SeedPermission :=
  perms.find? fun p => p.key = x.key ∨ p.id = x.id

def Survives (perms : List SeedPermission) (x : PermissionRow) : Prop :=
  ∀ p, firstMet perms x = some p → p.id = x.id

/-- The key that a row has when everything is reconciled, if it is still there. -/
def SeedCatalog.keptKey (C : SeedCatalog) (x : PermissionRow) : Option String :=
  match firstMet C.permissions x with
  | some p => if p.id = x.id then some p.key else none
  | none => if x.key ∈ C.obsolete then none else some x.key

theorem seededPermission_matches (p : SeedPermission) :
    p.Matches (seededPermission run p t) :=
  ⟨rfl, rfl, rfl, rfl, upsertStamps_updatedBy _⟩

theorem firstMet_cons_of_met {p : SeedPermission} {perms : List SeedPermission}
    {x : PermissionRow} (h : p.key = x.key ∨ p.id = x.id) :
    firstMet (p :: perms) x = some p := by
  rw [firstMet, List.find?_cons_of_pos (by simpa using h)]

theorem firstMet_cons_of_not_met {p : SeedPermission} {perms : List SeedPermission}
    {x : PermissionRow} (h : ¬(p.key = x.key ∨ p.id = x.id)) :
    firstMet (p :: perms) x = firstMet perms x := by
  rw [firstMet, List.find?_cons_of_neg (by simpa using h), firstMet]

theorem firstMet_eq_none {perms : List SeedPermission} {x : PermissionRow} :
    firstMet perms x = none ↔ ∀ p ∈ perms, p.key ≠ x.key ∧ p.id ≠ x.id := by
  simp [firstMet]

theorem firstMet_eq_some {perms : List SeedPermission} {x : PermissionRow}
    {p : SeedPermission} (h : firstMet perms x = some p) :
    p ∈ perms ∧ (p.key = x.key ∨ p.id = x.id) :=
  ⟨List.mem_of_find?_eq_some h, by simpa using List.find?_some h⟩

/-- What is left after one entry. -/
structure EntryReconciled (p : SeedPermission) (t t' : SeedTables) : Prop where
  permissions : ∃ row, p.Matches row ∧ ∀ r, r ∈ t'.permissions ↔
    r = row ∨ (r ∈ t.permissions ∧ r.id ≠ p.id ∧ r.key ≠ p.key)
  grants : ∀ g, g ∈ t'.rolePermissions ↔ g ∈ t.rolePermissions ∧
    ∀ x ∈ t.permissions, x.id = g.right → x.key = p.key → x.id = p.id
  frame : t' = { t with
    permissions := t'.permissions, rolePermissions := t'.rolePermissions }

theorem upsertPermission_ok (hsystem : systemUserId ∈ t.users) {p : SeedPermission}
    (hfree : ∀ r ∈ t.permissions, r.key = p.key → r.id = p.id) :
    upsertPermission run p t =
      .ok { t with permissions := t.permissions.put (seededPermission run p t) } := by
  rw [upsertPermission, if_neg, stamped_ok hsystem]
  rintro ⟨r, hr, hkey, hid⟩
  exact hid (hfree r hr hkey)

theorem reconcilePermission_spec (hsystem : systemUserId ∈ t.users) (hkeys : UniqueKeys t)
    (p : SeedPermission) :
    ∃ t', reconcilePermission run p t = .ok t' ∧ EntryReconciled p t t' := by
  unfold reconcilePermission
  cases hfind : t.permissions.rows.find? fun r => r.key = p.key with
  | none =>
      -- the row is inserted, or overwrites the one with its id
      have hfree : ∀ r ∈ t.permissions, r.key ≠ p.key := fun r hr =>
        by simpa using mem_find?_eq_none hfind hr
      refine ⟨_, upsertPermission_ok hsystem fun r hr hkey => absurd hkey (hfree r hr), ?_⟩
      refine ⟨⟨seededPermission run p t, seededPermission_matches p, ?_⟩, ?_, rfl⟩
      · intro r
        rw [Table.mem_put]
        refine or_congr Iff.rfl ⟨?_, fun h => ⟨h.1, h.2.1⟩⟩
        rintro ⟨hr, hid⟩
        exact ⟨hr, hid, hfree r hr⟩
      · intro g
        refine ⟨fun hg => ⟨hg, fun x hx _ hkey => absurd hkey (hfree x hx)⟩, And.left⟩
  | some row =>
      have hrow : row ∈ t.permissions := List.mem_of_find?_eq_some hfind
      have hkey : row.key = p.key := by simpa using List.find?_some hfind
      by_cases hid : row.id = p.id
      · -- the row of the key has the seeded id
        simp only [hid, ne_eq, not_true_eq_false, if_false]
        refine ⟨_, stamped_ok hsystem,
          ⟨seededPermission run p t, seededPermission_matches p, ?_⟩, ?_, rfl⟩
        · intro r
          rw [Table.mem_put]
          refine or_congr Iff.rfl ⟨?_, fun h => ⟨h.1, h.2.1⟩⟩
          rintro ⟨hr, hne⟩
          refine ⟨hr, hne, ?_⟩
          intro hsame
          exact hne (hkeys r hr row hrow (hsame.trans hkey.symm) ▸ hid)
        · intro g
          refine ⟨fun hg => ⟨hg, ?_⟩, And.left⟩
          intro x hx _ hsame
          exact hkeys x hx row hrow (hsame.trans hkey.symm) ▸ hid
      · -- the row of the key goes with its grants
        simp only [ne_eq, hid, not_false_eq_true, if_true]
        have hfree : ∀ r ∈ (dropPermission t row.id).permissions, r.key ≠ p.key := by
          intro r hr hsame
          rcases Table.mem_erase.mp hr with ⟨hr, hne⟩
          exact hne (hkeys r hr row hrow (hsame.trans hkey.symm) ▸ rfl)
        refine ⟨_, upsertPermission_ok (t := dropPermission t row.id) hsystem
          fun r hr hsame => absurd hsame (hfree r hr), ?_⟩
        refine ⟨⟨seededPermission run p (dropPermission t row.id),
          seededPermission_matches p, ?_⟩, ?_, rfl⟩
        · intro r
          rw [Table.mem_put]
          refine or_congr Iff.rfl ⟨?_, ?_⟩
          · rintro ⟨hleft, hne⟩
            have hr : r ∈ t.permissions := (Table.mem_erase.mp hleft).1
            exact ⟨hr, hne, hfree r hleft⟩
          · rintro ⟨hr, hne, hother⟩
            refine ⟨Table.mem_erase.mpr ⟨hr, ?_⟩, hne⟩
            intro hsame
            have hboth := t.permissions.eq_of_key_eq hr hrow hsame
            exact hother (hboth ▸ hkey)
        · intro g
          change g ∈ t.rolePermissions.filter _ ↔ _
          rw [Table.mem_filter]
          refine and_congr_right fun _ => ?_
          constructor
          · intro hother x hx hright hsame
            have hboth := hkeys x hx row hrow (hsame.trans hkey.symm)
            subst hboth
            simp [hright] at hother
          · intro hall
            simp only [ne_eq, decide_eq_true_eq]
            intro hright
            exact hid (hall row hrow hright.symm hkey)

/-- What is left after a list of entries. -/
structure EntriesReconciled (perms : List SeedPermission) (t t' : SeedTables) : Prop where
  seeded : ∀ p ∈ perms, ∃ r ∈ t'.permissions, p.Matches r
  origin : ∀ r ∈ t'.permissions, (∃ p ∈ perms, p.Matches r) ∨
    (r ∈ t.permissions ∧ firstMet perms r = none)
  kept : ∀ r ∈ t.permissions, firstMet perms r = none → r ∈ t'.permissions
  grants : ∀ g, g ∈ t'.rolePermissions ↔ g ∈ t.rolePermissions ∧
    ∀ x ∈ t.permissions, x.id = g.right → Survives perms x
  frame : t' = { t with
    permissions := t'.permissions, rolePermissions := t'.rolePermissions }

theorem EntryReconciled.uniqueKeys {p : SeedPermission} (h : EntryReconciled p t t')
    (hkeys : UniqueKeys t) : UniqueKeys t' := by
  rcases h.permissions with ⟨row, hrow, hmem⟩
  intro r hr r' hr' hsame
  rcases (hmem r).mp hr with rfl | ⟨hr, _, hkey⟩
  · rcases (hmem r').mp hr' with rfl | ⟨_, _, hkey'⟩
    · rfl
    · exact absurd (hsame.symm.trans hrow.2.1) hkey'
  · rcases (hmem r').mp hr' with rfl | ⟨hr', _, _⟩
    · exact absurd (hsame.trans hrow.2.1) hkey
    · exact hkeys r hr r' hr' hsame

/-- Entries with other ids and keys do not meet the row of an entry. -/
theorem firstMet_of_matches {p : SeedPermission} {perms : List SeedPermission}
    (hids : ((p :: perms).map SeedPermission.id).Nodup)
    (hkeys : ((p :: perms).map SeedPermission.key).Nodup) {r : PermissionRow}
    (hr : p.Matches r) : firstMet perms r = none := by
  rw [List.map_cons, List.nodup_cons] at hids hkeys
  apply firstMet_eq_none.mpr
  intro q hq
  constructor
  · intro hkey
    exact hkeys.1 (List.mem_map.mpr ⟨q, hq, hkey.trans hr.2.1⟩)
  · intro hid
    exact hids.1 (List.mem_map.mpr ⟨q, hq, hid.trans hr.1⟩)

theorem EntriesReconciled.cons {p : SeedPermission} {perms : List SeedPermission}
    (hids : ((p :: perms).map SeedPermission.id).Nodup)
    (hkeys : ((p :: perms).map SeedPermission.key).Nodup) {middle : SeedTables}
    (hfirst : EntryReconciled p t middle) (hrest : EntriesReconciled perms middle t') :
    EntriesReconciled (p :: perms) t t' := by
  rcases hfirst.permissions with ⟨row, hrow, hmem⟩
  have hmet : ∀ x : PermissionRow, (x.id ≠ p.id ∧ x.key ≠ p.key) ↔
      ¬(p.key = x.key ∨ p.id = x.id) := by
    intro x
    rw [not_or, eq_comm (a := p.key), eq_comm (a := p.id)]
    exact and_comm
  refine ⟨?_, ?_, ?_, ?_, ?_⟩
  · intro q hq
    rcases List.mem_cons.mp hq with rfl | hq
    · have hthere := (hmem row).mpr (Or.inl rfl)
      exact ⟨row, hrest.kept row hthere (firstMet_of_matches hids hkeys hrow), hrow⟩
    · exact hrest.seeded q hq
  · intro r hr
    rcases hrest.origin r hr with ⟨q, hq, hmatch⟩ | ⟨hr, hnone⟩
    · exact Or.inl ⟨q, .tail _ hq, hmatch⟩
    · rcases (hmem r).mp hr with rfl | ⟨hr, hother⟩
      · exact Or.inl ⟨p, .head _, hrow⟩
      · refine Or.inr ⟨hr, ?_⟩
        rw [firstMet_cons_of_not_met ((hmet r).mp hother), hnone]
  · intro r hr hnone
    have hall := firstMet_eq_none.mp hnone
    have hother := (hmet r).mpr (not_or.mpr (hall p (.head _)))
    exact hrest.kept r ((hmem r).mpr (Or.inr ⟨hr, hother⟩))
      (firstMet_eq_none.mpr fun q hq => hall q (.tail _ hq))
  · intro g
    rw [hrest.grants, hfirst.grants, and_assoc]
    refine and_congr_right fun _ => ?_
    constructor
    · rintro ⟨hhead, htail⟩ x hx hright
      by_cases hx' : p.key = x.key ∨ p.id = x.id
      · intro q hq
        rw [firstMet_cons_of_met hx'] at hq
        cases hq
        rcases hx' with hkey | hid
        · exact (hhead x hx hright hkey.symm).symm
        · exact hid
      · intro q hq
        rw [firstMet_cons_of_not_met hx'] at hq
        exact htail x ((hmem x).mpr (Or.inr ⟨hx, (hmet x).mpr hx'⟩)) hright q hq
    · intro hall
      constructor
      · intro x hx hright hkey
        have hmeet : p.key = x.key ∨ p.id = x.id := Or.inl hkey.symm
        exact (hall x hx hright p (firstMet_cons_of_met hmeet)).symm
      · intro x hx hright q hq
        rcases (hmem x).mp hx with rfl | ⟨hx, hother⟩
        · rw [firstMet_of_matches hids hkeys hrow] at hq
          cases hq
        · apply hall x hx hright q
          rw [firstMet_cons_of_not_met ((hmet x).mp hother), hq]
  · rw [hrest.frame, hfirst.frame]

theorem reconcileEntries_spec {perms : List SeedPermission}
    (hids : (perms.map SeedPermission.id).Nodup)
    (hkeys : (perms.map SeedPermission.key).Nodup)
    (hsystem : systemUserId ∈ t.users) (hunique : UniqueKeys t) :
    ∃ t', perms.foldlM (fun t p => reconcilePermission run p t) t = .ok t' ∧
      EntriesReconciled perms t t' ∧ UniqueKeys t' := by
  induction perms generalizing t with
  | nil =>
      refine ⟨t, rfl, ⟨by simp, fun r hr => Or.inr ⟨hr, rfl⟩, fun r hr _ => hr, ?_, rfl⟩,
        hunique⟩
      intro g
      refine ⟨fun hg => ⟨hg, fun x _ _ p hp => ?_⟩, And.left⟩
      cases hp
  | cons p perms ih =>
      rcases @reconcilePermission_spec run t hsystem hunique p with ⟨middle, hstep, hfirst⟩
      have husers : middle.users = t.users := by rw [hfirst.frame]
      rcases ih (List.nodup_cons.mp hids).2 (List.nodup_cons.mp hkeys).2
        (husers ▸ hsystem) (hfirst.uniqueKeys hunique) with ⟨t', hfold, hrest, hunique'⟩
      refine ⟨t', ?_, .cons hids hkeys hfirst hrest, hunique'⟩
      rw [List.foldlM_cons, hstep]
      exact hfold

/-! ### Obsolete keys -/

theorem dropPermissions_spec (ids : List Uuid) :
    (∀ r, r ∈ (ids.foldl dropPermission t).permissions ↔
      r ∈ t.permissions ∧ r.id ∉ ids) ∧
    (∀ g, g ∈ (ids.foldl dropPermission t).rolePermissions ↔
      g ∈ t.rolePermissions ∧ g.right ∉ ids) ∧
    ids.foldl dropPermission t = { t with
      permissions := (ids.foldl dropPermission t).permissions
      rolePermissions := (ids.foldl dropPermission t).rolePermissions } := by
  induction ids generalizing t with
  | nil => simp
  | cons id ids ih =>
      rcases @ih (dropPermission t id) with ⟨hpermissions, hgrants, hframe⟩
      rw [List.foldl_cons]
      refine ⟨?_, ?_, ?_⟩
      · intro r
        have hmem : r ∈ (dropPermission t id).permissions ↔ r ∈ t.permissions ∧ r.id ≠ id :=
          Table.mem_erase
        rw [hpermissions, hmem, List.mem_cons, not_or, and_assoc]
      · intro g
        have hmem : g ∈ (dropPermission t id).rolePermissions ↔
            g ∈ t.rolePermissions ∧ g.right ≠ id := by
          change g ∈ t.rolePermissions.filter _ ↔ _
          rw [Table.mem_filter, decide_eq_true_eq]
        rw [hgrants, hmem, List.mem_cons, not_or, and_assoc]
      · rw [hframe]
        rfl

theorem SeedCatalog.not_obsolete {p : SeedPermission} (hp : p ∈ C.permissions) :
    p.key ∉ C.obsolete := by
  intro hmem
  have hgone := (List.mem_filter.mp hmem).2
  simp only [decide_eq_true_eq] at hgone
  exact hgone (List.mem_map.mpr ⟨p, hp, rfl⟩)

/-- What is left when all permissions are reconciled. -/
structure PermissionsReconciled (C : SeedCatalog) (t t' : SeedTables) : Prop where
  seeded : ∀ p ∈ C.permissions, ∃ r ∈ t'.permissions, p.Matches r
  unique : UniqueKeys t'
  current : ∀ r ∈ t'.permissions, r.key ∉ C.obsolete
  grantedKeys : ∀ roleId, t'.grantedKeys roleId = {k | ∃ g ∈ t.rolePermissions,
    g.left = roleId ∧ ∃ x ∈ t.permissions, x.id = g.right ∧ C.keptKey x = some k}
  grants : ∀ g ∈ t'.rolePermissions, g ∈ t.rolePermissions
  frame : t' = { t with
    permissions := t'.permissions, rolePermissions := t'.rolePermissions }

theorem SeedCatalog.keptKey_of_none {x : PermissionRow}
    (hmet : firstMet C.permissions x = none) (hkey : x.key ∉ C.obsolete) :
    C.keptKey x = some x.key := by
  rw [keptKey, hmet]
  exact if_neg hkey

theorem SeedCatalog.keptKey_of_some {x : PermissionRow} {p : SeedPermission}
    (hmet : firstMet C.permissions x = some p) (hid : p.id = x.id) :
    C.keptKey x = some p.key := by
  rw [keptKey, hmet]
  exact if_pos hid

theorem SeedCatalog.keptKey_eq_some {x : PermissionRow} {k : String}
    (h : C.keptKey x = some k) :
    (∃ p, firstMet C.permissions x = some p ∧ p.id = x.id ∧ p.key = k) ∨
      (firstMet C.permissions x = none ∧ x.key ∉ C.obsolete ∧ x.key = k) := by
  unfold keptKey at h
  split at h
  · rename_i p hmet
    split at h
    · rename_i hid
      cases h
      exact Or.inl ⟨p, hmet, hid, rfl⟩
    · cases h
  · rename_i hmet
    split at h
    · cases h
    · rename_i hkey
      cases h
      exact Or.inr ⟨hmet, hkey, rfl⟩

/-- An entry that a row meets under its id is the entry of that id. -/
theorem firstMet_matches (hids : (C.permissions.map SeedPermission.id).Nodup)
    {p q : SeedPermission} {x : PermissionRow} (hp : firstMet C.permissions x = some p)
    (hid : p.id = x.id) (hq : q ∈ C.permissions) (hqid : q.id = x.id) : p = q :=
  List.inj_on_of_nodup_map hids (firstMet_eq_some hp).1 hq (hid.trans hqid.symm)

theorem reconcilePermissions_spec (hsystem : systemUserId ∈ t.users)
    (hunique : UniqueKeys t)
    (hgrants : ∀ g ∈ t.rolePermissions, g.right ∈ t.permissions.rows.map PermissionRow.id) :
    ∃ t', reconcilePermissions run C t = .ok t' ∧ PermissionsReconciled C t t' := by
  rcases @reconcileEntries_spec run t _ C.permissionIds_nodup C.permissionKeys_nodup
    hsystem hunique with ⟨middle, hfold, hentries, hunique'⟩
  rcases @dropPermissions_spec middle ((middle.permissions.rows.filter fun r =>
    r.key ∈ C.obsolete).map PermissionRow.id) with ⟨hpermissions, hleft, hframe⟩
  refine ⟨removeObsolete C middle, ?_, ?_⟩
  · rw [reconcilePermissions, hfold]
    rfl
  -- an id is dropped when its row has an obsolete key
  have hdropped : ∀ r ∈ middle.permissions, r.id ∈ (middle.permissions.rows.filter fun r =>
      r.key ∈ C.obsolete).map PermissionRow.id ↔ r.key ∈ C.obsolete := by
    intro r hr
    simp only [List.mem_map, List.mem_filter, decide_eq_true_eq]
    constructor
    · rintro ⟨r', ⟨hr', hkey⟩, hid⟩
      rwa [← middle.permissions.eq_of_key_eq hr' hr hid]
    · intro hkey
      exact ⟨r, ⟨hr, hkey⟩, rfl⟩
  have hmem : ∀ r, r ∈ (removeObsolete C middle).permissions ↔
      r ∈ middle.permissions ∧ r.key ∉ C.obsolete := by
    intro r
    rw [removeObsolete, hpermissions]
    exact and_congr_right fun hr => not_congr (hdropped r hr)
  refine ⟨?_, ?_, fun r hr => ((hmem r).mp hr).2, ?_, ?_, ?_⟩
  · intro p hp
    rcases hentries.seeded p hp with ⟨r, hr, hmatch⟩
    refine ⟨r, (hmem r).mpr ⟨hr, ?_⟩, hmatch⟩
    rw [hmatch.2.1]
    exact C.not_obsolete hp
  · intro r hr r' hr' hsame
    exact hunique' r ((hmem r).mp hr).1 r' ((hmem r').mp hr').1 hsame
  · intro roleId
    apply Set.ext
    intro k
    constructor
    · rintro ⟨g, hg, hrole, r, hr, hid, rfl⟩
      have hg' := (hentries.grants g).mp ((hleft g).mp hg).1
      rcases List.mem_map.mp (hgrants g hg'.1) with ⟨x, hx, hxid⟩
      refine ⟨g, hg'.1, hrole, x, hx, hxid, ?_⟩
      have hsurvives := hg'.2 x hx hxid
      rcases (hmem r).mp hr with ⟨hr, hcurrent⟩
      cases hmet : firstMet C.permissions x with
      | some p =>
          have hpid := hsurvives p hmet
          rw [C.keptKey_of_some hmet hpid]
          rcases hentries.origin r hr with ⟨q, hq, hmatch⟩ | ⟨hr, hnone⟩
          · have hqid : q.id = x.id := hmatch.1.symm.trans (hid.trans hxid.symm)
            rw [firstMet_matches C.permissionIds_nodup hmet hpid hq hqid, hmatch.2.1]
          · have hsame := t.permissions.eq_of_key_eq hr hx (hid.trans hxid.symm)
            rw [hsame, hmet] at hnone
            cases hnone
      | none =>
          have hsame := middle.permissions.eq_of_key_eq hr (hentries.kept x hx hmet)
            (hid.trans hxid.symm)
          rw [hsame] at hcurrent ⊢
          exact C.keptKey_of_none hmet hcurrent
    · rintro ⟨g, hg, hrole, x, hx, hxid, hkept⟩
      have hright : ∀ y ∈ t.permissions, y.id = g.right → y = x := fun y hy hid =>
        t.permissions.eq_of_key_eq hy hx (hid.trans hxid.symm)
      rcases C.keptKey_eq_some hkept with ⟨p, hmet, hpid, rfl⟩ | ⟨hmet, hcurrent, rfl⟩
      · rcases hentries.seeded p (firstMet_eq_some hmet).1 with ⟨r, hr, hmatch⟩
        have hcurrent : r.key ∉ C.obsolete := by
          rw [hmatch.2.1]
          exact C.not_obsolete (firstMet_eq_some hmet).1
        have hrid : r.id = g.right := hmatch.1.trans (hpid.trans hxid)
        refine ⟨g, (hleft g).mpr ⟨(hentries.grants g).mpr ⟨hg, ?_⟩, ?_⟩, hrole, r,
          (hmem r).mpr ⟨hr, hcurrent⟩, hrid, hmatch.2.1⟩
        · intro y hy hid q hq
          rw [hright y hy hid, hmet] at hq
          cases hq
          rw [hright y hy hid]
          exact hpid
        · rw [← hrid]
          exact fun hdrop => hcurrent ((hdropped r hr).mp hdrop)
      · have hthere := hentries.kept x hx hmet
        refine ⟨g, (hleft g).mpr ⟨(hentries.grants g).mpr ⟨hg, ?_⟩, ?_⟩, hrole, x,
          (hmem x).mpr ⟨hthere, hcurrent⟩, hxid, rfl⟩
        · intro y hy hid q hq
          rw [hright y hy hid, hmet] at hq
          cases hq
        · rw [← hxid]
          exact fun hdrop => hcurrent ((hdropped x hthere).mp hdrop)
  · intro g hg
    exact ((hentries.grants g).mp ((hleft g).mp hg).1).1
  · rw [removeObsolete, hframe, hentries.frame]

end Untangled.Seed
