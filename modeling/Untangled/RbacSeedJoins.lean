import Untangled.RbacSeedPhases

/-!
# Attachments after the RBAC seed

Grants and children are upserted by their pair, which never fails; attachments of
users are upserted by their id, and fail where the pair stands under another one.
-/

namespace Untangled.Seed

open ReadCommitted Mapping
open Untangled.Auth (Uuid systemUserId)

variable {run : SeedRun} {C : SeedCatalog} {t t' : SeedTables}

/-! ## Joins that are unique by their pair -/

def pairsOf (joins : Table JoinRow) : List (Uuid × Uuid) :=
  joins.rows.map JoinRow.pair

theorem mem_pairsOf {joins : Table JoinRow} {pair : Uuid × Uuid} :
    pair ∈ pairsOf joins ↔ ∃ r ∈ joins, r.pair = pair := by
  rw [pairsOf, List.mem_map]
  rfl

def UniquePairs (joins : Table JoinRow) : Prop :=
  ∀ r ∈ joins, ∀ r' ∈ joins, r.pair = r'.pair → r = r'

/-- The ids drawn for pairs that are missing are not taken. -/
def IdsFree (run : SeedRun) (joins : Table JoinRow) : Prop :=
  ∀ pair, pair ∉ pairsOf joins → ∀ r ∈ joins, r.id ≠ run.newId pair

/-- A row that has just been seeded. -/
def SeededJoin (joins : Table JoinRow) (pair : Uuid × Uuid) : Prop :=
  ∃ r ∈ joins, r.pair = pair ∧ r.stamps.updatedBy = systemUserId

structure JoinUpserted (pair : Uuid × Uuid) (joins joins' : Table JoinRow) : Prop where
  seeded : SeededJoin joins' pair
  others : ∀ r : JoinRow, r.pair ≠ pair → (r ∈ joins' ↔ r ∈ joins)
  unique : UniquePairs joins'

theorem upsertJoin_spec {joins : Table JoinRow} (hunique : UniquePairs joins)
    (hfree : IdsFree run joins) (hnew : Function.Injective run.newId)
    (pair : Uuid × Uuid) :
    ∃ joins', upsertJoin run pair joins = .ok joins' ∧ JoinUpserted pair joins joins' ∧
      IdsFree run joins' := by
  unfold upsertJoin
  cases hfind : joins.rows.find? fun r => r.pair = pair with
  | some row =>
      have hrow : row ∈ joins := List.mem_of_find?_eq_some hfind
      have hpair : row.pair = pair := by simpa using List.find?_some hfind
      have hmem : ∀ r : JoinRow, r.pair ≠ pair →
          (r ∈ joins.put { row with stamps := upsertStamps run (some row.stamps) } ↔
            r ∈ joins) := by
        intro r hother
        rw [Table.mem_put]
        constructor
        · rintro (rfl | ⟨hr, _⟩)
          · exact absurd hpair hother
          · exact hr
        · intro hr
          refine Or.inr ⟨hr, ?_⟩
          intro hsame
          exact hother (joins.eq_of_key_eq hr hrow hsame ▸ hpair)
      refine ⟨_, rfl, ⟨⟨_, Table.mem_put.mpr (Or.inl rfl), hpair, rfl⟩, hmem, ?_⟩, ?_⟩
      · intro r hr r' hr' hsame
        rcases Table.mem_put.mp hr with rfl | ⟨hr, hid⟩
        · rcases Table.mem_put.mp hr' with rfl | ⟨hr', hid'⟩
          · rfl
          · exact absurd (hunique r' hr' row hrow hsame.symm ▸ rfl) hid'
        · rcases Table.mem_put.mp hr' with rfl | ⟨hr', _⟩
          · exact absurd (hunique r hr row hrow hsame ▸ rfl) hid
          · exact hunique r hr r' hr' hsame
      · intro other hother r hr
        have hmissing : other ∉ pairsOf joins := by
          intro hthere
          rcases mem_pairsOf.mp hthere with ⟨old, hold, hsame⟩
          by_cases hcase : old.pair = pair
          · exact hother (mem_pairsOf.mpr ⟨_, Table.mem_put.mpr (Or.inl rfl),
              hpair.trans (hcase.symm.trans hsame)⟩)
          · exact hother (mem_pairsOf.mpr ⟨old, (hmem old hcase).mpr hold, hsame⟩)
        rcases Table.mem_put.mp hr with rfl | ⟨hr, _⟩
        · exact hfree other hmissing row hrow
        · exact hfree other hmissing r hr
  | none =>
      have habsent : pair ∉ pairsOf joins := by
        intro hthere
        rcases mem_pairsOf.mp hthere with ⟨r, hr, hsame⟩
        have hno := mem_find?_eq_none hfind hr
        simp [hsame] at hno
      have hfresh : ∀ r ∈ joins, r.id ≠ run.newId pair := hfree pair habsent
      have hnotin : run.newId pair ∉ joins.rows.map JoinRow.id := by
        intro hmem
        rcases List.mem_map.mp hmem with ⟨r, hr, hid⟩
        exact hfresh r hr hid
      have hmem : ∀ r : JoinRow, r ∈ joins.put
          ⟨run.newId pair, pair.1, pair.2, upsertStamps run none⟩ ↔
            r = ⟨run.newId pair, pair.1, pair.2, upsertStamps run none⟩ ∨ r ∈ joins := by
        intro r
        rw [Table.mem_put]
        exact or_congr Iff.rfl ⟨And.left, fun hr => ⟨hr, hfresh r hr⟩⟩
      refine ⟨_, if_neg hnotin, ⟨⟨_, (hmem _).mpr (Or.inl rfl), rfl, rfl⟩, ?_, ?_⟩, ?_⟩
      · intro r hother
        rw [hmem]
        refine or_iff_right ?_
        rintro rfl
        exact hother rfl
      · intro r hr r' hr' hsame
        rcases (hmem r).mp hr with rfl | hr
        · rcases (hmem r').mp hr' with rfl | hr'
          · rfl
          · exact absurd (mem_pairsOf.mpr ⟨r', hr', hsame.symm⟩) habsent
        · rcases (hmem r').mp hr' with rfl | hr'
          · exact absurd (mem_pairsOf.mpr ⟨r, hr, hsame⟩) habsent
          · exact hunique r hr r' hr' hsame
      · intro other hother r hr
        rcases (hmem r).mp hr with rfl | hr
        · intro hsame
          apply hother
          rw [← hnew hsame]
          exact mem_pairsOf.mpr ⟨_, (hmem _).mpr (Or.inl rfl), rfl⟩
        · apply hfree other _ r hr
          intro hthere
          rcases mem_pairsOf.mp hthere with ⟨old, hold, hsame⟩
          exact hother (mem_pairsOf.mpr ⟨old, (hmem old).mpr (Or.inr hold), hsame⟩)

structure JoinsUpserted (pairs : List (Uuid × Uuid)) (joins joins' : Table JoinRow) :
    Prop where
  seeded : ∀ pair ∈ pairs, SeededJoin joins' pair
  others : ∀ r : JoinRow, r.pair ∉ pairs → (r ∈ joins' ↔ r ∈ joins)
  unique : UniquePairs joins'

theorem SeededJoin.upsert {pair pair' : Uuid × Uuid} {joins joins' : Table JoinRow}
    (hseeded : SeededJoin joins pair) (h : JoinUpserted pair' joins joins') :
    SeededJoin joins' pair := by
  by_cases hsame : pair = pair'
  · rw [hsame]
    exact h.seeded
  · rcases hseeded with ⟨r, hr, hpair, hstamp⟩
    exact ⟨r, (h.others r (hpair ▸ hsame)).mpr hr, hpair, hstamp⟩

theorem upsertJoins_spec {joins : Table JoinRow} (hunique : UniquePairs joins)
    (hfree : IdsFree run joins) (hnew : Function.Injective run.newId)
    (pairs : List (Uuid × Uuid)) :
    ∃ joins', pairs.foldlM (fun j pair => upsertJoin run pair j) joins = .ok joins' ∧
      JoinsUpserted pairs joins joins' ∧
      ∀ pair, SeededJoin joins pair → SeededJoin joins' pair := by
  induction pairs generalizing joins with
  | nil =>
      exact ⟨joins, rfl, ⟨by simp, fun _ _ => Iff.rfl, hunique⟩, fun _ h => h⟩
  | cons pair pairs ih =>
      rcases upsertJoin_spec hunique hfree hnew pair with ⟨middle, hstep, hfirst, hfree'⟩
      rcases ih hfirst.unique hfree' with ⟨joins', hfold, hrest, hstays⟩
      refine ⟨joins', ?_, ⟨?_, ?_, hrest.unique⟩, ?_⟩
      · rw [List.foldlM_cons, hstep]
        exact hfold
      · intro p hp
        rcases List.mem_cons.mp hp with rfl | hp
        · exact hstays p hfirst.seeded
        · exact hrest.seeded p hp
      · intro r hr
        rw [List.mem_cons, not_or] at hr
        rw [hrest.others r hr.2, hfirst.others r hr.1]
      · intro p hp
        exact hstays p (hp.upsert hfirst)

/-- The rows of a join table for one side after a prune and the upserts. -/
structure JoinsSeeded (roleIds : List Uuid) (pairs : List (Uuid × Uuid))
    (joins joins' : Table JoinRow) : Prop where
  seeded : ∀ pair ∈ pairs, SeededJoin joins' pair
  only : ∀ r ∈ joins', r.left ∈ roleIds → r.pair ∈ pairs
  others : ∀ r : JoinRow, r.left ∉ roleIds → (r ∈ joins' ↔ r ∈ joins)
  unique : UniquePairs joins'

theorem mem_pruneJoins {roleIds : List Uuid} {pairs : List (Uuid × Uuid)}
    {joins : Table JoinRow} {r : JoinRow} :
    r ∈ pruneJoins roleIds pairs joins ↔ r ∈ joins ∧ (r.left ∉ roleIds ∨ r.pair ∈ pairs) := by
  rw [pruneJoins, Table.mem_filter, decide_eq_true_eq]

theorem seedJoins_spec {joins : Table JoinRow} {roleIds : List Uuid}
    {pairs : List (Uuid × Uuid)} (hpairs : ∀ pair ∈ pairs, pair.1 ∈ roleIds)
    (hunique : UniquePairs joins) (hnew : Function.Injective run.newId)
    (hfresh : ∀ r ∈ joins, ∀ pair, r.id ≠ run.newId pair) :
    ∃ joins', pairs.foldlM (fun j pair => upsertJoin run pair j)
        (pruneJoins roleIds pairs joins) = .ok joins' ∧
      JoinsSeeded roleIds pairs joins joins' := by
  have hpruned : UniquePairs (pruneJoins roleIds pairs joins) := fun r hr r' hr' =>
    hunique r (mem_pruneJoins.mp hr).1 r' (mem_pruneJoins.mp hr').1
  have hfree : IdsFree run (pruneJoins roleIds pairs joins) := fun pair _ r hr =>
    hfresh r (mem_pruneJoins.mp hr).1 pair
  rcases upsertJoins_spec hpruned hfree hnew pairs with ⟨joins', hfold, h, _⟩
  refine ⟨joins', hfold, h.seeded, ?_, ?_, h.unique⟩
  · intro r hr hleft
    by_contra hpair
    have hold := (mem_pruneJoins.mp ((h.others r hpair).mp hr)).2
    exact hold.elim (fun hnot => hnot hleft) hpair
  · intro r hleft
    have hpair : r.pair ∉ pairs := fun hmem => hleft (hpairs r.pair hmem)
    rw [h.others r hpair, mem_pruneJoins]
    exact ⟨And.left, fun hr => ⟨hr, Or.inl hleft⟩⟩

/-- Folds over the tables that only work on one join table. -/
theorem foldlM_joins {ι : Type} (put : Table JoinRow → SeedTables)
    {step : ι → SeedTables → Except Fault SeedTables} {pairOf : ι → Uuid × Uuid}
    {links : List ι}
    (hstep : ∀ link ∈ links, ∀ joins joins', upsertJoin run (pairOf link) joins = .ok joins' →
      step link (put joins) = .ok (put joins'))
    {joins joins' : Table JoinRow}
    (hfold : (links.map pairOf).foldlM (fun j pair => upsertJoin run pair j) joins =
      .ok joins') :
    links.foldlM (fun t link => step link t) (put joins) = .ok (put joins') := by
  induction links generalizing joins with
  | nil =>
      cases hfold
      rfl
  | cons link links ih =>
      rw [List.map_cons, List.foldlM_cons] at hfold
      rcases bind_eq_ok.mp hfold with ⟨middle, hfirst, hrest⟩
      rw [List.foldlM_cons, hstep link (.head _) joins middle hfirst]
      exact ih (fun l hl => hstep l (.tail _ hl)) hrest

/-! ## Attachments of users -/

def SeedUserRole.pair (l : SeedUserRole) : Uuid × Uuid :=
  (l.userId, l.roleId)

def SeedUserRole.Matches (l : SeedUserRole) (r : JoinRow) : Prop :=
  r.id = l.id ∧ r.pair = l.pair ∧ r.stamps.updatedBy = systemUserId

/-- Where the pair of an attachment is there already, its row has the seeded id or
one that was seeded before. -/
def Unobstructed (links : List SeedUserRole) (joins : Table JoinRow) : Prop :=
  ∀ before l after, links = before ++ l :: after →
    ∀ r ∈ joins, r.pair = l.pair → r.id ∈ (before ++ [l]).map SeedUserRole.id

/-- The attachments after the seed. -/
structure LinksSeeded (links : List SeedUserRole) (joins joins' : Table JoinRow) :
    Prop where
  seeded : ∀ l ∈ links, ∃ r ∈ joins', l.Matches r
  origin : ∀ r ∈ joins', (∃ l ∈ links, l.Matches r) ∨
    (r ∈ joins ∧ r.id ∉ links.map SeedUserRole.id)
  kept : ∀ r ∈ joins, r.id ∉ links.map SeedUserRole.id → r ∈ joins'

theorem seededUserRole_matches (l : SeedUserRole) : l.Matches (seededUserRole run l t) :=
  ⟨rfl, rfl, upsertStamps_updatedBy _⟩

theorem upsertUserRole_ok_iff (hsystem : systemUserId ∈ t.users) {l : SeedUserRole}
    (huser : l.userId ∈ t.users) (hrole : l.roleId ∈ t.roles.rows.map RoleRow.id) :
    upsertUserRole run l t = .ok t' ↔
      (∀ r ∈ t.userRoles, r.pair = l.pair → r.id = l.id) ∧
        t' = { t with userRoles := t.userRoles.put (seededUserRole run l t) } := by
  unfold upsertUserRole
  split
  · rename_i hconflict
    rcases hconflict with ⟨r, hr, hpair, hid⟩
    constructor
    · intro h
      cases h
    · intro h
      exact absurd (h.1 r hr hpair) hid
  · rename_i hfree
    rw [if_pos ⟨huser, hrole⟩, stamped_ok hsystem, Except.ok.injEq, eq_comm (b := t')]
    refine ⟨fun h => ⟨?_, h⟩, And.right⟩
    intro r hr hpair
    by_contra hid
    exact hfree ⟨r, hr, hpair, hid⟩

theorem unobstructed_cons (run : SeedRun) {l : SeedUserRole} {links : List SeedUserRole}
    (hpairs : ((l :: links).map SeedUserRole.pair).Nodup) :
    Unobstructed (l :: links) t.userRoles ↔
      (∀ r ∈ t.userRoles, r.pair = l.pair → r.id = l.id) ∧
        Unobstructed links (t.userRoles.put (seededUserRole run l t)) := by
  rw [List.map_cons, List.nodup_cons] at hpairs
  constructor
  · intro h
    refine ⟨?_, ?_⟩
    · intro r hr hpair
      simpa using h [] l links rfl r hr hpair
    · intro before l' after hsplit r hr hpair
      rcases Table.mem_put.mp hr with rfl | ⟨hr, hid⟩
      · have hmem : l' ∈ links := by simp [hsplit]
        exact absurd (List.mem_map.mpr ⟨l', hmem, hpair.symm⟩) hpairs.1
      · have hids := h (l :: before) l' after (by rw [hsplit]; rfl) r hr hpair
        exact (List.mem_cons.mp hids).resolve_left hid
  · rintro ⟨hfirst, hrest⟩ before l' after hsplit r hr hpair
    cases before with
    | nil =>
        cases hsplit
        simpa using hfirst r hr hpair
    | cons b before =>
        cases hsplit
        by_cases hid : r.id = l.id
        · exact List.mem_cons.mpr (Or.inl hid)
        · have hids := hrest before l' after rfl r
            (Table.mem_put.mpr (Or.inr ⟨hr, hid⟩)) hpair
          exact List.mem_cons.mpr (Or.inr hids)

theorem upsertUserRoles_ok_iff {links : List SeedUserRole}
    (hpairs : (links.map SeedUserRole.pair).Nodup) (hsystem : systemUserId ∈ t.users)
    (husers : ∀ l ∈ links, l.userId ∈ t.users)
    (hroles : ∀ l ∈ links, l.roleId ∈ t.roles.rows.map RoleRow.id) :
    (∃ t', links.foldlM (fun t l => upsertUserRole run l t) t = .ok t') ↔
      Unobstructed links t.userRoles := by
  induction links generalizing t with
  | nil =>
      refine ⟨fun _ before l after hsplit => ?_, fun _ => ⟨t, rfl⟩⟩
      simp at hsplit
  | cons l links ih =>
      rw [unobstructed_cons run hpairs,
        ← ih (t := { t with userRoles := t.userRoles.put (seededUserRole run l t) })
          (List.nodup_cons.mp hpairs).2 hsystem (fun l' h => husers l' (.tail _ h))
          (fun l' h => hroles l' (.tail _ h))]
      have hstep : ∀ middle, upsertUserRole run l t = .ok middle ↔ _ := fun middle =>
        upsertUserRole_ok_iff hsystem (husers l (.head _)) (hroles l (.head _))
      constructor
      · rintro ⟨t', hfold⟩
        rw [List.foldlM_cons] at hfold
        rcases bind_eq_ok.mp hfold with ⟨middle, hfirst, hrest⟩
        rcases (hstep middle).mp hfirst with ⟨hfree, rfl⟩
        exact ⟨hfree, t', hrest⟩
      · rintro ⟨hfree, t', hrest⟩
        refine ⟨t', ?_⟩
        rw [List.foldlM_cons, (hstep _).mpr ⟨hfree, rfl⟩]
        exact hrest

theorem upsertUserRoles_spec {links : List SeedUserRole}
    (hids : (links.map SeedUserRole.id).Nodup) (hsystem : systemUserId ∈ t.users)
    (husers : ∀ l ∈ links, l.userId ∈ t.users)
    (hroles : ∀ l ∈ links, l.roleId ∈ t.roles.rows.map RoleRow.id)
    (hunique : UniquePairs t.userRoles)
    (hfold : links.foldlM (fun t l => upsertUserRole run l t) t = .ok t') :
    LinksSeeded links t.userRoles t'.userRoles ∧ UniquePairs t'.userRoles ∧
      t' = { t with userRoles := t'.userRoles } := by
  induction links generalizing t with
  | nil =>
      cases hfold
      exact ⟨⟨by simp, fun r hr => Or.inr ⟨hr, by simp⟩, fun r hr _ => hr⟩, hunique, rfl⟩
  | cons l links ih =>
      rw [List.foldlM_cons] at hfold
      rcases bind_eq_ok.mp hfold with ⟨middle, hfirst, hrest⟩
      rcases (upsertUserRole_ok_iff hsystem (husers l (.head _))
        (hroles l (.head _))).mp hfirst with ⟨hfree, rfl⟩
      rw [List.map_cons, List.nodup_cons] at hids
      have hunique' : UniquePairs (t.userRoles.put (seededUserRole run l t)) := by
        intro r hr r' hr' hsame
        rcases Table.mem_put.mp hr with rfl | ⟨hr, hid⟩
        · rcases Table.mem_put.mp hr' with rfl | ⟨hr', hid'⟩
          · rfl
          · exact absurd (hfree r' hr' hsame.symm) hid'
        · rcases Table.mem_put.mp hr' with rfl | ⟨hr', _⟩
          · exact absurd (hfree r hr hsame) hid
          · exact hunique r hr r' hr' hsame
      rcases ih (t := { t with userRoles := t.userRoles.put (seededUserRole run l t) })
        hids.2 hsystem (fun l' h => husers l' (.tail _ h)) (fun l' h => hroles l' (.tail _ h))
        hunique' hrest with ⟨hlinks, huniqueEnd, hframe⟩
      refine ⟨⟨?_, ?_, ?_⟩, huniqueEnd, ?_⟩
      · intro l' hl'
        rcases List.mem_cons.mp hl' with rfl | hl'
        · exact ⟨_, hlinks.kept _ (Table.mem_put.mpr (Or.inl rfl)) hids.1,
            seededUserRole_matches l'⟩
        · exact hlinks.seeded l' hl'
      · intro r hr
        rcases hlinks.origin r hr with ⟨l', hl', hmatch⟩ | ⟨hr, hid⟩
        · exact Or.inl ⟨l', .tail _ hl', hmatch⟩
        · rcases Table.mem_put.mp hr with rfl | ⟨hr, hne⟩
          · exact Or.inl ⟨l, .head _, seededUserRole_matches l⟩
          · refine Or.inr ⟨hr, ?_⟩
            rw [List.map_cons, List.mem_cons, not_or]
            exact ⟨hne, hid⟩
      · intro r hr hid
        rw [List.map_cons, List.mem_cons, not_or] at hid
        exact hlinks.kept r (Table.mem_put.mpr (Or.inr ⟨hr, hid.1⟩)) hid.2
      · rw [hframe]

/-! ## Grants -/

structure LinksResolved (C : SeedCatalog) (links : List (Uuid × SeedPermission)) : Prop where
  listed : ∀ l ∈ links, l.2 ∈ C.permissions ∧ l.1 ∈ C.roleIds ∧
    ⟨l.1, l.2.key⟩ ∈ C.rolePermissions
  complete : ∀ l ∈ C.rolePermissions, ∃ p ∈ C.permissions, p.key = l.permissionKey ∧
    (l.roleId, p) ∈ links

theorem resolveLink_ok {link : SeedRolePermission} (hlink : link ∈ C.rolePermissions) :
    ∃ p ∈ C.permissions, p.key = link.permissionKey ∧
      resolveLink C link = .ok (link.roleId, p) := by
  rcases List.mem_map.mp (C.rolePermissions_keys link hlink) with ⟨p, hp, hkey⟩
  cases hfind : C.permissionsByKey link.permissionKey with
  | none =>
      have hno := mem_find?_eq_none hfind hp
      simp [hkey] at hno
  | some q =>
      refine ⟨q, List.mem_of_find?_eq_some hfind, ?_, ?_⟩
      · simpa using List.find?_some hfind
      · rw [resolveLink, hfind]

theorem resolveLinks_spec (C : SeedCatalog) :
    ∃ links, C.rolePermissions.mapM (resolveLink C) = .ok links ∧ LinksResolved C links := by
  have hall : ∀ wanted : List SeedRolePermission, (∀ l ∈ wanted, l ∈ C.rolePermissions) →
      ∃ links, wanted.mapM (resolveLink C) = .ok links ∧
        (∀ l ∈ links, l.2 ∈ C.permissions ∧ l.1 ∈ C.roleIds ∧
          ⟨l.1, l.2.key⟩ ∈ C.rolePermissions) ∧
        ∀ l ∈ wanted, ∃ p ∈ C.permissions, p.key = l.permissionKey ∧
          (l.roleId, p) ∈ links := by
    intro wanted hwanted
    induction wanted with
    | nil => exact ⟨[], rfl, by simp, by simp⟩
    | cons l wanted ih =>
        have hl : l ∈ C.rolePermissions := hwanted l (.head _)
        rcases ih fun l' h => hwanted l' (.tail _ h) with ⟨links, hmap, hlisted, hcomplete⟩
        rcases resolveLink_ok hl with ⟨p, hp, hkey, hok⟩
        refine ⟨(l.roleId, p) :: links, ?_, ?_, ?_⟩
        · rw [List.mapM_cons, hok, hmap]
          rfl
        · intro l' hl'
          rcases List.mem_cons.mp hl' with rfl | hl'
          · refine ⟨hp, C.rolePermissions_roles l hl, ?_⟩
            rw [hkey]
            exact hl
          · exact hlisted l' hl'
        · intro l' hl'
          rcases List.mem_cons.mp hl' with rfl | hl'
          · exact ⟨p, hp, hkey, .head _⟩
          · rcases hcomplete l' hl' with ⟨q, hq, hqkey, hqmem⟩
            exact ⟨q, hq, hqkey, .tail _ hqmem⟩
  rcases hall C.rolePermissions fun _ h => h with ⟨links, hmap, hlisted, hcomplete⟩
  exact ⟨links, hmap, hlisted, hcomplete⟩

def linkPairs (links : List (Uuid × SeedPermission)) : List (Uuid × Uuid) :=
  links.map fun l => (l.1, l.2.id)

def SeedCatalog.childPairs (C : SeedCatalog) : List (Uuid × Uuid) :=
  C.roleChildren.map fun l => (l.parentRoleId, l.childRoleId)

theorem upsertRolePermissions_spec {links : List (Uuid × SeedPermission)}
    (hmap : C.rolePermissions.mapM (resolveLink C) = .ok links)
    (hlinks : LinksResolved C links) (hsystem : systemUserId ∈ t.users)
    (hroles : ∀ id ∈ C.roleIds, id ∈ t.roles.rows.map RoleRow.id)
    (hpermissions : ∀ p ∈ C.permissions, p.id ∈ t.permissions.rows.map PermissionRow.id)
    {joins : Table JoinRow}
    (hfold : (linkPairs links).foldlM (fun j pair => upsertJoin run pair j)
      (pruneJoins C.roleIds (linkPairs links) t.rolePermissions) = .ok joins) :
    upsertRolePermissions run C t = .ok { t with rolePermissions := joins } := by
  unfold upsertRolePermissions
  rw [hmap]
  apply foldlM_joins (fun j => { t with rolePermissions := j }) _ hfold
  intro link hlink j j' hj
  rcases hlinks.listed link hlink with ⟨hp, hrole, _⟩
  unfold upsertRolePermission
  rw [if_pos ⟨hroles _ hrole, hpermissions _ hp⟩, hj]
  exact stamped_ok hsystem

theorem upsertRoleChildren_spec (hsystem : systemUserId ∈ t.users)
    (hroles : ∀ id ∈ C.roleIds, id ∈ t.roles.rows.map RoleRow.id)
    {joins : Table JoinRow}
    (hfold : C.childPairs.foldlM (fun j pair => upsertJoin run pair j)
      (pruneJoins C.roleIds C.childPairs t.roleChildren) = .ok joins) :
    upsertRoleChildren run C t = .ok { t with roleChildren := joins } := by
  unfold upsertRoleChildren
  apply foldlM_joins (fun j => { t with roleChildren := j }) _ hfold
  intro link hlink j j' hj
  unfold upsertRoleChild
  rw [if_pos ⟨hroles _ (C.roleChildren_parents link hlink),
    hroles _ (C.roleChildren_children link hlink)⟩, hj]
  exact stamped_ok hsystem

end Untangled.Seed
