import Mathlib.Data.List.Sort
import Mathlib.Tactic

/-!
# Joins, order and pages

The rows that `FROM` puts in scope, `LEFT JOIN`, `ORDER BY` with nulls, and pages
of an ordered result.  A plan hands the rows to the sort in an order of its own; an
order without ties makes the result independent of it.
-/

namespace SqlSelect

variable {ν α β : Type}

/-! ## Rows in scope -/

/-- The columns of a row; none is null. -/
abbrev Columns (ν : Type) := String → Option ν

/-- Rows by the alias of their table. -/
abbrev Scope (ν : Type) := List (String × Columns ν)

/-- A bare name needs a single table in scope. -/
def Scope.column (scope : Scope ν) : Option String → String → Option ν
  | some qualifier, name => (scope.lookup qualifier).bind fun row => row name
  | none, name =>
      match scope with
      | [(_, row)] => row name
      | _ => none

def nullRow : Columns ν := fun _ => none

/-- A scope without a partner keeps a row of nulls. -/
def leftJoin (joinAlias : String) (rows : List (Columns ν)) (on : Scope ν → Columns ν → Bool)
    (scopes : List (Scope ν)) : List (Scope ν) :=
  scopes.flatMap fun scope =>
    match rows.filter (on scope) with
    | [] => [scope ++ [(joinAlias, nullRow)]]
    | found => found.map fun row => scope ++ [(joinAlias, row)]

/-- The partner of a scope that has at most one. -/
def partner (rows : List (Columns ν)) (on : Scope ν → Columns ν → Bool) (scope : Scope ν) :
    Columns ν :=
  (rows.find? (on scope)).getD nullRow

/-- A join on a key adds a partner to each scope and nothing else. -/
theorem leftJoin_map {joinAlias : String} {rows : List (Columns ν)}
    {on : Scope ν → Columns ν → Bool} {f : α → Scope ν} {xs : List α}
    (hkey : ∀ a ∈ xs, (rows.filter (on (f a))).length ≤ 1) :
    leftJoin joinAlias rows on (xs.map f) =
      xs.map fun a => f a ++ [(joinAlias, partner rows on (f a))] := by
  have hone : ∀ a ∈ xs, (match rows.filter (on (f a)) with
      | [] => [f a ++ [(joinAlias, nullRow)]]
      | found => found.map fun row => f a ++ [(joinAlias, row)]) =
      [f a ++ [(joinAlias, partner rows on (f a))]] := by
    intro a ha
    have hlength := hkey a ha
    have hfind : rows.find? (on (f a)) = (rows.filter (on (f a))).head? :=
      List.head?_filter.symm
    rw [partner, hfind]
    cases hfound : rows.filter (on (f a)) with
    | nil => rfl
    | cons row found =>
        rw [hfound] at hlength
        cases found with
        | nil => rfl
        | cons row' found => simp at hlength
  induction xs with
  | nil => rfl
  | cons a xs ih =>
      have htail := ih (fun b hb => hkey b (List.mem_cons_of_mem a hb))
        (fun b hb => hone b (List.mem_cons_of_mem a hb))
      rw [leftJoin] at htail ⊢
      rw [List.map_cons, List.flatMap_cons, htail, hone a (List.mem_cons_self ..)]
      rfl

/-! ## Order -/

inductive Direction
  | asc
  | desc
  deriving DecidableEq

/-- Null comes after every value. -/
def compareNulls (cmp : ν → ν → Ordering) : Option ν → Option ν → Ordering
  | none, none => .eq
  | none, some _ => .gt
  | some _, none => .lt
  | some a, some b => cmp a b

instance compareNulls_trans (cmp : ν → ν → Ordering) [Std.TransCmp cmp] :
    Std.TransCmp (compareNulls cmp) where
  eq_swap {a b} := by
    cases a <;> cases b
    · rfl
    · rfl
    · rfl
    · exact @Std.OrientedCmp.eq_swap _ cmp _ _ _
  isLE_trans {a b c} hab hbc := by
    cases a with
    | none => cases b <;> cases c <;> first | exact hab | exact hbc
    | some a =>
        cases b with
        | none => cases c <;> first | rfl | cases hbc
        | some b =>
            cases c with
            | none => rfl
            | some c => exact @Std.TransCmp.isLE_trans _ cmp _ _ _ _ hab hbc

/-- The order of rows by one key. -/
def keyOrder (cmp : ν → ν → Ordering) (key : α → Option ν) : Direction → α → α → Ordering
  | .asc => fun a b => compareNulls cmp (key a) (key b)
  | .desc => fun a b => compareNulls cmp (key b) (key a)

instance keyOrder_trans (cmp : ν → ν → Ordering) [Std.TransCmp cmp] (key : α → Option ν)
    (direction : Direction) : Std.TransCmp (keyOrder cmp key direction) := by
  cases direction with
  | asc =>
      exact {
        eq_swap {_ _} := @Std.OrientedCmp.eq_swap _ (compareNulls cmp) _ _ _
        isLE_trans {_ _ _} := @Std.TransCmp.isLE_trans _ (compareNulls cmp) _ _ _ _ }
  | desc =>
      exact {
        eq_swap {_ _} := @Std.OrientedCmp.eq_swap _ (compareNulls cmp) _ _ _
        isLE_trans := fun hab hbc =>
          @Std.TransCmp.isLE_trans _ (compareNulls cmp) _ _ _ _ hbc hab }

/-- The order of rows by several keys, the first one before the others. -/
def orderBy (cmp : ν → ν → Ordering) :
    List ((α → Option ν) × Direction) → α → α → Ordering
  | [] => fun _ _ => .eq
  | (key, direction) :: keys => compareLex (keyOrder cmp key direction) (orderBy cmp keys)

instance orderBy_trans (cmp : ν → ν → Ordering) [Std.TransCmp cmp]
    (keys : List ((α → Option ν) × Direction)) : Std.TransCmp (orderBy cmp keys) := by
  induction keys with
  | nil => exact { eq_swap := rfl, isLE_trans := fun _ _ => rfl }
  | cons key keys ih =>
      rw [orderBy]
      infer_instance

/-- Rows that tie agree on every key. -/
theorem compare_eq_of_orderBy {cmp : ν → ν → Ordering}
    {keys : List ((α → Option ν) × Direction)} {a b : α} (h : orderBy cmp keys a b = .eq)
    {key : α → Option ν} {direction : Direction} (hkey : (key, direction) ∈ keys) :
    keyOrder cmp key direction a b = .eq := by
  induction keys with
  | nil => cases hkey
  | cons first keys ih =>
      rw [orderBy, compareLex, Ordering.then_eq_eq] at h
      rcases List.mem_cons.mp hkey with rfl | hkey
      · exact h.1
      · exact ih h.2 hkey

/-- What the database does with the rows before it sorts them. -/
structure Plan (α : Type) where
  arrange : List α → List α
  arrange_perm : ∀ xs, (arrange xs).Perm xs

def Plan.sort (plan : Plan α) (cmp : α → α → Ordering) (xs : List α) : List α :=
  (plan.arrange xs).mergeSort fun a b => (cmp a b).isLE

theorem Plan.sort_perm (plan : Plan α) (cmp : α → α → Ordering) (xs : List α) :
    (plan.sort cmp xs).Perm xs :=
  (List.mergeSort_perm _ _).trans (plan.arrange_perm xs)

section Sorted

variable {cmp : α → α → Ordering} [Std.TransCmp cmp]

theorem Plan.sort_pairwise (plan : Plan α) (xs : List α) :
    (plan.sort cmp xs).Pairwise fun a b => (cmp a b).isLE := by
  refine List.pairwise_mergeSort (fun a b c hab hbc => ?_) (fun a b => ?_) _
  · exact Std.TransCmp.isLE_trans hab hbc
  · rw [@Std.OrientedCmp.eq_swap _ cmp _ b]
    cases cmp a b <;> rfl

/-- Without ties the order is that of the rows, not of the plan. -/
theorem Plan.sort_eq_of_perm (plan plan' : Plan α) {xs ys : List α} (hperm : xs.Perm ys)
    (hties : ∀ a ∈ xs, ∀ b ∈ xs, cmp a b = .eq → a = b) :
    plan.sort cmp xs = plan'.sort cmp ys := by
  have hleft := plan.sort_perm cmp xs
  have hright := (plan'.sort_perm cmp ys).trans hperm.symm
  refine List.Perm.eq_of_pairwise ?_ (plan.sort_pairwise _) (plan'.sort_pairwise _)
    (hleft.trans hright.symm)
  intro a b ha hb hab hba
  refine hties a (hleft.mem_iff.mp ha) b (hright.mem_iff.mp hb) ?_
  rw [@Std.OrientedCmp.eq_swap _ cmp] at hba
  cases hcompare : cmp a b <;> simp_all

/-- Rows that are images of others come in the order of those, if there are no
ties. -/
theorem Plan.sort_map {cmp' : β → β → Ordering} [Std.TransCmp cmp'] (plan : Plan α)
    (plan' : Plan β) {f : β → α} {xs : List β}
    (hcmp : ∀ a ∈ xs, ∀ b ∈ xs, cmp (f a) (f b) = cmp' a b)
    (hties : ∀ a ∈ xs, ∀ b ∈ xs, cmp' a b = .eq → a = b) :
    plan.sort cmp (xs.map f) = (plan'.sort cmp' xs).map f := by
  have hleft := plan.sort_perm cmp (xs.map f)
  have hright := (plan'.sort_perm cmp' xs).map f
  refine List.Perm.eq_of_pairwise ?_ (plan.sort_pairwise _) ?_ (hleft.trans hright.symm)
  · intro a b ha hb hab hba
    rcases List.mem_map.mp (hleft.mem_iff.mp ha) with ⟨x, hx, rfl⟩
    rcases List.mem_map.mp (hright.mem_iff.mp hb) with ⟨y, hy, rfl⟩
    rw [hcmp x hx y hy] at hab
    rw [hcmp y hy x hx, @Std.OrientedCmp.eq_swap _ cmp'] at hba
    have htie : cmp' x y = .eq := by
      cases hxy : cmp' x y <;> simp_all
    rw [hties x hx y hy htie]
  · rw [List.pairwise_map]
    have hsorted : (plan'.sort cmp' xs).Pairwise fun a b => (cmp' a b).isLE :=
      plan'.sort_pairwise xs
    refine hsorted.imp_of_mem fun {a b} ha hb hab => ?_
    have hperm := plan'.sort_perm cmp' xs
    rw [hcmp a (hperm.mem_iff.mp ha) b (hperm.mem_iff.mp hb)]
    exact hab

end Sorted

/-! ## Pages -/

def page (offset limit : ℕ) (xs : List α) : List α := (xs.drop offset).take limit

theorem page_map (offset limit : ℕ) (f : α → β) (xs : List α) :
    page offset limit (xs.map f) = (page offset limit xs).map f := by
  rw [page, page, List.map_take, List.map_drop]

/-- Pages one after the other are the beginning of the list. -/
theorem flatten_pages (limit n : ℕ) (xs : List α) :
    ((List.range n).map fun k => page (k * limit) limit xs).flatten = xs.take (n * limit) := by
  induction n with
  | zero => simp
  | succ n ih =>
      rw [List.range_succ, List.map_append, List.flatten_append, ih, List.map_singleton,
        List.flatten_singleton, page, Nat.succ_mul, List.take_add]

end SqlSelect
