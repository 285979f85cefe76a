import Untangled.RoleGraph

/-!
# The guard on new role edges

Before a `role_child` edge is inserted, the descendants of the child are walked
and the edge is refused when the parent is among them.  The walk stops at the
depth to which permissions are resolved, while the graph may be deeper than
that: a parent that lies further below the child is not found.
-/

namespace Untangled.Rbac

open RecursiveQuery

variable {ρ : Type*}

section Guard

variable [DecidableEq ρ]

/-- The rows of the query that walks the descendants of a role. -/
def descendants (roleChild : List (ρ × ρ)) (childRoleId : ρ) : List (Row ρ) :=
  walkRows roleChild maxRoleGraphDepth [childRoleId]

def wouldCreateRoleCycle
    (roleChild : List (ρ × ρ)) (parentRoleId childRoleId : ρ) : Bool :=
  if parentRoleId = childRoleId then
    true
  else
    (descendants roleChild childRoleId).any fun d => d.node = parentRoleId

def assertRoleChildEdgeAllowed
    [ToString ρ] (roleChild : List (ρ × ρ)) (parentRoleId childRoleId : ρ) :
    Except RoleGraphError Unit :=
  if wouldCreateRoleCycle roleChild parentRoleId childRoleId then
    .error
      ⟨s!"refusing role_child edge that would create a cycle (parent={parentRoleId}, child={childRoleId})"⟩
  else
    .ok ()

/-- A sequence of insertions from the empty table, each passed by the guard, in
which every insertion meets `met`. -/
inductive GuardedInserts [ToString ρ] (met : List (ρ × ρ) → ρ → ρ → Prop) :
    List (ρ × ρ) → Prop
  | empty : GuardedInserts met []
  | insert {roleChild parentRoleId childRoleId} :
      GuardedInserts met roleChild →
      met roleChild parentRoleId childRoleId →
      assertRoleChildEdgeAllowed roleChild parentRoleId childRoleId = .ok () →
      GuardedInserts met ((parentRoleId, childRoleId) :: roleChild)

end Guard

/-! ## Cycles -/

def EdgeIn (roleChild : List (ρ × ρ)) (parent child : ρ) : Prop := (parent, child) ∈ roleChild

def Acyclic (roleChild : List (ρ × ρ)) : Prop :=
  ∀ roleId, ¬ Relation.TransGen (EdgeIn roleChild) roleId roleId

/-- The parent is not below the child at all, or the walk gets as far as it. -/
def Within (roleChild : List (ρ × ρ)) (parent child : ρ) : Prop :=
  Relation.ReflTransGen (EdgeIn roleChild) child parent →
    ∃ front, IsWalk (EdgeIn roleChild) (· = child) (front ++ [parent]) ∧
      front.length < maxRoleGraphDepth

theorem acyclic_of_lt
    {roleChild : List (ℕ × ℕ)}
    (h : ∀ e ∈ roleChild, e.1 < e.2) :
    Acyclic roleChild := by
  have hlt : ∀ {a b}, Relation.TransGen (EdgeIn roleChild) a b → a < b := by
    intro a b hpath
    induction hpath with
    | single hedge => exact h _ hedge
    | tail _ hedge ih => exact lt_trans ih (h _ hedge)
  intro roleId hcycle
  exact lt_irrefl roleId (hlt hcycle)

theorem Acyclic.walk_nodup
    {roleChild : List (ρ × ρ)} {starts : ρ → Prop} {walk : List ρ}
    (hacyclic : Acyclic roleChild)
    (hwalk : IsWalk (EdgeIn roleChild) starts walk) :
    walk.Nodup := by
  by_contra hrepeats
  rcases exists_firstRepetition hrepeats with ⟨front, roleId, hfront, _, hmem⟩
  exact hacyclic roleId ((hwalk.front hfront (by simp)).cycle_of_repetition hmem)

/-- A path over one more edge is a path without it, or goes to the parent, over
the edge and on from the child. -/
theorem reaches_cons
    {roleChild : List (ρ × ρ)} {parent child a b : ρ}
    (h : Relation.ReflTransGen (EdgeIn ((parent, child) :: roleChild)) a b) :
    Relation.ReflTransGen (EdgeIn roleChild) a b ∨
      (Relation.ReflTransGen (EdgeIn roleChild) a parent ∧
        Relation.ReflTransGen (EdgeIn roleChild) child b) := by
  induction h with
  | refl => exact Or.inl .refl
  | tail _ hedge ih =>
      rcases List.mem_cons.1 hedge with hnew | hold
      · cases hnew
        rcases ih with hto | ⟨hto, _⟩
        · exact Or.inr ⟨hto, .refl⟩
        · exact Or.inr ⟨hto, .refl⟩
      · rcases ih with hto | ⟨hto, hfrom⟩
        · exact Or.inl (hto.tail hold)
        · exact Or.inr ⟨hto, hfrom.tail hold⟩

/-- A new edge closes a cycle exactly when its parent lies below its child. -/
theorem Acyclic.cons_iff
    {roleChild : List (ρ × ρ)} {parent child : ρ}
    (hacyclic : Acyclic roleChild) :
    Acyclic ((parent, child) :: roleChild) ↔
      ¬ Relation.ReflTransGen (EdgeIn roleChild) child parent := by
  have hgrow : ∀ a b, EdgeIn roleChild a b → EdgeIn ((parent, child) :: roleChild) a b :=
    fun a b hedge => List.mem_cons_of_mem _ hedge
  constructor
  · intro hcons hbelow
    have hback := Relation.ReflTransGen.mono hgrow child parent hbelow
    exact hcons parent (.head' (List.mem_cons_self) hback)
  · intro hnot roleId hcycle
    rcases Relation.TransGen.head'_iff.1 hcycle with ⟨next, hedge, hback⟩
    rcases List.mem_cons.1 hedge with hnew | hold
    · cases hnew
      rcases reaches_cons hback with hto | ⟨hto, _⟩
      · exact hnot hto
      · exact hnot hto
    · rcases reaches_cons hback with hto | ⟨hto, hfrom⟩
      · exact hacyclic roleId (.head' hold hto)
      · exact hnot (hfrom.trans (.head hold hto))

section Guard

variable [DecidableEq ρ] {roleChild : List (ρ × ρ)} {parent child : ρ}

theorem wouldCreateRoleCycle_iff
    (hacyclic : Acyclic roleChild) :
    wouldCreateRoleCycle roleChild parent child = true ↔
      ∃ front, IsWalk (EdgeIn roleChild) (· = child) (front ++ [parent]) ∧
        front.length < maxRoleGraphDepth := by
  have hstarts : (· ∈ [child]) = (· = child) := funext fun _ => propext List.mem_singleton
  by_cases hsame : parent = child
  · subst hsame
    simp only [wouldCreateRoleCycle, if_true, true_iff]
    exact ⟨[], isWalk_singleton.2 rfl, by simp [maxRoleGraphDepth]⟩
  · simp only [wouldCreateRoleCycle, if_neg hsame, descendants, List.any_eq_true,
      decide_eq_true_eq, mem_walkRows, hstarts]
    constructor
    · rintro ⟨_, ⟨front, _, rfl, hlength, _, hwalk⟩, rfl⟩
      refine ⟨front, hwalk, ?_⟩
      rcases hlength with hnil | hlength
      · simp [hnil, maxRoleGraphDepth]
      · exact hlength
    · rintro ⟨front, hwalk, hlength⟩
      have hnodup := nodup_snoc.1 (hacyclic.walk_nodup hwalk)
      exact ⟨_, ⟨front, parent, rfl, Or.inr hlength, hnodup.1, hwalk⟩, rfl⟩

/-- In an acyclic graph the guard tells whether the edge closes a cycle exactly
when the parent is not too far below the child. -/
theorem wouldCreateRoleCycle_exact_iff
    (hacyclic : Acyclic roleChild) :
    (wouldCreateRoleCycle roleChild parent child = true ↔
        ¬ Acyclic ((parent, child) :: roleChild)) ↔
      Within roleChild parent child := by
  rw [wouldCreateRoleCycle_iff hacyclic, hacyclic.cons_iff, not_not]
  constructor
  · intro hexact hbelow
    exact hexact.2 hbelow
  · intro hwithin
    constructor
    · rintro ⟨front, hwalk, _⟩
      exact hwalk.reaches (by simp)
    · exact hwithin

theorem assertRoleChildEdgeAllowed_ok
    [ToString ρ] :
    assertRoleChildEdgeAllowed roleChild parent child = .ok () ↔
      wouldCreateRoleCycle roleChild parent child = false := by
  rw [assertRoleChildEdgeAllowed]
  split <;> simp_all

theorem GuardedInserts.acyclic
    [ToString ρ]
    (h : GuardedInserts Within roleChild) :
    Acyclic roleChild := by
  induction h with
  | empty =>
      intro roleId hcycle
      rcases Relation.TransGen.head'_iff.1 hcycle with ⟨_, hedge, _⟩
      exact List.not_mem_nil hedge
  | insert _ hwithin hallowed hacyclic =>
      rw [assertRoleChildEdgeAllowed_ok] at hallowed
      by_contra hcyclic
      have hfound := ((wouldCreateRoleCycle_exact_iff hacyclic).2 hwithin).2 hcyclic
      rw [hallowed] at hfound
      cases hfound

end Guard

/-- The guard answers rightly on an acyclic graph exactly when the parent, if it
lies below the child, lies at most fifteen edges below it; insertions that keep
to this never close a cycle. -/
theorem roleEdgeGuard_exact
    [DecidableEq ρ] [ToString ρ] :
    (∀ (roleChild : List (ρ × ρ)) (parent child : ρ), Acyclic roleChild →
      ((wouldCreateRoleCycle roleChild parent child = true ↔
          ¬ Acyclic ((parent, child) :: roleChild)) ↔
        Within roleChild parent child)) ∧
      ∀ roleChild : List (ρ × ρ), GuardedInserts Within roleChild → Acyclic roleChild :=
  ⟨fun _ _ _ hacyclic => wouldCreateRoleCycle_exact_iff hacyclic, fun _ h => h.acyclic⟩

theorem roleEdgeGuard_threeRoles :
    ¬ Acyclic [(2, 0), (1, 2), (0, 1)] ∧ wouldCreateRoleCycle [(1, 2), (0, 1)] 2 0 = true := by
  have hacyclic : Acyclic [(1, 2), (0, 1)] := acyclic_of_lt (by decide)
  have hwithin : Within [(1, 2), (0, 1)] 2 0 := fun _ =>
    ⟨[0, 1], ⟨⟨0, rfl, rfl⟩, by simp [EdgeIn]⟩, by decide⟩
  have hfound : wouldCreateRoleCycle [(1, 2), (0, 1)] 2 0 = true := by decide +kernel
  exact ⟨((roleEdgeGuard_exact.1 _ 2 0 hacyclic).2 hwithin).1 hfound, hfound⟩

/-- Role 0 at the top of a chain of seventeen. -/
def chain : List (ℕ × ℕ) :=
  [(15, 16), (14, 15), (13, 14), (12, 13), (11, 12), (10, 11), (9, 10), (8, 9), (7, 8), (6, 7),
    (5, 6), (4, 5), (3, 4), (2, 3), (1, 2), (0, 1)]

theorem chain_guarded : GuardedInserts (fun _ _ _ => True) ((16, 0) :: chain) := by
  unfold chain
  repeat
    refine .insert ?_ trivial (assertRoleChildEdgeAllowed_ok.2 (by decide +kernel))
  exact .empty

/-- The edge back from the end of the chain to its top is not refused. -/
theorem roleEdgeGuard_fails :
    Acyclic chain ∧ wouldCreateRoleCycle chain 16 0 = false ∧ ¬ Acyclic ((16, 0) :: chain) ∧
      GuardedInserts (fun _ _ _ => True) ((16, 0) :: chain) := by
  have hacyclic : Acyclic chain := acyclic_of_lt (by decide)
  refine ⟨hacyclic, by decide +kernel, ?_, chain_guarded⟩
  rw [hacyclic.cons_iff, not_not]
  apply List.relationReflTransGen_of_exists_isChain_cons
    [1, 2, 3, 4, 5, 6, 7, 8, 9, 10, 11, 12, 13, 14, 15, 16]
  · unfold EdgeIn
    decide
  · rfl

end Untangled.Rbac
