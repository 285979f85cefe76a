import Mathlib.Data.List.Chain
import Mathlib.Data.List.Nodup
import Mathlib.Logic.Relation
import Mathlib.Tactic

/-!
# Recursive queries with a cycle clause

`WITH RECURSIVE … UNION ALL` runs its recursive term on the rows of the last
round until a round yields no row.  The clause `CYCLE node SET is_cycle USING
path` gives every row the list of the nodes it came along, marks a row whose
node already lies on that list, and does not run the recursive term on a marked
row.

The rows of such a query over the edges of a graph are the walks of the graph
that do not go on after their first repetition.
-/

namespace RecursiveQuery

variable {α ρ : Type*}

/-- The rows of the first `n` rounds, the first of which is `work`. -/
def rounds (term : List ρ → List ρ) : Nat → List ρ → List ρ
  | 0, _ => []
  | n + 1, work => work ++ rounds term n (term work)

/-- What the query yields, once a round is empty. -/
inductive Yields (term : List ρ → List ρ) : List ρ → List ρ → Prop
  | done : Yields term [] []
  | round {work rest} : Yields term (term work) rest → Yields term work (work ++ rest)

theorem mem_rounds {term : List ρ → List ρ} {row : ρ} {n : Nat} {work : List ρ} :
    row ∈ rounds term n work ↔ ∃ k < n, row ∈ term^[k] work := by
  induction n generalizing work with
  | zero => simp [rounds]
  | succ n ih =>
      rw [rounds, List.mem_append, ih]
      constructor
      · rintro (hrow | ⟨k, hk, hrow⟩)
        · exact ⟨0, by omega, hrow⟩
        · exact ⟨k + 1, by omega, hrow⟩
      · rintro ⟨k, hk, hrow⟩
        cases k with
        | zero => exact Or.inl hrow
        | succ k => exact Or.inr ⟨k, by omega, hrow⟩

theorem Yields.of_rounds
    {term : List ρ → List ρ} {n : Nat} {work : List ρ}
    (hempty : term^[n] work = []) :
    Yields term work (rounds term n work) := by
  induction n generalizing work with
  | zero =>
      have hwork : work = [] := hempty
      rw [hwork]
      exact .done
  | succ n ih => exact .round (ih hempty)

/-! ## Walks -/

/-- A walk along `edge` from one of the `starts`: the list of the nodes it visits. -/
structure IsWalk (edge : α → α → Prop) (starts : α → Prop) (walk : List α) : Prop where
  head : ∃ a, walk.head? = some a ∧ starts a
  chain : walk.IsChain edge

section Walks

variable {edge : α → α → Prop} {starts : α → Prop}

theorem IsWalk.ne_nil
    {walk : List α}
    (h : IsWalk edge starts walk) :
    walk ≠ [] := by
  intro hnil
  rcases h.head with ⟨a, ha, _⟩
  simp [hnil] at ha

theorem isWalk_singleton {a : α} : IsWalk edge starts [a] ↔ starts a := by
  constructor
  · intro h
    rcases h.head with ⟨b, hb, hstart⟩
    simp only [List.head?_cons, Option.some.injEq] at hb
    exact hb ▸ hstart
  · intro h
    exact ⟨⟨a, rfl, h⟩, List.isChain_singleton a⟩

theorem isWalk_snoc
    {walk : List α} {a b : α} :
    IsWalk edge starts (walk ++ [a] ++ [b]) ↔
      IsWalk edge starts (walk ++ [a]) ∧ edge a b := by
  have hhead : (walk ++ [a] ++ [b]).head? = (walk ++ [a]).head? := by
    cases walk <;> rfl
  have hchain : (walk ++ [a] ++ [b]).IsChain edge ↔
      (walk ++ [a]).IsChain edge ∧ edge a b := by
    rw [List.isChain_append]
    simp
  constructor
  · intro h
    exact ⟨⟨hhead ▸ h.head, (hchain.1 h.chain).1⟩, (hchain.1 h.chain).2⟩
  · rintro ⟨h, hedge⟩
    exact ⟨hhead.symm ▸ h.head, hchain.2 ⟨h.chain, hedge⟩⟩

theorem IsWalk.front
    {walk front : List α}
    (h : IsWalk edge starts walk)
    (hfront : front <+: walk)
    (hne : front ≠ []) :
    IsWalk edge starts front := by
  rcases hfront with ⟨back, rfl⟩
  have hhead : (front ++ back).head? = front.head? := by
    cases front with
    | nil => exact absurd rfl hne
    | cons a front => rfl
  exact ⟨hhead ▸ h.head, h.chain.left_of_append⟩

/-- A walk goes on along any chain that begins where it ends. -/
theorem IsWalk.append
    {walk : List α} {a : α} {more : List α}
    (h : IsWalk edge starts (walk ++ [a]))
    (hmore : (a :: more).IsChain edge) :
    IsWalk edge starts (walk ++ a :: more) := by
  rcases h.head with ⟨s, hs, hstart⟩
  constructor
  · refine ⟨s, ?_, hstart⟩
    cases walk <;> simpa using hs
  · exact List.isChain_split.2 ⟨h.chain, hmore⟩

theorem IsWalk.reaches
    {walk : List α} {a b : α}
    (h : IsWalk edge (· = a) walk)
    (hlast : walk.getLast? = some b) :
    Relation.ReflTransGen edge a b := by
  cases walk with
  | nil => exact absurd rfl h.ne_nil
  | cons s walk =>
      rcases h.head with ⟨s', hs', rfl⟩
      have hs : s = s' := by simpa using hs'
      rw [← hs]
      apply List.relationReflTransGen_of_exists_isChain_cons walk h.chain
      rw [List.getLast?_eq_some_getLast (List.cons_ne_nil s walk)] at hlast
      exact Option.some.inj hlast

theorem exists_walk_of_reaches
    {a b : α}
    (hstart : starts a)
    (h : Relation.ReflTransGen edge a b) :
    ∃ walk, IsWalk edge starts (walk ++ [b]) := by
  induction h with
  | refl => exact ⟨[], isWalk_singleton.2 hstart⟩
  | tail _ hedge ih =>
      rcases ih with ⟨walk, hwalk⟩
      exact ⟨_, isWalk_snoc.2 ⟨hwalk, hedge⟩⟩

theorem nodup_snoc
    {front : List α} {a : α} :
    (front ++ [a]).Nodup ↔ front.Nodup ∧ a ∉ front := by
  rw [← List.concat_eq_append, List.nodup_concat]
  exact and_comm

/-- A list that repeats an element has a first repetition. -/
theorem exists_firstRepetition
    {walk : List α}
    (h : ¬ walk.Nodup) :
    ∃ front a, front ++ [a] <+: walk ∧ front.Nodup ∧ a ∈ front := by
  induction walk using List.reverseRecOn with
  | nil => exact absurd List.nodup_nil h
  | append_singleton walk a ih =>
      by_cases hwalk : walk.Nodup
      · refine ⟨walk, a, List.prefix_rfl, hwalk, ?_⟩
        by_contra ha
        exact h (nodup_snoc.2 ⟨hwalk, ha⟩)
      · rcases ih hwalk with ⟨front, b, hfront, hnodup, hb⟩
        exact ⟨front, b, hfront.trans (List.prefix_append walk [a]), hnodup, hb⟩

theorem transGen_of_isChain
    {a b : α} {between : List α}
    (h : (a :: (between ++ [b])).IsChain edge) :
    Relation.TransGen edge a b := by
  induction between generalizing a with
  | nil => exact .single (List.isChain_pair.1 h)
  | cons c between ih =>
      rw [List.cons_append, List.isChain_cons_cons] at h
      exact .head h.1 (ih h.2)

theorem exists_chain_of_cycle
    {a : α}
    (h : Relation.TransGen edge a a)
    (n : Nat) :
    ∃ more, (a :: more).IsChain edge ∧ more.length = n := by
  induction n generalizing a with
  | zero => exact ⟨[], List.isChain_singleton a, rfl⟩
  | succ n ih =>
      rcases Relation.TransGen.head'_iff.1 h with ⟨b, hedge, hback⟩
      rcases ih (Relation.TransGen.tail' hback hedge) with ⟨more, hchain, hlength⟩
      exact ⟨b :: more, List.isChain_cons_cons.2 ⟨hedge, hchain⟩, by simp [hlength]⟩

theorem IsWalk.cycle_of_repetition
    {front : List α} {a : α}
    (h : IsWalk edge starts (front ++ [a]))
    (ha : a ∈ front) :
    Relation.TransGen edge a a := by
  rcases List.append_of_mem ha with ⟨before, between, rfl⟩
  have hchain : (before ++ (a :: (between ++ [a]))).IsChain edge := by
    simpa using h.chain
  exact transGen_of_isChain hchain.right_of_append

/-- A walk that visits a node twice can be made as long as one likes. -/
theorem IsWalk.exists_longer
    {walk : List α}
    (h : IsWalk edge starts walk)
    (hrepeats : ¬ walk.Nodup)
    (n : Nat) :
    ∃ longer, IsWalk edge starts longer ∧ n < longer.length := by
  rcases exists_firstRepetition hrepeats with ⟨front, a, hfront, _, ha⟩
  have hwalk : IsWalk edge starts (front ++ [a]) := h.front hfront (by simp)
  rcases exists_chain_of_cycle (hwalk.cycle_of_repetition ha) n with ⟨more, hmore, hlength⟩
  refine ⟨front ++ a :: more, hwalk.append hmore, ?_⟩
  simp only [List.length_append, List.length_cons]
  omega

end Walks

/-! ## The rows of the query -/

/-- A row, with the columns that the cycle clause adds. -/
structure Row (α : Type*) where
  node : α
  depth : Nat
  isCycle : Bool
  path : List α
deriving DecidableEq

def Row.seed (node : α) : Row α := ⟨node, 1, false, [node]⟩

section Query

variable [DecidableEq α]

def Row.next (row : Row α) (node : α) : Row α :=
  ⟨node, row.depth + 1, decide (node ∈ row.path), row.path ++ [node]⟩

/-- The recursive term: the edges out of the rows that are neither marked nor
at the last depth. -/
def descend (edges : List (α × α)) (maxDepth : Nat) (work : List (Row α)) : List (Row α) :=
  (work.filter fun row => row.depth < maxDepth && !row.isCycle).flatMap fun row =>
    (edges.filter fun e => e.1 = row.node).map fun e => row.next e.2

/-- All rows, from one row for each of the `seeds`. -/
def walkRows (edges : List (α × α)) (maxDepth : Nat) (seeds : List α) : List (Row α) :=
  rounds (descend edges maxDepth) (maxDepth + 1) (seeds.map Row.seed)

theorem mem_descend
    {edges : List (α × α)} {maxDepth : Nat} {work : List (Row α)} {row : Row α} :
    row ∈ descend edges maxDepth work ↔
      ∃ previous ∈ work, previous.depth < maxDepth ∧ previous.isCycle = false ∧
        ∃ node, (previous.node, node) ∈ edges ∧ row = previous.next node := by
  simp only [descend, List.mem_flatMap, List.mem_filter, List.mem_map, Bool.and_eq_true,
    decide_eq_true_eq, Bool.not_eq_true', Prod.exists]
  constructor
  · rintro ⟨previous, ⟨hmem, hdepth, hcycle⟩, a, b, ⟨hedge, rfl⟩, rfl⟩
    exact ⟨previous, hmem, hdepth, hcycle, b, hedge, rfl⟩
  · rintro ⟨previous, hmem, hdepth, hcycle, b, hedge, rfl⟩
    exact ⟨previous, ⟨hmem, hdepth, hcycle⟩, previous.node, b, ⟨hedge, rfl⟩, rfl⟩

/-- The row of a walk that ends in `node`. -/
def Row.ofWalk (front : List α) (node : α) : Row α :=
  ⟨node, front.length + 1, decide (node ∈ front), front ++ [node]⟩

variable {edges : List (α × α)} {maxDepth : Nat} {seeds : List α}

/-- After `k` rounds the working table holds the walks of `k + 1` nodes that
repeat none before their last. -/
theorem mem_round
    {k : Nat} {row : Row α} :
    row ∈ (descend edges maxDepth)^[k] (seeds.map Row.seed) ↔
      ∃ front node,
        row = .ofWalk front node ∧ front.length = k ∧ (k = 0 ∨ k < maxDepth) ∧
        front.Nodup ∧
        IsWalk (fun a b => (a, b) ∈ edges) (· ∈ seeds) (front ++ [node]) := by
  induction k generalizing row with
  | zero =>
      simp only [Function.iterate_zero, id_eq, List.mem_map]
      constructor
      · rintro ⟨node, hnode, rfl⟩
        exact ⟨[], node, rfl, rfl, Or.inl trivial, List.nodup_nil, isWalk_singleton.2 hnode⟩
      · rintro ⟨front, node, rfl, hlength, _, _, hwalk⟩
        have hfront : front = [] := List.length_eq_zero_iff.1 hlength
        subst hfront
        exact ⟨node, isWalk_singleton.1 hwalk, rfl⟩
  | succ k ih =>
      rw [Function.iterate_succ_apply', mem_descend]
      constructor
      · rintro ⟨previous, hmem, hdepth, hcycle, node, hedge, rfl⟩
        rcases ih.1 hmem with ⟨front, last, rfl, hlength, _, hnodup, hwalk⟩
        have hfresh : last ∉ front := by simpa [Row.ofWalk] using hcycle
        have hk : k + 1 < maxDepth := by
          have hdepth' : front.length + 1 < maxDepth := hdepth
          omega
        refine ⟨front ++ [last], node, ?_, by simp [hlength], Or.inr hk,
          nodup_snoc.2 ⟨hnodup, hfresh⟩, isWalk_snoc.2 ⟨hwalk, hedge⟩⟩
        simp [Row.ofWalk, Row.next]
      · rintro ⟨front, node, rfl, hlength, hk, hnodup, hwalk⟩
        rcases List.eq_nil_or_concat front with hnil | ⟨before, last, hconcat⟩
        · simp [hnil] at hlength
        rw [List.concat_eq_append] at hconcat
        subst hconcat
        have hbefore : before.Nodup ∧ last ∉ before := nodup_snoc.1 hnodup
        have hlength' : before.length = k := by simpa using hlength
        rcases isWalk_snoc.1 hwalk with ⟨hwalk', hedge⟩
        have hprevious : Row.ofWalk before last ∈
            (descend edges maxDepth)^[k] (seeds.map Row.seed) :=
          ih.2 ⟨before, last, rfl, hlength', by omega, hbefore.1, hwalk'⟩
        refine ⟨.ofWalk before last, hprevious, ?_, ?_, node, hedge, ?_⟩
        · change before.length + 1 < maxDepth
          omega
        · simpa [Row.ofWalk] using hbefore.2
        · simp [Row.ofWalk, Row.next]

/-- The working table is empty after the last round, so the rows are all rows. -/
theorem walkRows_yields :
    Yields (descend edges maxDepth) (seeds.map Row.seed) (walkRows edges maxDepth seeds) := by
  apply Yields.of_rounds
  apply List.eq_nil_iff_forall_not_mem.2
  intro row hrow
  rcases mem_round.1 hrow with ⟨_, _, _, _, hk, _⟩
  omega

theorem mem_walkRows
    {row : Row α} :
    row ∈ walkRows edges maxDepth seeds ↔
      ∃ front node,
        row = .ofWalk front node ∧ (front = [] ∨ front.length < maxDepth) ∧
        front.Nodup ∧
        IsWalk (fun a b => (a, b) ∈ edges) (· ∈ seeds) (front ++ [node]) := by
  rw [walkRows, mem_rounds]
  constructor
  · rintro ⟨k, _, hrow⟩
    rcases mem_round.1 hrow with ⟨front, node, rfl, hlength, hk, hnodup, hwalk⟩
    refine ⟨front, node, rfl, ?_, hnodup, hwalk⟩
    rcases hk with hk | hk
    · exact Or.inl (List.length_eq_zero_iff.1 (hlength.trans hk))
    · exact Or.inr (hlength ▸ hk)
  · rintro ⟨front, node, rfl, hlength, hnodup, hwalk⟩
    refine ⟨front.length, ?_, mem_round.2 ⟨front, node, rfl, rfl, ?_, hnodup, hwalk⟩⟩
    · rcases hlength with hnil | hlength
      · simp [hnil]
      · omega
    · rcases hlength with hnil | hlength
      · exact Or.inl (by simp [hnil])
      · exact Or.inr hlength

end Query

end RecursiveQuery
