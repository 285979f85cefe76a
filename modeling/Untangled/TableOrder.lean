import Untangled.SchemaDiffPhases

/-!
# The order of tables

`_topo_sort` lists each table of the subset once.  Where the foreign keys have no cycle
it keeps to them, with the referenced tables first or, in reverse, last; a cycle is
exactly what makes it fall back on the names.
-/

namespace Untangled.Schema

open TopologicalOrder

section TableOrder

variable (names : List String) (schema : SchemaIR)

/-- The names of the subset that have a table. -/
def tableSubset : List String :=
  sortedNames (names.filter (· ∈ namesOf schema.tables))

/-- A foreign key of `n` leads to another table `m` of the subset. -/
def References (n m : String) : Prop :=
  n ∈ tableSubset names schema ∧ m ∈ tableSubset names schema ∧ m ≠ n ∧
    m ∈ (schema.table n).foreignKeys.map ForeignKeyIR.referencedTable

def ForeignKeysAcyclic : Prop :=
  ∀ n, ¬Relation.TransGen (References names schema) n n

/-- Every further round leaves the list of ordered tables as it is. -/
def LoopEnds (reverse : Bool) : Prop :=
  let subset := tableSubset names schema
  let deps := tableDeps subset schema reverse
  ∀ extra, kahn deps subset (subset.length + extra) (fun n => (deps n).length)
    (subset.filter fun n => (deps n).length = 0) [] = order deps subset

theorem mem_tableDeps_iff (reverse : Bool) (n m : String) :
    (n ∈ tableSubset names schema ∧
        m ∈ tableDeps (tableSubset names schema) schema reverse n) ↔
      if reverse then References names schema m n else References names schema n m := by
  cases reverse with
  | false =>
      simp only [tableDeps, References, Bool.false_eq_true, if_false, List.mem_dedup,
        List.mem_filter, decide_eq_true_eq]
      tauto
  | true =>
      simp only [tableDeps, References, if_true, List.mem_dedup, List.mem_filter,
        decide_eq_true_eq]
      tauto

theorem tableDeps_subset (reverse : Bool) (n : String) :
    ∀ m ∈ tableDeps (tableSubset names schema) schema reverse n,
      m ∈ tableSubset names schema := by
  intro m hm
  cases reverse with
  | false =>
      have hfilter := List.mem_filter.mp (List.mem_dedup.mp hm)
      exact (of_decide_eq_true hfilter.2).1
  | true => exact (List.mem_filter.mp hm).1

theorem acyclic_tableDeps_iff (reverse : Bool) :
    Acyclic (tableDeps (tableSubset names schema) schema reverse)
        (tableSubset names schema) ↔
      ForeignKeysAcyclic names schema := by
  have hedges : (fun n m => n ∈ tableSubset names schema ∧
        m ∈ tableDeps (tableSubset names schema) schema reverse n) =
      fun n m => if reverse then References names schema m n
        else References names schema n m := by
    funext n m
    exact propext (mem_tableDeps_iff names schema reverse n m)
  unfold Acyclic ForeignKeysAcyclic
  rw [hedges]
  cases reverse with
  | false => rfl
  | true =>
      apply forall_congr'
      intro n
      exact not_congr Relation.transGen_swap

theorem topoSort_complete_iff (reverse : Bool) :
    (order (tableDeps (tableSubset names schema) schema reverse)
        (tableSubset names schema)).length = (tableSubset names schema).length ↔
      ForeignKeysAcyclic names schema := by
  have hsubset : (tableSubset names schema).Nodup := nodup_sortedNames _
  rw [order_complete_iff hsubset (fun n _ => nodup_tableDeps hsubset schema reverse n)
    (tableDeps_subset names schema reverse), acyclic_tableDeps_iff]

theorem topoSort_of_acyclic
    {reverse : Bool}
    (hacyclic : ForeignKeysAcyclic names schema) :
    topoSort names schema reverse =
      order (tableDeps (tableSubset names schema) schema reverse)
        (tableSubset names schema) := by
  have hlength := (topoSort_complete_iff names schema reverse).mpr hacyclic
  unfold topoSort
  exact if_neg (not_not_intro hlength)

theorem topoSort_of_cycle
    {reverse : Bool}
    (hcycle : ¬ForeignKeysAcyclic names schema) :
    topoSort names schema reverse = tableSubset names schema := by
  have hlength := mt (topoSort_complete_iff names schema reverse).mp hcycle
  unfold topoSort
  exact if_pos hlength

/-- Where nothing is cyclic, what a table waits for stands in front of it. -/
theorem topoSort_sublist
    {reverse : Bool} {n m : String}
    (hacyclic : ForeignKeysAcyclic names schema)
    (hedge : n ∈ tableSubset names schema ∧
      m ∈ tableDeps (tableSubset names schema) schema reverse n) :
    [m, n].Sublist (topoSort names schema reverse) := by
  have hsubset : (tableSubset names schema).Nodup := nodup_sortedNames _
  have hfirst := order_depsFirst hsubset
    (fun n _ => nodup_tableDeps hsubset schema reverse n)
  have hn : n ∈ topoSort names schema reverse :=
    (topoSort_perm names schema reverse).mem_iff.mpr hedge.1
  rw [topoSort_of_acyclic names schema hacyclic] at hn ⊢
  exact hfirst.sublist hn hedge.2

theorem loopEnds (reverse : Bool) : LoopEnds names schema reverse := by
  intro extra
  have hsubset : (tableSubset names schema).Nodup := nodup_sortedNames _
  exact kahn_fuel hsubset (fun n _ => nodup_tableDeps hsubset schema reverse n) _ extra
    (.start hsubset) (by simp)

/-- `_topo_sort` on every set of names and every table map. -/
theorem topoSort_correct :
    (∀ reverse, (topoSort names schema reverse).Nodup ∧
      (∀ n, n ∈ topoSort names schema reverse ↔
        n ∈ names ∧ n ∈ namesOf schema.tables) ∧
      LoopEnds names schema reverse) ∧
    (ForeignKeysAcyclic names schema → ∀ n m, References names schema n m →
      [m, n].Sublist (topoSort names schema false) ∧
        [n, m].Sublist (topoSort names schema true)) ∧
    (¬ForeignKeysAcyclic names schema → ∀ reverse,
      topoSort names schema reverse = tableSubset names schema) := by
  constructor
  · intro reverse
    exact ⟨nodup_topoSort names schema reverse, fun n => mem_topoSort,
      loopEnds names schema reverse⟩
  · constructor
    · intro hacyclic n m hreferences
      have hforward := (mem_tableDeps_iff names schema false n m).mpr hreferences
      have hbackward := (mem_tableDeps_iff names schema true m n).mpr hreferences
      exact ⟨topoSort_sublist names schema hacyclic hforward,
        topoSort_sublist names schema hacyclic hbackward⟩
    · intro hcycle reverse
      exact topoSort_of_cycle names schema hcycle

end TableOrder

end Untangled.Schema
