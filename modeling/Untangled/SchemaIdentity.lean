import Mathlib.Data.List.Forall2
import Untangled.SchemaDiffEmpty

/-!
# What the canonical bytes identify

Two schemas have the same canonical bytes exactly if they list the same tables,
sequences and members in some order.  Of a sequence only the name counts; the
columns of a key or an index keep their order.
-/

namespace Untangled.Schema

open SortedJson

/-! ## Sorting lists that correspond -/

section Corresponding

variable {α κ : Type} [LinearOrder κ] {key : α → κ} {R : α → α → Prop}

theorem forall₂_orderedInsert (hkey : ∀ a b, R a b → key a = key b) {x y : α}
    (hxy : R x y) {xs ys : List α} (h : List.Forall₂ R xs ys) :
    List.Forall₂ R (xs.orderedInsert (fun a b => key a ≤ key b) x)
      (ys.orderedInsert (fun a b => key a ≤ key b) y) := by
  induction h with
  | nil => exact .cons hxy .nil
  | @cons a b xs ys hab hrest ih =>
      rw [List.orderedInsert_cons, List.orderedInsert_cons, hkey x y hxy, hkey a b hab]
      by_cases hle : key y ≤ key b
      · rw [if_pos hle, if_pos hle]
        exact .cons hxy (.cons hab hrest)
      · rw [if_neg hle, if_neg hle]
        exact .cons hab ih

/-- Items that correspond have one key, so they stay side by side. -/
theorem forall₂_sortedBy (hkey : ∀ a b, R a b → key a = key b) {xs ys : List α}
    (h : List.Forall₂ R xs ys) : List.Forall₂ R (sortedBy key xs) (sortedBy key ys) := by
  induction h with
  | nil => exact .nil
  | cons hab _ ih => exact forall₂_orderedInsert hkey hab ih

end Corresponding

/-! ## Equal schemas -/

/-- The same name and primary key, and the same members in some order. -/
structure TableIR.Same (t t' : TableIR) : Prop where
  name : t.name = t'.name
  primaryKey : t.primaryKey = t'.primaryKey
  members : t.AlikeButKey t'

/-- The same tables and the same names of sequences, in some order. -/
structure SchemaIR.Same (a b : SchemaIR) : Prop where
  tables : ∃ xs ys, a.tables.Perm xs ∧ b.tables.Perm ys ∧ List.Forall₂ TableIR.Same xs ys
  sequences : (a.sequences.map SequenceIR.name).Perm (b.sequences.map SequenceIR.name)

/-- Members other than columns are sorted by all that is written of them. -/
structure SchemaIR.UniqueNames (s : SchemaIR) : Prop where
  tables : (namesOf s.tables).Nodup
  columns : ∀ t ∈ s.tables, (namesOf t.columns).Nodup

variable {a b : SchemaIR}

theorem tables_of_bytes (hsame : sortKeys (canonicalDict a) = sortKeys (canonicalDict b)) :
    List.Forall₂ TableIR.Same (sortedBy TableIR.name a.tables)
      (sortedBy TableIR.name b.tables) := by
  have htables := sortKeys_obj_mem hsame (k := "tables")
    (j := .arr ((sortedBy TableIR.name a.tables).map tableDict)) (by simp)
  simp only [List.mem_cons, Prod.mk.injEq, List.not_mem_nil, or_false, String.reduceEq,
    false_and, true_and, false_or, exists_eq_left, sortKeys_arr_inj, List.map_map]
    at htables
  have hdicts : List.Forall₂ (fun t t' => sortKeys (tableDict t) = sortKeys (tableDict t'))
      (sortedBy TableIR.name a.tables) (sortedBy TableIR.name b.tables) := by
    rw [← List.forall₂_eq_eq_eq, List.forall₂_map_left_iff, List.forall₂_map_right_iff] at htables
    exact htables
  refine hdicts.imp fun t t' hdict => ?_
  rcases tableDict_inj hdict with ⟨hname, hkey, halike⟩
  exact ⟨hname, hkey, halike⟩

theorem sequences_of_bytes (hsame : sortKeys (canonicalDict a) = sortKeys (canonicalDict b)) :
    (a.sequences.map SequenceIR.name).Perm (b.sequences.map SequenceIR.name) := by
  have hsequences := sortKeys_obj_mem hsame (k := "sequences")
    (j := .arr ((sortedBy SequenceIR.name a.sequences).map sequenceDict)) (by simp)
  simp only [List.mem_cons, Prod.mk.injEq, List.not_mem_nil, or_false, String.reduceEq,
    false_and, true_and, exists_eq_left, sortKeys_arr_inj, List.map_map] at hsequences
  have hnames : (sortedBy SequenceIR.name a.sequences).map SequenceIR.name =
      (sortedBy SequenceIR.name b.sequences).map SequenceIR.name := by
    have hinj : Function.Injective fun n : String =>
        sortKeys (SortedJson.Json.obj [("name", .str n)]) := by
      intro n n' heq
      have hkey := sortKeys_obj_mem heq (k := "name") (j := .str n) (by simp)
      simpa [sortKeys] using hkey
    have hsplit : sortKeys ∘ sequenceDict =
        (fun n : String => sortKeys (SortedJson.Json.obj [("name", .str n)])) ∘
          SequenceIR.name := rfl
    rw [hsplit, ← List.map_map, ← List.map_map] at hsequences
    exact List.map_injective_iff.mpr hinj hsequences
  have ha := (sortedBy_perm SequenceIR.name a.sequences).map SequenceIR.name
  have hb := (sortedBy_perm SequenceIR.name b.sequences).map SequenceIR.name
  exact ha.symm.trans ((List.Perm.of_eq hnames).trans hb)

theorem same_of_bytes (hbytes : canonicalBytes a = canonicalBytes b) : a.Same b := by
  have hsame := canonicalBytes_iff_dict.mp hbytes
  exact ⟨⟨_, _, (sortedBy_perm _ _).symm, (sortedBy_perm _ _).symm, tables_of_bytes hsame⟩,
    sequences_of_bytes hsame⟩

theorem sortedBy_tables_eq (h : (namesOf a.tables).Nodup) {xs : List TableIR}
    (hperm : a.tables.Perm xs) :
    sortedBy TableIR.name a.tables = sortedBy TableIR.name xs :=
  sortedBy_eq_of_perm hperm (NamesAgree.of_nodup h)

theorem bytes_of_same (ha : a.UniqueNames) (hb : b.UniqueNames) (hsame : a.Same b) :
    canonicalBytes a = canonicalBytes b := by
  rcases hsame.tables with ⟨xs, ys, hxs, hys, htables⟩
  have hsorted := forall₂_sortedBy (fun t t' (h : TableIR.Same t t') => h.name) htables
  have hdicts : (sortedBy TableIR.name xs).map tableDict =
      (sortedBy TableIR.name ys).map tableDict := by
    rw [← List.forall₂_eq_eq_eq, List.forall₂_map_left_iff, List.forall₂_map_right_iff]
    have hcolumns : ∀ t ∈ sortedBy TableIR.name xs, (namesOf t.columns).Nodup := fun t ht =>
      ha.columns t (hxs.mem_iff.mpr ((sortedBy_perm _ _).mem_iff.mp ht))
    refine ((List.forall₂_and_left _ _).mpr ⟨hcolumns, hsorted⟩).imp ?_
    rintro t t' ⟨hnodup, hsame⟩
    exact tableDict_congr hsame.name hsame.primaryKey hsame.members
      (NamesAgree.of_nodup hnodup)
  have hnames : (sortedBy SequenceIR.name a.sequences).map SequenceIR.name =
      (sortedBy SequenceIR.name b.sequences).map SequenceIR.name :=
    map_name_sortedBy hsame.sequences
  have hsequences : (sortedBy SequenceIR.name a.sequences).map sequenceDict =
      (sortedBy SequenceIR.name b.sequences).map sequenceDict := by
    have hsplit : sequenceDict =
        (fun n => SortedJson.Json.obj [("name", .str n)]) ∘ SequenceIR.name := rfl
    rw [hsplit, ← List.map_map, ← List.map_map, hnames]
  rw [canonicalBytes, canonicalBytes, canonicalDict, canonicalDict, hsequences,
    sortedBy_tables_eq ha.tables hxs, sortedBy_tables_eq hb.tables hys, hdicts]

/-- The bytes are those of another schema exactly if it is the same but for the order of its
tables, sequences and members and for what a sequence is created with. -/
theorem canonicalBytes_identify (ha : a.UniqueNames) (hb : b.UniqueNames) :
    canonicalBytes a = canonicalBytes b ↔ a.Same b :=
  ⟨same_of_bytes, bytes_of_same ha hb⟩

/-- Countries with a sequence, the members listed in two orders. -/
def countries (columns : List ColumnIR) (start : ℤ) : SchemaIR where
  tables := [⟨"country", columns, ["id"], [], [], []⟩]
  sequences := [⟨"country_number_seq", start, "country", "number", "C", true⟩]

theorem countries_uniqueNames {columns : List ColumnIR} (h : (namesOf columns).Nodup)
    (start : ℤ) : (countries columns start).UniqueNames where
  tables := by simp [countries, namesOf]
  columns := by
    intro t ht
    rw [List.mem_singleton.mp ht]
    exact h

theorem countries_same_bytes :
    canonicalBytes (countries [⟨"id", "uuid", false⟩, ⟨"code", "text", false⟩] 1) =
      canonicalBytes (countries [⟨"code", "text", false⟩, ⟨"id", "uuid", false⟩] 7) := by
  refine (canonicalBytes_identify (countries_uniqueNames (by decide) 1)
    (countries_uniqueNames (by decide) 7)).mpr ⟨⟨_, _, .refl _, .refl _, ?_⟩, .refl _⟩
  exact .cons ⟨rfl, rfl, .swap _ _ _, .refl _, .refl _, .refl _⟩ .nil

end Untangled.Schema
