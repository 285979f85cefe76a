import Mathlib.Data.List.Lex
import Mathlib.Data.Prod.Lex
import Mathlib.Data.String.Basic
import Untangled.SchemaWellFormed
import Untangled.SortedJson

/-!
# Canonical serialization

The JSON text of a schema with its tables and members in a fixed order.  Two
schemas have one text when they list the same members, whatever the order.
-/

namespace Untangled.Schema

open SortedJson

/-- Sorted by a key; items of one key keep their order. -/
def sortedBy {α κ : Type} [LinearOrder κ] (key : α → κ) (items : List α) : List α :=
  items.insertionSort fun a b => key a ≤ key b

section Sorted

variable {α κ : Type} [LinearOrder κ] {key : α → κ} {items items' : List α}

theorem sortedBy_perm (key : α → κ) (items : List α) : (sortedBy key items).Perm items :=
  List.perm_insertionSort _ _

theorem sortedBy_pairwise (key : α → κ) (items : List α) :
    (sortedBy key items).Pairwise fun a b => key a ≤ key b := by
  have htotal : Std.Total fun a b : α => key a ≤ key b := ⟨fun a b => le_total _ _⟩
  have htrans : IsTrans α fun a b => key a ≤ key b := ⟨fun _ _ _ h h' => h.trans h'⟩
  exact List.pairwise_insertionSort _ _

/-- Items told apart by their keys have one sorted list. -/
theorem sortedBy_eq_of_perm (hperm : items.Perm items')
    (hkey : ∀ a ∈ items, ∀ b ∈ items, key a = key b → a = b) :
    sortedBy key items = sortedBy key items' := by
  have hunique : ∀ a b, a ∈ sortedBy key items → b ∈ sortedBy key items' →
      key a ≤ key b → key b ≤ key a → a = b := by
    intro a b ha hb hle hge
    have hmem := (sortedBy_perm key items).mem_iff.mp ha
    have hmem' := (sortedBy_perm key items').mem_iff.mp hb
    exact hkey a hmem b (hperm.mem_iff.mpr hmem') (le_antisymm hle hge)
  exact List.Perm.eq_of_pairwise hunique (sortedBy_pairwise key items)
    (sortedBy_pairwise key items')
    ((sortedBy_perm key items).trans (hperm.trans (sortedBy_perm key items').symm))

theorem perm_of_sortedBy_eq (heq : sortedBy key items = sortedBy key items') :
    items.Perm items' := by
  have hleft := (sortedBy_perm key items).symm
  rw [heq] at hleft
  exact hleft.trans (sortedBy_perm key items')

end Sorted

/-! ## The dictionaries -/

def texts (names : List String) : SortedJson.Json :=
  .arr (names.map .str)

def sequenceDict (s : SequenceIR) : SortedJson.Json :=
  .obj [("name", .str s.name)]

def columnDict (c : ColumnIR) : SortedJson.Json :=
  .obj [("name", .str c.name), ("type_name", .str c.typeName),
    ("nullable", .bool c.nullable)]

def foreignKeyDict (fk : ForeignKeyIR) : SortedJson.Json :=
  .obj [("name", .str fk.name), ("columns", texts fk.columns),
    ("referenced_table", .str fk.referencedTable),
    ("referenced_columns", texts fk.referencedColumns)]

def indexDict (i : IndexIR) : SortedJson.Json :=
  .obj [("name", .str i.name), ("columns", texts i.columns), ("unique", .bool i.unique)]

def checkDict (c : CheckIR) : SortedJson.Json :=
  .obj [("name", .str c.name), ("expression", .str c.expression)]

def foreignKeyOrder (fk : ForeignKeyIR) :
    String ×ₗ List String ×ₗ String ×ₗ List String :=
  toLex (fk.name, toLex (fk.columns, toLex (fk.referencedTable, fk.referencedColumns)))

def indexOrder (i : IndexIR) : String ×ₗ List String ×ₗ Bool :=
  toLex (i.name, toLex (i.columns, i.unique))

def checkOrder (c : CheckIR) : String ×ₗ String :=
  toLex (c.name, c.expression)

def tableDict (t : TableIR) : SortedJson.Json :=
  .obj [("name", .str t.name),
    ("columns", .arr ((sortedBy ColumnIR.name t.columns).map columnDict)),
    ("primary_key", texts t.primaryKey),
    ("foreign_keys", .arr ((sortedBy foreignKeyOrder t.foreignKeys).map foreignKeyDict)),
    ("indexes", .arr ((sortedBy indexOrder t.indexes).map indexDict)),
    ("checks", .arr ((sortedBy checkOrder t.checks).map checkDict))]

def canonicalDict (s : SchemaIR) : SortedJson.Json :=
  .obj [("sequences", .arr ((sortedBy SequenceIR.name s.sequences).map sequenceDict)),
    ("tables", .arr ((sortedBy TableIR.name s.tables).map tableDict))]

/-- The UTF-8 bytes of the text. -/
def canonicalBytes (s : SchemaIR) : ByteArray :=
  (dumps (canonicalDict s)).toByteArray

/-- The digest is that of a hash function the code calls. -/
def schemaHash (sha256 : ByteArray → String) (s : SchemaIR) : String :=
  sha256 (canonicalBytes s)

/-! ## What the text tells -/

theorem map_sortKeys_str (names : List String) :
    (names.map SortedJson.Json.str).map sortKeys = names.map SortedJson.Json.str := by
  simp [sortKeys, Function.comp_def]

theorem sortKeys_texts {names names' : List String} :
    sortKeys (texts names) = sortKeys (texts names') ↔ names = names' := by
  rw [texts, texts, sortKeys_arr_inj, map_sortKeys_str, map_sortKeys_str]
  exact (List.map_injective_iff.mpr fun a b h => SortedJson.Json.str.inj h).eq_iff

/-- Lists of dictionaries are one when the dictionaries tell their items. -/
theorem sortKeys_dicts {α : Type} {dict : α → SortedJson.Json} {items items' : List α}
    (hdict : ∀ a b, sortKeys (dict a) = sortKeys (dict b) → a = b) :
    sortKeys (.arr (items.map dict)) = sortKeys (.arr (items'.map dict)) ↔
      items = items' := by
  rw [sortKeys_arr_inj, List.map_map, List.map_map]
  exact (List.map_injective_iff.mpr hdict).eq_iff

section Members

variable {k : String} {j : SortedJson.Json} {members members' : List (String × SortedJson.Json)}

theorem columnDict_inj {a b : ColumnIR}
    (hsame : sortKeys (columnDict a) = sortKeys (columnDict b)) : a = b := by
  have hname := sortKeys_obj_mem hsame (k := "name") (j := .str a.name) (by simp)
  have htype := sortKeys_obj_mem hsame (k := "type_name") (j := .str a.typeName) (by simp)
  have hnull := sortKeys_obj_mem hsame (k := "nullable") (j := .bool a.nullable) (by simp)
  simp [sortKeys] at hname htype hnull
  cases a
  cases b
  simp_all

theorem foreignKeyDict_inj {a b : ForeignKeyIR}
    (hsame : sortKeys (foreignKeyDict a) = sortKeys (foreignKeyDict b)) : a = b := by
  have hname := sortKeys_obj_mem hsame (k := "name") (j := .str a.name) (by simp)
  have hcolumns := sortKeys_obj_mem hsame (k := "columns") (j := texts a.columns) (by simp)
  have htable := sortKeys_obj_mem hsame (k := "referenced_table")
    (j := .str a.referencedTable) (by simp)
  have hreferenced := sortKeys_obj_mem hsame (k := "referenced_columns")
    (j := texts a.referencedColumns) (by simp)
  simp [sortKeys_texts] at hcolumns hreferenced
  simp [sortKeys] at hname htable
  cases a
  cases b
  simp_all

theorem indexDict_inj {a b : IndexIR}
    (hsame : sortKeys (indexDict a) = sortKeys (indexDict b)) : a = b := by
  have hname := sortKeys_obj_mem hsame (k := "name") (j := .str a.name) (by simp)
  have hcolumns := sortKeys_obj_mem hsame (k := "columns") (j := texts a.columns) (by simp)
  have hunique := sortKeys_obj_mem hsame (k := "unique") (j := .bool a.unique) (by simp)
  simp [sortKeys_texts] at hcolumns
  simp [sortKeys] at hname hunique
  cases a
  cases b
  simp_all

theorem checkDict_inj {a b : CheckIR}
    (hsame : sortKeys (checkDict a) = sortKeys (checkDict b)) : a = b := by
  have hname := sortKeys_obj_mem hsame (k := "name") (j := .str a.name) (by simp)
  have hexpression := sortKeys_obj_mem hsame (k := "expression")
    (j := .str a.expression) (by simp)
  simp [sortKeys] at hname hexpression
  cases a
  cases b
  simp_all

end Members

/-- The tables list the same members, primary keys aside. -/
structure TableIR.AlikeButKey (t t' : TableIR) : Prop where
  columns : t.columns.Perm t'.columns
  foreignKeys : t.foreignKeys.Perm t'.foreignKeys
  indexes : t.indexes.Perm t'.indexes
  checks : t.checks.Perm t'.checks

theorem tableDict_inj {a b : TableIR}
    (hsame : sortKeys (tableDict a) = sortKeys (tableDict b)) :
    a.name = b.name ∧ a.primaryKey = b.primaryKey ∧ a.AlikeButKey b := by
  have hname := sortKeys_obj_mem hsame (k := "name") (j := .str a.name) (by simp)
  have hkey := sortKeys_obj_mem hsame (k := "primary_key") (j := texts a.primaryKey)
    (by simp)
  have hcolumns := sortKeys_obj_mem hsame (k := "columns")
    (j := .arr ((sortedBy ColumnIR.name a.columns).map columnDict)) (by simp)
  have hforeignKeys := sortKeys_obj_mem hsame (k := "foreign_keys")
    (j := .arr ((sortedBy foreignKeyOrder a.foreignKeys).map foreignKeyDict)) (by simp)
  have hindexes := sortKeys_obj_mem hsame (k := "indexes")
    (j := .arr ((sortedBy indexOrder a.indexes).map indexDict)) (by simp)
  have hchecks := sortKeys_obj_mem hsame (k := "checks")
    (j := .arr ((sortedBy checkOrder a.checks).map checkDict)) (by simp)
  simp [sortKeys] at hname
  simp [sortKeys_texts] at hkey
  simp only [List.mem_cons, Prod.mk.injEq, List.not_mem_nil, or_false, String.reduceEq,
    false_and, true_and, false_or, exists_eq_left] at hcolumns hforeignKeys hindexes hchecks
  rw [sortKeys_dicts fun _ _ => columnDict_inj] at hcolumns
  rw [sortKeys_dicts fun _ _ => foreignKeyDict_inj] at hforeignKeys
  rw [sortKeys_dicts fun _ _ => indexDict_inj] at hindexes
  rw [sortKeys_dicts fun _ _ => checkDict_inj] at hchecks
  exact ⟨hname, hkey, perm_of_sortedBy_eq hcolumns, perm_of_sortedBy_eq hforeignKeys,
    perm_of_sortedBy_eq hindexes, perm_of_sortedBy_eq hchecks⟩

theorem tableDict_congr {a b : TableIR} (hname : a.name = b.name)
    (hkey : a.primaryKey = b.primaryKey) (halike : a.AlikeButKey b)
    (hcolumns : NamesAgree a.columns) : tableDict a = tableDict b := by
  have hforeignKeys : ∀ x ∈ a.foreignKeys, ∀ y ∈ a.foreignKeys,
      foreignKeyOrder x = foreignKeyOrder y → x = y := by
    intro x _ y _ heq
    cases x
    cases y
    simp_all [foreignKeyOrder]
  have hindexes : ∀ x ∈ a.indexes, ∀ y ∈ a.indexes, indexOrder x = indexOrder y → x = y := by
    intro x _ y _ heq
    cases x
    cases y
    simp_all [indexOrder]
  have hchecks : ∀ x ∈ a.checks, ∀ y ∈ a.checks, checkOrder x = checkOrder y → x = y := by
    intro x _ y _ heq
    cases x
    cases y
    simp_all [checkOrder]
  have hsorted : sortedBy ColumnIR.name a.columns = sortedBy ColumnIR.name b.columns :=
    sortedBy_eq_of_perm halike.columns hcolumns
  rw [tableDict, tableDict, hname, hkey, hsorted,
    sortedBy_eq_of_perm halike.foreignKeys hforeignKeys,
    sortedBy_eq_of_perm halike.indexes hindexes,
    sortedBy_eq_of_perm halike.checks hchecks]

end Untangled.Schema
