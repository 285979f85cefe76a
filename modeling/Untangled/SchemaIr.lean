import Mathlib.Data.List.Sort
import Mathlib.Tactic

/-!
# Schema snapshots

The schema a set of class definitions asks for and the schema that is read from
the catalog have one type.  Members are told apart by name; `byName` and
`sortedNames` are the dictionaries and the sorted sets of names that the diff
works with.
-/

namespace Untangled.Schema

structure ColumnIR where
  name : String
  typeName : String
  nullable : Bool
  deriving DecidableEq

structure ForeignKeyIR where
  name : String
  columns : List String
  referencedTable : String
  referencedColumns : List String
  deriving DecidableEq

structure IndexIR where
  name : String
  columns : List String
  unique : Bool
  deriving DecidableEq

structure CheckIR where
  name : String
  expression : String
  deriving DecidableEq

structure TableIR where
  name : String
  columns : List ColumnIR
  primaryKey : List String
  foreignKeys : List ForeignKeyIR
  indexes : List IndexIR
  checks : List CheckIR
  deriving DecidableEq

/-- The last four fields are only read while a sequence is planned. -/
structure SequenceIR where
  name : String
  start : ℤ
  tableName : String
  columnName : String
  idPrefix : String
  resolveStartFromData : Bool
  deriving DecidableEq

structure SchemaIR where
  tables : List TableIR
  sequences : List SequenceIR
  deriving DecidableEq

/-- A member that is looked up by name. -/
class Named (α : Type) where
  name : α → String

export Named (name)

instance : Named ColumnIR := ⟨ColumnIR.name⟩
instance : Named ForeignKeyIR := ⟨ForeignKeyIR.name⟩
instance : Named IndexIR := ⟨IndexIR.name⟩
instance : Named CheckIR := ⟨CheckIR.name⟩
instance : Named TableIR := ⟨TableIR.name⟩
instance : Named SequenceIR := ⟨SequenceIR.name⟩

@[simp] theorem name_column (c : ColumnIR) : name c = c.name := rfl
@[simp] theorem name_foreignKey (fk : ForeignKeyIR) : name fk = fk.name := rfl
@[simp] theorem name_index (i : IndexIR) : name i = i.name := rfl
@[simp] theorem name_check (c : CheckIR) : name c = c.name := rfl
@[simp] theorem name_table (t : TableIR) : name t = t.name := rfl
@[simp] theorem name_sequence (s : SequenceIR) : name s = s.name := rfl

section Dictionaries

variable {α : Type} [Named α]

def namesOf (items : List α) : List String :=
  items.map name

/-- The dictionary from names to items; of two items with one name it keeps the
later. -/
def byName (items : List α) (n : String) : Option α :=
  items.reverse.find? fun item => name item = n

/-- The names as a set, in order. -/
def sortedNames (names : List String) : List String :=
  names.dedup.insertionSort (· ≤ ·)

def sortedByName (items : List α) : List α :=
  items.insertionSort fun a b => name a ≤ name b

@[simp] theorem mem_sortedNames {names : List String} {n : String} :
    n ∈ sortedNames names ↔ n ∈ names := by
  rw [sortedNames, (List.perm_insertionSort _ _).mem_iff, List.mem_dedup]

theorem nodup_sortedNames (names : List String) : (sortedNames names).Nodup :=
  (List.perm_insertionSort _ _).nodup_iff.mpr (List.nodup_dedup names)

theorem sortedByName_perm (items : List α) : (sortedByName items).Perm items :=
  List.perm_insertionSort _ _

@[simp] theorem mem_sortedByName {items : List α} {item : α} :
    item ∈ sortedByName items ↔ item ∈ items :=
  (sortedByName_perm items).mem_iff

theorem mem_namesOf {items : List α} {n : String} :
    n ∈ namesOf items ↔ ∃ item ∈ items, name item = n := by
  simp [namesOf]

theorem name_mem_namesOf {items : List α} {item : α} (hitem : item ∈ items) :
    name item ∈ namesOf items :=
  mem_namesOf.mpr ⟨item, hitem, rfl⟩

theorem byName_some {items : List α} {n : String} {item : α}
    (hlookup : byName items n = some item) : item ∈ items ∧ name item = n := by
  have hmem := List.mem_of_find?_eq_some hlookup
  have hname := List.find?_some hlookup
  exact ⟨List.mem_reverse.mp hmem, by simpa using hname⟩

theorem byName_eq_none {items : List α} {n : String} :
    byName items n = none ↔ n ∉ namesOf items := by
  simp [byName, mem_namesOf]

theorem exists_byName {items : List α} {n : String} (hn : n ∈ namesOf items) :
    ∃ item, byName items n = some item := by
  cases hlookup : byName items n with
  | none => exact absurd hn (byName_eq_none.mp hlookup)
  | some item => exact ⟨item, rfl⟩

/-- Items of one name are one item. -/
def NamesAgree (items : List α) : Prop :=
  ∀ a ∈ items, ∀ b ∈ items, name a = name b → a = b

theorem NamesAgree.of_nodup {items : List α} (hnodup : (namesOf items).Nodup) :
    NamesAgree items := by
  intro a ha b hb hname
  exact List.inj_on_of_nodup_map hnodup ha hb hname

theorem NamesAgree.byName {items : List α} (hagree : NamesAgree items) {item : α}
    (hitem : item ∈ items) : byName items (name item) = some item := by
  rcases exists_byName (name_mem_namesOf hitem) with ⟨found, hfound⟩
  rcases byName_some hfound with ⟨hmem, hname⟩
  rw [hfound, hagree found hmem item hitem hname]

end Dictionaries

namespace SchemaIR

/-- The table of a name, empty if there is none. -/
def table (s : SchemaIR) (n : String) : TableIR :=
  (byName s.tables n).getD ⟨n, [], [], [], [], []⟩

theorem table_of_byName {s : SchemaIR} {n : String} {t : TableIR}
    (hlookup : byName s.tables n = some t) : s.table n = t := by
  simp [table, hlookup]

theorem table_name (s : SchemaIR) (n : String) : (s.table n).name = n := by
  unfold table
  cases hlookup : byName s.tables n with
  | none => rfl
  | some t => exact (byName_some hlookup).2

theorem table_mem {s : SchemaIR} {n : String} (hn : n ∈ namesOf s.tables) :
    s.table n ∈ s.tables := by
  rcases exists_byName hn with ⟨t, hlookup⟩
  rw [table_of_byName hlookup]
  exact (byName_some hlookup).1

theorem table_of_mem {s : SchemaIR} (hnames : (namesOf s.tables).Nodup) {t : TableIR}
    (ht : t ∈ s.tables) : s.table t.name = t :=
  table_of_byName ((NamesAgree.of_nodup hnames).byName ht)

end SchemaIR

end Untangled.Schema
