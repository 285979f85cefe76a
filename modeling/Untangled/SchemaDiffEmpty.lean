import Untangled.SchemaDiffCorrect
import Untangled.SchemaSerialize

/-!
# Empty plans

A plan is empty when the two schemas list the same members, primary keys aside;
the canonical bytes are the same when the primary keys are the same too.
-/

namespace Untangled.Schema

open SortedJson

structure SchemaIR.AlikeButKeys (a b : SchemaIR) : Prop where
  tables : (namesOf a.tables).Perm (namesOf b.tables)
  members : ∀ n ∈ namesOf a.tables, (a.table n).AlikeButKey (b.table n)
  sequences : (namesOf a.sequences).Perm (namesOf b.sequences)

def SchemaIR.KeysAgree (a b : SchemaIR) : Prop :=
  ∀ n ∈ namesOf a.tables, (a.table n).primaryKey = (b.table n).primaryKey

/-- The schemas list the same members and still differ, in a primary key. -/
def OnlyPrimaryKeysDiffer (desired current : SchemaIR) : Prop :=
  desired.AlikeButKeys current ∧ ¬desired.KeysAgree current

/-! ## Plans of schemas that are alike -/

section Members

variable {α : Type} [Named α] {items items' : List α}

theorem NamesAgree.perm (hagree : NamesAgree items) (hperm : items.Perm items') :
    NamesAgree items' :=
  fun a ha b hb hname =>
    hagree a (hperm.mem_iff.mpr ha) b (hperm.mem_iff.mpr hb) hname

theorem byName_perm (hagree : NamesAgree items) (hperm : items.Perm items') (n : String) :
    byName items n = byName items' n := by
  have hnames : n ∈ namesOf items ↔ n ∈ namesOf items' := (hperm.map name).mem_iff
  by_cases hn : n ∈ namesOf items
  · rcases mem_namesOf.mp hn with ⟨a, ha, rfl⟩
    rw [hagree.byName ha, (hagree.perm hperm).byName (hperm.mem_iff.mp ha)]
  · rw [byName_eq_none.mpr hn, byName_eq_none.mpr fun h => hn (hnames.mpr h)]

variable [DecidableEq α] {members : TableIR → List α} {desired current : SchemaIR}

theorem dropMembers_eq_nil {make : String → String → MigrationOp}
    (hdrop : dropNames desired current = [])
    (hsame : ∀ t n, byName (members (desired.table t)) n =
      byName (members (current.table t)) n) :
    dropMembers members make desired current = [] := by
  apply List.eq_nil_iff_forall_not_mem.mpr
  intro op hop
  rcases mem_dropMembers.mp hop with ⟨t, _, n, hn, rfl⟩ | ⟨t, ht, _⟩
  · exact (mem_removedOrChanged.mp hn).2 (hsame t n)
  · rw [hdrop] at ht
    cases ht

theorem addMembers_eq_nil {make : String → α → MigrationOp} {order : List String}
    (hagree : ∀ t, NamesAgree (members (desired.table t)))
    (hsame : ∀ t n, byName (members (desired.table t)) n =
      byName (members (current.table t)) n) :
    addMembers members make order desired current = [] := by
  apply List.eq_nil_iff_forall_not_mem.mpr
  intro op hop
  rcases mem_addMembers.mp hop with ⟨t, _, m, hm, hchanged, rfl⟩
  apply hchanged
  rw [← hsame, (hagree t).byName hm]

end Members

section Plan

variable {desired current : SchemaIR} {defaults : ColumnAddDefaults}
  (hdesired : desired.WellFormed) (hcurrent : current.WellFormed)
include hdesired hcurrent

omit hcurrent in
theorem diff_empty_of_alike (halike : desired.AlikeButKeys current) :
    diffSchemas desired current defaults = [] := by
  have hnames : ∀ n, n ∈ namesOf desired.tables ↔ n ∈ namesOf current.tables :=
    fun n => halike.tables.mem_iff
  have hdrop : dropNames desired current = [] := by
    apply List.eq_nil_iff_forall_not_mem.mpr
    intro n hn
    rw [mem_dropNames, hnames] at hn
    exact hn.2 hn.1
  have hcreate : createNames desired current = [] := by
    apply List.eq_nil_iff_forall_not_mem.mpr
    intro n hn
    rw [mem_createNames, hnames] at hn
    exact hn.2 hn.1
  -- tables of a name that neither schema has are empty
  have hmembers : ∀ n, (desired.table n).AlikeButKey (current.table n) := by
    intro n
    by_cases hn : n ∈ namesOf desired.tables
    · exact halike.members n hn
    · have hn' : n ∉ namesOf current.tables := fun h => hn ((hnames n).mpr h)
      rw [SchemaIR.table, SchemaIR.table, byName_eq_none.mpr hn, byName_eq_none.mpr hn']
      exact ⟨.refl _, .refl _, .refl _, .refl _⟩
  have hagree := hdesired.unambiguous
  have hcolumns : ∀ t n, byName (desired.table t).columns n =
      byName (current.table t).columns n :=
    fun t n => byName_perm (hagree.columns t) (hmembers t).columns n
  have hforeignKeys : ∀ t n, byName (desired.table t).foreignKeys n =
      byName (current.table t).foreignKeys n :=
    fun t n => byName_perm (hagree.foreignKeys t) (hmembers t).foreignKeys n
  have hindexes : ∀ t n, byName (desired.table t).indexes n =
      byName (current.table t).indexes n :=
    fun t n => byName_perm (hagree.indexes t) (hmembers t).indexes n
  have hchecks : ∀ t n, byName (desired.table t).checks n =
      byName (current.table t).checks n :=
    fun t n => byName_perm (hagree.checks t) (hmembers t).checks n
  have hcolumnNames : ∀ t n, n ∈ namesOf (desired.table t).columns ↔
      n ∈ namesOf (current.table t).columns :=
    fun t n => ((hmembers t).columns.map name).mem_iff
  have hchange : changeColumns desired current = [] := by
    apply List.eq_nil_iff_forall_not_mem.mpr
    intro op hop
    rcases mem_changeColumns.mp hop with
      ⟨t, _, ⟨n, hn, hgone, _⟩ | ⟨n, want, has, hwant, hhas, hop⟩⟩
    · exact hgone ((hcolumnNames t n).mpr hn)
    · rw [hcolumns, hhas] at hwant
      rw [Option.some.inj hwant] at hop
      rcases mem_alterColumn.mp hop with ⟨hne, _⟩ | ⟨hne, _⟩
      · exact hne rfl
      · exact hne rfl
  have hadd : addColumns desired current defaults = [] := by
    apply List.eq_nil_iff_forall_not_mem.mpr
    intro op hop
    rcases mem_addColumns.mp hop with ⟨t, _, c, hc, hnew, _⟩
    exact hnew ((hcolumnNames t c.name).mp (name_mem_namesOf hc))
  have hdropTables : dropTables desired current = [] := by
    apply List.eq_nil_iff_forall_not_mem.mpr
    intro op hop
    rcases mem_dropTables.mp hop with ⟨n, hn, _⟩
    rw [hdrop] at hn
    cases hn
  have hcreateTables : createTables desired current = [] := by
    apply List.eq_nil_iff_forall_not_mem.mpr
    intro op hop
    rcases mem_createTables.mp hop with ⟨n, hn, _⟩
    rw [hcreate] at hn
    cases hn
  have hdropSequences : dropSequences desired current = [] := by
    apply List.eq_nil_iff_forall_not_mem.mpr
    intro op hop
    rcases mem_dropSequences.mp hop with ⟨n, hn, hgone, _⟩
    exact hgone (halike.sequences.mem_iff.mpr hn)
  have hcreateSequences : createSequences desired current = [] := by
    apply List.eq_nil_iff_forall_not_mem.mpr
    intro op hop
    rcases mem_createSequences.mp hop with ⟨n, hn, s, hs, _⟩
    rcases byName_some hs with ⟨hmem, hname⟩
    have hwant := name_mem_namesOf hmem
    rw [hname] at hwant
    exact hn (halike.sequences.mem_iff.mp hwant)
  simp [diffSchemas, dropForeignKeys, dropIndexes, dropChecks, createIndexes,
    addForeignKeys, addChecks, hchange, hadd, hdropTables, hcreateTables,
    hdropSequences, hcreateSequences, dropMembers_eq_nil hdrop hforeignKeys,
    dropMembers_eq_nil hdrop hindexes, dropMembers_eq_nil hdrop hchecks,
    addMembers_eq_nil hagree.indexes hindexes,
    addMembers_eq_nil hagree.foreignKeys hforeignKeys,
    addMembers_eq_nil hagree.checks hchecks]

/-- An empty plan leaves the catalog, so it is the desired one already. -/
theorem alike_of_diff_empty (hempty : diffSchemas desired current defaults = []) :
    desired.AlikeButKeys current := by
  have hdescribes := hcurrent.describes desired
  have hrooted := hcurrent.rooted
  have hwant := hdesired.unambiguous
  have hstill : current.catalog.run (diffSchemas desired current defaults) =
      current.catalog := by
    rw [hempty]
    rfl
  have hnames : ∀ n, n ∈ namesOf current.tables ↔ n ∈ namesOf desired.tables := by
    intro n
    have hreached := @tables_reached _ _ _ defaults hdescribes n
    rwa [hstill, SchemaIR.catalog_hasTable] at hreached
  refine ⟨?_, ?_, ?_⟩
  · exact (List.perm_ext_iff_of_nodup hdesired.tables hcurrent.tables).mpr
      fun n => (hnames n).symm
  · intro n hn
    have hn' := (hnames n).mpr hn
    constructor
    · apply (List.perm_ext_iff_of_nodup (List.Nodup.of_map _ (hdesired.nodup_columns n))
        (List.Nodup.of_map _ (hcurrent.nodup_columns n))).mpr
      intro c
      have hreached := @columns_reached _ _ _ defaults hrooted hdescribes hwant ⟨n, c⟩
      rw [hstill, hcurrent.mem_columns] at hreached
      simpa [hn, hn'] using hreached.symm
    · apply (List.perm_ext_iff_of_nodup
        (List.Nodup.of_map _ (hdesired.nodup_foreignKeys n))
        (List.Nodup.of_map _ (hcurrent.nodup_foreignKeys n))).mpr
      intro fk
      have hreached := @foreignKeys_reached _ _ _ defaults hrooted hdescribes hwant
        hdesired.referencesExist ⟨n, fk⟩
      rw [hstill, hcurrent.mem_foreignKeys] at hreached
      simpa [hn, hn'] using hreached.symm
    · apply (List.perm_ext_iff_of_nodup (List.Nodup.of_map _ (hdesired.nodup_indexes n))
        (List.Nodup.of_map _ (hcurrent.nodup_indexes n))).mpr
      intro i
      have hreached := @indexes_reached _ _ _ defaults hrooted hdescribes hwant ⟨n, i⟩
      rw [hstill, hcurrent.mem_indexes] at hreached
      simpa [hn, hn'] using hreached.symm
    · apply (List.perm_ext_iff_of_nodup (List.Nodup.of_map _ (hdesired.nodup_checks n))
        (List.Nodup.of_map _ (hcurrent.nodup_checks n))).mpr
      intro c
      have hreached := @checks_reached _ _ _ defaults hrooted hdescribes hwant ⟨n, c⟩
      rw [hstill, hcurrent.mem_checks] at hreached
      simpa [hn, hn'] using hreached.symm
  · apply (List.perm_ext_iff_of_nodup hdesired.sequences hcurrent.sequences).mpr
    intro n
    have hreached := @sequences_reached _ _ _ defaults hdescribes hwant n
    rw [hstill, SchemaIR.catalog_hasSequence,
      or_iff_left (fun hleft => hleft.2 hleft.1)] at hreached
    exact hreached.symm

theorem diff_empty_iff : diffSchemas desired current defaults = [] ↔
    desired.AlikeButKeys current :=
  ⟨alike_of_diff_empty hdesired hcurrent, diff_empty_of_alike hdesired⟩

/-! ## Canonical bytes of schemas that are alike -/

omit hdesired hcurrent in
theorem canonicalBytes_iff_dict :
    canonicalBytes desired = canonicalBytes current ↔
      sortKeys (canonicalDict desired) = sortKeys (canonicalDict current) := by
  rw [canonicalBytes, canonicalBytes, String.toByteArray_inj, dumps_inj]

omit hdesired hcurrent in
/-- Every table finds a table with the same dictionary. -/
theorem table_dict_of_bytes
    (hsame : sortKeys (canonicalDict desired) = sortKeys (canonicalDict current)) :
    ∀ t ∈ desired.tables, ∃ t' ∈ current.tables,
      sortKeys (tableDict t) = sortKeys (tableDict t') := by
  intro t ht
  have htables := sortKeys_obj_mem hsame (k := "tables")
    (j := .arr ((sortedBy TableIR.name desired.tables).map tableDict)) (by simp)
  simp only [List.mem_cons, Prod.mk.injEq, List.not_mem_nil, or_false, String.reduceEq,
    false_and, true_and, false_or, exists_eq_left, sortKeys_arr_inj, List.map_map]
    at htables
  have hmem : sortKeys (tableDict t) ∈
      (sortedBy TableIR.name desired.tables).map (sortKeys ∘ tableDict) :=
    List.mem_map.mpr ⟨t, (sortedBy_perm _ _).mem_iff.mpr ht, rfl⟩
  rw [htables] at hmem
  rcases List.mem_map.mp hmem with ⟨t', ht', heq⟩
  exact ⟨t', (sortedBy_perm _ _).mem_iff.mp ht', heq.symm⟩

omit hdesired hcurrent in
theorem sequence_name_of_bytes
    (hsame : sortKeys (canonicalDict desired) = sortKeys (canonicalDict current))
    {n : String} (hn : n ∈ namesOf desired.sequences) : n ∈ namesOf current.sequences := by
  have hsequences := sortKeys_obj_mem hsame (k := "sequences")
    (j := .arr ((sortedBy SequenceIR.name desired.sequences).map sequenceDict)) (by simp)
  simp only [List.mem_cons, Prod.mk.injEq, List.not_mem_nil, or_false, String.reduceEq,
    false_and, true_and, exists_eq_left, sortKeys_arr_inj, List.map_map]
    at hsequences
  rcases mem_namesOf.mp hn with ⟨s, hs, rfl⟩
  have hmem : sortKeys (sequenceDict s) ∈
      (sortedBy SequenceIR.name desired.sequences).map (sortKeys ∘ sequenceDict) :=
    List.mem_map.mpr ⟨s, (sortedBy_perm _ _).mem_iff.mpr hs, rfl⟩
  rw [hsequences] at hmem
  rcases List.mem_map.mp hmem with ⟨s', hs', heq⟩
  have hname : s'.name = s.name := by
    have hkey := sortKeys_obj_mem heq (k := "name") (j := .str s'.name) (by simp)
    simpa [sortKeys] using hkey
  rw [name_sequence, ← hname]
  exact name_mem_namesOf ((sortedBy_perm _ _).mem_iff.mp hs')

theorem alike_of_bytes (hbytes : canonicalBytes desired = canonicalBytes current) :
    desired.AlikeButKeys current ∧ desired.KeysAgree current := by
  have hsame := canonicalBytes_iff_dict.mp hbytes
  have htable : ∀ n ∈ namesOf desired.tables, n ∈ namesOf current.tables ∧
      (desired.table n).primaryKey = (current.table n).primaryKey ∧
      (desired.table n).AlikeButKey (current.table n) := by
    intro n hn
    rcases mem_namesOf.mp hn with ⟨t, ht, rfl⟩
    rcases table_dict_of_bytes hsame t ht with ⟨t', ht', hdict⟩
    rcases tableDict_inj hdict with ⟨hname, hkey, halike⟩
    rw [name_table, SchemaIR.table_of_mem hdesired.tables ht, hname,
      SchemaIR.table_of_mem hcurrent.tables ht']
    exact ⟨name_mem_namesOf ht', hkey, halike⟩
  have hback : ∀ n ∈ namesOf current.tables, n ∈ namesOf desired.tables := by
    intro n hn
    rcases mem_namesOf.mp hn with ⟨t, ht, rfl⟩
    rcases table_dict_of_bytes hsame.symm t ht with ⟨t', ht', hdict⟩
    rw [name_table, (tableDict_inj hdict).1]
    exact name_mem_namesOf ht'
  refine ⟨⟨?_, fun n hn => (htable n hn).2.2, ?_⟩, fun n hn => (htable n hn).2.1⟩
  · exact (List.perm_ext_iff_of_nodup hdesired.tables hcurrent.tables).mpr
      fun n => ⟨fun hn => (htable n hn).1, hback n⟩
  · exact (List.perm_ext_iff_of_nodup hdesired.sequences hcurrent.sequences).mpr
      fun n => ⟨sequence_name_of_bytes hsame, sequence_name_of_bytes hsame.symm⟩

omit hdesired hcurrent in
/-- Sorted lists of one set of names have one list of names. -/
theorem map_name_sortedBy {α : Type} {key : α → String} {items items' : List α}
    (hperm : (items.map key).Perm (items'.map key)) :
    (sortedBy key items).map key = (sortedBy key items').map key := by
  have hpairwise : ∀ l : List α,
      ((sortedBy key l).map key).Pairwise fun a b => a ≤ b :=
    fun l => List.pairwise_map.mpr (sortedBy_pairwise key l)
  have hsorted : ((sortedBy key items).map key).Perm ((sortedBy key items').map key) :=
    ((sortedBy_perm key items).map key).trans
      (hperm.trans ((sortedBy_perm key items').map key).symm)
  exact List.Perm.eq_of_pairwise (fun _ _ _ _ => le_antisymm) (hpairwise items)
    (hpairwise items') hsorted

theorem bytes_of_alike (halike : desired.AlikeButKeys current)
    (hkeys : desired.KeysAgree current) :
    canonicalBytes desired = canonicalBytes current := by
  have hdict : ∀ n ∈ namesOf desired.tables,
      tableDict (desired.table n) = tableDict (current.table n) := by
    intro n hn
    apply tableDict_congr _ (hkeys n hn) (halike.members n hn)
    · exact hdesired.unambiguous.columns n
    · rw [SchemaIR.table_name, SchemaIR.table_name]
  -- a table is the one of its name
  have hbyName : ∀ s : SchemaIR, (namesOf s.tables).Nodup →
      (sortedBy TableIR.name s.tables).map tableDict =
        ((sortedBy TableIR.name s.tables).map TableIR.name).map
          fun n => tableDict (s.table n) := by
    intro s hs
    rw [List.map_map]
    apply List.map_congr_left
    intro t ht
    have hmem := (sortedBy_perm _ _).mem_iff.mp ht
    rw [Function.comp_apply, SchemaIR.table_of_mem hs hmem]
  have htableNames : (sortedBy TableIR.name desired.tables).map TableIR.name =
      (sortedBy TableIR.name current.tables).map TableIR.name :=
    map_name_sortedBy halike.tables
  have hsequenceNames :
      (sortedBy SequenceIR.name desired.sequences).map SequenceIR.name =
        (sortedBy SequenceIR.name current.sequences).map SequenceIR.name :=
    map_name_sortedBy halike.sequences
  have htables : (sortedBy TableIR.name desired.tables).map tableDict =
      (sortedBy TableIR.name current.tables).map tableDict := by
    rw [hbyName desired hdesired.tables, hbyName current hcurrent.tables,
      ← htableNames]
    apply List.map_congr_left
    intro n hn
    exact hdict n (((sortedBy_perm _ _).map TableIR.name).mem_iff.mp hn)
  have hsequences : (sortedBy SequenceIR.name desired.sequences).map sequenceDict =
      (sortedBy SequenceIR.name current.sequences).map sequenceDict := by
    have hname : sequenceDict = (fun n => SortedJson.Json.obj [("name", .str n)]) ∘ SequenceIR.name :=
      rfl
    rw [hname, ← List.map_map, ← List.map_map, hsequenceNames]
  rw [canonicalBytes, canonicalBytes, canonicalDict, canonicalDict, htables, hsequences]

theorem canonicalBytes_eq_iff : canonicalBytes desired = canonicalBytes current ↔
    desired.AlikeButKeys current ∧ desired.KeysAgree current :=
  ⟨alike_of_bytes hdesired hcurrent,
    fun halike => bytes_of_alike hdesired hcurrent halike.1 halike.2⟩

/-- An empty plan means the same bytes, and other hashes a plan with something to
do, unless nothing but primary keys differs. -/
theorem diff_empty_iff_same_bytes (defaults : ColumnAddDefaults) :
    ((diffSchemas desired current defaults = [] ↔
        canonicalBytes desired = canonicalBytes current) ∧
      ∀ sha256 : ByteArray → String,
        schemaHash sha256 desired ≠ schemaHash sha256 current →
          diffSchemas desired current defaults ≠ []) ↔
      ¬OnlyPrimaryKeysDiffer desired current := by
  rw [diff_empty_iff hdesired hcurrent, canonicalBytes_eq_iff hdesired hcurrent]
  constructor
  · rintro ⟨hiff, _⟩ ⟨halike, hkeys⟩
    exact hkeys (hiff.mp halike).2
  · intro hcondition
    have hkeys : desired.AlikeButKeys current → desired.KeysAgree current := by
      intro halike
      by_contra hdiffer
      exact hcondition ⟨halike, hdiffer⟩
    refine ⟨⟨fun halike => ⟨halike, hkeys halike⟩, fun hboth => hboth.1⟩, ?_⟩
    intro sha256 hhash hempty
    have halike := (diff_empty_iff hdesired hcurrent).mp hempty
    have hbytes := (canonicalBytes_eq_iff hdesired hcurrent).mpr ⟨halike, hkeys halike⟩
    exact hhash (congrArg sha256 hbytes)

end Plan

/-- A table keyed by one of its two columns. -/
def keyedBy (column : String) : SchemaIR where
  tables := [⟨"country", [⟨"code", "text", false⟩, ⟨"id", "uuid", false⟩], [column],
    [], [], []⟩]
  sequences := []

theorem keyedBy_wellFormed (column : String) : (keyedBy column).WellFormed := by
  constructor <;> simp [keyedBy, namesOf]

theorem primary_key_drift_undetected :
    ¬∀ desired current : SchemaIR, desired.WellFormed → current.WellFormed →
      ∀ defaults : ColumnAddDefaults,
        (diffSchemas desired current defaults = [] ↔
          canonicalBytes desired = canonicalBytes current) := by
  intro hclaim
  have hid := keyedBy_wellFormed "id"
  have hcode := keyedBy_wellFormed "code"
  have hempty : diffSchemas (keyedBy "id") (keyedBy "code") (fun _ _ => none) = [] := by
    decide
  have hbytes := (hclaim _ _ hid hcode fun _ _ => none).mp hempty
  have hkeys := (alike_of_bytes hid hcode hbytes).2 "country" (by decide)
  revert hkeys
  decide

theorem outdated_same_bytes_iff :
    ((diffSchemas cyclicSchema outdatedSchema (fun _ _ => none) = [] ↔
        canonicalBytes cyclicSchema = canonicalBytes outdatedSchema) ∧
      ∀ sha256 : ByteArray → String,
        schemaHash sha256 cyclicSchema ≠ schemaHash sha256 outdatedSchema →
          diffSchemas cyclicSchema outdatedSchema (fun _ _ => none) ≠ []) ↔
      ¬OnlyPrimaryKeysDiffer cyclicSchema outdatedSchema :=
  diff_empty_iff_same_bytes cyclicSchema_wellFormed outdatedSchema_wellFormed
    fun _ _ => none

end Untangled.Schema
