import Untangled.DesiredSchema

/-!
# Generated names

Names of tables, indexes and sequences share one namespace of the database.
Which definitions give distinct names is said through the words of a name, the
parts between its underscores.
-/

namespace Untangled.Mapping

open PythonText Untangled.Schema

def indexNames (s : SchemaIR) : List String :=
  s.tables.flatMap fun t => namesOf t.indexes

def relationNames (s : SchemaIR) : List String :=
  namesOf s.tables ++ indexNames s ++ namesOf s.sequences

structure NamesDistinct (s : SchemaIR) : Prop where
  relations : (relationNames s).Nodup
  columns : ∀ t ∈ s.tables, (namesOf t.columns).Nodup
  constraints : ∀ t ∈ s.tables, (namesOf t.foreignKeys ++ namesOf t.checks).Nodup

/-- Every item is the one that a dictionary keeps under its name. -/
def AllKept {α : Type} [Named α] (items : List α) : Prop :=
  ∀ item ∈ items, byName items (name item) = some item

/-- The dictionaries that the diff makes lose nothing. -/
structure NothingDropped (s : SchemaIR) : Prop where
  tables : AllKept s.tables
  sequences : AllKept s.sequences
  columns : ∀ t ∈ s.tables, AllKept t.columns
  foreignKeys : ∀ t ∈ s.tables, AllKept t.foreignKeys
  indexes : ∀ t ∈ s.tables, AllKept t.indexes
  checks : ∀ t ∈ s.tables, AllKept t.checks

/-! ## Definitions whose names stay apart -/

/-- The words of a class and of the columns of a declaration, in a row. -/
def spelling (d : ClassDefinition) (columns : List String) : List (List Char) :=
  words d.nameSnake ++ columns.flatMap words

def spellings (definitions : List ClassDefinition) : List (List (List Char)) :=
  definitions.flatMap fun d => (uniqueDeclarations d).map (spelling d)

/-- The lower-cased prefixes of the friendly ids that get a sequence. -/
def sequencePrefixes (R : CharRules) (definitions : List ClassDefinition) :
    List String :=
  definitions.filterMap fun d =>
    d.friendlyIdAttr.bind fun a => a.idPrefix.map R.lower

structure NamesApart (R : CharRules) (definitions : List ClassDefinition) : Prop where
  classes : (definitions.map ClassDefinition.nameSnake).Nodup
  uniques : (spellings definitions).Nodup
  indexWords : ∀ d ∈ definitions, ∀ w ∈ spellings definitions,
    words d.nameSnake ≠ w ++ ["key".toList]
  sequenceWords : ∀ d ∈ definitions, ∀ p ∈ sequencePrefixes R definitions,
    words d.nameSnake ≠ ["friendly".toList, "id".toList, p.toList]

/-! ## The words of generated names -/

theorem words_joinNames {names : List String} (hne : names ≠ []) :
    words (joinNames names) = names.flatMap words := by
  induction names with
  | nil => exact absurd rfl hne
  | cons n rest ih =>
      cases rest with
      | nil => simp [joinNames]
      | cons m rest =>
          have hjoin : joinNames (n :: m :: rest) = n ++ "_" ++ joinNames (m :: rest) :=
            rfl
          rw [hjoin, words_join, ih (List.cons_ne_nil _ _)]
          rfl

theorem words_uniqueIndexName {d : ClassDefinition} {columns : List String}
    (hne : columns ≠ []) :
    words (uniqueIndexName d.nameSnake columns) =
      spelling d columns ++ ["key".toList] := by
  have hname : uniqueIndexName d.nameSnake columns =
      d.nameSnake ++ "_" ++ joinNames columns ++ "_" ++ "key" := by
    have hsuffix : "_key" = "_" ++ "key" := by decide
    rw [uniqueIndexName, hsuffix, ← String.append_assoc]
  rw [hname, words_join, words_join, words_joinNames hne, spelling,
    words_of_no_underscore (by decide : '_' ∉ "key".toList)]

section Accepted

variable {R : Scalars} {definitions : List ClassDefinition} {s : SchemaIR}
  (hvalid : ValidSet R definitions) (hdesired : DesiredOf R.toCharRules definitions s)

/-! ## The names of an accepted schema -/

section Lists

include hdesired

theorem tableNames_eq : namesOf s.tables = definitions.map ClassDefinition.nameSnake :=
  map_eq_of_forall₂ (hdesired.tables.imp fun _ _ hof => hof.name)

theorem indexNames_eq : indexNames s =
    definitions.flatMap fun d =>
      (uniqueDeclarations d).map (uniqueIndexName d.nameSnake) := by
  have hlists : s.tables.map (fun t => namesOf t.indexes) =
      definitions.map fun d => (uniqueDeclarations d).map (uniqueIndexName d.nameSnake) := by
    apply map_eq_of_forall₂
    apply hdesired.tables.imp
    intro d t hof
    rw [hof.indexes, namesOf, List.map_map]
    rfl
  rw [indexNames, List.flatMap_def, List.flatMap_def, hlists]

theorem sequenceNames_perm : (namesOf s.sequences).Perm
    ((sequencePrefixes R.toCharRules definitions).map ("friendly_id" ++ "_" ++ ·)) := by
  have hnames : (definitions.filterMap (sequenceFromDefinition R.toCharRules)).map
      SequenceIR.name =
      (sequencePrefixes R.toCharRules definitions).map ("friendly_id" ++ "_" ++ ·) := by
    rw [sequencePrefixes, List.map_filterMap, List.map_filterMap]
    apply List.filterMap_congr
    intro d _
    simp only [sequenceFromDefinition, Option.map_bind, Function.comp_def, Option.map_map]
    rfl
  rw [← hnames, hdesired.sequences]
  exact (sortedByName_perm _).map SequenceIR.name

theorem mem_tables_of {t : TableIR} (ht : t ∈ s.tables) :
    ∃ d ∈ definitions, TableOf d t :=
  exists_of_mem_forall₂ hdesired.tables ht

end Lists

/-! ## Names that are always distinct -/

theorem checkConstraintName_inj {t : String} {i j : ℕ}
    (h : checkConstraintName t i = checkConstraintName t j) : i = j := by
  have htext : Nat.repr i = Nat.repr j := (String.append_right_inj _).mp h
  have hdigits := congrArg (fun text => Nat.ofDigitChars 10 text.toList 0) htext
  simpa [Nat.toList_repr, Nat.ofDigitChars_ten_toDigits] using hdigits

theorem foreignKeyConstraintName_inj {t c c' : String}
    (h : foreignKeyConstraintName t [c] = foreignKeyConstraintName t [c']) : c = c' := by
  have hfront : t ++ "_" ++ c = t ++ "_" ++ c' := (String.append_left_inj _).mp h
  exact (String.append_right_inj _).mp hfront

theorem foreignKey_ne_check_name (t c : String) (i : ℕ) :
    foreignKeyConstraintName t [c] ≠ checkConstraintName t i := by
  intro h
  have hlast := congrArg (fun n => n.toList.getLast?) h
  have hfk : (foreignKeyConstraintName t [c]).toList.getLast? = some 'y' := by
    rw [foreignKeyConstraintName, String.toList_append, List.getLast?_append]
    rfl
  have hdigits : (toString i).toList = Nat.toDigits 10 i := Nat.toList_repr
  have hne : Nat.toDigits 10 i ≠ [] := Nat.toDigits_ne_nil
  have hcheck : (checkConstraintName t i).toList.getLast? =
      some ((Nat.toDigits 10 i).getLast hne) := by
    rw [checkConstraintName, String.toList_append, hdigits, List.getLast?_append,
      List.getLast?_eq_some_getLast hne]
    rfl
  rw [hfk, hcheck] at hlast
  have hdigit := Nat.isDigit_of_mem_toDigits (by decide) (by decide)
    (List.getLast_mem hne)
  rw [← Option.some.inj hlast] at hdigit
  revert hdigit
  decide

section Tables

variable {d : ClassDefinition} {t : TableIR}

theorem columns_nodup (hd : d.Valid R) (hof : TableOf d t) : (namesOf t.columns).Nodup := by
  rw [hof.columns]
  refine List.Nodup.append (by decide) hd.attributes.names ?_
  intro n hsystem hattribute
  rcases List.mem_map.mp hattribute with ⟨a, ha, rfl⟩
  exact hd.attributes.notSystem a ha hsystem

/-- The columns that have a foreign key. -/
def foreignKeyColumns (d : ClassDefinition) : List String :=
  ["created_by", "updated_by"] ++
    (d.attributes.filter fun a => a.references.isSome).map AttributeDefinition.nameSnake

theorem foreignKeyNames_eq (hof : TableOf d t) : namesOf t.foreignKeys =
    (foreignKeyColumns d).map fun c => foreignKeyConstraintName d.nameSnake [c] := by
  have hreferences : (d.attributes.filterMap (referenceForeignKey d.nameSnake)).map
      ForeignKeyIR.name =
      ((d.attributes.filter fun a => a.references.isSome).map
        AttributeDefinition.nameSnake).map
          fun c => foreignKeyConstraintName d.nameSnake [c] := by
    induction d.attributes with
    | nil => rfl
    | cons a rest ih =>
        cases hreference : a.references with
        | none => simpa [referenceForeignKey, hreference] using ih
        | some c => simpa [referenceForeignKey, hreference] using ih
  rw [hof.foreignKeys, namesOf, List.map_append, foreignKeyColumns, List.map_append]
  exact congrArg₂ (· ++ ·) rfl hreferences

theorem foreignKeyColumns_nodup (hd : d.Valid R) : (foreignKeyColumns d).Nodup := by
  have hsublist : ((d.attributes.filter fun a => a.references.isSome).map
      AttributeDefinition.nameSnake).Sublist
      (d.attributes.map AttributeDefinition.nameSnake) :=
    List.Sublist.map _ List.filter_sublist
  refine List.Nodup.append (by decide) (hd.attributes.names.sublist hsublist) ?_
  intro n hsystem hattribute
  rcases List.mem_map.mp (hsublist.subset hattribute) with ⟨a, ha, rfl⟩
  apply hd.attributes.notSystem a ha
  revert hsystem
  generalize a.nameSnake = n
  intro hsystem
  fin_cases hsystem <;> decide

theorem constraints_nodup (hd : d.Valid R) (hof : TableOf d t) :
    (namesOf t.foreignKeys ++ namesOf t.checks).Nodup := by
  have hchecks : namesOf t.checks =
      d.checkConstraints.zipIdx.map fun c => checkConstraintName d.nameSnake (c.2 + 1) := by
    rw [hof.checks, tableChecks, namesOf, List.map_map]
    rfl
  rw [foreignKeyNames_eq hof, hchecks]
  refine List.Nodup.append ?_ ?_ ?_
  · exact (foreignKeyColumns_nodup hd).map fun _ _ => foreignKeyConstraintName_inj
  · have hindices : (d.checkConstraints.zipIdx.map Prod.snd).Nodup := by
      rw [List.zipIdx_map_snd]
      exact List.nodup_range'
    have hnames : (d.checkConstraints.zipIdx.map Prod.snd).map
        (fun i => checkConstraintName d.nameSnake (i + 1)) =
        d.checkConstraints.zipIdx.map fun c => checkConstraintName d.nameSnake (c.2 + 1) := by
      rw [List.map_map]
      rfl
    rw [← hnames]
    apply hindices.map
    intro i j h
    exact Nat.succ_injective (checkConstraintName_inj h)
  · intro n hfk hcheck
    rcases List.mem_map.mp hfk with ⟨c, _, rfl⟩
    rcases List.mem_map.mp hcheck with ⟨x, _, heq⟩
    exact foreignKey_ne_check_name _ _ _ heq.symm

end Tables

/-! ## Relations -/

section Columns

variable {d : ClassDefinition}

/-- Unique declarations name attributes, at least one. -/
theorem uniqueDeclarations_valid (hd : d.Valid R) {columns : List String}
    (hcolumns : columns ∈ uniqueDeclarations d) :
    UniqueColumnsValid (d.attributes.map AttributeDefinition.nameSnake) columns := by
  rcases List.mem_append.mp hcolumns with hcolumns | hcolumns
  · rcases List.mem_map.mp hcolumns with ⟨a, ha, rfl⟩
    have hattribute : a ∈ d.attributes := (List.mem_filter.mp ha).1
    constructor
    · exact List.cons_ne_nil _ _
    · intro c hc
      rw [List.mem_singleton.mp hc]
      exact List.mem_map.mpr ⟨a, hattribute, rfl⟩
  · exact hd.uniques columns hcolumns

theorem id_not_unique (hd : d.Valid R) {columns : List String}
    (hcolumns : columns ∈ uniqueDeclarations d) : "id" ∉ columns := by
  intro hid
  have hmem := (uniqueDeclarations_valid hd hcolumns).2 "id" hid
  rcases List.mem_map.mp hmem with ⟨a, ha, hname⟩
  apply hd.attributes.notSystem a ha
  rw [hname]
  decide

end Columns

include hvalid

theorem map_words_indexNames (hdesired : DesiredOf R.toCharRules definitions s) :
    (indexNames s).map words = (spellings definitions).map (· ++ ["key".toList]) := by
  rw [indexNames_eq hdesired, spellings, List.map_flatMap, List.map_flatMap]
  apply List.flatMap_congr
  intro d hd
  rw [List.map_map, List.map_map]
  apply List.map_congr_left
  intro columns hcolumns
  exact words_uniqueIndexName (uniqueDeclarations_valid (hvalid.classes d hd) hcolumns).1

theorem indexNames_nodup_iff (hdesired : DesiredOf R.toCharRules definitions s) :
    (indexNames s).Nodup ↔ (spellings definitions).Nodup := by
  have hwords : ((indexNames s).map words).Nodup ↔ (indexNames s).Nodup :=
    List.nodup_map_iff fun _ _ => words_inj
  have happend : ((spellings definitions).map (· ++ ["key".toList])).Nodup ↔
      (spellings definitions).Nodup :=
    List.nodup_map_iff fun _ _ => List.append_cancel_right
  rw [← hwords, map_words_indexNames hvalid hdesired, happend]

theorem mem_indexNames_iff (hdesired : DesiredOf R.toCharRules definitions s)
    {n : String} : n ∈ indexNames s ↔
      ∃ w ∈ spellings definitions, words n = w ++ ["key".toList] := by
  constructor
  · intro hn
    have hmem := List.mem_map_of_mem (f := words) hn
    rw [map_words_indexNames hvalid hdesired] at hmem
    rcases List.mem_map.mp hmem with ⟨w, hw, heq⟩
    exact ⟨w, hw, heq.symm⟩
  · rintro ⟨w, hw, heq⟩
    have hmem := List.mem_map_of_mem (f := (· ++ ["key".toList])) hw
    rw [← map_words_indexNames hvalid hdesired, ← heq] at hmem
    rcases List.mem_map.mp hmem with ⟨m, hm, hwords⟩
    rw [← words_inj hwords]
    exact hm

/-- A friendly id has an alphanumeric prefix, which loading keeps apart from the
others. -/
theorem sequencePrefixes_sublist :
    (sequencePrefixes R.toCharRules definitions).Sublist
      (prefixKeys R definitions) := by
  have hclasses := hvalid.classes
  clear hvalid
  induction definitions with
  | nil => exact List.Sublist.refl _
  | cons d rest ih =>
      have hrest := ih fun d' hd' => hclasses d' (.tail _ hd')
      have hhead : (d.friendlyIdAttr.bind fun a => a.idPrefix.map R.lower).toList.Sublist
          ((d.attributes.filterMap friendlyIdPrefix).map R.lower) := by
        cases hfriendly : d.friendlyIdAttr with
        | none => exact List.nil_sublist _
        | some a =>
            have htype : a.typeName = "friendly_id" := by
              simpa using List.find?_some hfriendly
            have hmem : a ∈ d.attributes := List.mem_of_find?_eq_some hfriendly
            rcases ((hclasses d (.head _)).attributes.each a hmem).friendly htype with
              ⟨p, hp, _⟩
            have hkey : p ∈ d.attributes.filterMap friendlyIdPrefix :=
              List.mem_filterMap.mpr ⟨a, hmem, by rw [friendlyIdPrefix, if_pos htype, hp]⟩
            rw [Option.bind_some, hp]
            exact List.singleton_sublist.mpr (List.mem_map_of_mem hkey)
      have hcons : sequencePrefixes R.toCharRules (d :: rest) =
          (d.friendlyIdAttr.bind fun a => a.idPrefix.map R.lower).toList ++
            sequencePrefixes R.toCharRules rest := by
        unfold sequencePrefixes
        rw [List.filterMap_cons]
        split
        · rename_i hnone
          rw [hnone]
          rfl
        · rename_i p hsome
          rw [hsome]
          rfl
      rw [hcons]
      exact hhead.append hrest

theorem underscore_not_mem_prefixes {p : String}
    (hp : p ∈ sequencePrefixes R.toCharRules definitions) : '_' ∉ p.toList := by
  rcases List.mem_filterMap.mp hp with ⟨d, hd, hbind⟩
  rcases Option.bind_eq_some_iff.mp hbind with ⟨a, hfriendly, hmap⟩
  rcases Option.map_eq_some_iff.mp hmap with ⟨q, hq, rfl⟩
  have htype : a.typeName = "friendly_id" := by
    simpa using List.find?_some hfriendly
  rcases ((hvalid.classes d hd).attributes.each a
    (List.mem_of_find?_eq_some hfriendly)).friendly htype with ⟨q', hq', halnum⟩
  rw [hq] at hq'
  cases hq'
  exact R.toCharRules.underscore_not_mem_lower halnum

theorem mem_sequenceNames_iff (hdesired : DesiredOf R.toCharRules definitions s)
    {n : String} : n ∈ namesOf s.sequences ↔
      ∃ p ∈ sequencePrefixes R.toCharRules definitions,
        words n = ["friendly".toList, "id".toList, p.toList] := by
  rw [(sequenceNames_perm hdesired).mem_iff, List.mem_map]
  have hwords : ∀ p ∈ sequencePrefixes R.toCharRules definitions,
      words ("friendly_id" ++ "_" ++ p) =
        ["friendly".toList, "id".toList, p.toList] := by
    intro p hp
    rw [words_join, words_of_no_underscore (underscore_not_mem_prefixes hvalid hp)]
    rfl
  constructor
  · rintro ⟨p, hp, rfl⟩
    exact ⟨p, hp, hwords p hp⟩
  · rintro ⟨p, hp, heq⟩
    exact ⟨p, hp, words_inj ((hwords p hp).trans heq.symm)⟩

theorem sequenceNames_nodup (hdesired : DesiredOf R.toCharRules definitions s) :
    (namesOf s.sequences).Nodup := by
  rw [(sequenceNames_perm hdesired).nodup_iff]
  apply List.Nodup.map
  · intro p q h
    exact (String.append_right_inj _).mp h
  · exact hvalid.prefixes.sublist (sequencePrefixes_sublist hvalid)

/-- An index would need a column `id` to be named like a sequence. -/
theorem index_ne_sequence (hdesired : DesiredOf R.toCharRules definitions s)
    {n : String} (hindex : n ∈ indexNames s) : n ∉ namesOf s.sequences := by
  intro hsequence
  rcases (mem_sequenceNames_iff hvalid hdesired).mp hsequence with ⟨p, _, hp⟩
  rcases (mem_indexNames_iff hvalid hdesired).mp hindex with ⟨w, hw, hn⟩
  rcases List.mem_flatMap.mp hw with ⟨d, hd, hw⟩
  rcases List.mem_map.mp hw with ⟨columns, hcolumns, rfl⟩
  have hfront : words d.nameSnake ++ columns.flatMap words =
      ["friendly".toList, "id".toList] :=
    List.append_inj_left' (hn.symm.trans hp) (show ["key".toList].length = 1 from rfl)
  have hvalidColumns := uniqueDeclarations_valid (hvalid.classes d hd) hcolumns
  cases columns with
  | nil => exact hvalidColumns.1 rfl
  | cons c rest =>
      cases hclass : words d.nameSnake with
      | nil => exact words_ne_nil _ hclass
      | cons head more =>
          cases hcolumn : words c with
          | nil => exact words_ne_nil _ hcolumn
          | cons first others =>
              rw [hclass, List.flatMap_cons, hcolumn] at hfront
              have hlength := congrArg List.length hfront
              simp only [List.length_append, List.length_cons, List.length_nil] at hlength
              have hmore : more = [] := List.length_eq_zero_iff.mp (by omega)
              have hothers : others = [] := List.length_eq_zero_iff.mp (by omega)
              rw [hmore, hothers] at hfront
              have hfirst : first = "id".toList := by
                simp only [List.cons_append, List.nil_append, List.cons.injEq] at hfront
                exact hfront.2.1
              have hid : c = "id" := by
                apply words_inj
                rw [hcolumn, hothers, hfirst]
                decide
              apply id_not_unique (hvalid.classes d hd) hcolumns
              rw [hid]
              exact List.mem_cons_self

/-- Relations have distinct names when the words of the definitions differ. -/
theorem relationNames_nodup_iff (hdesired : DesiredOf R.toCharRules definitions s) :
    (relationNames s).Nodup ↔ NamesApart R.toCharRules definitions := by
  have hsequences := sequenceNames_nodup hvalid hdesired
  rw [relationNames, List.nodup_append', List.nodup_append',
    indexNames_nodup_iff hvalid hdesired, tableNames_eq hdesired]
  constructor
  · rintro ⟨⟨hclasses, huniques, hindexes⟩, _, hapart⟩
    refine ⟨hclasses, huniques, ?_, ?_⟩
    · intro d hd w hw heq
      exact hindexes (List.mem_map_of_mem hd)
        ((mem_indexNames_iff hvalid hdesired).mpr ⟨w, hw, heq⟩)
    · intro d hd p hp heq
      exact hapart (List.mem_append_left _ (List.mem_map_of_mem hd))
        ((mem_sequenceNames_iff hvalid hdesired).mpr ⟨p, hp, heq⟩)
  · intro happart
    refine ⟨⟨happart.classes, happart.uniques, ?_⟩, hsequences, ?_⟩
    · intro n hclass hindex
      rcases List.mem_map.mp hclass with ⟨d, hd, rfl⟩
      rcases (mem_indexNames_iff hvalid hdesired).mp hindex with ⟨w, hw, heq⟩
      exact happart.indexWords d hd w hw heq
    · intro n hother hsequence
      rcases List.mem_append.mp hother with hclass | hindex
      · rcases List.mem_map.mp hclass with ⟨d, hd, rfl⟩
        rcases (mem_sequenceNames_iff hvalid hdesired).mp hsequence with ⟨p, hp, heq⟩
        exact happart.sequenceWords d hd p hp heq
      · exact index_ne_sequence hvalid hdesired hindex hsequence

theorem namesDistinct_iff (hdesired : DesiredOf R.toCharRules definitions s) :
    NamesDistinct s ↔ NamesApart R.toCharRules definitions := by
  rw [← relationNames_nodup_iff hvalid hdesired]
  constructor
  · intro hdistinct
    exact hdistinct.relations
  · intro hrelations
    refine ⟨hrelations, ?_, ?_⟩
    · intro t ht
      rcases mem_tables_of hdesired ht with ⟨d, hd, hof⟩
      exact columns_nodup (hvalid.classes d hd) hof
    · intro t ht
      rcases mem_tables_of hdesired ht with ⟨d, hd, hof⟩
      exact constraints_nodup (hvalid.classes d hd) hof

end Accepted

/-! ## Nothing is dropped -/

theorem allKept_of_nodup {α : Type} [Named α] {items : List α}
    (hnodup : (namesOf items).Nodup) : AllKept items :=
  fun _ hitem => (NamesAgree.of_nodup hnodup).byName hitem

theorem NamesDistinct.nothingDropped {s : SchemaIR} (hdistinct : NamesDistinct s) :
    NothingDropped s := by
  have hrelations := hdistinct.relations
  rw [relationNames, List.nodup_append', List.nodup_append'] at hrelations
  rcases hrelations with ⟨⟨htables, hindexes, _⟩, hsequences, _⟩
  rw [indexNames, List.nodup_flatMap] at hindexes
  refine ⟨allKept_of_nodup htables, allKept_of_nodup hsequences, ?_, ?_, ?_, ?_⟩
  · intro t ht
    exact allKept_of_nodup (hdistinct.columns t ht)
  · intro t ht
    have hconstraints := hdistinct.constraints t ht
    exact allKept_of_nodup (List.Nodup.of_append_left hconstraints)
  · intro t ht
    exact allKept_of_nodup (hindexes.1 t ht)
  · intro t ht
    have hconstraints := hdistinct.constraints t ht
    exact allKept_of_nodup (List.Nodup.of_append_right hconstraints)

/-! ## Accepted definitions have a schema -/

theorem mapM_ok_of_forall {α β : Type} {f : α → Except String β} {items : List α}
    (hf : ∀ a ∈ items, ∃ b, f a = .ok b) : ∃ results, items.mapM f = .ok results := by
  induction items with
  | nil => exact ⟨[], rfl⟩
  | cons a items ih =>
      rcases hf a (.head _) with ⟨b, hb⟩
      rcases ih fun a' ha' => hf a' (.tail _ ha') with ⟨rest, hrest⟩
      refine ⟨b :: rest, ?_⟩
      rw [List.mapM_cons, hb, hrest]
      rfl

theorem tableFromDefinition_total {R : Scalars} {d : ClassDefinition} (hd : d.Valid R) :
    ∃ t, tableFromDefinition d = .ok t := by
  have hsystem : ∃ columns, systemFields.mapM systemColumn = .ok columns :=
    ⟨_, rfl⟩
  have hattributes : ∃ columns, d.attributes.mapM attributeColumn = .ok columns := by
    apply mapM_ok_of_forall
    intro a ha
    rcases postgresType_supported (hd.attributes.each a ha).supported with ⟨t, ht⟩
    refine ⟨⟨a.nameSnake, t, !a.required⟩, ?_⟩
    rw [attributeColumn, ht]
    rfl
  rcases hsystem with ⟨systemColumns, hsystem⟩
  rcases hattributes with ⟨columns, hcolumns⟩
  unfold tableFromDefinition
  rw [hsystem, hcolumns]
  exact ⟨_, rfl⟩

theorem desiredSchema_total {R : Scalars} {definitions : List ClassDefinition}
    (hvalid : ValidSet R definitions)
    (huser : validatePlatformDefinitions definitions = .ok ()) :
    ∃ s, desiredSchemaFromClasses R.toCharRules definitions = .ok s := by
  rcases mapM_ok_of_forall (f := tableFromDefinition) fun d hd =>
    tableFromDefinition_total (hvalid.classes d hd) with ⟨tables, htables⟩
  unfold desiredSchemaFromClasses
  rw [huser, htables]
  exact ⟨_, rfl⟩

/-- The schema of accepted definitions has distinct names, and loses nothing in
the dictionaries of a diff, exactly when the words of the definitions differ. -/
theorem generated_names_distinct_iff {R : Scalars}
    {directory : Option (List DefinitionFile)} {definitions : List ClassDefinition}
    (hload : loadDefinitions R directory = .ok definitions)
    (huser : validatePlatformDefinitions definitions = .ok ()) :
    ∃ s, desiredSchemaFromClasses R.toCharRules definitions = .ok s ∧
      (NamesDistinct s ∧ NothingDropped s ↔ NamesApart R.toCharRules definitions) := by
  have hvalid := loadDefinitions_valid hload
  rcases desiredSchema_total hvalid huser with ⟨s, hs⟩
  refine ⟨s, hs, ?_⟩
  rw [← namesDistinct_iff hvalid (desiredSchemaFromClasses_spec hs)]
  constructor
  · intro h
    exact h.1
  · intro hdistinct
    exact ⟨hdistinct, hdistinct.nothingDropped⟩

/-! ## Two classes with one index name -/

theorem toLower_eq_underscore {c : Char} (h : c.toLower = '_') : c = '_' := by
  unfold Char.toLower at h
  split at h
  · rename_i hupper
    have hval : (c.val + 32).toNat = 95 := congrArg (fun c : Char => c.val.toNat) h
    have hleast : 65 ≤ c.val.toNat := UInt32.le_iff_toNat_le.mp hupper.1
    have hgreatest : c.val.toNat ≤ 90 := UInt32.le_iff_toNat_le.mp hupper.2
    have hsum : (c.val + 32).toNat = (c.val.toNat + 32) % 2 ^ 32 := UInt32.toNat_add _ _
    omega
  · exact h

/-- The tables of characters on ASCII, where no decimal and no identifier is
converted. -/
def asciiScalars : Scalars where
  lower s := String.ofList (s.toList.map Char.toLower)
  isAlnum := Char.isAlphanum
  underscore_not_alnum := by decide
  underscore_of_lower := by
    intro s h
    rw [String.toList_ofList] at h
    rcases List.mem_map.mp h with ⟨c, hc, hlower⟩
    rw [← toLower_eq_underscore hlower]
    exact hc
  floatOfInt i := some (toString i ++ ".0")
  decimal _ := none
  uuid _ := none
  exceeds _ _ := false

def classFile (nameSnake : String) (attributes : List String) : DefinitionFile :=
  ⟨nameSnake ++ ".yaml", some (.map [(.str "name", .str nameSnake),
    (.str "display_name", .str nameSnake), (.str "description", .str nameSnake),
    (.str "attributes", .map (attributes.map fun a =>
      (.str a, .map [(.str "type", .str "integer"), (.str "unique", .bool true)])))])⟩

def plainClass (nameSnake : String) (attributes : List String) : ClassDefinition :=
  ⟨nameSnake, nameSnake, nameSnake,
    attributes.map fun a =>
      ⟨a, "integer", false, none, true, none, none, none, none,
        defaultFriendlyIdPadWidth, none⟩,
    nameSnake ++ ".yaml", none, false, [], [], []⟩

/-- Two classes whose unique indexes are `a_b_c_key` and `a_b_d_key`. -/
def closeClasses : List ClassDefinition :=
  [plainClass "a" ["b_c"], plainClass "a_b" ["d"], plainClass "user" []]

set_option maxRecDepth 4000 in
theorem user_names_distinct_iff :
    ∃ s, desiredSchemaFromClasses asciiScalars.toCharRules closeClasses = .ok s ∧
      (NamesDistinct s ∧ NothingDropped s ↔
        NamesApart asciiScalars.toCharRules closeClasses) :=
  generated_names_distinct_iff (R := asciiScalars)
    (show loadDefinitions asciiScalars
      (some [classFile "a" ["b_c"], classFile "a_b" ["d"], classFile "user" []]) =
        .ok closeClasses from rfl) rfl

def collidingFiles : List DefinitionFile :=
  [classFile "a" ["b_c"], classFile "a_b" ["c"], classFile "user" []]

def collidingClasses : List ClassDefinition :=
  [plainClass "a" ["b_c"], plainClass "a_b" ["c"], plainClass "user" []]

set_option maxRecDepth 4000 in
/-- Both unique attributes get the index `a_b_c_key`. -/
theorem unique_index_names_collide :
    loadDefinitions asciiScalars (some collidingFiles) = .ok collidingClasses ∧
    validatePlatformDefinitions collidingClasses = .ok () ∧
    ∃ s, desiredSchemaFromClasses asciiScalars.toCharRules collidingClasses = .ok s ∧
      indexNames s = ["a_b_c_key", "a_b_c_key"] ∧ ¬NamesDistinct s := by
  refine ⟨rfl, rfl, _, rfl, by decide, ?_⟩
  intro hdistinct
  have hrelations := hdistinct.relations
  revert hrelations
  decide

end Untangled.Mapping
