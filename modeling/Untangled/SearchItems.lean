import Untangled.SearchRows

/-!
# Items of a search

The item that each row of a table becomes, with and without the identities of the
rows that it references.  Aliases of joins have a double underscore, which no column
has, so nothing in a result row is overwritten.
-/

namespace Untangled.Search

open Mapping Records SqlExpressions SqlSelect

/-! ## What an item carries -/

def textOrNull : Option String → Value
  | some s => .text s
  | none => .null

/-- The identity is that of the row, under the display attribute and the friendly id
of its class. -/
structure IdentityOf (T : LoadedClass) (r : RowData) (identity : RelatedIdentity) :
    Prop where
  id : r "id" = .uuid identity.id
  hasDisplay : identity.hasDisplay = T.displayAttribute.isSome
  display : ∀ a ∈ T.displayAttribute, r a.nameSnake = textOrNull identity.displayValue
  noDisplay : T.displayAttribute = none → identity.displayValue = none
  hasFriendly : identity.hasFriendly = T.friendlyIdAttr.isSome
  friendly : ∀ a ∈ T.friendlyIdAttr, r a.nameSnake = textOrNull identity.friendlyValue
  noFriendly : T.friendlyIdAttr = none → identity.friendlyValue = none

section Spec

variable (isoformat : ℤ → String) {S : ClassSet} (db : Database S) (C : LoadedClass)

/-- The row that the foreign key references, as an identity. -/
def Referenced (row : RowData) (name target : String) (wire : WireValue) : Prop :=
  ∃ T r identity, S.byName target = some T ∧ r ∈ db.tables T.nameSnake ∧ r "id" = row name ∧
    IdentityOf T r identity ∧ wire = .identity identity

/-- The value of a column in an item: an identity for a foreign key of an enriched
item that is not null, and the value of the column otherwise. -/
structure FieldOf (enrich : Bool) (row : RowData) (name : String) (wire : WireValue) :
    Prop where
  plain : (enrich = false ∨ ∀ target, ¬ ReferencesClass C.toRecordClass name target) →
    serializeValue isoformat (row name) = .ok wire
  null : row name = .null → wire = .null
  referenced : enrich = true → ∀ target, ReferencesClass C.toRecordClass name target →
    row name ≠ .null → Referenced db row name target wire

structure ItemOf (enrich : Bool) (columns : List String) (row : RowData) (item : Item) :
    Prop where
  columns : item.map Prod.fst = columns
  id : ∃ id, row "id" = .uuid id ∧ ("id", .text id) ∈ item
  fields : ∀ field ∈ item, FieldOf isoformat db C enrich row field.1 field.2

end Spec

/-! ## Lookups -/

theorem lookup_of_unique {α β : Type} [DecidableEq α] {xs : List (α × β)} {k : α} {v : β}
    (hmem : (k, v) ∈ xs) (hunique : ∀ v', (k, v') ∈ xs → v' = v) : xs.lookup k = some v := by
  induction xs with
  | nil => cases hmem
  | cons x xs ih =>
      rcases x with ⟨k', v'⟩
      by_cases hk : k = k'
      · subst hk
        rw [List.lookup_cons_self, hunique v' (List.mem_cons_self ..)]
      · have hbeq : (k == k') = false := by simpa using hk
        have htail : (k, v) ∈ xs := by
          rcases List.mem_cons.mp hmem with h | h
          · cases h
            exact absurd rfl hk
          · exact h
        rw [List.lookup_cons, hbeq]
        exact ih htail fun w hw => hunique w (List.mem_cons_of_mem _ hw)

theorem mapM_ok_of_forall₂ {ε α β γ : Type} {f : β → Except ε γ} {P : α → γ → Prop}
    {xs : List α} {ys : List β}
    (h : List.Forall₂ (fun x y => ∃ z, f y = .ok z ∧ P x z) xs ys) :
    ∃ zs, ys.mapM f = .ok zs ∧ List.Forall₂ P xs zs := by
  induction h with
  | nil => exact ⟨[], rfl, .nil⟩
  | @cons x y xs ys hfirst _ ih =>
      rcases hfirst with ⟨z, hz, hP⟩
      rcases ih with ⟨zs, hzs, hPs⟩
      refine ⟨z :: zs, ?_, .cons hP hPs⟩
      rw [List.mapM_cons, hz]
      simp [hzs, bind, Except.bind, pure, Except.pure]

theorem mapM_ok_of_forall {ε α β : Type} {f : α → Except ε β} {P : α → β → Prop} {xs : List α}
    (h : ∀ x ∈ xs, ∃ y, f x = .ok y ∧ P x y) :
    ∃ ys, xs.mapM f = .ok ys ∧ List.Forall₂ P xs ys :=
  mapM_ok_of_forall₂ (List.forall₂_same.mpr h)

/-- A column of the result that no other column of that name overwrites. -/
theorem get_selectRow {selectList : List SelectPart} {part : SelectPart} (scope : Scope Value)
    (hmem : part ∈ selectList)
    (hunique : ∀ part' ∈ selectList, part'.output = part.output → part' = part) :
    (selectRow selectList scope).get part.output =
      some (toValue (scope.column part.qualifier part.column)) := by
  refine lookup_of_unique ?_ ?_
  · rw [List.mem_reverse]
    exact List.mem_map_of_mem (f := fun part : SelectPart =>
      (part.output, toValue (scope.column part.qualifier part.column))) hmem
  · intro v hv
    rcases List.mem_map.mp (List.mem_reverse.mp hv) with ⟨part', hpart', heq⟩
    simp only [Prod.mk.injEq] at heq
    rw [hunique part' hpart' heq.1] at heq
    exact heq.2.symm

/-! ## Serializing -/

theorem serializeValue_ok (isoformat : ℤ → String) {v : Value}
    (h : ∀ micros, v = .datetime micros → (requireUtcSeconds micros).isSome = true) :
    ∃ wire, serializeValue isoformat v = .ok wire := by
  cases v with
  | datetime micros =>
      rcases Option.isSome_iff_exists.mp (h micros rfl) with ⟨rounded, hrounded⟩
      refine ⟨.text (isoformat (nearestSecond rounded)), ?_⟩
      rw [serializeValue, hrounded]
      rfl
  | _ => exact ⟨_, rfl⟩

section Plain

variable {isoformat : ℤ → String} {S : ClassSet} {db : Database S} {C : LoadedClass}

theorem fieldOf_of_plain {enrich : Bool} {row : RowData} {name : String} {wire : WireValue}
    (hplain : enrich = false ∨ ∀ target, ¬ ReferencesClass C.toRecordClass name target)
    (hwire : serializeValue isoformat (row name) = .ok wire) :
    FieldOf isoformat db C enrich row name wire where
  plain _ := hwire
  null hnull := by
    rw [hnull] at hwire
    cases hwire
    rfl
  referenced henrich target htarget := by
    rcases hplain with hplain | hplain
    · rw [hplain] at henrich
      cases henrich
    · exact absurd htarget (hplain target)

theorem not_referencesClass_id (C : RecordClass) (target : String) :
    ¬ ReferencesClass C "id" target := by
  rintro (⟨a, ha, hname, _⟩ | ⟨hcolumn, _⟩)
  · exact C.notSystem a ha (by rw [hname]; decide)
  · simp at hcolumn

/-- Fields one by one make an item. -/
theorem itemOf_of_forall₂ {enrich : Bool} {columns : List String} {row : RowData} {item : Item}
    (hkey : ∃ id, row "id" = .uuid id) (hid : "id" ∈ columns)
    (hfields : List.Forall₂ (fun name (field : String × WireValue) =>
      field.1 = name ∧ FieldOf isoformat db C enrich row name field.2) columns item) :
    ItemOf isoformat db C enrich columns row item where
  columns := by
    clear hid
    induction hfields with
    | nil => rfl
    | cons hfirst _ ih => rw [List.map_cons, hfirst.1, ih]
  fields := by
    clear hid
    induction hfields with
    | nil => simp
    | cons hfirst _ ih =>
        refine List.forall_mem_cons.mpr ⟨?_, ih⟩
        rw [hfirst.1]
        exact hfirst.2
  id := by
    rcases hkey with ⟨u, hu⟩
    refine ⟨u, hu, ?_⟩
    induction hfields with
    | nil => cases hid
    | @cons name field columns item hfirst _ ih =>
        rcases List.mem_cons.mp hid with rfl | hid
        · rcases field with ⟨name, wire⟩
          have hwire := hfirst.2.plain (Or.inr (not_referencesClass_id C.toRecordClass))
          rw [hu] at hwire
          cases hwire
          rw [← hfirst.1]
          exact List.mem_cons_self ..
        · exact List.mem_cons_of_mem _ (ih hid)

theorem exists_plainField (isoformat : ℤ → String) {columns : List String} {row : RowData}
    (hshown : row.InCalendar columns) (name : String) (hname : name ∈ columns) :
    ∃ field : String × WireValue,
      (match (selectRow (columns.map fun column => (⟨none, column, column⟩ : SelectPart))
          [(C.nameSnake, row.datum)]).get name with
        | none => throw (.runtime "KeyError")
        | some v => do pure (name, ← serializeValue isoformat v)) =
          (.ok field : Except SearchError (String × WireValue)) ∧
        field.1 = name ∧ FieldOf isoformat db C false row name field.2 := by
  have hmem : (⟨none, name, name⟩ : SelectPart) ∈
      columns.map fun column => (⟨none, column, column⟩ : SelectPart) :=
    List.mem_map_of_mem (f := fun column => (⟨none, column, column⟩ : SelectPart)) hname
  have hget := get_selectRow [(C.nameSnake, row.datum)] hmem (by
    intro part hpart houtput
    rcases List.mem_map.mp hpart with ⟨column, _, rfl⟩
    rw [show column = name from houtput])
  dsimp only at hget
  have hvalue : toValue (Scope.column [(C.nameSnake, row.datum)] none name) = row name :=
    row.toValue_datum name
  rcases serializeValue_ok isoformat (hshown name hname) with ⟨wire, hwire⟩
  refine ⟨(name, wire), ?_, rfl, fieldOf_of_plain (Or.inl rfl) hwire⟩
  rw [hget, hvalue]
  simp [hwire, bind, Except.bind, pure, Except.pure]

/-- The item of a row in a plain search. -/
theorem exists_plainItem (isoformat : ℤ → String) {columns : List String} {row : RowData}
    (hrow : row ∈ db.tables C.nameSnake) (hC : C ∈ S.classes) (hshown : row.InCalendar columns)
    (hid : "id" ∈ columns) :
    ∃ item, serializeRow isoformat
        (selectRow (columns.map fun column => ⟨none, column, column⟩)
          [(C.nameSnake, row.datum)]) columns = .ok item ∧
      ItemOf isoformat db C false columns row item := by
  rcases mapM_ok_of_forall (@exists_plainField S db C isoformat _ _ hshown) with
    ⟨item, hitem, hfields⟩
  exact ⟨item, hitem, itemOf_of_forall₂ ((db.stored C hC).keyed row hrow) hid hfields⟩

end Plain

/-! ## Names -/

theorem doubleUnderscore_alias (c suffix : String) :
    ['_', '_'] <:+: ("fk__" ++ c ++ suffix).toList := by
  refine ⟨['f', 'k'], (c ++ suffix).toList, ?_⟩
  simp only [String.toList_append]
  rfl

theorem alias_append_inj (suffix : String) {c c' : String}
    (h : "fk__" ++ c ++ suffix = "fk__" ++ c' ++ suffix) : c = c' := by
  have hlist := congrArg String.toList h
  simp only [String.toList_append, List.append_assoc, List.append_cancel_left_eq,
    List.append_cancel_right_eq] at hlist
  exact String.toList_injective hlist

theorem display_ne_friendly (a b : String) : a ++ "__display" ≠ b ++ "__friendly" := by
  intro h
  have hlist := congrArg (fun s : String => s.toList.reverse) h
  have hdisplay : "__display".toList.reverse = ['y', 'a', 'l', 'p', 's', 'i', 'd', '_', '_'] :=
    rfl
  have hfriendly : "__friendly".toList.reverse =
      ['y', 'l', 'd', 'n', 'e', 'i', 'r', 'f', '_', '_'] := rfl
  simp only [String.toList_append, List.reverse_append, hdisplay, hfriendly] at hlist
  simp at hlist

theorem singleUnderscores_searchable (C : LoadedClass) {a : SearchableAttribute}
    (ha : a ∈ searchableAttributes C.toRecordClass) : ¬ ['_', '_'] <:+: a.name.toList := by
  unfold searchableAttributes at ha
  rcases List.mem_append.mp ha with ha | ha
  · have hsystem : ∀ f ∈ systemFields, ¬ ['_', '_'] <:+: f.1.toList := by decide
    rcases List.mem_map.mp ha with ⟨f, hf, rfl⟩
    exact hsystem f hf
  · rcases List.mem_map.mp ha with ⟨attr, hattr, rfl⟩
    exact C.singleUnderscores attr hattr

/-! ## The plan of an enriched read -/

theorem ReferencesClass.unique {C : RecordClass} {column target target' : String}
    (h : ReferencesClass C column target) (h' : ReferencesClass C column target') :
    target = target' := by
  rcases h with ⟨a, ha, rfl, htarget⟩ | ⟨hcolumn, rfl⟩
  · rcases h' with ⟨a', ha', hname, htarget'⟩ | ⟨hcolumn', _⟩
    · have heq := List.inj_on_of_nodup_map C.names ha' ha hname
      rw [heq, htarget] at htarget'
      exact Option.some.inj htarget'
    · refine absurd ?_ (C.notSystem a ha)
      simp only [List.mem_cons, List.not_mem_nil, or_false] at hcolumn'
      rcases hcolumn' with h | h <;> rw [h] <;> decide
  · rcases h' with ⟨a', ha', rfl, _⟩ | ⟨_, rfl⟩
    · refine absurd ?_ (C.notSystem a' ha')
      simp only [List.mem_cons, List.not_mem_nil, or_false] at hcolumn
      rcases hcolumn with h | h <;> rw [h] <;> decide
    · rfl

theorem mem_resolveFkFields {C : RecordClass} {columns : List String}
    {field : String × String} :
    field ∈ resolveFkFields C.toClassDefinition columns ↔
      field.1 ∈ columns ∧ ReferencesClass C field.1 field.2 := by
  rcases field with ⟨column, target⟩
  unfold resolveFkFields ReferencesClass
  rw [List.mem_append, List.mem_filterMap, List.mem_map]
  constructor
  · rintro (⟨a, ha, hfield⟩ | ⟨column', hcolumn', heq⟩)
    · cases hreferences : a.references with
      | none => simp [hreferences] at hfield
      | some target' =>
          simp only [hreferences, Option.ite_none_right_eq_some, Option.some.injEq,
            Prod.mk.injEq] at hfield
          rcases hfield with ⟨hcolumn, rfl, rfl⟩
          exact ⟨hcolumn, Or.inl ⟨a, ha, rfl, hreferences⟩⟩
    · cases heq
      rcases List.mem_filter.mp hcolumn' with ⟨haudit, hcolumn⟩
      exact ⟨by simpa using hcolumn, Or.inr ⟨haudit, rfl⟩⟩
  · rintro ⟨hcolumn, ⟨a, ha, rfl, hreferences⟩ | ⟨haudit, htarget⟩⟩
    · left
      refine ⟨a, ha, ?_⟩
      simp only [hreferences]
      rw [if_pos hcolumn]
    · right
      refine ⟨column, List.mem_filter.mpr ⟨haudit, by simpa using hcolumn⟩, ?_⟩
      rw [show target = "user" from htarget]

theorem exists_target (S : ClassSet) {C : LoadedClass} (hC : C ∈ S.classes)
    {column target : String} (h : ReferencesClass C.toRecordClass column target) :
    ∃ T, S.byName target = some T := by
  rcases h with ⟨a, ha, _, hreferences⟩ | ⟨_, rfl⟩
  · exact ClassSet.exists_byName (S.references C hC a ha target hreferences)
  · exact ClassSet.exists_byName S.user

/-- The join of a foreign key. -/
def FieldJoin (S : ClassSet) (field : String × String) (join : FkJoinSpec) : Prop :=
  ∃ T, S.byName field.2 = some T ∧ join = joinSpec field.1 T

def planOf (C : LoadedClass) (columns : List String) (joins : List FkJoinSpec) :
    EnrichedReadPlan where
  sourceColumns := columns
  sourceTable := C.nameSnake
  joins := joins
  selectList := (columns.map fun column => ⟨some "src", column, column⟩) ++
    joins.flatMap FkJoinSpec.selectParts

theorem exists_plan {S : ClassSet} {C : LoadedClass} (hC : C ∈ S.classes)
    (columns : List String) :
    ∃ joins, List.Forall₂ (FieldJoin S) (resolveFkFields C.toClassDefinition columns) joins ∧
      buildEnrichedReadPlan S.byName C.toClassDefinition columns =
        .ok (planOf C columns joins) := by
  have hjoin : ∀ field ∈ resolveFkFields C.toClassDefinition columns,
      ∃ join, buildJoin S.byName field = .ok join ∧ FieldJoin S field join := by
    intro field hfield
    rcases exists_target S hC (mem_resolveFkFields.mp hfield).2 with ⟨T, hT⟩
    refine ⟨joinSpec field.1 T, ?_, T, hT, rfl⟩
    have hname := (ClassSet.byName_some hT).2
    have huser : ¬ (field.2 = "user" ∧ T.nameSnake ≠ auditUserTable) := by
      rintro ⟨huser, hother⟩
      exact hother (hname.trans huser)
    simp only [buildJoin, hT]
    rw [if_neg huser]
    rfl
  rcases mapM_ok_of_forall hjoin with ⟨joins, hjoins, hforall⟩
  refine ⟨joins, hforall, ?_⟩
  rw [buildEnrichedReadPlan, hjoins]
  rfl

theorem exists_field_of_join {S : ClassSet} {fields : List (String × String)}
    {joins : List FkJoinSpec} (h : List.Forall₂ (FieldJoin S) fields joins)
    {join : FkJoinSpec} (hjoin : join ∈ joins) :
    ∃ field ∈ fields, FieldJoin S field join := by
  induction h with
  | nil => cases hjoin
  | cons hfirst _ ih =>
      rcases List.mem_cons.mp hjoin with rfl | hjoin
      · exact ⟨_, List.mem_cons_self .., hfirst⟩
      · rcases ih hjoin with ⟨field, hfield, hmatch⟩
        exact ⟨field, List.mem_cons_of_mem _ hfield, hmatch⟩

theorem exists_join_of_field {S : ClassSet} {fields : List (String × String)}
    {joins : List FkJoinSpec} (h : List.Forall₂ (FieldJoin S) fields joins)
    {field : String × String} (hfield : field ∈ fields) :
    ∃ join ∈ joins, FieldJoin S field join := by
  induction h with
  | nil => cases hfield
  | cons hfirst _ ih =>
      rcases List.mem_cons.mp hfield with rfl | hfield
      · exact ⟨_, List.mem_cons_self .., hfirst⟩
      · rcases ih hfield with ⟨join, hjoin, hmatch⟩
        exact ⟨join, List.mem_cons_of_mem _ hjoin, hmatch⟩

section Joins

variable {S : ClassSet} {C : LoadedClass} {columns : List String} {joins : List FkJoinSpec}

/-- A join is known by its source column. -/
theorem join_unique
    (h : List.Forall₂ (FieldJoin S) (resolveFkFields C.toClassDefinition columns) joins)
    {join join' : FkJoinSpec} (hjoin : join ∈ joins) (hjoin' : join' ∈ joins)
    (hcolumn : join.sourceColumn = join'.sourceColumn) : join = join' := by
  rcases exists_field_of_join h hjoin with ⟨field, hfield, T, hT, rfl⟩
  rcases exists_field_of_join h hjoin' with ⟨field', hfield', T', hT', rfl⟩
  have hsame : field.1 = field'.1 := hcolumn
  have href := (mem_resolveFkFields.mp hfield).2
  have href' := (mem_resolveFkFields.mp hfield').2
  rw [hsame] at href
  rw [href.unique href', hT'] at hT
  cases hT
  rw [hsame]

theorem alias_of_mem
    (h : List.Forall₂ (FieldJoin S) (resolveFkFields C.toClassDefinition columns) joins)
    {join : FkJoinSpec} (hjoin : join ∈ joins) :
    join.joinAlias = "fk__" ++ join.sourceColumn := by
  rcases exists_field_of_join h hjoin with ⟨field, _, T, _, rfl⟩
  rfl

/-- The columns of a joined table are found under its alias. -/
theorem column_joined (D : Postgres) (tables : Tables)
    (h : List.Forall₂ (FieldJoin S) (resolveFkFields C.toClassDefinition columns) joins)
    {join : FkJoinSpec} (hjoin : join ∈ joins) (row : RowData) (name : String) :
    Scope.column (joinedScope D tables joins row) (some join.joinAlias) name =
      joinedRow D tables join row name := by
  have hlookup : (joinedScope D tables joins row).lookup join.joinAlias =
      some (joinedRow D tables join row) := by
    refine lookup_of_unique (List.mem_cons_of_mem _
      (List.mem_map_of_mem (f := fun join : FkJoinSpec =>
        (join.joinAlias, joinedRow D tables join row)) hjoin)) ?_
    intro r hr
    rcases List.mem_cons.mp hr with hr | hr
    · simp only [Prod.mk.injEq] at hr
      have hdouble := doubleUnderscore_alias join.sourceColumn ""
      rw [String.append_empty, ← alias_of_mem h hjoin, hr.1] at hdouble
      exact absurd hdouble (by decide)
    · rcases List.mem_map.mp hr with ⟨join', hjoin', heq⟩
      simp only [Prod.mk.injEq] at heq
      have halias := heq.1
      rw [alias_of_mem h hjoin, alias_of_mem h hjoin'] at halias
      have hcolumn : join'.sourceColumn = join.sourceColumn :=
        alias_append_inj "" (by simpa using halias)
      rw [← heq.2, join_unique h hjoin' hjoin hcolumn]
  rw [Scope.column, hlookup]
  rfl

/-- The joined row is the one that the column references. -/
theorem joinedRow_eq (D : Postgres) {tables : Tables} {join : FkJoinSpec} {T : RecordClass}
    (hstored : Stored T (tables join.targetTable)) {row r : RowData}
    (hr : r ∈ tables join.targetTable) {id : String} (hid : r "id" = .uuid id)
    (hrow : row join.sourceColumn = .uuid id) :
    joinedRow D tables join row = r.datum := by
  have hcolumn : Scope.column [("src", row.datum)] (some "src") join.sourceColumn =
      some (.uuid id) := by
    rw [column_src]
    exact RowData.datum_of_ne hrow (by simp)
  have hon : onSourceColumn D join.sourceColumn [("src", row.datum)] r.datum = true := by
    have hself : D.order (.uuid id) (.uuid id) = .eq := Std.ReflCmp.compare_self
    simp only [onSourceColumn, hcolumn, RowData.datum_of_ne hid (by simp), hself]
    rfl
  have hsome : (((tables join.targetTable).map RowData.datum).find?
      (onSourceColumn D join.sourceColumn [("src", row.datum)])).isSome = true := by
    rw [List.find?_isSome]
    exact ⟨r.datum, List.mem_map_of_mem hr, hon⟩
  rcases Option.isSome_iff_exists.mp hsome with ⟨found, hfound⟩
  have hmem := List.mem_of_find?_eq_some hfound
  have honFound := List.find?_some hfound
  rcases List.mem_map.mp hmem with ⟨r', hr', rfl⟩
  rcases hstored.keyed r' hr' with ⟨id', hid'⟩
  simp only [onSourceColumn, hcolumn, RowData.datum_of_ne hid' (by simp),
    decide_eq_true_eq] at honFound
  have heq := order_uuid_eq D honFound
  have hsame := hstored.eq_of_id hr' hr (by rw [hid', hid, heq])
  rw [joinedRow, partner, hfound, hsame]
  rfl

end Joins

/-! ## Enriched rows -/

def displayPart (c : String) (a : AttributeDefinition) : SelectPart :=
  ⟨some ("fk__" ++ c), a.nameSnake, "fk__" ++ c ++ "__display"⟩

def friendlyPart (c : String) (a : AttributeDefinition) : SelectPart :=
  ⟨some ("fk__" ++ c), a.nameSnake, "fk__" ++ c ++ "__friendly"⟩

theorem mem_selectParts {c : String} {T : LoadedClass} {part : SelectPart} :
    part ∈ (joinSpec c T).selectParts ↔
      (∃ a ∈ T.displayAttribute, part = displayPart c a) ∨
        ∃ a ∈ T.friendlyIdAttr, part = friendlyPart c a := by
  unfold FkJoinSpec.selectParts joinSpec displayPart friendlyPart
  cases T.displayAttribute <;> cases T.friendlyIdAttr <;> simp [selectPart]

theorem joinSpec_select (c : String) (T : LoadedClass) :
    (joinSpec c T).displaySelectAlias =
        T.displayAttribute.map (fun _ => "fk__" ++ c ++ "__display") ∧
      (joinSpec c T).friendlySelectAlias =
        T.friendlyIdAttr.map (fun _ => "fk__" ++ c ++ "__friendly") := by
  unfold joinSpec
  cases T.displayAttribute <;> cases T.friendlyIdAttr <;> simp

section Enriched

variable {S : ClassSet} {C : LoadedClass} {columns : List String} {joins : List FkJoinSpec}

/-- The class that the column references. -/
def ColumnTarget (S : ClassSet) (C : LoadedClass) (c : String) (T : LoadedClass) : Prop :=
  ∃ target, ReferencesClass C.toRecordClass c target ∧ S.byName target = some T

theorem ColumnTarget.unique {c : String} {T T' : LoadedClass} (h : ColumnTarget S C c T)
    (h' : ColumnTarget S C c T') : T = T' := by
  rcases h with ⟨target, href, hT⟩
  rcases h' with ⟨target', href', hT'⟩
  rw [href.unique href', hT'] at hT
  exact (Option.some.inj hT).symm

theorem mem_selectList {part : SelectPart}
    (h : List.Forall₂ (FieldJoin S) (resolveFkFields C.toClassDefinition columns) joins)
    (hpart : part ∈ (planOf C columns joins).selectList) :
    (∃ column ∈ columns, part = ⟨some "src", column, column⟩) ∨
      ∃ c T, ColumnTarget S C c T ∧ ((∃ a ∈ T.displayAttribute, part = displayPart c a) ∨
        ∃ a ∈ T.friendlyIdAttr, part = friendlyPart c a) := by
  rcases List.mem_append.mp hpart with hpart | hpart
  · rcases List.mem_map.mp hpart with ⟨column, hcolumn, rfl⟩
    exact Or.inl ⟨column, hcolumn, rfl⟩
  · rcases List.mem_flatMap.mp hpart with ⟨join, hjoin, hpart⟩
    rcases exists_field_of_join h hjoin with ⟨field, hfield, T, hT, rfl⟩
    have href := (mem_resolveFkFields.mp hfield).2
    exact Or.inr ⟨field.1, T, ⟨field.2, href, hT⟩, mem_selectParts.mp hpart⟩

theorem doubleUnderscore_part {c : String} {T : LoadedClass} {part : SelectPart}
    (h : (∃ a ∈ T.displayAttribute, part = displayPart c a) ∨
      ∃ a ∈ T.friendlyIdAttr, part = friendlyPart c a) :
    ['_', '_'] <:+: part.output.toList := by
  rcases h with ⟨a, _, rfl⟩ | ⟨a, _, rfl⟩
  · exact doubleUnderscore_alias c "__display"
  · exact doubleUnderscore_alias c "__friendly"

/-- No part of the list has the name of another. -/
theorem selectList_unique
    (h : List.Forall₂ (FieldJoin S) (resolveFkFields C.toClassDefinition columns) joins)
    (hcolumns : ∀ c ∈ columns, ¬ ['_', '_'] <:+: c.toList) {part part' : SelectPart}
    (hpart : part ∈ (planOf C columns joins).selectList)
    (hpart' : part' ∈ (planOf C columns joins).selectList)
    (houtput : part'.output = part.output) : part' = part := by
  rcases mem_selectList h hpart with ⟨column, hcolumn, rfl⟩ | ⟨c, T, htarget, hkind⟩
  · rcases mem_selectList h hpart' with ⟨column', _, rfl⟩ | ⟨c', T', _, hkind'⟩
    · rw [show column' = column from houtput]
    · have hdouble := doubleUnderscore_part hkind'
      rw [houtput] at hdouble
      exact absurd hdouble (hcolumns column hcolumn)
  · rcases mem_selectList h hpart' with ⟨column', hcolumn', rfl⟩ | ⟨c', T', htarget', hkind'⟩
    · have hdouble := doubleUnderscore_part hkind
      rw [← houtput] at hdouble
      exact absurd hdouble (hcolumns column' hcolumn')
    · rcases hkind with ⟨a, ha, rfl⟩ | ⟨a, ha, rfl⟩
      · rcases hkind' with ⟨a', ha', rfl⟩ | ⟨a', _, rfl⟩
        · have hc : c' = c := alias_append_inj _ houtput
          subst hc
          rw [htarget'.unique htarget] at ha'
          rw [Option.mem_unique ha' ha]
        · exact absurd houtput.symm (display_ne_friendly _ _)
      · rcases hkind' with ⟨a', _, rfl⟩ | ⟨a', ha', rfl⟩
        · exact absurd houtput (display_ne_friendly _ _)
        · have hc : c' = c := alias_append_inj _ houtput
          subst hc
          rw [htarget'.unique htarget] at ha'
          rw [Option.mem_unique ha' ha]

/-- The join of a projected foreign key, and of no other column. -/
theorem joinOf_eq
    (h : List.Forall₂ (FieldJoin S) (resolveFkFields C.toClassDefinition columns) joins)
    {c : String} (hc : c ∈ columns) {T : LoadedClass} (htarget : ColumnTarget S C c T) :
    joinSpec c T ∈ joins ∧ (planOf C columns joins).joinOf c = some (joinSpec c T) := by
  rcases htarget with ⟨target, href, hT⟩
  have hfield : (c, target) ∈ resolveFkFields C.toClassDefinition columns :=
    mem_resolveFkFields.mpr ⟨hc, href⟩
  rcases exists_join_of_field h hfield with ⟨join, hjoin, T', hT', rfl⟩
  rw [hT] at hT'
  cases hT'
  have hsome : ((planOf C columns joins).joins.reverse.find? fun join =>
      join.sourceColumn = c).isSome = true := by
    rw [List.find?_isSome]
    exact ⟨_, List.mem_reverse.mpr hjoin, by simp [joinSpec]⟩
  rcases Option.isSome_iff_exists.mp hsome with ⟨found, hfound⟩
  have hcolumn := List.find?_some hfound
  have hmem := List.mem_reverse.mp (List.mem_of_find?_eq_some hfound)
  have hsame := join_unique h hmem hjoin (by simpa [joinSpec] using hcolumn)
  refine ⟨hjoin, ?_⟩
  rw [EnrichedReadPlan.joinOf, hfound, hsame]

theorem joinOf_eq_none
    (h : List.Forall₂ (FieldJoin S) (resolveFkFields C.toClassDefinition columns) joins)
    {c : String} (hother : ∀ target, ¬ ReferencesClass C.toRecordClass c target) :
    (planOf C columns joins).joinOf c = none := by
  rw [EnrichedReadPlan.joinOf, List.find?_eq_none]
  intro join hjoin hcolumn
  rcases exists_field_of_join h (List.mem_reverse.mp hjoin) with ⟨field, hfield, T, _, rfl⟩
  have hsource : field.1 = c := by simpa [joinSpec] using hcolumn
  have href := (mem_resolveFkFields.mp hfield).2
  rw [hsource] at href
  exact hother _ href

end Enriched

section EnrichedItem

variable {E : SearchEnvironment} {S : ClassSet} {db : Database S} {C : LoadedClass}
  {columns : List String} {joins : List FkJoinSpec} {row : RowData}

/-- A source column of an enriched row. -/
theorem get_source (E : SearchEnvironment) (db : Database S) (row : RowData)
    (h : List.Forall₂ (FieldJoin S) (resolveFkFields C.toClassDefinition columns) joins)
    (hcolumns : ∀ c ∈ columns, ¬ ['_', '_'] <:+: c.toList) {name : String}
    (hname : name ∈ columns) :
    (selectRow (planOf C columns joins).selectList
      (joinedScope E.postgres db.tables joins row)).get name = some (row name) := by
  have hpart : (⟨some "src", name, name⟩ : SelectPart) ∈
      (planOf C columns joins).selectList :=
    List.mem_append_left _ (List.mem_map_of_mem
      (f := fun column => (⟨some "src", column, column⟩ : SelectPart)) hname)
  have hget := get_selectRow (joinedScope E.postgres db.tables joins row) hpart
    fun part' hpart' houtput => selectList_unique h hcolumns hpart hpart' houtput
  dsimp only at hget
  rw [hget, joinedScope, column_src, row.toValue_datum]

/-- A column of the referenced row in an enriched row. -/
theorem get_joined
    (h : List.Forall₂ (FieldJoin S) (resolveFkFields C.toClassDefinition columns) joins)
    (hcolumns : ∀ c ∈ columns, ¬ ['_', '_'] <:+: c.toList) {c : String} {T : LoadedClass}
    (hjoin : joinSpec c T ∈ joins) (hT : T ∈ S.classes) {r : RowData}
    (hr : r ∈ db.tables T.nameSnake) {id : String} (hid : r "id" = .uuid id)
    (hrow : row c = .uuid id) (part : SelectPart) {a : AttributeDefinition}
    (hkind : part ∈ (joinSpec c T).selectParts) (hcolumn : part.column = a.nameSnake)
    (hqualifier : part.qualifier = some (joinSpec c T).joinAlias) :
    (selectRow (planOf C columns joins).selectList
      (joinedScope E.postgres db.tables joins row)).get part.output =
        some (r a.nameSnake) := by
  have hpart : part ∈ (planOf C columns joins).selectList :=
    List.mem_append_right _ (List.mem_flatMap.mpr ⟨_, hjoin, hkind⟩)
  have hget := get_selectRow (joinedScope E.postgres db.tables joins row) hpart
    fun part' hpart' houtput => selectList_unique h hcolumns hpart hpart' houtput
  rw [hget, hqualifier, column_joined E.postgres db.tables h hjoin,
    joinedRow_eq E.postgres (db.stored T hT) hr hid hrow, r.toValue_datum, hcolumn]

theorem textOrNull_asText {T : LoadedClass} {r : RowData} (hT : T ∈ S.classes)
    (hr : r ∈ db.tables T.nameSnake) {a : AttributeDefinition} (ha : a ∈ T.attributes)
    (htype : a.typeName = "compact_text" ∨ a.typeName = "friendly_id") :
    r a.nameSnake = textOrNull (asText (some (r a.nameSnake))) := by
  have hmem : (⟨a.nameSnake, a.typeName⟩ : SearchableAttribute) ∈
      searchableAttributes T.toRecordClass :=
    List.mem_append_right _ (List.mem_map_of_mem
      (f := fun a : AttributeDefinition => (⟨a.nameSnake, a.typeName⟩ : SearchableAttribute)) ha)
  have htyped := (db.stored T hT).typed r hr _ hmem
  dsimp only at htyped
  cases hvalue : r a.nameSnake with
  | null => rfl
  | text s => rfl
  | _ =>
      rw [hvalue] at htyped
      rcases htype with htype | htype <;> rw [htype] at htyped <;> simp [Value.hasType] at htyped

/-- The identity in an enriched row is that of the referenced row. -/
theorem identityOf_relatedIdentity
    (h : List.Forall₂ (FieldJoin S) (resolveFkFields C.toClassDefinition columns) joins)
    (hcolumns : ∀ c ∈ columns, ¬ ['_', '_'] <:+: c.toList) {c : String} {T : LoadedClass}
    (hjoin : joinSpec c T ∈ joins) (hT : T ∈ S.classes) {r : RowData}
    (hr : r ∈ db.tables T.nameSnake) {id : String} (hid : r "id" = .uuid id)
    (hrow : row c = .uuid id) :
    IdentityOf T r (relatedIdentity (selectRow (planOf C columns joins).selectList
      (joinedScope E.postgres db.tables joins row)) (joinSpec c T) id) where
  id := hid
  hasDisplay := by simp [relatedIdentity, joinSpec]
  hasFriendly := by simp [relatedIdentity, joinSpec]
  noDisplay hnone := by simp [relatedIdentity, (joinSpec_select c T).1, hnone]
  noFriendly hnone := by simp [relatedIdentity, (joinSpec_select c T).2, hnone]
  display a ha := by
    have hget := get_joined (E := E) h hcolumns hjoin hT hr hid hrow (displayPart c a)
      (mem_selectParts.mpr (Or.inl ⟨a, ha, rfl⟩)) rfl rfl
    have htext := textOrNull_asText hT hr (T.displayText a ha).1 (Or.inl (T.displayText a ha).2)
    have hattr : T.displayAttribute = some a := ha
    simp only [relatedIdentity, (joinSpec_select c T).1, hattr, Option.map_some,
      Option.bind_some]
    rw [htext]
    exact congrArg (fun v => textOrNull (asText v)) hget.symm
  friendly a ha := by
    have hget := get_joined (E := E) h hcolumns hjoin hT hr hid hrow (friendlyPart c a)
      (mem_selectParts.mpr (Or.inr ⟨a, ha, rfl⟩)) rfl rfl
    have hattr : T.friendlyIdAttr = some a := ha
    have htype : a.typeName = "friendly_id" := by simpa using List.find?_some hattr
    have htext := textOrNull_asText hT hr (List.mem_of_find?_eq_some hattr) (Or.inr htype)
    simp only [relatedIdentity, (joinSpec_select c T).2, hattr, Option.map_some,
      Option.bind_some]
    rw [htext]
    exact congrArg (fun v => textOrNull (asText v)) hget.symm

/-- What an enriched row says of a column. -/
theorem exists_enrichedField
    (h : List.Forall₂ (FieldJoin S) (resolveFkFields C.toClassDefinition columns) joins)
    (hcolumns : ∀ c ∈ columns, ¬ ['_', '_'] <:+: c.toList) (hC : C ∈ S.classes)
    (hrow : row ∈ db.tables C.nameSnake) (hshown : row.InCalendar columns) {name : String}
    (hname : name ∈ columns) :
    ∃ field, mapEnrichedField (selectRow (planOf C columns joins).selectList
        (joinedScope E.postgres db.tables joins row)) (planOf C columns joins) name =
          .ok (name, field) ∧
      ∃ wire, serializeField E.isoformat field = .ok wire ∧
        FieldOf E.isoformat db C true row name wire := by
  have hget := get_source E db row h hcolumns hname
  have hserialize : ∃ wire, serializeValue E.isoformat (row name) = .ok wire :=
    serializeValue_ok E.isoformat (hshown name hname)
  by_cases href : ∃ target, ReferencesClass C.toRecordClass name target
  · rcases href with ⟨target, href⟩
    rcases exists_target S hC href with ⟨T, hT⟩
    have hjoin := joinOf_eq h hname ⟨target, href, hT⟩
    rcases db.references C hC row hrow name target href with hnull | ⟨T', r, hT', hr, hid⟩
    · refine ⟨.value .null, ?_, .null, rfl, ?_⟩
      · rw [mapEnrichedField, hget, hjoin.2, hnull]
        rfl
      · refine ⟨?_, fun _ => rfl, fun _ _ _ hne => absurd hnull hne⟩
        rintro (hfalse | hnone)
        · cases hfalse
        · exact absurd href (hnone target)
    · rw [hT] at hT'
      cases hT'
      have hmem := (ClassSet.byName_some hT).1
      rcases (db.stored T hmem).keyed r hr with ⟨id, hrid⟩
      rw [hrid] at hid
      have hidentity := identityOf_relatedIdentity (E := E) h hcolumns hjoin.1 hmem hr hrid
        hid.symm
      refine ⟨.identity (relatedIdentity (selectRow (planOf C columns joins).selectList
        (joinedScope E.postgres db.tables joins row)) (joinSpec name T) id), ?_,
        .identity _, rfl, ?_⟩
      · rw [mapEnrichedField, hget, hjoin.2, ← hid]
        rfl
      · refine ⟨?_, fun hnull => ?_, fun _ target' href' _ => ?_⟩
        · rintro (hfalse | hnone)
          · cases hfalse
          · exact absurd href (hnone target)
        · rw [← hid] at hnull
          cases hnull
        · rw [← href.unique href']
          exact ⟨T, r, _, hT, hr, hrid.trans hid, hidentity, rfl⟩
  · have hother : ∀ target, ¬ ReferencesClass C.toRecordClass name target :=
      fun target htarget => href ⟨target, htarget⟩
    rcases hserialize with ⟨wire, hwire⟩
    refine ⟨.value (row name), ?_, wire, hwire, fieldOf_of_plain (Or.inr hother) hwire⟩
    rw [mapEnrichedField, hget, joinOf_eq_none h hother]
    rfl

/-- The item of a row in an enriched search. -/
theorem exists_enrichedItem
    (h : List.Forall₂ (FieldJoin S) (resolveFkFields C.toClassDefinition columns) joins)
    (hcolumns : ∀ c ∈ columns, ¬ ['_', '_'] <:+: c.toList) (hC : C ∈ S.classes)
    (hrow : row ∈ db.tables C.nameSnake) (hshown : row.InCalendar columns)
    (hid : "id" ∈ columns) :
    ∃ item, serializeEnrichedRow E.isoformat (planOf C columns joins)
        (selectRow (planOf C columns joins).selectList
          (joinedScope E.postgres db.tables joins row)) = .ok item ∧
      ItemOf E.isoformat db C true columns row item := by
  have hmapped := mapM_ok_of_forall
    (P := fun name (field : String × Field) => ∃ field' : String × WireValue,
      (do pure (field.1, ← serializeField E.isoformat field.2)) =
        (.ok field' : Except SearchError (String × WireValue)) ∧
      field'.1 = name ∧ FieldOf E.isoformat db C true row name field'.2)
    fun name (hname : name ∈ columns) => by
      rcases exists_enrichedField (E := E) h hcolumns hC hrow hshown hname with
        ⟨field, hfield, wire, hwire, hspec⟩
      refine ⟨(name, field), hfield, (name, wire), ?_, rfl, hspec⟩
      simp [hwire, bind, Except.bind, pure, Except.pure]
  rcases hmapped with ⟨fields, hfields, hforall⟩
  rcases mapM_ok_of_forall₂ hforall with ⟨item, hitem, hspec⟩
  refine ⟨item, ?_, itemOf_of_forall₂ ((db.stored C hC).keyed row hrow) hid hspec⟩
  have hrun : mapEnrichedRow (selectRow (planOf C columns joins).selectList
      (joinedScope E.postgres db.tables joins row)) (planOf C columns joins) = .ok fields :=
    hfields
  rw [serializeEnrichedRow, hrun]
  exact hitem

end EnrichedItem

end Untangled.Search
