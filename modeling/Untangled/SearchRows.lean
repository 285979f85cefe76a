import Untangled.SearchExecution

/-!
# Rows of a search

What the schema guarantees of stored rows, and the scopes of both statements: each row
of the table has exactly one, with the rows that its foreign keys reference.
-/

namespace Untangled.Search

open Mapping Records SqlExpressions SqlSelect

/-! ## Stored rows -/

/-- The rows of a table: a primary key, and typed columns. -/
structure Stored (C : RecordClass) (rows : List RowData) : Prop where
  keyed : ∀ row ∈ rows, ∃ id, row "id" = .uuid id
  ids : (rows.map fun row => row "id").Nodup
  typed : ∀ row ∈ rows, ∀ a ∈ searchableAttributes C,
    row a.name = .null ∨ (row a.name).hasType a.typeName = true

/-- The datetimes in these columns can be rounded to a second of the calendar, which no
constraint of the schema asks for. -/
def RowData.InCalendar (row : RowData) (columns : List String) : Prop :=
  ∀ name ∈ columns, ∀ micros, row name = .datetime micros →
    (requireUtcSeconds micros).isSome = true

/-- The column is a foreign key that references the class. -/
def ReferencesClass (C : RecordClass) (column target : String) : Prop :=
  (∃ a ∈ C.attributes, a.nameSnake = column ∧ a.references = some target) ∨
    (column ∈ ["created_by", "updated_by"] ∧ target = "user")

/-- A state of the database with the constraints of its schema. -/
structure Database (S : ClassSet) where
  tables : Tables
  stored : ∀ T ∈ S.classes, Stored T.toRecordClass (tables T.nameSnake)
  references : ∀ C ∈ S.classes, ∀ row ∈ tables C.nameSnake, ∀ column target,
    ReferencesClass C.toRecordClass column target → row column = .null ∨
      ∃ T r, S.byName target = some T ∧ r ∈ tables T.nameSnake ∧ r "id" = row column

theorem RowData.datum_of_ne {row : RowData} {name : String} {v : Value} (h : row name = v)
    (hv : v ≠ .null) : row.datum name = some v := by
  unfold RowData.datum
  rw [h]
  cases v with
  | null => exact absurd rfl hv
  | _ => rfl

theorem RowData.toValue_datum (row : RowData) (name : String) :
    toValue (row.datum name) = row name := by
  unfold RowData.datum
  split
  · rename_i hnull
    exact hnull.symm
  · rfl

/-- Rows of a table with the same key are the same row. -/
theorem Stored.eq_of_id {C : RecordClass} {rows : List RowData} (h : Stored C rows)
    {row row' : RowData} (hrow : row ∈ rows) (hrow' : row' ∈ rows)
    (hid : row "id" = row' "id") : row = row' :=
  List.inj_on_of_nodup_map h.ids hrow hrow' hid

/-! ## The order of rows -/

section Order

variable (D : Postgres)

def rowOrder (order : List (String × Direction)) : RowData → RowData → Ordering :=
  orderBy D.order (order.map fun key => (fun row : RowData => row.datum key.1, key.2))

instance rowOrder_trans (order : List (String × Direction)) : Std.TransCmp (rowOrder D order) :=
  orderBy_trans _ _

theorem order_uuid_eq {a b : String} (h : D.order (.uuid a) (.uuid b) = .eq) : a = b :=
  @Std.LawfulEqCmp.eq_of_compare String (fun a b => compare a b) _ _ _ h

/-- Where `id` is a key of the order, no two rows of a table tie. -/
theorem rowOrder_ties {C : RecordClass} {rows : List RowData} (h : Stored C rows)
    {order : List (String × Direction)} (hid : "id" ∈ order.map Prod.fst) :
    ∀ row ∈ rows, ∀ row' ∈ rows, rowOrder D order row row' = .eq → row = row' := by
  intro row hrow row' hrow' htie
  rcases List.mem_map.mp hid with ⟨⟨name, direction⟩, hkey, rfl⟩
  rcases h.keyed row hrow with ⟨a, ha⟩
  rcases h.keyed row' hrow' with ⟨b, hb⟩
  have hdatum := RowData.datum_of_ne ha (by simp)
  have hdatum' := RowData.datum_of_ne hb (by simp)
  have hmem : ((fun row : RowData => row.datum "id"), direction) ∈
      order.map fun key => ((fun row : RowData => row.datum key.1), key.2) :=
    List.mem_map_of_mem (f := fun key : String × Direction =>
      ((fun row : RowData => row.datum key.1), key.2)) hkey
  have heq := compare_eq_of_orderBy htie hmem
  refine h.eq_of_id hrow hrow' ?_
  rw [ha, hb]
  cases direction with
  | asc =>
      simp only [keyOrder, hdatum, hdatum'] at heq
      rw [order_uuid_eq D heq]
  | desc =>
      simp only [keyOrder, hdatum, hdatum'] at heq
      rw [order_uuid_eq D heq]

theorem id_mem_of_resolveSort {sort order : List (String × Direction)} {attrs : Attributes}
    (h : resolveSort sort attrs = .ok order) : "id" ∈ order.map Prod.fst := by
  unfold resolveSort at h
  split at h
  · cases h
    by_cases hid : "id" ∈ sort.map Prod.fst
    · rw [if_pos hid]
      split
      · exact hid
      · rw [List.map_append]
        exact List.mem_append_left _ hid
    · rw [if_neg hid, List.map_append]
      exact List.mem_append_right _ (by simp)
  · cases h

end Order

/-! ## Scopes -/

/-- The rows of a table are put in scope by this function, which keeps their columns. -/
structure InScope (q : Bool) (rows : List RowData) (scopeOf : RowData → Scope Value)
    (scopes : List (Scope Value)) : Prop where
  scopes_eq : scopes = rows.map scopeOf
  resolves : ∀ row ∈ rows, Resolves q row (scopeOf row).column

theorem inScope_plain (tables : Tables) (table : String) :
    InScope false (tables table) (fun row => [(table, row.datum)])
      (fromTable tables table table) where
  scopes_eq := rfl
  resolves _ _ _ := rfl

section Statements

variable {D : Postgres} {q : Bool} {rows : List RowData} {scopeOf : RowData → Scope Value}
  {scopes : List (Scope Value)} {compiled : Fragment × List Value}
  {meaning : RowData → SqlExpressions.Outcome}

theorem InScope.filter (h : InScope q rows scopeOf scopes) (keep : RowData → Bool) :
    InScope q (rows.filter keep) scopeOf ((rows.filter keep).map scopeOf) where
  scopes_eq := rfl
  resolves row hrow := h.resolves row (List.mem_of_mem_filter hrow)

/-- `WHERE` keeps the rows that the condition is true of, if no pattern is malformed. -/
theorem whereScopes_eq (h : InScope q rows scopeOf scopes)
    (hmeaning : HasMeaning D q compiled meaning)
    (hfails : ∀ row, (meaning row).fails = false) (patterns : PatternChecks) :
    whereScopes D compiled patterns scopes =
      .ok ((rows.filter fun row => (meaning row).truth = some true).map scopeOf) := by
  cases hparse : (bindParams compiled.1 compiled.2).bind parse with
  | none =>
      have hnone := hmeaning (fun _ => .null) (fun _ _ => none) (fun _ => rfl)
      rw [evalCondition, hparse] at hnone
      cases hnone
  | some e =>
      have hresolved : ∀ row column, Resolves q row column →
          outcome (operators D) column e = meaning row := by
        intro row column hcolumn
        have heval := hmeaning row column hcolumn
        rw [evalCondition, hparse] at heval
        exact Option.some.inj heval
      have houtcome : ∀ row ∈ rows,
          outcome (operators D) (scopeOf row).column e = meaning row :=
        fun row hrow => hresolved row _ (h.resolves row hrow)
      have hsafe : ¬ ((patterns.whilePlanning = true ∧
          (outcome (operators D) anyText e).fails = true) ∨
          ∃ scope ∈ scopes, (outcome (operators D) scope.column e).fails = true ∧
            (patterns.onEveryRow = true ∨
              (outcome (operators D) scope.column e).truth = none)) := by
        rintro (⟨_, hfailing⟩ | ⟨scope, hscope, hfailing, _⟩)
        · have hblank : Resolves q (fun _ => .text "") anyText := fun _ => rfl
          rw [hresolved _ _ hblank, hfails] at hfailing
          cases hfailing
        · rw [h.scopes_eq] at hscope
          rcases List.mem_map.mp hscope with ⟨row, hrow, rfl⟩
          rw [houtcome row hrow, hfails] at hfailing
          cases hfailing
      simp only [whereScopes, hparse]
      rw [if_neg hsafe, h.scopes_eq, List.filter_map]
      refine congrArg (fun kept => Except.ok (kept.map scopeOf)) (List.filter_congr ?_)
      intro row hrow
      simp only [Function.comp_apply, houtcome row hrow]

theorem runCount_eq (h : InScope q rows scopeOf scopes)
    (hmeaning : HasMeaning D q compiled meaning)
    (hfails : ∀ row, (meaning row).fails = false) (execution : Execution) :
    runCount D scopes compiled execution =
      .ok (rows.filter fun row => (meaning row).truth = some true).length := by
  rw [runCount, whereScopes_eq h hmeaning hfails]
  simp [bind, Except.bind, pure, Except.pure]

/-- The rows in the order of the query, however the database finds them. -/
def sortRows (D : Postgres) (order : List (String × Direction)) (rows : List RowData) :
    List RowData :=
  Plan.sort ⟨id, fun _ => .refl _⟩ (rowOrder D order) rows

theorem sort_scopes (D : Postgres) (order : List (String × Direction))
    (h : InScope q rows scopeOf scopes)
    (hties : ∀ row ∈ rows, ∀ row' ∈ rows, rowOrder D order row row' = .eq → row = row')
    (plan : Plan (Scope Value)) :
    plan.sort (orderScopes D (sourceAlias q) order) scopes =
      (sortRows D order rows).map scopeOf := by
  have htrans : Std.TransCmp (orderScopes D (sourceAlias q) order) := orderBy_trans _ _
  rw [h.scopes_eq]
  refine plan.sort_map ⟨id, fun _ => .refl _⟩ ?_ hties
  intro row hrow row' hrow'
  unfold orderScopes rowOrder
  clear hties htrans
  induction order with
  | nil => rfl
  | cons key order ih =>
      have hkey : ∀ direction, keyOrder D.order
          (fun scope : Scope Value => scope.column (sourceAlias q) key.1) direction
            (scopeOf row) (scopeOf row') =
          keyOrder D.order (fun row : RowData => row.datum key.1) direction row row' := by
        intro direction
        cases direction <;>
          simp only [keyOrder, h.resolves row hrow key.1, h.resolves row' hrow' key.1]
      simp only [List.map_cons, orderBy, compareLex, hkey, ih]

end Statements

/-! ## Joined rows -/

section Joins

variable (D : Postgres) (tables : Tables)

/-- The row that a foreign key references, or nulls. -/
def joinedRow (join : FkJoinSpec) (row : RowData) : Columns Value :=
  partner ((tables join.targetTable).map RowData.datum)
    (onSourceColumn D join.sourceColumn) [("src", row.datum)]

def joinedScope (joins : List FkJoinSpec) (row : RowData) : Scope Value :=
  ("src", row.datum) :: joins.map fun join => (join.joinAlias, joinedRow D tables join row)

theorem column_src (row : RowData) (rest : Scope Value) (name : String) :
    Scope.column (("src", row.datum) :: rest) (some "src") name = row.datum name := by
  simp [Scope.column]

theorem onSourceColumn_src (column : String) (row : RowData) (rest : Scope Value) :
    onSourceColumn D column (("src", row.datum) :: rest) =
      onSourceColumn D column [("src", row.datum)] := by
  funext r
  simp only [onSourceColumn, column_src]

/-- At most one row of a table has the key. -/
theorem length_filter_key {T : RecordClass} {rows : List RowData} (h : Stored T rows)
    (column : String) (scope : Scope Value) :
    ((rows.map RowData.datum).filter (onSourceColumn D column scope)).length ≤ 1 := by
  rw [List.filter_map, List.length_map]
  have hsame : ∀ r ∈ rows.filter (onSourceColumn D column scope ∘ RowData.datum),
      ∀ r' ∈ rows.filter (onSourceColumn D column scope ∘ RowData.datum), r = r' := by
    intro r hr r' hr'
    rcases List.mem_filter.mp hr with ⟨hmem, hon⟩
    rcases List.mem_filter.mp hr' with ⟨hmem', hon'⟩
    rcases h.keyed r hmem with ⟨a, ha⟩
    rcases h.keyed r' hmem' with ⟨b, hb⟩
    have hdatum := RowData.datum_of_ne ha (by simp)
    have hdatum' := RowData.datum_of_ne hb (by simp)
    simp only [Function.comp_apply, onSourceColumn, hdatum] at hon
    simp only [Function.comp_apply, onSourceColumn, hdatum'] at hon'
    refine h.eq_of_id hmem hmem' ?_
    cases hcolumn : scope.column (some "src") column with
    | none =>
        rw [hcolumn] at hon
        cases hon
    | some v =>
        rw [hcolumn] at hon hon'
        simp only [decide_eq_true_eq] at hon hon'
        have htie := @Std.TransCmp.eq_trans _ D.order _ _ _ _
          (@Std.OrientedCmp.eq_symm _ D.order _ _ _ hon) hon'
        rw [ha, hb, order_uuid_eq D htie]
  have hnodup : rows.Nodup := h.ids.of_map _
  have hfiltered := hnodup.filter (onSourceColumn D column scope ∘ RowData.datum)
  cases hcases : rows.filter (onSourceColumn D column scope ∘ RowData.datum) with
  | nil => simp
  | cons r rest =>
      cases rest with
      | nil => simp
      | cons r' rest =>
          rw [hcases] at hsame hfiltered
          have heq := hsame r (by simp) r' (by simp)
          simp [heq] at hfiltered

theorem joinTable_map {joins : List FkJoinSpec} {join : FkJoinSpec} {T : RecordClass}
    (hstored : Stored T (tables join.targetTable)) (rows : List RowData) :
    joinTable D tables (rows.map (joinedScope D tables joins)) join =
      rows.map (joinedScope D tables (joins ++ [join])) := by
  rw [joinTable, leftJoin_map]
  · refine List.map_congr_left fun row _ => ?_
    simp only [joinedScope, joinedRow, partner, onSourceColumn_src, List.map_append,
      List.map_cons, List.map_nil, List.cons_append]
  · intro row _
    exact length_filter_key D hstored join.sourceColumn _

/-- The joins of an enriched read add one row to each scope. -/
theorem foldl_joinTable {joins : List FkJoinSpec}
    (hstored : ∀ join ∈ joins, ∃ T, Stored T (tables join.targetTable)) (table : String) :
    joins.foldl (joinTable D tables) (fromTable tables table "src") =
      (tables table).map (joinedScope D tables joins) := by
  have hfold : ∀ (rest before : List FkJoinSpec),
      (∀ join ∈ rest, ∃ T, Stored T (tables join.targetTable)) →
      rest.foldl (joinTable D tables) ((tables table).map (joinedScope D tables before)) =
        (tables table).map (joinedScope D tables (before ++ rest)) := by
    intro rest
    induction rest with
    | nil => intro before _; simp
    | cons join rest ih =>
        intro before hrest
        rcases hrest join (List.mem_cons_self ..) with ⟨T, hT⟩
        rw [List.foldl_cons, joinTable_map D tables hT,
          ih _ fun j hj => hrest j (List.mem_cons_of_mem join hj), List.append_assoc]
        rfl
  exact hfold joins [] hstored

theorem inScope_joined {joins : List FkJoinSpec}
    (hstored : ∀ join ∈ joins, ∃ T, Stored T (tables join.targetTable)) (table : String) :
    InScope true (tables table) (joinedScope D tables joins)
      (joins.foldl (joinTable D tables) (fromTable tables table "src")) where
  scopes_eq := foldl_joinTable D tables hstored table
  resolves row _ name := column_src row _ name

end Joins

end Untangled.Search
