import Untangled.SearchItems

/-!
# Pages of a search

The rows that match are put in one order, whatever the database does, and every page
is a piece of it.  Enriching the items changes neither the rows nor their order.
-/

namespace Untangled.Search

open Mapping Records SqlExpressions SqlSelect

/-! ## Requests that are accepted -/

/-- The attributes that a request may name. -/
def requestAttributes (C : RecordClass) (idOnly : Bool) : Attributes :=
  if idOnly then [⟨"id", "uuid"⟩] else searchableAttributes C

def requestContext (E : SearchEnvironment) (C : RecordClass) (limits : SearchNestingLimits)
    (idOnly : Bool) : CompileContext where
  adapters := E.adapters
  attrs := requestAttributes C idOnly
  limits := limits

theorem searchAttributes_eq (C : RecordClass) (request : SearchRequest) :
    searchAttributes C request =
      .ok (requestAttributes C request.idOnlyAttributes,
        !request.idOnlyAttributes && request.enrichFkIdentity) := by
  unfold searchAttributes requestAttributes
  cases request.idOnlyAttributes with
  | true => rfl
  | false => rfl

/-- The predicate compiles and has no malformed pattern, and the names are known. -/
structure Accepted (E : SearchEnvironment) (C : RecordClass) (limits : SearchNestingLimits)
    (request : SearchRequest) : Prop where
  predicate : ∃ compiled, compilePredicateRoot
    (requestContext E C limits request.idOnlyAttributes) false request.predicate = .ok compiled
  patterns : ∀ meaning, Meaning E.postgres
    (requestContext E C limits request.idOnlyAttributes) request.predicate meaning →
      ∀ row, (meaning row).fails = false
  sort : ∀ key ∈ request.sort,
    ((requestAttributes C request.idOnlyAttributes).get key.1).isSome = true
  attributes : ∀ name ∈ request.attributes,
    ((requestAttributes C request.idOnlyAttributes).get name).isSome = true

/-- No item of a row that matches shows a datetime that cannot be rounded. -/
def ShownInCalendar (E : SearchEnvironment) (C : RecordClass) (limits : SearchNestingLimits)
    (rows : List RowData) (request : SearchRequest) : Prop :=
  ∀ meaning, Meaning E.postgres (requestContext E C limits request.idOnlyAttributes)
    request.predicate meaning → ∀ row ∈ rows, (meaning row).truth = some true →
      row.InCalendar request.attributes

/-- The request for a page, with or without identities. -/
def SearchRequest.atPage (request : SearchRequest) (limit k : ℕ) (enrich : Bool) :
    SearchRequest :=
  { request with
    limit := some limit
    offset := some (k * limit : ℕ)
    enrichFkIdentity := enrich }

theorem projectColumns_ok (seen : List String) {attrs : Attributes} {names : List String}
    (hnames : ∀ name ∈ names, (attrs.get name).isSome = true) :
    ∃ columns, projectColumns attrs names seen = .ok columns ∧
      (∀ name ∈ seen, name ∈ columns) ∧ ∀ name ∈ columns, name ∈ seen ∨ name ∈ names := by
  induction names generalizing seen with
  | nil => exact ⟨seen, rfl, fun _ h => h, fun _ h => Or.inl h⟩
  | cons name names ih =>
      rcases Option.isSome_iff_exists.mp (hnames name (List.mem_cons_self ..)) with ⟨attr, hattr⟩
      have hrest := fun n hn => hnames n (List.mem_cons_of_mem name hn)
      by_cases hseen : name ∈ seen
      · rcases ih seen hrest with ⟨columns, hcolumns, hkept, hfrom⟩
        refine ⟨columns, ?_, hkept, fun n hn => ?_⟩
        · simp only [projectColumns, hattr, if_pos hseen, hcolumns]
        · rcases hfrom n hn with h | h
          · exact Or.inl h
          · exact Or.inr (List.mem_cons_of_mem name h)
      · rcases ih (seen ++ [name]) hrest with ⟨columns, hcolumns, hkept, hfrom⟩
        refine ⟨columns, ?_, fun n hn => hkept n (List.mem_append_left _ hn), fun n hn => ?_⟩
        · simp only [projectColumns, hattr, if_neg hseen, hcolumns]
        · rcases hfrom n hn with h | h
          · rcases List.mem_append.mp h with h | h
            · exact Or.inl h
            · rw [List.mem_singleton.mp h]
              exact Or.inr (List.mem_cons_self ..)
          · exact Or.inr (List.mem_cons_of_mem name h)

theorem resolveProjection_ok {attrs : Attributes} {names : List String}
    (hnames : ∀ name ∈ names, (attrs.get name).isSome = true) :
    ∃ columns, resolveProjection names attrs = .ok columns ∧ "id" ∈ columns ∧
      ∀ name ∈ columns, name = "id" ∨ name ∈ names := by
  rcases projectColumns_ok ["id"] hnames with ⟨columns, hcolumns, hkept, hfrom⟩
  refine ⟨columns, hcolumns, hkept "id" (List.mem_cons_self ..), fun name hname => ?_⟩
  rcases hfrom name hname with h | h
  · exact Or.inl (List.mem_singleton.mp h)
  · exact Or.inr h

theorem resolveSort_ok {attrs : Attributes} {sort : List (String × Direction)}
    (hsort : ∀ key ∈ sort, (attrs.get key.1).isSome = true) :
    ∃ order, resolveSort sort attrs = .ok order := by
  unfold resolveSort
  rw [if_pos hsort]
  exact ⟨_, rfl⟩

theorem singleUnderscores_of_get {C : LoadedClass} {idOnly : Bool} {name : String}
    (h : ((requestAttributes C.toRecordClass idOnly).get name).isSome = true) :
    ¬ ['_', '_'] <:+: name.toList := by
  rcases Option.isSome_iff_exists.mp h with ⟨attr, hattr⟩
  have hname : attr.name = name := by simpa using List.find?_some hattr
  have hmem := List.mem_of_find?_eq_some hattr
  rw [← hname]
  cases idOnly with
  | true =>
      rw [List.mem_singleton.mp hmem]
      decide
  | false => exact singleUnderscores_searchable C hmem

/-! ## Both statements -/

section Statements

variable {D : Postgres} {q : Bool} {rows : List RowData} {scopeOf : RowData → Scope Value}
  {meaning : RowData → SqlExpressions.Outcome}

/-- The rows that match, in order. -/
def orderedRows (D : Postgres) (order : List (String × Direction))
    (meaning : RowData → SqlExpressions.Outcome) (rows : List RowData) : List RowData :=
  sortRows D order (rows.filter fun row => (meaning row).truth = some true)

theorem runSelect_eq (query : SelectQuery) (h : InScope q rows scopeOf query.scopes)
    (hqualifier : query.orderQualifier = sourceAlias q)
    (hmeaning : HasMeaning D q query.condition meaning)
    (hfails : ∀ row, (meaning row).fails = false)
    (hties : ∀ row ∈ rows, ∀ row' ∈ rows, rowOrder D query.order row row' = .eq → row = row')
    (execution : Execution) (limit offset : ℤ) :
    runSelect D query execution limit offset =
      .ok ((page offset.toNat limit.toNat (orderedRows D query.order meaning rows)).map
        fun row => selectRow query.selectList (scopeOf row)) := by
  have hsort := sort_scopes D query.order
    (h.filter fun row => (meaning row).truth = some true)
    (fun row hrow row' hrow' => hties row (List.mem_of_mem_filter hrow) row'
      (List.mem_of_mem_filter hrow')) execution.select
  rw [runSelect, whereScopes_eq h hmeaning hfails, hqualifier]
  simp only [bind, Except.bind, pure, Except.pure]
  rw [hsort, page_map, List.map_map]
  rfl

theorem orderedRows_perm (order : List (String × Direction)) :
    (orderedRows D order meaning rows).Perm
      (rows.filter fun row => (meaning row).truth = some true) :=
  Plan.sort_perm _ _ _

theorem mem_of_mem_orderedRows {order : List (String × Direction)} {row : RowData}
    (h : row ∈ orderedRows D order meaning rows) : row ∈ rows :=
  List.mem_of_mem_filter ((orderedRows_perm order).mem_iff.mp h)

theorem truth_of_mem_orderedRows {order : List (String × Direction)} {row : RowData}
    (h : row ∈ orderedRows D order meaning rows) : (meaning row).truth = some true := by
  simpa using (List.mem_filter.mp ((orderedRows_perm order).mem_iff.mp h)).2

theorem orderedRows_pairwise {order : List (String × Direction)} (hnodup : rows.Nodup)
    (hties : ∀ row ∈ rows, ∀ row' ∈ rows, rowOrder D order row row' = .eq → row = row') :
    (orderedRows D order meaning rows).Pairwise
      fun row row' => rowOrder D order row row' = .lt := by
  have hsorted : (orderedRows D order meaning rows).Pairwise
      fun row row' => (rowOrder D order row row').isLE := Plan.sort_pairwise _ _
  have hdistinct : (orderedRows D order meaning rows).Nodup :=
    (orderedRows_perm order).nodup_iff.mpr (hnodup.filter _)
  refine (hsorted.and hdistinct).imp_of_mem fun {row row'} hrow hrow' h => ?_
  have hne : rowOrder D order row row' ≠ .eq := fun htie =>
    h.2 (hties row (mem_of_mem_orderedRows hrow) row' (mem_of_mem_orderedRows hrow') htie)
  have hle := h.1
  cases hcompare : rowOrder D order row row' with
  | lt => rfl
  | eq => exact absurd hcompare hne
  | gt =>
      rw [hcompare] at hle
      cases hle

end Statements

theorem mapM_eq_ok_of_forall₂ {ε α β : Type} {f : α → Except ε β} {xs : List α} {ys : List β}
    (h : List.Forall₂ (fun x y => f x = .ok y) xs ys) : xs.mapM f = .ok ys := by
  induction h with
  | nil => rfl
  | cons hfirst _ ih =>
      rw [List.mapM_cons, hfirst]
      simp [ih, bind, Except.bind, pure, Except.pure]

/-- Serializing a page gives that page of the items. -/
theorem mapM_page {α β : Type} {f : α → Except SearchError β} {P : α → β → Prop} {xs : List α}
    {ys : List β} (h : List.Forall₂ (fun x y => f x = .ok y ∧ P x y) xs ys)
    (offset limit : ℕ) : (page offset limit xs).mapM f = .ok (page offset limit ys) :=
  mapM_eq_ok_of_forall₂ (List.forall₂_take limit
    (List.forall₂_drop offset (h.imp fun _ _ hxy => hxy.1)))

theorem forall₂_ok_of_forall {α β : Type} {f : α → Except SearchError β} {P : α → β → Prop}
    {xs : List α} (h : ∀ x ∈ xs, ∃ y, f x = .ok y ∧ P x y) :
    ∃ ys, List.Forall₂ (fun x y => f x = .ok y ∧ P x y) xs ys := by
  rcases mapM_ok_of_forall (f := f) (P := fun x y => f x = .ok y ∧ P x y) fun x hx => by
    rcases h x hx with ⟨y, hy, hP⟩
    exact ⟨y, hy, hy, hP⟩ with ⟨ys, _, hys⟩
  exact ⟨ys, hys⟩

/-! ## All pages -/

theorem resolveLimit_page {limit : ℕ} (hlimit : 1 ≤ limit ∧ limit ≤ 200) :
    resolveLimit (some (limit : ℤ)) = .ok (limit : ℤ) := by
  have hrange : ¬ ((limit : ℤ) < 1 ∨ maxSearchLimit < limit) := by
    unfold maxSearchLimit
    omega
  simp only [resolveLimit]
  rw [if_neg hrange]
  rfl

theorem resolveOffset_page (offset : ℕ) :
    resolveOffset (some (offset : ℤ)) = .ok (offset : ℤ) := by
  have hrange : ¬ (offset : ℤ) < 0 := by omega
  simp only [resolveOffset]
  rw [if_neg hrange]
  rfl

section Pages

variable {E : SearchEnvironment} {S : ClassSet} {db : Database S} {C : LoadedClass}
  {limits : SearchNestingLimits} {request : SearchRequest} {limit : ℕ}
  {order : List (String × Direction)} {columns : List String}
  {meaning : RowData → SqlExpressions.Outcome}

/-- What the request resolves to. -/
structure Resolved (E : SearchEnvironment) (C : RecordClass) (limits : SearchNestingLimits)
    (rows : List RowData) (request : SearchRequest) (order : List (String × Direction))
    (columns : List String) (meaning : RowData → SqlExpressions.Outcome) : Prop where
  sorts : resolveSort request.sort (requestAttributes C request.idOnlyAttributes) = .ok order
  projects : resolveProjection request.attributes
    (requestAttributes C request.idOnlyAttributes) = .ok columns
  means : Meaning E.postgres (requestContext E C limits request.idOnlyAttributes)
    request.predicate meaning
  patterns : ∀ row, (meaning row).fails = false
  shown : ∀ row ∈ rows, (meaning row).truth = some true → row.InCalendar columns
  compiles : ∀ q, ∃ compiled, compilePredicateRoot
    (requestContext E C limits request.idOnlyAttributes) q request.predicate = .ok compiled ∧
      HasMeaning E.postgres q compiled meaning
  id_mem : "id" ∈ columns
  single : ∀ c ∈ columns, ¬ ['_', '_'] <:+: c.toList

theorem Accepted.resolved {rows : List RowData}
    (h : Accepted E C.toRecordClass limits request) (hstored : Stored C.toRecordClass rows)
    (hshown : ShownInCalendar E C.toRecordClass limits rows request) :
    ∃ order columns meaning,
      Resolved E C.toRecordClass limits rows request order columns meaning := by
  rcases h.predicate with ⟨compiled, hcompiled⟩
  rcases accepted_means E.postgres hcompiled with
    ⟨meaning, hmeaning, _, count, select, hcount, hselect, hcounts, hselects, _⟩
  rcases resolveProjection_ok h.attributes with ⟨columns, hcolumns, hid, hfrom⟩
  rcases resolveSort_ok h.sort with ⟨order, horder⟩
  refine ⟨order, columns, meaning, horder, hcolumns, hmeaning, h.patterns meaning hmeaning, ?_,
    ?_, hid, ?_⟩
  · intro row hrow htruth name hname micros hdatetime
    rcases hfrom name hname with rfl | hname
    · rcases hstored.keyed row hrow with ⟨id, hkey⟩
      rw [hkey] at hdatetime
      cases hdatetime
    · exact hshown meaning hmeaning row hrow htruth name hname micros hdatetime
  · intro q
    cases q with
    | false => exact ⟨count, hcount, hcounts⟩
    | true => exact ⟨select, hselect, hselects⟩
  · intro name hname
    rcases hfrom name hname with rfl | hname
    · decide
    · exact singleUnderscores_of_get (h.attributes name hname)

/-- The items of all rows that match, and each page as a piece of them. -/
def PagedBy (E : SearchEnvironment) {S : ClassSet} (db : Database S) (C : LoadedClass)
    (limits : SearchNestingLimits) (request : SearchRequest) (limit : ℕ) (enrich : Bool)
    (items : List Item) : Prop :=
  ∀ k execution, executeSearch E db.tables C.toRecordClass limits (some S.byName)
    (request.atPage limit k enrich) execution =
      .ok ⟨page (k * limit) limit items, limit, (k * limit : ℕ), items.length⟩

theorem ties_of_resolved
    (h : Resolved E C.toRecordClass limits (db.tables C.nameSnake) request order columns meaning)
    (hC : C ∈ S.classes) :
    ∀ row ∈ db.tables C.nameSnake, ∀ row' ∈ db.tables C.nameSnake,
      rowOrder E.postgres order row row' = .eq → row = row' :=
  rowOrder_ties E.postgres (db.stored C hC) (id_mem_of_resolveSort h.sorts)

/-- The whole statement for a page, from the items of all rows. -/
theorem runSearch_eq (query : SelectQuery)
    (h : Resolved E C.toRecordClass limits (db.tables C.nameSnake) request order columns meaning)
    (hC : C ∈ S.classes) {q : Bool} {scopeOf : RowData → Scope Value}
    (hscope : InScope q (db.tables C.nameSnake) scopeOf query.scopes)
    (hqualifier : query.orderQualifier = sourceAlias q) (horder : query.order = order)
    (hquery : HasMeaning E.postgres q query.condition meaning)
    {countWhere : Fragment × List Value} (hcount : HasMeaning E.postgres false countWhere meaning)
    {serialize : ResultRow → Except SearchError Item} {P : RowData → Item → Prop}
    {items : List Item}
    (hitems : List.Forall₂ (fun row item =>
      serialize (selectRow query.selectList (scopeOf row)) = .ok item ∧ P row item)
      (orderedRows E.postgres order meaning (db.tables C.nameSnake)) items)
    (execution : Execution) (k : ℕ) :
    runSearch E db.tables C.toRecordClass countWhere query serialize execution limit
      (k * limit : ℕ) =
        .ok ⟨page (k * limit) limit items, limit, (k * limit : ℕ), items.length⟩ := by
  subst horder
  have htotal := runCount_eq (inScope_plain db.tables C.nameSnake) hcount h.patterns execution
  have hselect := runSelect_eq query hscope hqualifier hquery h.patterns (ties_of_resolved h hC)
    execution limit (k * limit : ℕ)
  have hlength : (db.tables C.nameSnake |>.filter fun row =>
      (meaning row).truth = some true).length = items.length := by
    rw [← (orderedRows_perm (D := E.postgres) query.order).length_eq]
    exact hitems.length_eq
  have hpage := mapM_page hitems (k * limit) limit
  rw [runSearch, htotal, hselect, hlength]
  simp only [bind, Except.bind, List.mapM_map, Int.toNat_natCast]
  rw [show List.mapM (serialize ∘ fun row => selectRow query.selectList (scopeOf row)) _ = _
    from hpage]
  rfl

/-- Everything up to the statements. -/
theorem executeSearch_eq
    (h : Resolved E C.toRecordClass limits (db.tables C.nameSnake) request order columns meaning)
    (hlimit : 1 ≤ limit ∧ limit ≤ 200) (k : ℕ) (enrich : Bool) (execution : Execution)
    {countWhere selectWhere : Fragment × List Value}
    (hcount : compilePredicateRoot
      (requestContext E C.toRecordClass limits request.idOnlyAttributes) false
        request.predicate = .ok countWhere)
    (hselect : compilePredicateRoot
      (requestContext E C.toRecordClass limits request.idOnlyAttributes)
        (!request.idOnlyAttributes && enrich) request.predicate = .ok selectWhere) :
    executeSearch E db.tables C.toRecordClass limits (some S.byName)
      (request.atPage limit k enrich) execution =
        if (!request.idOnlyAttributes && enrich) = true then do
          let plan ← requirePlan C.toRecordClass (some S.byName) columns
          runSearch E db.tables C.toRecordClass countWhere
            (enrichedQuery E db.tables plan order selectWhere)
            (serializeEnrichedRow E.isoformat plan) execution limit (k * limit : ℕ)
        else
          runSearch E db.tables C.toRecordClass countWhere
            (plainQuery db.tables C.toRecordClass columns order selectWhere)
            (fun row => serializeRow E.isoformat row columns) execution limit
            (k * limit : ℕ) := by
  unfold requestContext at hcount hselect
  simp only [executeSearch, searchAttributes_eq, SearchRequest.atPage,
    resolveLimit_page hlimit, resolveOffset_page, h.sorts, h.projects, hcount, hselect,
    liftSearch, bind, Except.bind, pure, Except.pure]

theorem exists_plainItems
    (h : Resolved E C.toRecordClass limits (db.tables C.nameSnake) request order columns meaning)
    (hC : C ∈ S.classes) (hlimit : 1 ≤ limit ∧ limit ≤ 200) {enrich : Bool}
    (hplain : (!request.idOnlyAttributes && enrich) = false) :
    ∃ items, List.Forall₂ (ItemOf E.isoformat db C false columns)
        (orderedRows E.postgres order meaning (db.tables C.nameSnake)) items ∧
      PagedBy E db C limits request limit enrich items := by
  have hitems := forall₂_ok_of_forall
    fun row (hrow : row ∈ orderedRows E.postgres order meaning (db.tables C.nameSnake)) =>
      exists_plainItem E.isoformat (mem_of_mem_orderedRows hrow) hC
        (h.shown row (mem_of_mem_orderedRows hrow) (truth_of_mem_orderedRows hrow)) h.id_mem
  rcases hitems with ⟨items, hitems⟩
  refine ⟨items, hitems.imp fun _ _ hitem => hitem.2, ?_⟩
  intro k execution
  rcases h.compiles false with ⟨compiled, hcompiled, hmeaning⟩
  rw [executeSearch_eq h hlimit k enrich execution hcompiled (by rw [hplain]; exact hcompiled),
    hplain, if_neg (by simp)]
  exact runSearch_eq (plainQuery db.tables C.toRecordClass columns order compiled) h hC
    (inScope_plain db.tables C.nameSnake) rfl rfl hmeaning hmeaning hitems execution k

theorem exists_enrichedItems
    (h : Resolved E C.toRecordClass limits (db.tables C.nameSnake) request order columns meaning)
    (hC : C ∈ S.classes) (hlimit : 1 ≤ limit ∧ limit ≤ 200) {enrich : Bool}
    (henrich : (!request.idOnlyAttributes && enrich) = true) :
    ∃ items, List.Forall₂ (ItemOf E.isoformat db C true columns)
        (orderedRows E.postgres order meaning (db.tables C.nameSnake)) items ∧
      PagedBy E db C limits request limit enrich items := by
  rcases exists_plan hC columns with ⟨joins, hjoins, hplan⟩
  have hitems := forall₂_ok_of_forall
    fun row (hrow : row ∈ orderedRows E.postgres order meaning (db.tables C.nameSnake)) =>
      exists_enrichedItem (E := E) hjoins h.single hC (mem_of_mem_orderedRows hrow)
        (h.shown row (mem_of_mem_orderedRows hrow) (truth_of_mem_orderedRows hrow)) h.id_mem
  rcases hitems with ⟨items, hitems⟩
  refine ⟨items, hitems.imp fun _ _ hitem => hitem.2, ?_⟩
  intro k execution
  rcases h.compiles false with ⟨countWhere, hcount, hcountMeaning⟩
  rcases h.compiles true with ⟨selectWhere, hselect, hselectMeaning⟩
  have hstored : ∀ join ∈ joins, ∃ T, Stored T (db.tables join.targetTable) := by
    intro join hjoin
    rcases exists_field_of_join hjoins hjoin with ⟨field, _, T, hT, rfl⟩
    exact ⟨T.toRecordClass, db.stored T (ClassSet.byName_some hT).1⟩
  have hrequired : requirePlan C.toRecordClass (some S.byName) columns =
      .ok (planOf C columns joins) := by
    simp only [requirePlan, hplan]
    rfl
  rw [executeSearch_eq h hlimit k enrich execution hcount (by rw [henrich]; exact hselect),
    henrich, if_pos rfl, hrequired]
  exact runSearch_eq (enrichedQuery E db.tables (planOf C columns joins) order selectWhere) h hC
    (inScope_joined E.postgres db.tables hstored C.nameSnake) rfl rfl hselectMeaning
    hcountMeaning hitems execution k

/-- Pages of an accepted search are pieces of one list of items: every row that matches
once, in an order without ties, the same with and without identities. -/
theorem pages_partition (E : SearchEnvironment) (db : Database S) (hC : C ∈ S.classes)
    (hrequest : Accepted E C.toRecordClass limits request)
    (hshown : ShownInCalendar E C.toRecordClass limits (db.tables C.nameSnake) request)
    (hlimit : 1 ≤ limit ∧ limit ≤ 200) :
    ∃ order columns meaning ordered,
      resolveSort request.sort
        (requestAttributes C.toRecordClass request.idOnlyAttributes) = .ok order ∧
      resolveProjection request.attributes
        (requestAttributes C.toRecordClass request.idOnlyAttributes) = .ok columns ∧
      Meaning E.postgres (requestContext E C.toRecordClass limits request.idOnlyAttributes)
        request.predicate meaning ∧
      Std.TransCmp (rowOrder E.postgres order) ∧
      (∀ row ∈ db.tables C.nameSnake, ∀ row' ∈ db.tables C.nameSnake,
        rowOrder E.postgres order row row' = .eq → row = row') ∧
      ordered.Perm ((db.tables C.nameSnake).filter fun row => (meaning row).truth = some true) ∧
      ordered.Pairwise (fun row row' => rowOrder E.postgres order row row' = .lt) ∧
      ∀ enrich, ∃ items,
        List.Forall₂ (ItemOf E.isoformat db C (!request.idOnlyAttributes && enrich) columns)
          ordered items ∧
        ∀ executions : ℕ → Execution, ∃ results : ℕ → SearchResult,
          (∀ k, executeSearch E db.tables C.toRecordClass limits (some S.byName)
            (request.atPage limit k enrich) (executions k) = .ok (results k)) ∧
          (∀ k, (results k).total = ordered.length) ∧
          ∀ n, ordered.length ≤ n * limit →
            ((List.range n).map fun k => (results k).items).flatten = items := by
  have hstored := db.stored C hC
  rcases hrequest.resolved hstored hshown with ⟨order, columns, meaning, h⟩
  refine ⟨order, columns, meaning, orderedRows E.postgres order meaning (db.tables C.nameSnake),
    h.sorts, h.projects, h.means, inferInstance, ties_of_resolved h hC,
    orderedRows_perm order,
    orderedRows_pairwise (hstored.ids.of_map _) (ties_of_resolved h hC), ?_⟩
  intro enrich
  have hitems : ∃ items,
      List.Forall₂ (ItemOf E.isoformat db C (!request.idOnlyAttributes && enrich) columns)
        (orderedRows E.postgres order meaning (db.tables C.nameSnake)) items ∧
      PagedBy E db C limits request limit enrich items := by
    cases henrich : !request.idOnlyAttributes && enrich with
    | false => exact exists_plainItems h hC hlimit henrich
    | true => exact exists_enrichedItems h hC hlimit henrich
  rcases hitems with ⟨items, hforall, hpaged⟩
  refine ⟨items, hforall, fun executions => ⟨_, fun k => hpaged k (executions k), ?_, ?_⟩⟩
  · intro k
    exact hforall.length_eq.symm
  · intro n hn
    rw [flatten_pages, List.take_of_length_le]
    rw [← hforall.length_eq]
    exact hn

end Pages

/-! ## The system user -/

def displayNameAttribute : AttributeDefinition :=
  ⟨"display_name", "compact_text", true, none, false, none, none, none, none, 8, none⟩

def userClass : LoadedClass where
  nameSnake := "user"
  displayName := "User"
  description := "People and services"
  attributes := [displayNameAttribute]
  sourcePath := "user.yaml"
  displayAttribute := some displayNameAttribute
  isPublic := false
  permissions := ["read", "search"]
  checkConstraints := []
  uniqueConstraints := []
  names := by decide
  notSystem := by decide
  singleUnderscores := by decide
  referencesUuid := by decide
  displayText := by decide

def userClasses : ClassSet where
  classes := [userClass]
  references := by decide
  user := by decide

/-- The row of the system user, who created it. -/
def systemUserRow : RowData
  | "id" | "created_by" | "updated_by" => .uuid "01900000-0000-7000-8000-000000000001"
  | "created_at" | "updated_at" => .datetime 0
  | "display_name" => .text "System"
  | _ => .null

theorem systemUserRow_stored : Stored userClass.toRecordClass [systemUserRow] where
  keyed := by
    intro row hrow
    rw [List.mem_singleton.mp hrow]
    exact ⟨_, rfl⟩
  ids := by simp
  typed := by
    intro row hrow
    rw [List.mem_singleton.mp hrow]
    decide

/-! ## Two users and their editors -/

/-- The system user created this user, who changed her name herself. -/
def adaRow : RowData
  | "id" | "updated_by" => .uuid "01900000-0000-7000-8000-000000000002"
  | "created_by" => .uuid "01900000-0000-7000-8000-000000000001"
  | "created_at" => .datetime 1000000
  | "updated_at" => .datetime 2000000
  | "display_name" => .text "Ada"
  | _ => .null

/-- A user that has lost its name. -/
def namelessRow : RowData
  | "id" => .uuid "01900000-0000-7000-8000-000000000003"
  | "created_by" => .uuid "01900000-0000-7000-8000-000000000002"
  | "updated_by" => .uuid "01900000-0000-7000-8000-000000000001"
  | "created_at" | "updated_at" => .datetime 3000000
  | _ => .null

def userRows : List RowData := [systemUserRow, adaRow, namelessRow]

theorem userRows_stored : Stored userClass.toRecordClass userRows where
  keyed := by
    unfold userRows
    simp only [List.forall_mem_cons]
    exact ⟨⟨_, rfl⟩, ⟨_, rfl⟩, ⟨_, rfl⟩, by simp⟩
  ids := by decide
  typed := by decide

theorem userClass_references {column target : String}
    (h : ReferencesClass userClass.toRecordClass column target) :
    column ∈ ["created_by", "updated_by"] ∧ target = "user" := by
  rcases h with ⟨a, ha, _, hreferences⟩ | h
  · rw [List.mem_singleton.mp ha] at hreferences
    cases hreferences
  · exact h

/-- The users are the whole database. -/
def usersDatabase (rows : List RowData) (hstored : Stored userClass.toRecordClass rows)
    (hreferences : ∀ row ∈ rows, ∀ column ∈ ["created_by", "updated_by"],
      ∃ r ∈ rows, r "id" = row column) : Database userClasses where
  tables := fun _ => rows
  stored := by
    intro T hT
    rw [List.mem_singleton.mp hT]
    exact hstored
  references := by
    intro C hC row hrow column target href
    rw [List.mem_singleton.mp hC] at href
    rcases userClass_references href with ⟨hcolumn, rfl⟩
    rcases hreferences row hrow column hcolumn with ⟨r, hr, hid⟩
    exact Or.inr ⟨userClass, r, rfl, hr, hid⟩

theorem userRows_references : ∀ row ∈ userRows, ∀ column ∈ ["created_by", "updated_by"],
    ∃ r ∈ userRows, r "id" = row column := by
  decide

def userDatabase : Database userClasses :=
  usersDatabase userRows userRows_stored userRows_references

def userEnvironment : SearchEnvironment where
  postgres := plainPostgres
  adapters := textAdapters
  isoformat := toString

/-- Users by name, and who created and changed them. -/
def editorsRequest : SearchRequest where
  predicate := .obj [("op", .str "and"), ("predicates", .arr [
    .obj [("op", .str "not_empty"), ("attribute", .str "display_name")],
    .obj [("op", .str "not"), ("predicate", .obj [("op", .str "regexp"),
      ("attribute", .str "display_name"), ("value", .str "name")])]])]
  sort := [("display_name", .asc), ("display_name", .desc)]
  attributes := ["created_by", "updated_by", "created_at"]
  limit := none
  offset := none
  enrichFkIdentity := true
  idOnlyAttributes := false

/-- No pattern is malformed where the database knows no metacharacter. -/
theorem plain_not_fails (p : Pred) (row : RowData) : p.fails plainPostgres row = false := by
  induction p using Pred.induction with
  | leaf l =>
      cases l with
      | regexp attr pattern =>
          rw [Pred.fails_leaf, Leaf.fails]
          cases row.datum attr.name with
          | none => rfl
          | some v => cases v <;> rfl
      | _ => rfl
  | not p ih => rw [Pred.fails_not, ih]
  | connective c ps ih =>
      rw [Pred.fails_connective, List.any_eq_false]
      intro p hp
      rw [ih p hp]
      simp

theorem meaning_not_fails {predicate : Json} {meaning : RowData → SqlExpressions.Outcome}
    {cx : CompileContext} (h : Meaning plainPostgres cx predicate meaning) (row : RowData) :
    (meaning row).fails = false := by
  rcases h with ⟨_, rfl⟩ | ⟨p, _, rfl⟩
  · rfl
  · exact plain_not_fails p row

theorem editorsRequest_accepted :
    Accepted userEnvironment userClass.toRecordClass ⟨3, 20, 50, 3⟩ editorsRequest where
  predicate := ⟨_, rfl⟩
  patterns _ hmeaning := meaning_not_fails hmeaning
  sort := by decide
  attributes := by decide

theorem editorsRequest_shown :
    ShownInCalendar userEnvironment userClass.toRecordClass ⟨3, 20, 50, 3⟩ userRows
      editorsRequest := by
  intro meaning _ row hrow _ name hname micros hdatetime
  have hrounds : ∀ row ∈ userRows, ∀ name ∈ editorsRequest.attributes,
      (utcDatetime (row name)).isSome = true := by decide
  have hrounded := hrounds row hrow name hname
  rw [hdatetime, utcDatetime, Option.isSome_map] at hrounded
  exact hrounded

/-- The user without a name is not found. -/
theorem editors_matching {meaning : RowData → SqlExpressions.Outcome}
    (h : Meaning userEnvironment.postgres
      (requestContext userEnvironment userClass.toRecordClass ⟨3, 20, 50, 3⟩ false)
      editorsRequest.predicate meaning) :
    (userRows.filter fun row => (meaning row).truth = some true) = [systemUserRow, adaRow] := by
  rcases editorsRequest_accepted.predicate with ⟨compiled, hcompiled⟩
  have hmeaning := compiled_hasMeaning hcompiled h
  have hsystem := hmeaning systemUserRow (fun _ => systemUserRow.datum) fun _ => rfl
  have hada := hmeaning adaRow (fun _ => adaRow.datum) fun _ => rfl
  have hnameless := hmeaning namelessRow (fun _ => namelessRow.datum) fun _ => rfl
  cases hcompiled
  have hsystem' := Option.some.inj hsystem
  have hada' := Option.some.inj hada
  have hnameless' := Option.some.inj hnameless
  rw [userRows, List.filter_cons, List.filter_cons, List.filter_cons, ← hsystem', ← hada',
    ← hnameless']
  rfl

/-- Pages of one user list who created and who changed each, however the rows are found. -/
theorem editors_paged :
    ∃ items : List Item, items.length = 2 ∧
      ∀ executions : ℕ → Execution, ∃ results : ℕ → SearchResult,
        (∀ k, executeSearch userEnvironment userDatabase.tables userClass.toRecordClass
          ⟨3, 20, 50, 3⟩ (some userClasses.byName) (editorsRequest.atPage 1 k true)
            (executions k) = .ok (results k)) ∧
        (∀ k, (results k).total = 2) ∧ (results 0).items ++ (results 1).items = items := by
  rcases pages_partition userEnvironment userDatabase (C := userClass)
    (List.mem_singleton.mpr rfl) editorsRequest_accepted editorsRequest_shown
    (show 1 ≤ (1 : ℕ) ∧ (1 : ℕ) ≤ 200 by decide) with
    ⟨_, _, meaning, ordered, _, _, hmeaning, _, _, hperm, _, hpages⟩
  have hlength : ordered.length = 2 := by
    rw [hperm.length_eq]
    exact congrArg List.length (editors_matching hmeaning)
  rcases hpages true with ⟨items, hforall, hresults⟩
  refine ⟨items, hforall.length_eq.symm.trans hlength, fun executions => ?_⟩
  rcases hresults executions with ⟨results, hrun, htotal, hflatten⟩
  refine ⟨results, hrun, fun k => (htotal k).trans hlength, ?_⟩
  have hpair := hflatten 2 (by rw [hlength])
  simpa [List.range_succ] using hpair

/-! ## A row of the last second -/

def scanInOrder : Execution where
  select := ⟨id, fun _ => .refl _⟩
  countPatterns := ⟨true, true⟩
  selectPatterns := ⟨true, true⟩

/-- The system user, created at 9999-12-31T23:59:59.7Z. -/
def lastInstantRow : RowData := fun name =>
  if name = "created_at" then .datetime 253402300799700000 else systemUserRow name

theorem lastInstantRow_stored : Stored userClass.toRecordClass [lastInstantRow] where
  keyed := by
    intro row hrow
    rw [List.mem_singleton.mp hrow]
    exact ⟨_, rfl⟩
  ids := by simp
  typed := by decide

theorem lastInstantRow_references : ∀ row ∈ [lastInstantRow],
    ∀ column ∈ ["created_by", "updated_by"], ∃ r ∈ [lastInstantRow], r "id" = row column := by
  decide

/-- No page shows the last instant: rounded to a second it is out of the calendar. -/
theorem lastInstant_unpaged :
    Accepted userEnvironment userClass.toRecordClass ⟨3, 20, 50, 3⟩ editorsRequest ∧
    ∀ enrich, executeSearch userEnvironment
      (usersDatabase [lastInstantRow] lastInstantRow_stored lastInstantRow_references).tables
      userClass.toRecordClass ⟨3, 20, 50, 3⟩ (some userClasses.byName)
      (editorsRequest.atPage 1 0 enrich) scanInOrder = .error (.search .overflow) := by
  refine ⟨editorsRequest_accepted, fun enrich => ?_⟩
  cases enrich with
  | false => decide +kernel
  | true => decide +kernel

end Untangled.Search
