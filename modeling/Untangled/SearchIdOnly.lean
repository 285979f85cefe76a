import Untangled.SearchPages

/-!
# Searching without read permission

With `id` as the only attribute the condition, the keys of the order and the items
depend on the ids and creation times of the rows alone: two states that agree on these
give the same answer.
-/

namespace Untangled.Search

open Mapping Records SqlExpressions SqlSelect

/-! ## What a tree reads -/

section Reads

variable {D : Postgres} {cx : CompileContext} {row row' : RowData}

theorem attr_mem_of_readFrom {l : Leaf} {node : List (String × Json)}
    (h : l.ReadFrom cx node) : l.attr ∈ cx.attrs := by
  have hmem : ∀ attr, NamesAttribute cx node attr → attr ∈ cx.attrs := by
    rintro attr ⟨name, _, _, hget⟩
    exact List.mem_of_find?_eq_some hget
  cases l with
  | compare c attr v => exact hmem _ h.1.2.1
  | nullCheck empty attr => exact hmem _ h.2
  | like op attr text => exact hmem _ h.1.2.1
  | regexp attr text => exact hmem _ h.1.2.1

theorem RowData.datum_congr {name : String} (h : row name = row' name) :
    row.datum name = row'.datum name := by
  unfold RowData.datum
  rw [h]

theorem Leaf.outcome_congr {l : Leaf} (h : row l.attr.name = row' l.attr.name) :
    l.truth D row = l.truth D row' ∧ l.fails D row = l.fails D row' := by
  have hdatum := RowData.datum_congr h
  cases l <;> simp_all [Leaf.truth, Leaf.fails, Leaf.attr]

/-- A tree has the same outcome on rows that agree on the attributes it may name. -/
theorem Denotes.outcome_congr (hrows : ∀ a ∈ cx.attrs, row a.name = row' a.name) {p : Pred}
    {node : Json} (h : Denotes cx p node) : p.outcome D row = p.outcome D row' := by
  have hparts : p.truth D row = p.truth D row' ∧ p.fails D row = p.fails D row' := by
    induction p using Pred.induction generalizing node with
    | leaf l =>
        rcases h with ⟨_, _, _, hread⟩
        exact Leaf.outcome_congr (hrows _ (attr_mem_of_readFrom hread))
    | not p ih =>
        rcases h with ⟨inner, _, hinner⟩
        rcases ih hinner with ⟨htruth, hfails⟩
        exact ⟨congrArg Truth.not htruth, hfails⟩
    | connective c ps ih =>
        rcases (denotes_connective cx).mp h with ⟨items, _, hps⟩
        have hchildren : ∀ p ∈ ps, p.truth D row = p.truth D row' ∧
            p.fails D row = p.fails D row' := by
          intro p hp
          rcases exists_denotes_of_mem hps hp with ⟨item, hitem⟩
          exact ih p hp hitem
        constructor
        · rw [Pred.truth_connective, Pred.truth_connective,
            List.map_congr_left fun p hp => (hchildren p hp).1]
        · rw [Pred.fails_connective, Pred.fails_connective, Bool.eq_iff_iff,
            List.any_eq_true, List.any_eq_true]
          constructor
          · rintro ⟨p, hp, hfails⟩
            exact ⟨p, hp, (hchildren p hp).2.symm.trans hfails⟩
          · rintro ⟨p, hp, hfails⟩
            exact ⟨p, hp, (hchildren p hp).2.trans hfails⟩
  rw [Pred.outcome, Pred.outcome, hparts.1, hparts.2]

/-- Without attributes for patterns no pattern is malformed. -/
theorem Denotes.not_fails (hattrs : ∀ a ∈ cx.attrs, a.typeName ∉ textPatternTypes) {p : Pred}
    {node : Json} (h : Denotes cx p node) : p.fails D row = false := by
  induction p using Pred.induction generalizing node with
  | leaf l =>
      rcases h with ⟨_, _, _, hread⟩
      cases l with
      | regexp attr text =>
          exact absurd hread.2 (hattrs _ (attr_mem_of_readFrom (l := .regexp attr text) hread))
      | _ => rfl
  | not p ih =>
      rcases h with ⟨inner, _, hinner⟩
      exact ih hinner
  | connective c ps ih =>
      rcases (denotes_connective cx).mp h with ⟨items, _, hps⟩
      rw [Pred.fails_connective, List.any_eq_false]
      intro p hp
      rcases exists_denotes_of_mem hps hp with ⟨item, hitem⟩
      rw [ih p hp hitem]
      simp

end Reads

/-! ## Rows by id and creation time -/

/-- What an unprivileged search may depend on. -/
def idPair (row : RowData) : Value × Value := (row "id", row "created_at")

/-- The row with everything else taken away. -/
def publicPart (row : RowData) : RowData := fun name =>
  if name = "id" then row "id"
  else if name = "created_at" then row "created_at"
  else .null

theorem publicPart_eq {row row' : RowData} (h : idPair row = idPair row') :
    publicPart row = publicPart row' := by
  simp only [idPair, Prod.mk.injEq] at h
  unfold publicPart
  rw [h.1, h.2]

theorem publicPart_of_mem (row : RowData) {name : String}
    (h : name = "id" ∨ name = "created_at") : publicPart row name = row name := by
  rcases h with rfl | rfl <;> rfl

/-- Tables with the same ids and creation times are the same but for the rest. -/
theorem perm_publicPart {C : RecordClass} {rows rows' : List RowData} (h : Stored C rows)
    (h' : Stored C rows') (hpairs : ∀ pair, pair ∈ rows.map idPair ↔ pair ∈ rows'.map idPair) :
    (rows.map publicPart).Perm (rows'.map publicPart) := by
  have hnodup : ∀ {rows : List RowData}, Stored C rows → (rows.map publicPart).Nodup := by
    intro rows h
    refine List.Nodup.of_map (fun row : RowData => row "id") ?_
    rw [List.map_map]
    exact h.ids
  rw [List.perm_ext_iff_of_nodup (hnodup h) (hnodup h')]
  have hsub : ∀ {rows rows' : List RowData},
      (∀ pair, pair ∈ rows.map idPair → pair ∈ rows'.map idPair) →
        ∀ part, part ∈ rows.map publicPart → part ∈ rows'.map publicPart := by
    intro rows rows' hsub part hpart
    rcases List.mem_map.mp hpart with ⟨row, hrow, rfl⟩
    rcases List.mem_map.mp (hsub _ (List.mem_map_of_mem hrow)) with ⟨row', hrow', heq⟩
    exact List.mem_map.mpr ⟨row', hrow', publicPart_eq heq⟩
  exact fun part => ⟨hsub (fun pair => (hpairs pair).mp) part,
    hsub (fun pair => (hpairs pair).mpr) part⟩

/-! ## Both statements -/

section Statements

variable {E : SearchEnvironment} {C : RecordClass} {columns : List String}
  {order : List (String × Direction)} {meaning : RowData → SqlExpressions.Outcome}
  {countWhere selectWhere : Fragment × List Value}

/-- The answer as a function of the public parts. -/
def publicAnswer (E : SearchEnvironment) (C : RecordClass) (columns : List String)
    (order : List (String × Direction)) (meaning : RowData → SqlExpressions.Outcome)
    (parts : List RowData)
    (limit offset : ℤ) : Except SearchError SearchResult := do
  let items ← (page offset.toNat limit.toNat
    (orderedRows E.postgres order meaning parts)).mapM fun row =>
      serializeRow E.isoformat (selectRow (columns.map fun column => ⟨none, column, column⟩)
        [(C.nameSnake, row.datum)]) columns
  pure { items, limit, offset,
         total := (parts.filter fun row => (meaning row).truth = some true).length }

theorem rowOrder_publicPart {D : Postgres} {order : List (String × Direction)}
    (horder : ∀ key ∈ order, key.1 = "id" ∨ key.1 = "created_at") (row row' : RowData) :
    rowOrder D order (publicPart row) (publicPart row') = rowOrder D order row row' := by
  unfold rowOrder
  induction order with
  | nil => rfl
  | cons key order ih =>
      have hname := horder key (List.mem_cons_self ..)
      have hdatum : ∀ row, (publicPart row).datum key.1 = row.datum key.1 :=
        fun row => RowData.datum_congr (publicPart_of_mem row hname)
      have hkey : keyOrder D.order (fun row : RowData => row.datum key.1) key.2
            (publicPart row) (publicPart row') =
          keyOrder D.order (fun row : RowData => row.datum key.1) key.2 row row' := by
        cases key.2 <;> simp only [keyOrder, hdatum]
      simp only [List.map_cons, orderBy, compareLex, hkey,
        ih fun k hk => horder k (List.mem_cons_of_mem key hk)]

theorem selectRow_publicPart {table : String} (hcolumns : ∀ c ∈ columns, c = "id")
    (row : RowData) :
    selectRow (columns.map fun column => ⟨none, column, column⟩)
        [(table, (publicPart row).datum)] =
      selectRow (columns.map fun column => ⟨none, column, column⟩) [(table, row.datum)] := by
  unfold selectRow
  rw [List.map_map, List.map_map]
  refine List.map_congr_left fun column hcolumn => ?_
  rw [hcolumns column hcolumn]
  rfl

/-- The statements of an unprivileged search see public parts only. -/
theorem runSearch_publicAnswer {tables : Tables} (hstored : Stored C (tables C.nameSnake))
    (hid : "id" ∈ order.map Prod.fst)
    (horder : ∀ key ∈ order, key.1 = "id" ∨ key.1 = "created_at")
    (hcolumns : ∀ c ∈ columns, c = "id")
    (hcount : HasMeaning E.postgres false countWhere meaning)
    (hselect : HasMeaning E.postgres false selectWhere meaning)
    (hmeaning : ∀ row, meaning (publicPart row) = meaning row)
    (hfails : ∀ row, (meaning row).fails = false) (execution : Execution)
    (limit offset : ℤ) :
    runSearch E tables C countWhere (plainQuery tables C columns order selectWhere)
        (fun row => serializeRow E.isoformat row columns) execution limit offset =
      publicAnswer E C columns order meaning ((tables C.nameSnake).map publicPart) limit
        offset := by
  have hties := rowOrder_ties E.postgres hstored hid
  have htotal := runCount_eq (inScope_plain tables C.nameSnake) hcount
    hfails execution
  have hrows := runSelect_eq (plainQuery tables C columns order selectWhere)
    (inScope_plain tables C.nameSnake) rfl hselect hfails hties execution
    limit offset
  have hfilter : (((tables C.nameSnake).map publicPart).filter fun row =>
        (meaning row).truth = some true) =
      ((tables C.nameSnake).filter fun row =>
        (meaning row).truth = some true).map publicPart := by
    rw [List.filter_map]
    refine congrArg (List.map publicPart) (List.filter_congr fun row _ => ?_)
    simp only [Function.comp_apply, hmeaning]
  have hsorted : orderedRows E.postgres order meaning ((tables C.nameSnake).map publicPart) =
      (orderedRows E.postgres order meaning (tables C.nameSnake)).map publicPart := by
    unfold orderedRows sortRows
    rw [hfilter]
    refine Plan.sort_map _ _ (fun row _ row' _ => rowOrder_publicPart horder row row') ?_
    intro row hrow row' hrow' htie
    exact hties row (List.mem_of_mem_filter hrow) row' (List.mem_of_mem_filter hrow') htie
  rw [runSearch, htotal, hrows, publicAnswer, hsorted, hfilter, page_map, List.mapM_map,
    List.length_map]
  simp only [bind, Except.bind, List.mapM_map]
  congr 1
  refine congrArg (fun f => List.mapM f _) (funext fun row => ?_)
  rw [Function.comp_apply, Function.comp_apply, selectRow_publicPart hcolumns]
  rfl

theorem publicAnswer_perm {parts parts' : List RowData} (hperm : parts.Perm parts')
    (hties : ∀ row ∈ parts, ∀ row' ∈ parts,
      rowOrder E.postgres order row row' = .eq → row = row') (limit offset : ℤ) :
    publicAnswer E C columns order meaning parts limit offset =
      publicAnswer E C columns order meaning parts' limit offset := by
  have hfilter := hperm.filter fun row => (meaning row).truth = some true
  have hsorted : orderedRows E.postgres order meaning parts =
      orderedRows E.postgres order meaning parts' :=
    Plan.sort_eq_of_perm _ _ hfilter fun row hrow row' hrow' =>
      hties row (List.mem_of_mem_filter hrow) row' (List.mem_of_mem_filter hrow')
  rw [publicAnswer, publicAnswer, hsorted, hfilter.length_eq]

end Statements

/-! ## The whole call -/

section Call

variable {E : SearchEnvironment} {C : RecordClass} {limits : SearchNestingLimits}
  {request : SearchRequest}

theorem meaning_idOnly {q : Bool} {compiled : Fragment × List Value} {predicate : Json}
    (h : compilePredicateRoot (requestContext E C limits true) q predicate = .ok compiled) :
    ∃ meaning, HasMeaning E.postgres q compiled meaning ∧
      (∀ row, meaning (publicPart row) = meaning row) ∧ ∀ row, (meaning row).fails = false := by
  rcases exists_meaning E.postgres h with ⟨meaning, hmeaning⟩
  have hcompiled := compiled_hasMeaning h hmeaning
  refine ⟨meaning, hcompiled, ?_⟩
  rcases hmeaning with ⟨_, rfl⟩ | ⟨p, hp, rfl⟩
  · exact ⟨fun _ => rfl, fun _ => rfl⟩
  · constructor
    · intro row
      refine hp.outcome_congr fun a ha => ?_
      rw [List.mem_singleton.mp ha]
      rfl
    · intro row
      refine hp.not_fails fun a ha => ?_
      rw [List.mem_singleton.mp ha]
      decide

theorem name_eq_id {name : String} (h : ((requestAttributes C true).get name).isSome = true) :
    name = "id" := by
  rcases Option.isSome_iff_exists.mp h with ⟨attr, hattr⟩
  have hname : attr.name = name := by simpa using List.find?_some hattr
  rw [← hname, List.mem_singleton.mp (List.mem_of_find?_eq_some hattr)]

theorem projectColumns_known {attrs : Attributes} {names seen columns : List String}
    (h : projectColumns attrs names seen = .ok columns) :
    ∀ name ∈ columns, name ∈ seen ∨ (attrs.get name).isSome = true := by
  induction names generalizing seen with
  | nil =>
      cases h
      exact fun name hname => Or.inl hname
  | cons first names ih =>
      unfold projectColumns at h
      split at h
      · cases h
      · rename_i attr hattr
        split at h
        · exact ih h
        · intro name hname
          rcases ih h name hname with hseen | hknown
          · rcases List.mem_append.mp hseen with hseen | hfirst
            · exact Or.inl hseen
            · rw [List.mem_singleton.mp hfirst, hattr]
              exact Or.inr rfl
          · exact Or.inr hknown

theorem columns_idOnly {attributes columns : List String}
    (h : resolveProjection attributes (requestAttributes C true) = .ok columns) :
    ∀ c ∈ columns, c = "id" := by
  intro c hc
  rcases projectColumns_known h c hc with hseen | hknown
  · exact List.mem_singleton.mp hseen
  · exact name_eq_id hknown

theorem order_idOnly {sort order : List (String × Direction)}
    (h : resolveSort sort (requestAttributes C true) = .ok order) :
    ∀ key ∈ order, key.1 = "id" ∨ key.1 = "created_at" := by
  unfold resolveSort at h
  split at h
  · rename_i hknown
    cases h
    have hsort : ∀ key ∈ sort, key.1 = "id" ∨ key.1 = "created_at" :=
      fun key hkey => Or.inl (name_eq_id (hknown key hkey))
    have hcreated : ∀ key ∈ (if "created_at" ∈ sort.map Prod.fst then sort
        else sort ++ [("created_at", Direction.desc)]), key.1 = "id" ∨ key.1 = "created_at" := by
      split
      · exact hsort
      · exact List.forall_mem_append.mpr ⟨hsort, by simp⟩
    split
    · exact hcreated
    · exact List.forall_mem_append.mpr ⟨hcreated, by simp⟩
  · cases h

/-- Before its statements a search has not looked at the tables. -/
theorem executeSearch_idOnly (hid : request.idOnlyAttributes = true)
    (definitionsByName : Option (String → Option LoadedClass)) (tables : Tables)
    (execution : Execution) :
    executeSearch E tables C limits definitionsByName request execution = (do
      let limit ← resolveLimit request.limit
      let offset ← resolveOffset request.offset
      let columns ← resolveProjection request.attributes (requestAttributes C true)
      let order ← resolveSort request.sort (requestAttributes C true)
      let countWhere ← liftSearch
        (compilePredicateRoot (requestContext E C limits true) false request.predicate)
      let selectWhere ← liftSearch
        (compilePredicateRoot (requestContext E C limits true) false request.predicate)
      runSearch E tables C countWhere (plainQuery tables C columns order selectWhere)
        (fun row => serializeRow E.isoformat row columns) execution limit offset) := by
  rw [executeSearch, searchAttributes_eq, hid]
  rfl

theorem executeSearch_idOnly_congr (hid : request.idOnlyAttributes = true)
    (definitionsByName : Option (String → Option LoadedClass)) {tables tables' : Tables}
    (hstored : Stored C (tables C.nameSnake)) (hstored' : Stored C (tables' C.nameSnake))
    (hpairs : ∀ pair, pair ∈ (tables C.nameSnake).map idPair ↔
      pair ∈ (tables' C.nameSnake).map idPair) (execution execution' : Execution) :
    executeSearch E tables C limits definitionsByName request execution =
      executeSearch E tables' C limits definitionsByName request execution' := by
  rw [executeSearch_idOnly hid, executeSearch_idOnly hid]
  refine congrArg (resolveLimit request.limit >>= ·) (funext fun limit => ?_)
  refine congrArg (resolveOffset request.offset >>= ·) (funext fun offset => ?_)
  cases hcolumns : resolveProjection request.attributes (requestAttributes C true) with
  | error failure => rfl
  | ok columns =>
      cases horder : resolveSort request.sort (requestAttributes C true) with
      | error failure => rfl
      | ok order =>
          cases hcompiled : compilePredicateRoot (requestContext E C limits true) false
              request.predicate with
          | error failure => rfl
          | ok compiled =>
              rcases meaning_idOnly hcompiled with ⟨meaning, hmeaning, hpublic, hfails⟩
              have hidmem := id_mem_of_resolveSort horder
              have hkeys := order_idOnly horder
              have hnames := columns_idOnly hcolumns
              have hties : ∀ row ∈ (tables C.nameSnake).map publicPart,
                  ∀ row' ∈ (tables C.nameSnake).map publicPart,
                    rowOrder E.postgres order row row' = .eq → row = row' := by
                intro row hrow row' hrow' htie
                rcases List.mem_map.mp hrow with ⟨r, hr, rfl⟩
                rcases List.mem_map.mp hrow' with ⟨r', hr', rfl⟩
                rw [rowOrder_publicPart hkeys] at htie
                rw [rowOrder_ties E.postgres hstored hidmem r hr r' hr' htie]
              calc
                _ = publicAnswer E C columns order meaning
                      ((tables C.nameSnake).map publicPart) limit offset :=
                  runSearch_publicAnswer hstored hidmem hkeys hnames hmeaning hmeaning
                    hpublic hfails execution limit offset
                _ = publicAnswer E C columns order meaning
                      ((tables' C.nameSnake).map publicPart) limit offset :=
                  publicAnswer_perm (perm_publicPart hstored hstored' hpairs) hties limit
                    offset
                _ = _ :=
                  (runSearch_publicAnswer hstored' hidmem hkeys hnames hmeaning hmeaning
                    hpublic hfails execution' limit offset).symm

/-! ## Permissions -/

def adminPermissionKey : String := "admin"

def permissionGrants (effective : List String) (required : String) : Bool :=
  adminPermissionKey ∈ effective || required ∈ effective

def classOperationGranted (effective : List String) (className operation : String)
    (isPublic : Bool) : Bool :=
  (isPublic && operation ∈ ["read", "search"]) ||
    permissionGrants effective (className ++ ":" ++ operation)

/-- The search of the router: without effective read it is one by `id` alone. -/
def searchRecords (E : SearchEnvironment) (tables : Tables) (C : RecordClass)
    (limits : SearchNestingLimits) (definitionsByName : Option (String → Option LoadedClass))
    (permissions : List String) (body : SearchRequest) (execution : Execution) :
    Except SearchError SearchResult :=
  let effectiveRead := classOperationGranted permissions C.nameSnake "read" C.isPublic
  executeSearch E tables C limits definitionsByName
    { body with
      enrichFkIdentity := effectiveRead
      idOnlyAttributes := !effectiveRead } execution

/-- An unprivileged search gives one answer in all states with the same ids and creation
times, and the router's search is one wherever read is not granted. -/
theorem idOnly_noninterference (E : SearchEnvironment) {C : RecordClass} {tables tables' : Tables}
    (hstored : Stored C (tables C.nameSnake)) (hstored' : Stored C (tables' C.nameSnake))
    (hpairs : ∀ pair, pair ∈ (tables C.nameSnake).map idPair ↔
      pair ∈ (tables' C.nameSnake).map idPair)
    (limits : SearchNestingLimits) (definitionsByName : Option (String → Option LoadedClass))
    (request : SearchRequest) (execution execution' : Execution) :
    (request.idOnlyAttributes = true →
      executeSearch E tables C limits definitionsByName request execution =
        executeSearch E tables' C limits definitionsByName request execution') ∧
    ∀ permissions, classOperationGranted permissions C.nameSnake "read" C.isPublic = false →
      searchRecords E tables C limits definitionsByName permissions request execution =
        searchRecords E tables' C limits definitionsByName permissions request execution' := by
  constructor
  · intro hid
    exact executeSearch_idOnly_congr hid definitionsByName hstored hstored' hpairs execution
      execution'
  · intro permissions hread
    have hid : (!classOperationGranted permissions C.nameSnake "read" C.isPublic) = true := by
      rw [hread]
      rfl
    exact executeSearch_idOnly_congr hid definitionsByName hstored hstored' hpairs execution
      execution'

end Call

/-! ## Two names of the system user -/

/-- The system user under another display name. -/
def renamedUserRow : RowData := fun name =>
  if name = "display_name" then .text "Renamed" else systemUserRow name

theorem renamedUserRow_stored : Stored userClass.toRecordClass [renamedUserRow] where
  keyed := by
    intro row hrow
    rw [List.mem_singleton.mp hrow]
    exact ⟨_, rfl⟩
  ids := by simp
  typed := by
    intro row hrow
    rw [List.mem_singleton.mp hrow]
    decide

def scanBackwards : Execution where
  select := ⟨List.reverse, List.reverse_perm⟩
  countPatterns := ⟨false, false⟩
  selectPatterns := ⟨true, false⟩

def listRequest : SearchRequest where
  predicate := .obj [("op", .str "not_empty"), ("attribute", .str "id")]
  sort := [("id", .asc)]
  attributes := []
  limit := none
  offset := none
  enrichFkIdentity := false
  idOnlyAttributes := true

theorem list_unchanged :
    executeSearch userEnvironment (fun _ => [systemUserRow]) userClass.toRecordClass
        ⟨3, 20, 50, 3⟩ none listRequest scanInOrder =
      executeSearch userEnvironment (fun _ => [renamedUserRow]) userClass.toRecordClass
        ⟨3, 20, 50, 3⟩ none listRequest scanBackwards :=
  (@idOnly_noninterference userEnvironment userClass.toRecordClass
    (fun _ => [systemUserRow]) (fun _ => [renamedUserRow])
    systemUserRow_stored renamedUserRow_stored (fun _ => Iff.rfl) ⟨3, 20, 50, 3⟩ none
    listRequest scanInOrder scanBackwards).1 rfl

end Untangled.Search
