import Mathlib.Data.List.Lex
import Mathlib.Data.List.Sort
import Untangled.JsonTokens

/-!
# Column layout

The session order of list columns in `column_layout.ts`: seeded from the schema, kept as
long as the set of columns stays, and changed by dragging.  Over every run it is a
permutation of the current columns.
-/

namespace Untangled.ColumnLayout

open JsonSyntax

/-- A name by its code units. -/
abbrev Name := List ℕ

structure ListColumn where
  nameSnake : Name
  typeName : String
  /-- None where it is not an integer. -/
  order : Option ℤ

/-- The widths by name. -/
structure ColumnLayoutSession where
  order : List Name
  widths : Name → Option ℕ

def columnNames (columns : List ListColumn) : List Name :=
  columns.map ListColumn.nameSnake

def columnWidthPx (typeName : String) : ℕ :=
  match typeName with
  | "friendly_id" => 140
  | "boolean" => 96
  | "integer" | "float" | "decimal" => 112
  | "uuid" => 280
  | _ => 200

/-- The names in the order of their code units, with NUL between them. -/
def columnSetSignature (columns : List ListColumn) : Name :=
  [0].intercalate ((columnNames columns).insertionSort (· ≤ ·))

/-- The column that a map from names to columns has. -/
def columnByName (columns : List ListColumn) (name : Name) : Option ListColumn :=
  columns.reverse.find? fun column => column.nameSnake = name

def seedColumnLayout (columns : List ListColumn) : Except Text ColumnLayoutSession :=
  match columns.find? fun column => column.order.isNone with
  | some column => throw (units "list column '" ++ column.nameSnake ++
      units "' is missing a valid declaration order ordinal")
  | none => pure ⟨columnNames columns,
      fun name => (columnByName columns name).map fun column => columnWidthPx column.typeName⟩

/-- The loop over the session order. -/
def resolveColumns (columns : List ListColumn) :
    List Name → List ListColumn → List Name → Except Text (List Name × List ListColumn)
  | seen, resolved, [] => pure (seen, resolved)
  | seen, resolved, name :: order =>
      if name ∈ seen then
        throw (units "list column session order has duplicate attribute '" ++ name ++ units "'")
      else
        match columnByName columns name with
        | none => throw (units "list column session order references unknown attribute '" ++
            name ++ units "'")
        | some column => resolveColumns columns (seen ++ [name]) (resolved ++ [column]) order

def applyColumnOrder (columns : List ListColumn) (order : List Name) :
    Except Text (List ListColumn) :=
  if order.length ≠ columns.length then
    throw (units "list column session order does not match schema column set")
  else do
    let (seen, resolved) ← resolveColumns columns [] [] order
    match columns.find? fun column => column.nameSnake ∉ seen with
    | some column => throw (units "list column session order is missing attribute '" ++
        column.nameSnake ++ units "'")
    | none => pure resolved

structure Reconciled where
  layout : ColumnLayoutSession
  signature : Name
  reset : Bool

/-- Whether the previous session goes on. -/
def keepsSession (columns : List ListColumn) (session : ColumnLayoutSession)
    (previousSignature : Option Name) : Bool :=
  previousSignature = some (columnSetSignature columns) &&
    session.order.length = columns.length &&
    (applyColumnOrder columns session.order).isOk

def reconcileColumnLayout (columns : List ListColumn) (session : Option ColumnLayoutSession)
    (previousSignature : Option Name) : Except Text Reconciled :=
  let signature := columnSetSignature columns
  match session.filter fun s => keepsSession columns s previousSignature with
  | some s => pure ⟨s, signature, false⟩
  | none => do
      let layout ← seedColumnLayout columns
      pure ⟨layout, signature, session.isSome⟩

/-- The guard of `move_column_order` does not stop the move. -/
def Effective (order : List Name) (fromIndex insertBeforeIndex : ℤ) : Prop :=
  0 ≤ fromIndex ∧ 0 ≤ insertBeforeIndex ∧ fromIndex < order.length ∧
    insertBeforeIndex ≤ order.length ∧ fromIndex ≠ insertBeforeIndex ∧
    fromIndex + 1 ≠ insertBeforeIndex

instance (order : List Name) (fromIndex insertBeforeIndex : ℤ) :
    Decidable (Effective order fromIndex insertBeforeIndex) :=
  inferInstanceAs (Decidable (_ ∧ _))

def moveColumnOrder (order : List Name) (fromIndex insertBeforeIndex : ℤ) : List Name :=
  if Effective order fromIndex insertBeforeIndex then
    match order[fromIndex.toNat]? with
    | none => order
    | some moved =>
        let insertAt :=
          if fromIndex < insertBeforeIndex then insertBeforeIndex - 1 else insertBeforeIndex
        (order.eraseIdx fromIndex.toNat).insertIdx insertAt.toNat moved
  else order

/-! ## Moving a column -/

theorem insertIdx_length_append (a c : List Name) (x : Name) :
    (a ++ c).insertIdx a.length x = a ++ x :: c := by
  induction a with
  | nil => rfl
  | cons y a ih => simp [ih]

theorem eraseIdx_length_append (a c : List Name) (x : Name) :
    (a ++ x :: c).eraseIdx a.length = a ++ c := by
  induction a with
  | nil => rfl
  | cons y a ih => simp [ih]

theorem exists_split
    {l : List Name} {i : ℕ}
    (hi : i ≤ l.length) :
    ∃ a b, l = a ++ b ∧ a.length = i :=
  ⟨l.take i, l.drop i, (List.take_append_drop i l).symm, List.length_take_of_le hi⟩

/-- What a move does: to the right, or to the left. -/
inductive Moved (order result : List Name) (fromIndex insertBeforeIndex : ℤ) (x : Name) : Prop
  | right {a b c : List Name} (horder : order = a ++ x :: (b ++ c))
      (hfrom : a.length = fromIndex) (hinsert : a.length + 1 + b.length = insertBeforeIndex)
      (hresult : result = a ++ (b ++ x :: c))
  | left {a b c : List Name} (horder : order = a ++ (b ++ x :: c))
      (hinsert : a.length = insertBeforeIndex) (hfrom : a.length + b.length = fromIndex)
      (hresult : result = a ++ x :: (b ++ c))

theorem moveColumnOrder_append
    {a r : List Name} {x : Name} {insertBeforeIndex : ℤ}
    (h : Effective (a ++ x :: r) a.length insertBeforeIndex) :
    moveColumnOrder (a ++ x :: r) a.length insertBeforeIndex =
      (a ++ r).insertIdx
        (if (a.length : ℤ) < insertBeforeIndex then insertBeforeIndex - 1
          else insertBeforeIndex).toNat x := by
  have hget : (a ++ x :: r)[((a.length : ℕ) : ℤ).toNat]? = some x := by
    rw [Int.toNat_natCast, List.getElem?_append_right le_rfl, Nat.sub_self]
    rfl
  unfold moveColumnOrder
  rw [if_pos h, hget]
  dsimp only
  rw [Int.toNat_natCast, eraseIdx_length_append]

theorem moveColumnOrder_moved
    {order : List Name} {fromIndex insertBeforeIndex : ℤ}
    (h : Effective order fromIndex insertBeforeIndex) :
    ∃ x, order[fromIndex.toNat]? = some x ∧
      Moved order (moveColumnOrder order fromIndex insertBeforeIndex) fromIndex
        insertBeforeIndex x := by
  have hlt : fromIndex.toNat < order.length := by
    have hbound := h.2.2.1
    have hzero := h.1
    omega
  rcases exists_split hlt.le with ⟨a, r', horder, hlength⟩
  have hfrom : fromIndex = a.length := by
    have hzero := h.1
    omega
  cases r' with
  | nil =>
      rw [horder, List.append_nil] at hlt
      omega
  | cons x r =>
      rw [horder, hfrom] at h ⊢
      have hmove := moveColumnOrder_append h
      rcases h with ⟨_, hinsert, _, hle, hne, hnext⟩
      have hget : (a ++ x :: r)[((a.length : ℕ) : ℤ).toNat]? = some x := by
        rw [Int.toNat_natCast, List.getElem?_append_right le_rfl, Nat.sub_self]
        rfl
      rw [List.length_append, List.length_cons] at hle
      refine ⟨x, hget, ?_⟩
      by_cases hright : (a.length : ℤ) < insertBeforeIndex
      · rw [if_pos hright] at hmove
        have hshort : (insertBeforeIndex - a.length - 1).toNat ≤ r.length := by
          omega
        rcases exists_split hshort with ⟨b, c, rfl, hb⟩
        refine .right rfl rfl (by omega) ?_
        have hplace : (insertBeforeIndex - 1).toNat = (a ++ b).length := by
          rw [List.length_append]
          omega
        rw [hmove, hplace, ← List.append_assoc, insertIdx_length_append, List.append_assoc]
      · rw [if_neg hright] at hmove
        have hshort : insertBeforeIndex.toNat ≤ a.length := by
          omega
        rcases exists_split hshort with ⟨a', b, rfl, ha'⟩
        refine .left (List.append_assoc ..) (by omega) (by rw [List.length_append]; rfl) ?_
        rw [hmove, ← ha', List.append_assoc, insertIdx_length_append]

theorem Moved.perm
    {order result : List Name} {fromIndex insertBeforeIndex : ℤ} {x : Name}
    (h : Moved order result fromIndex insertBeforeIndex x) :
    result.Perm order := by
  cases h with
  | right horder _ _ hresult =>
      rw [horder, hresult]
      exact List.Perm.append_left _ List.perm_middle
  | left horder _ _ hresult =>
      rw [horder, hresult]
      exact List.Perm.append_left _ List.perm_middle.symm

theorem moveColumnOrder_perm (order : List Name) (fromIndex insertBeforeIndex : ℤ) :
    (moveColumnOrder order fromIndex insertBeforeIndex).Perm order := by
  by_cases h : Effective order fromIndex insertBeforeIndex
  · rcases moveColumnOrder_moved h with ⟨x, _, hmoved⟩
    exact hmoved.perm
  · rw [moveColumnOrder, if_neg h]

/-- The moved column stands in front of the one that was at the index, or last. -/
theorem Moved.lands
    {order result : List Name} {fromIndex insertBeforeIndex : ℤ} {x : Name}
    (h : Moved order result fromIndex insertBeforeIndex x)
    (hne : fromIndex ≠ insertBeforeIndex) :
    (∀ y, order[insertBeforeIndex.toNat]? = some y →
      ∃ before after, result = before ++ x :: y :: after) ∧
    (insertBeforeIndex = order.length → result.getLast? = some x) := by
  cases h with
  | @right a b c horder hfrom hinsert hresult =>
      have hassoc : order = (a ++ x :: b) ++ c := by
        rw [horder]
        simp
      have hplace : insertBeforeIndex.toNat = (a ++ x :: b).length := by
        rw [List.length_append, List.length_cons]
        omega
      constructor
      · intro y hy
        rw [hplace, hassoc, List.getElem?_append_right le_rfl, Nat.sub_self] at hy
        cases c with
        | nil => cases hy
        | cons z c =>
            cases hy
            exact ⟨a ++ b, c, by rw [hresult, List.append_assoc]⟩
      · intro hlast
        have hc : c = [] := by
          rw [hassoc, List.length_append] at hlast
          exact List.eq_nil_of_length_eq_zero (by omega)
        rw [hresult, hc, ← List.append_assoc, List.getLast?_append]
        rfl
  | @left a b c horder hinsert hfrom hresult =>
      have hplace : insertBeforeIndex.toNat = a.length := by
        omega
      have hb : b ≠ [] := by
        intro hnil
        rw [hnil, List.length_nil] at hfrom
        omega
      constructor
      · intro y hy
        rw [hplace, horder, List.getElem?_append_right le_rfl, Nat.sub_self] at hy
        cases b with
        | nil => exact absurd rfl hb
        | cons z b =>
            cases hy
            exact ⟨a, b ++ c, hresult⟩
      · intro hlast
        rw [horder, List.length_append, List.length_append, List.length_cons] at hlast
        omega

/-- The other columns stay as they are. -/
theorem Moved.others
    {order result : List Name} {fromIndex insertBeforeIndex : ℤ} {x : Name}
    (h : Moved order result fromIndex insertBeforeIndex x) :
    result.filter (· ≠ x) = order.filter (· ≠ x) := by
  cases h with
  | right horder _ _ hresult =>
      rw [horder, hresult]
      simp
  | left horder _ _ hresult =>
      rw [horder, hresult]
      simp

/-! ## The order and the columns -/

theorem columnByName_isSome
    {columns : List ListColumn} {name : Name} :
    (columnByName columns name).isSome = true ↔ name ∈ columnNames columns := by
  simp [columnByName, columnNames, List.find?_isSome]

theorem columnNames_length (columns : List ListColumn) :
    (columnNames columns).length = columns.length :=
  List.length_map _

/-- An order that the loop goes through. -/
def Resolves (columns : List ListColumn) (seen order : List Name) : Prop :=
  order.Nodup ∧ ∀ name ∈ order, name ∉ seen ∧ name ∈ columnNames columns

theorem resolves_cons
    {columns : List ListColumn} {seen order : List Name} {name : Name} :
    Resolves columns seen (name :: order) ↔
      name ∉ seen ∧ name ∈ columnNames columns ∧
        Resolves columns (seen ++ [name]) order := by
  simp only [Resolves, List.nodup_cons, List.mem_cons, List.mem_append, List.not_mem_nil,
    or_false, not_or]
  constructor
  · intro h
    rcases h with ⟨⟨hhead, hnodup⟩, hall⟩
    have hname := hall name (.inl rfl)
    refine ⟨hname.1, hname.2, hnodup, fun other hother => ?_⟩
    have hrest := hall other (.inr hother)
    exact ⟨⟨hrest.1, fun heq => hhead (heq ▸ hother)⟩, hrest.2⟩
  · intro h
    rcases h with ⟨hseen, hmem, hnodup, hall⟩
    refine ⟨⟨fun hhead => (hall name hhead).1.2 rfl, hnodup⟩, fun other hother => ?_⟩
    rcases hother with heq | hother
    · rw [heq]
      exact ⟨hseen, hmem⟩
    · exact ⟨(hall other hother).1.1, (hall other hother).2⟩

theorem resolveColumns_of_resolves
    {columns resolved : List ListColumn} {seen order : List Name}
    (h : Resolves columns seen order) :
    ∃ r, resolveColumns columns seen resolved order = .ok (seen ++ order, r) := by
  induction order generalizing seen resolved with
  | nil => exact ⟨resolved, by rw [List.append_nil]; rfl⟩
  | cons name order ih =>
      rcases resolves_cons.mp h with ⟨hseen, hmem, hrest⟩
      rcases Option.isSome_iff_exists.mp (columnByName_isSome.mpr hmem) with ⟨column, hcolumn⟩
      rcases @ih (resolved ++ [column]) (seen ++ [name]) hrest with ⟨r, hr⟩
      refine ⟨r, ?_⟩
      rw [resolveColumns, if_neg hseen, hcolumn]
      dsimp only
      rw [hr, List.append_assoc]
      rfl

theorem resolves_of_resolveColumns
    {columns resolved : List ListColumn} {seen order : List Name}
    {result : List Name × List ListColumn}
    (h : resolveColumns columns seen resolved order = .ok result) :
    Resolves columns seen order := by
  induction order generalizing seen resolved with
  | nil => exact ⟨List.nodup_nil, by simp⟩
  | cons name order ih =>
      rw [resolveColumns] at h
      by_cases hseen : name ∈ seen
      · rw [if_pos hseen] at h
        cases h
      · rw [if_neg hseen] at h
        cases hcolumn : columnByName columns name with
        | none =>
            rw [hcolumn] at h
            cases h
        | some column =>
            rw [hcolumn] at h
            have hmem : name ∈ columnNames columns :=
              columnByName_isSome.mp (by rw [hcolumn]; rfl)
            exact resolves_cons.mpr ⟨hseen, hmem, ih h⟩

theorem applyColumnOrder_isOk_iff
    {columns : List ListColumn} {order : List Name}
    (hnodup : (columnNames columns).Nodup) :
    (applyColumnOrder columns order).isOk = true ↔ order.Perm (columnNames columns) := by
  constructor
  · intro h
    rw [applyColumnOrder] at h
    by_cases hlength : order.length = columns.length
    · rw [if_neg (not_not.mpr hlength)] at h
      cases hresolve : resolveColumns columns [] [] order with
      | error error =>
          rw [hresolve] at h
          cases h
      | ok result =>
          have hresolves := resolves_of_resolveColumns hresolve
          have hsub : order.Subperm (columnNames columns) :=
            List.subperm_of_subset hresolves.1 fun name hname => (hresolves.2 name hname).2
          refine hsub.perm_of_length_le ?_
          rw [columnNames_length, hlength]
    · rw [if_pos hlength] at h
      cases h
  · intro h
    have hlength : order.length = columns.length := by
      rw [h.length_eq, columnNames_length]
    have hresolves : Resolves columns [] order :=
      ⟨h.nodup_iff.mpr hnodup, fun name hname => ⟨List.not_mem_nil, h.mem_iff.mp hname⟩⟩
    rcases resolveColumns_of_resolves hresolves with ⟨r, hr⟩
    have hmissing : columns.find? (fun column => column.nameSnake ∉ order) = none := by
      rw [List.find?_eq_none]
      intro column hcolumn hnot
      exact of_decide_eq_true hnot (h.mem_iff.mpr (List.mem_map_of_mem hcolumn))
    rw [applyColumnOrder, if_neg (not_not.mpr hlength), hr]
    change Except.isOk (match columns.find? (fun column => column.nameSnake ∉ order) with
      | some column => _
      | none => pure r) = true
    rw [hmissing]
    rfl

theorem columnSetSignature_of_perm
    {columns previous : List ListColumn}
    (h : (columnNames columns).Perm (columnNames previous)) :
    columnSetSignature columns = columnSetSignature previous := by
  unfold columnSetSignature
  congr 1
  refine List.Perm.eq_of_pairwise' (List.pairwise_insertionSort _ _)
    (List.pairwise_insertionSort _ _) ?_
  exact (List.perm_insertionSort _ _).trans (h.trans (List.perm_insertionSort _ _).symm)

/-! ## Runs -/

/-- The layout, the signature it is for and, for the statements, the columns that the last
reconciliation was given. -/
structure State where
  columns : List ListColumn
  session : Option ColumnLayoutSession
  signature : Option Name

inductive Event
  | reconcile (columns : List ListColumn)
  | move (fromIndex insertBeforeIndex : ℤ)

/-- Unique names and integer ordinals. -/
structure WellFormed (columns : List ListColumn) : Prop where
  nodup : (columnNames columns).Nodup
  ordinals : ∀ column ∈ columns, column.order.isSome = true

def Event.Admissible : Event → Prop
  | .reconcile columns => WellFormed columns
  | .move _ _ => True

def initial : State where
  columns := []
  session := none
  signature := none

def step (s : State) : Event → Except Text State
  | .reconcile columns => do
      let reconciled ← reconcileColumnLayout columns s.session s.signature
      pure ⟨columns, some reconciled.layout, some reconciled.signature⟩
  | .move fromIndex insertBeforeIndex =>
      pure { s with session := s.session.map fun session =>
        { session with order := moveColumnOrder session.order fromIndex insertBeforeIndex } }

structure State.Inv (s : State) : Prop where
  nodup : (columnNames s.columns).Nodup
  signature : ∀ session, s.session = some session →
    s.signature = some (columnSetSignature s.columns)
  perm : ∀ session, s.session = some session → session.order.Perm (columnNames s.columns)

theorem initial_inv : initial.Inv where
  nodup := List.nodup_nil
  signature := by simp [initial]
  perm := by simp [initial]

theorem seedColumnLayout_of_wellFormed
    {columns : List ListColumn}
    (h : WellFormed columns) :
    ∃ layout, seedColumnLayout columns = .ok layout ∧ layout.order = columnNames columns := by
  have hfind : columns.find? (fun column => column.order.isNone) = none := by
    rw [List.find?_eq_none]
    intro column hcolumn
    simp [Option.isNone_iff_eq_none, Option.isSome_iff_ne_none.mp (h.ordinals column hcolumn)]
  rw [seedColumnLayout, hfind]
  exact ⟨_, rfl, rfl⟩

/-- The session goes on exactly where the names are those it was made for. -/
theorem keepsSession_iff
    {columns : List ListColumn} {s : State} {session : ColumnLayoutSession}
    (h : WellFormed columns)
    (hinv : s.Inv)
    (hsession : s.session = some session) :
    keepsSession columns session s.signature = true ↔
      (columnNames columns).Perm (columnNames s.columns) := by
  have hperm := hinv.perm session hsession
  simp only [keepsSession, Bool.and_eq_true, decide_eq_true_eq,
    applyColumnOrder_isOk_iff h.nodup]
  constructor
  · intro hkeeps
    exact hkeeps.2.symm.trans hperm
  · intro hsame
    refine ⟨⟨?_, ?_⟩, hperm.trans hsame.symm⟩
    · rw [hinv.signature session hsession, columnSetSignature_of_perm hsame]
    · rw [hperm.length_eq, ← hsame.length_eq, columnNames_length]

theorem reconcileColumnLayout_kept
    {columns : List ListColumn} {session : ColumnLayoutSession} {signature : Option Name}
    (h : keepsSession columns session signature = true) :
    reconcileColumnLayout columns (some session) signature =
      .ok ⟨session, columnSetSignature columns, false⟩ := by
  simp only [reconcileColumnLayout, Option.filter, h, if_true]
  rfl

theorem reconcileColumnLayout_seeded
    {columns : List ListColumn} {session : Option ColumnLayoutSession} {signature : Option Name}
    {layout : ColumnLayoutSession}
    (h : ∀ s, session = some s → keepsSession columns s signature = false)
    (hseed : seedColumnLayout columns = .ok layout) :
    reconcileColumnLayout columns session signature =
      .ok ⟨layout, columnSetSignature columns, session.isSome⟩ := by
  have hnone : session.filter (fun s => keepsSession columns s signature) = none := by
    cases session with
    | none => rfl
    | some s => simp [Option.filter, h s rfl]
  unfold reconcileColumnLayout
  rw [hnone]
  dsimp only
  rw [hseed]
  rfl

/-- What a reconciliation does in a state that the invariant holds of. -/
theorem reconcile_spec
    {columns : List ListColumn} {s : State}
    (h : WellFormed columns)
    (hinv : s.Inv) :
    ∃ reconciled, reconcileColumnLayout columns s.session s.signature = .ok reconciled ∧
      reconciled.signature = columnSetSignature columns ∧
      reconciled.layout.order.Perm (columnNames columns) ∧
      ∀ session, s.session = some session →
        (reconciled.layout.order = session.order ↔
          (columnNames columns).Perm (columnNames s.columns)) ∧
        (reconciled.reset = false ↔ (columnNames columns).Perm (columnNames s.columns)) := by
  by_cases hkeeps : ∃ session, s.session = some session ∧
      keepsSession columns session s.signature = true
  · rcases hkeeps with ⟨session, hsession, hkeeps⟩
    have hsame := (keepsSession_iff h hinv hsession).mp hkeeps
    have hrun := reconcileColumnLayout_kept hkeeps
    rw [← hsession] at hrun
    refine ⟨_, hrun, rfl, (hinv.perm session hsession).trans hsame.symm, ?_⟩
    intro session' hsession'
    rw [hsession] at hsession'
    cases hsession'
    exact ⟨iff_of_true rfl hsame, iff_of_true rfl hsame⟩
  · rcases seedColumnLayout_of_wellFormed h with ⟨layout, hseed, horder⟩
    have hnot : ∀ session, s.session = some session →
        keepsSession columns session s.signature = false := by
      intro session hsession
      by_contra hkeep
      exact hkeeps ⟨session, hsession, Bool.eq_true_of_not_eq_false hkeep⟩
    refine ⟨_, reconcileColumnLayout_seeded hnot hseed, rfl, ?_, ?_⟩
    · rw [horder]
    · intro session hsession
      have hdiff : ¬ (columnNames columns).Perm (columnNames s.columns) := by
        intro hsame
        have hkeep := (keepsSession_iff h hinv hsession).mpr hsame
        rw [hnot session hsession] at hkeep
        cases hkeep
      have hperm := hinv.perm session hsession
      refine ⟨iff_of_false ?_ hdiff, iff_of_false ?_ hdiff⟩
      · intro heq
        rw [horder] at heq
        rw [← heq] at hperm
        exact hdiff hperm
      · rw [hsession]
        simp

theorem step_inv
    {s : State} {event : Event}
    (hevent : event.Admissible)
    (hinv : s.Inv) :
    ∃ s', step s event = .ok s' ∧ s'.Inv := by
  cases event with
  | reconcile columns =>
      rcases reconcile_spec hevent hinv with ⟨reconciled, hrun, hsignature, hperm, _⟩
      refine ⟨⟨columns, some reconciled.layout, some reconciled.signature⟩, ?_, ?_⟩
      · simp only [step]
        rw [hrun]
        rfl
      · constructor
        · exact hevent.nodup
        · intro session hsession
          rw [hsignature]
        · intro session hsession
          cases hsession
          exact hperm
  | move fromIndex insertBeforeIndex =>
      refine ⟨_, rfl, ?_⟩
      constructor
      · exact hinv.nodup
      · intro session hsession
        rcases Option.map_eq_some_iff.mp hsession with ⟨previous, hprevious, _⟩
        exact hinv.signature previous hprevious
      · intro session hsession
        rcases Option.map_eq_some_iff.mp hsession with ⟨previous, hprevious, rfl⟩
        exact (moveColumnOrder_perm ..).trans (hinv.perm previous hprevious)

theorem run_inv
    {events : List Event} {s : State}
    (hevents : ∀ event ∈ events, event.Admissible)
    (hinv : s.Inv) :
    ∃ s', events.foldlM step s = .ok s' ∧ s'.Inv := by
  induction events generalizing s with
  | nil => exact ⟨s, rfl, hinv⟩
  | cons event events ih =>
      rcases step_inv (hevents event List.mem_cons_self) hinv with ⟨s₁, hstep, hinv₁⟩
      rcases ih (fun e he => hevents e (List.mem_cons_of_mem _ he)) hinv₁ with ⟨s', hrun, hinv'⟩
      refine ⟨s', ?_, hinv'⟩
      rw [List.foldlM_cons, hstep]
      exact hrun

/-- Over every run the session order is a permutation of the current columns, so that it
resolves; a reconciliation keeps it exactly where the columns are the same set; and a move
puts the column where it was dropped and leaves the order of the others. -/
theorem column_layout_correct
    {events : List Event}
    (hevents : ∀ event ∈ events, event.Admissible) :
    ∃ s, events.foldlM step initial = .ok s ∧
      ∀ session, s.session = some session →
        session.order.Perm (columnNames s.columns) ∧
        (applyColumnOrder s.columns session.order).isOk = true ∧
        (∀ columns, WellFormed columns →
          ∃ reconciled, reconcileColumnLayout columns s.session s.signature = .ok reconciled ∧
            (reconciled.layout.order = session.order ↔
              (columnNames columns).Perm (columnNames s.columns)) ∧
            (reconciled.reset = false ↔
              (columnNames columns).Perm (columnNames s.columns))) ∧
        (∀ fromIndex insertBeforeIndex,
          ¬ Effective session.order fromIndex insertBeforeIndex →
            moveColumnOrder session.order fromIndex insertBeforeIndex = session.order) ∧
        (∀ fromIndex insertBeforeIndex,
          Effective session.order fromIndex insertBeforeIndex →
            ∃ x, session.order[fromIndex.toNat]? = some x ∧
              (∀ y, session.order[insertBeforeIndex.toNat]? = some y →
                ∃ before after,
                  moveColumnOrder session.order fromIndex insertBeforeIndex =
                    before ++ x :: y :: after) ∧
              (insertBeforeIndex = session.order.length →
                (moveColumnOrder session.order fromIndex insertBeforeIndex).getLast? =
                  some x) ∧
              (moveColumnOrder session.order fromIndex insertBeforeIndex).filter (· ≠ x) =
                session.order.filter (· ≠ x)) := by
  rcases run_inv hevents initial_inv with ⟨s, hrun, hinv⟩
  refine ⟨s, hrun, fun session hsession => ?_⟩
  have hperm := hinv.perm session hsession
  refine ⟨hperm, (applyColumnOrder_isOk_iff hinv.nodup).mpr hperm, ?_, ?_, ?_⟩
  · intro columns hcolumns
    rcases reconcile_spec hcolumns hinv with ⟨reconciled, hreconcile, _, _, hkeep⟩
    exact ⟨reconciled, hreconcile, hkeep session hsession⟩
  · intro fromIndex insertBeforeIndex hnot
    rw [moveColumnOrder, if_neg hnot]
  · intro fromIndex insertBeforeIndex heffective
    rcases moveColumnOrder_moved heffective with ⟨x, hx, hmoved⟩
    have hlands := hmoved.lands heffective.2.2.2.2.1
    exact ⟨x, hx, hlands.1, hlands.2, hmoved.others⟩

/-- Two columns, one dragged to the front. -/
theorem column_layout_correct_sample :
    ∃ s, [Event.reconcile [⟨units "name", "string", some 0⟩, ⟨units "code", "integer", some 1⟩],
        .move 1 0].foldlM step initial = .ok s ∧
      s.session.map ColumnLayoutSession.order = some [units "code", units "name"] ∧
      ∀ session, s.session = some session → session.order.Perm (columnNames s.columns) := by
  have hcolumns : WellFormed
      [⟨units "name", "string", some 0⟩, ⟨units "code", "integer", some 1⟩] :=
    ⟨by decide, by simp⟩
  have hevents : ∀ event ∈ [Event.reconcile [⟨units "name", "string", some 0⟩,
      ⟨units "code", "integer", some 1⟩], .move 1 0], event.Admissible := by
    intro event hevent
    rcases List.mem_cons.mp hevent with rfl | hevent
    · exact hcolumns
    · cases List.mem_singleton.mp hevent
      exact trivial
  rcases column_layout_correct hevents with ⟨s, hrun, hs⟩
  refine ⟨s, hrun, ?_, fun session hsession => (hs session hsession).1⟩
  cases hrun
  decide

end Untangled.ColumnLayout
