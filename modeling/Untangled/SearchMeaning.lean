import Untangled.SearchOverflow
import Untangled.SqlValues

/-!
# What search conditions mean

The value of a predicate tree on a row, and that of its compiled condition: the
condition parses to an expression of the same shape, so both have the same value,
whether or not its columns carry the alias of the searched table.
-/

namespace Untangled.Search

open Mapping Records SqlExpressions

/-! ## Meaning of a tree -/

/-- The columns of a stored row. -/
abbrev RowData := String → Value

/-- Null is no datum. -/
def RowData.datum (row : RowData) (name : String) : Option Value :=
  match row name with
  | .null => none
  | v => some v

section Meaning

variable (D : Postgres) (row : RowData)

/-- The order that comparisons are about: texts by their codepoints. -/
def comparisonOrder (v w : Value) : Ordering := D.orderUnder (some "C") v w

def Leaf.truth : Leaf → Truth
  | .compare c attr value =>
      (row.datum attr.name).map fun v => c.holds (comparisonOrder D v value)
  | .nullCheck empty attr => some ((row.datum attr.name).isNone == empty)
  | .like op attr text =>
      (row.datum attr.name).map fun v =>
        match v with
        | .text s => decide (op.Holds text s)
        | _ => false
  | .regexp attr pattern =>
      (row.datum attr.name).bind fun v =>
        match v with
        | .text s => D.regexp s pattern
        | _ => some false

/-- A malformed pattern meets a text. -/
def Leaf.fails : Leaf → Bool
  | .regexp attr pattern =>
      (row.datum attr.name).any fun v =>
        match v with
        | .text s => (D.regexp s pattern).isNone
        | _ => false
  | _ => false

def Connective.truth : Connective → List Truth → Truth
  | .and => Truth.all
  | .or => Truth.any

def Pred.truth : Pred → Truth :=
  Pred.fold (Leaf.truth D row) Truth.not Connective.truth

def Pred.fails : Pred → Bool :=
  Pred.fold (Leaf.fails D row) id fun _ parts => parts.any id

def Pred.outcome (p : Pred) : SqlExpressions.Outcome where
  fails := p.fails D row
  truth := p.truth D row

@[simp] theorem Pred.truth_leaf (l : Leaf) : (Pred.leaf l).truth D row = l.truth D row := rfl

@[simp] theorem Pred.truth_not (p : Pred) :
    (Pred.not p).truth D row = Truth.not (p.truth D row) := rfl

@[simp] theorem Pred.truth_connective (c : Connective) (ps : List Pred) :
    (Pred.connective c ps).truth D row = c.truth (ps.map (Pred.truth D row)) := by
  rw [Pred.truth, Pred.fold, Pred.foldAll_eq_map]

@[simp] theorem Pred.fails_leaf (l : Leaf) : (Pred.leaf l).fails D row = l.fails D row := rfl

@[simp] theorem Pred.fails_not (p : Pred) : (Pred.not p).fails D row = p.fails D row := rfl

@[simp] theorem Pred.fails_connective (c : Connective) (ps : List Pred) :
    (Pred.connective c ps).fails D row = ps.any (Pred.fails D row) := by
  rw [Pred.fails, Pred.fold, Pred.foldAll_eq_map, List.any_map]
  rfl

end Meaning

/-! ## The expression of a tree -/

section Expression

variable (q : Bool)

def sourceAlias : Option String := if q then some "src" else none

def sourceColumn (name : String) : Expr Value := .column (sourceAlias q) name

def Leaf.expr : Leaf → Expr Value
  | .compare c attr v =>
      if isValueOp c = false ∧ attr.typeName ∈ textOrderedTypes then
        .compare c (.collate (sourceColumn q attr.name) "C") (.value v)
      else .compare c (sourceColumn q attr.name) (.value v)
  | .nullCheck empty attr =>
      if empty then .isNull (sourceColumn q attr.name) else .isNotNull (sourceColumn q attr.name)
  | .like op attr text =>
      .like (sourceColumn q attr.name) (.value (.text (op.pattern text))) (.literal "\\")
  | .regexp attr text => .regexp (sourceColumn q attr.name) (.value (.text text))

def Connective.join : Connective → Expr Value → Expr Value → Expr Value
  | .and => .and
  | .or => .or

/-- Children joined from the left. -/
def joinAll (c : Connective) : List (Expr Value) → Expr Value
  | [] => .true
  | first :: rest => rest.foldl c.join first

def Pred.expr : Pred → Expr Value := Pred.fold (Leaf.expr q) .not joinAll

@[simp] theorem Pred.expr_leaf (l : Leaf) : (Pred.leaf l).expr q = l.expr q := rfl

@[simp] theorem Pred.expr_not (p : Pred) : (Pred.not p).expr q = .not (p.expr q) := rfl

@[simp] theorem Pred.expr_connective (c : Connective) (ps : List Pred) :
    (Pred.connective c ps).expr q = joinAll c (ps.map (Pred.expr q)) := by
  rw [Pred.expr, Pred.fold, Pred.foldAll_eq_map]

theorem Leaf.operand (l : Leaf) : Operand 0 (l.bound q) (l.expr q) := by
  cases l with
  | compare c attr v =>
      by_cases htext : isValueOp c = false ∧ attr.typeName ∈ textOrderedTypes
      · rw [bound, expr, if_pos htext, if_pos htext]
        exact operand_collate (sourceAlias q) attr.name "C" c v
      · rw [bound, expr, if_neg htext, if_neg htext]
        exact operand_compare (sourceAlias q) attr.name c v
  | nullCheck empty attr =>
      cases empty with
      | true => exact operand_isNull (sourceAlias q) attr.name
      | false => exact operand_isNotNull (sourceAlias q) attr.name
  | like op attr text => exact operand_like (sourceAlias q) attr.name _ "\\"
  | regexp attr text => exact operand_regexp (sourceAlias q) attr.name _

theorem intercalate_eq_separated (t : Token Value) (first : Pred) (rest : List Pred) :
    [t].intercalate ((first :: rest).map (Pred.bound q)) =
      first.bound q ++ separated t (rest.map fun p => (p.bound q, p.expr q)) := by
  induction rest generalizing first with
  | nil => simp [separated, List.intercalate]
  | cons second rest ih =>
      have hsplit : [t].intercalate ((first :: second :: rest).map (Pred.bound q)) =
          first.bound q ++ t :: [t].intercalate ((second :: rest).map (Pred.bound q)) := by
        simp [List.intercalate]
      rw [hsplit, ih]
      simp [separated]

/-- Children with the connective between them are one condition. -/
theorem condition_intercalate {depth : ℕ} (c : Connective) (first : Pred) (rest : List Pred)
    (h : ∀ p ∈ first :: rest, Operand depth (p.bound q) (p.expr q)) :
    Condition depth ([c.token].intercalate ((first :: rest).map (Pred.bound q)))
      (joinAll c ((first :: rest).map (Pred.expr q))) := by
  have hitems : ∀ item ∈ (first.bound q, first.expr q) ::
      rest.map (fun p => (p.bound q, p.expr q)), Operand depth item.1 item.2 := by
    intro item hitem
    rcases List.mem_cons.mp hitem with rfl | hitem
    · exact h first (List.mem_cons_self ..)
    · rcases List.mem_map.mp hitem with ⟨p, hp, rfl⟩
      exact h p (List.mem_cons_of_mem first hp)
  have hexprs : (rest.map fun p => (p.bound q, p.expr q)).map Prod.snd =
      rest.map (Pred.expr q) := by
    rw [List.map_map]
    rfl
  rw [intercalate_eq_separated, List.map_cons, joinAll]
  cases c with
  | and =>
      have hand := Condition.ofAnd hitems
      rwa [hexprs] at hand
  | or =>
      have hor := Condition.ofOr hitems
      rwa [hexprs] at hor

theorem ne_nil_of_listOf {cx : CompileContext} {c : Connective} {ps : List Pred}
    {items : List Json} {node : Json} (hnode : ListOf cx c items node)
    (hps : List.Forall₂ (Denotes cx) ps items) : ∃ first rest, ps = first :: rest := by
  rcases hnode with ⟨_, _, _, _, _, hne, _⟩
  cases hps with
  | nil => exact absurd rfl hne
  | cons _ _ => exact ⟨_, _, rfl⟩

theorem exists_denotes_of_mem {cx : CompileContext} {ps : List Pred} {items : List Json}
    (hps : List.Forall₂ (Denotes cx) ps items) {p : Pred} (hp : p ∈ ps) :
    ∃ item, Denotes cx p item := by
  induction hps with
  | nil => cases hp
  | cons hfirst _ ih =>
      rcases List.mem_cons.mp hp with rfl | hp
      · exact ⟨_, hfirst⟩
      · exact ih hp

/-- The condition of an accepted tree parses to its expression. -/
theorem Denotes.operand {cx : CompileContext} {p : Pred} {node : Json}
    (h : Denotes cx p node) : Operand p.depth (p.bound q) (p.expr q) := by
  induction p using Pred.induction generalizing node with
  | leaf l => exact (l.operand q).mono (Nat.zero_le _)
  | not p ih =>
      rcases h with ⟨inner, _, hinner⟩
      exact (ih hinner).condition.not
  | connective c ps ih =>
      rcases (denotes_connective cx).mp h with ⟨items, hnode, hps⟩
      rcases ne_nil_of_listOf hnode hps with ⟨first, rest, rfl⟩
      have hchildren : ∀ p ∈ first :: rest,
          Operand (((first :: rest).map Pred.depth).foldr max 0) (p.bound q) (p.expr q) := by
        intro p hp
        rcases exists_denotes_of_mem hps hp with ⟨item, hitem⟩
        have hdepth := Pred.depth_connective_le.mp
          (le_of_eq (Pred.depth_connective c (first :: rest))) p hp
        exact (ih p hp hitem).mono hdepth
      have hcondition := condition_intercalate q c first rest hchildren
      rw [Pred.bound_connective, Pred.expr_connective, Pred.depth_connective,
        List.singleton_append, List.cons_append]
      exact hcondition.paren

theorem length_le_intercalate (t : Token Value) {part : Fragment} {parts : List Fragment}
    (h : part ∈ parts) : part.length ≤ ([t].intercalate parts).length := by
  induction parts with
  | nil => cases h
  | cons first parts ih =>
      cases parts with
      | nil =>
          rcases List.mem_singleton.mp h with rfl
          simp [List.intercalate]
      | cons second parts =>
          have hsplit : [t].intercalate (first :: second :: parts) =
              first ++ t :: [t].intercalate (second :: parts) := by simp [List.intercalate]
          rw [hsplit, List.length_append, List.length_cons]
          rcases List.mem_cons.mp h with rfl | h
          · omega
          · have hrest := ih h
            omega

theorem Leaf.one_le_length_bound (l : Leaf) : 1 ≤ (l.bound q).length := by
  have hcolumn : ∀ name, 1 ≤ (columnRef q name).length := by
    intro name
    cases q <;> simp [columnRef, columnTokens]
  cases l with
  | compare c attr v =>
      rw [bound, List.length_append]
      exact le_trans (hcolumn attr.name) (Nat.le_add_right _ _)
  | nullCheck empty attr =>
      rw [bound, List.length_append]
      exact le_trans (hcolumn attr.name) (Nat.le_add_right _ _)
  | like op attr text =>
      rw [bound, List.length_append]
      exact le_trans (hcolumn attr.name) (Nat.le_add_right _ _)
  | regexp attr text =>
      rw [bound, List.length_append]
      exact le_trans (hcolumn attr.name) (Nat.le_add_right _ _)

theorem Pred.depth_le_length_bound (p : Pred) : p.depth ≤ (p.bound q).length := by
  induction p using Pred.induction with
  | leaf l => exact l.one_le_length_bound q
  | not p ih =>
      rw [Pred.depth_not, Pred.bound_not]
      simp only [List.length_append, List.length_cons, List.length_nil]
      omega
  | connective c ps ih =>
      have hchildren : (ps.map Pred.depth).foldr max 0 ≤
          ([c.token].intercalate (ps.map (Pred.bound q))).length := by
        have hmax : (Pred.connective c ps).depth ≤
            ([c.token].intercalate (ps.map (Pred.bound q))).length + 1 :=
          Pred.depth_connective_le.mpr fun p hp => le_trans (ih p hp)
            (length_le_intercalate c.token (List.mem_map_of_mem hp))
        rw [Pred.depth_connective] at hmax
        omega
      rw [Pred.depth_connective, Pred.bound_connective]
      simp only [List.length_append, List.length_cons, List.length_nil]
      omega

theorem Denotes.parse {cx : CompileContext} {p : Pred} {node : Json}
    (h : Denotes cx p node) : parse (p.bound q) = some (p.expr q) :=
  parse_of_condition (h.operand q).condition (p.depth_le_length_bound q)

end Expression

/-! ## Values of compiled conditions -/

section Values

variable (D : Postgres)

/-- The columns of the searched table have the values of the row. -/
def Resolves (q : Bool) (row : RowData) (column : Option String → String → Option Value) :
    Prop :=
  ∀ name, column (sourceAlias q) name = row.datum name

variable {D} {cx : CompileContext} {q : Bool} {row : RowData}
  {column : Option String → String → Option Value}

theorem eval_sourceColumn (hcolumn : Resolves q row column) (name : String) :
    eval (operators D) column (sourceColumn q name) = row.datum name :=
  hcolumn name

theorem hasType_of_coerces {attr : SearchableAttribute} {raw : Json} {v : Value}
    (h : Coerces cx attr raw v) : v.hasType attr.typeName = true := by
  rcases h with ⟨_, h⟩
  by_cases hdatetime : attr.typeName = "datetime"
  · rw [if_pos hdatetime] at h
    rcases h with ⟨_, micros, _, _, _, rfl⟩
    simp [Value.hasType, hdatetime]
  · rw [if_neg hdatetime] at h
    exact cx.adapters.validate_typed h

theorem textOrdered_of_text {typeName s : String}
    (h : (Value.text s).hasType typeName = true) : typeName ∈ textOrderedTypes := by
  simp only [Value.hasType, Bool.or_eq_true, decide_eq_true_eq] at h
  rcases h with h | rfl
  · exact List.mem_append_left _ h
  · decide

/-- Only two texts are compared under a collation. -/
theorem orderUnder_of_not_text {v w : Value} (hw : ∀ s, w ≠ .text s)
    (collation : Option String) : D.orderUnder collation v w = D.order v w := by
  unfold Postgres.orderUnder
  split
  · exact absurd rfl (hw _)
  · rfl

/-- A deterministic collation has the equality of the codepoints. -/
theorem orderUnder_eq_iff {v w : Value} :
    D.orderUnder none v w = .eq ↔ comparisonOrder D v w = .eq := by
  unfold comparisonOrder Postgres.orderUnder
  split
  · rw [if_neg (by simp), if_pos rfl, D.collate_eq]
    exact Std.LawfulEqCmp.compare_eq_iff_eq.symm
  · exact Iff.rfl

theorem holds_of_valueOp {c : Comparison} (hc : isValueOp c = true) {o o' : Ordering}
    (h : o = .eq ↔ o' = .eq) : c.holds o = c.holds o' := by
  cases c with
  | eq =>
      rw [Comparison.holds, Comparison.holds, Bool.eq_iff_iff]
      simpa using h
  | ne =>
      rw [Comparison.holds, Comparison.holds, Bool.eq_iff_iff]
      simpa using not_congr h
  | _ => simp [isValueOp] at hc

theorem truth_bind_datum (datum : Option Value) (f : Value → Truth) :
    (operators D).truth (datum.bind fun v => (operators D).datum (f v)) = datum.bind f := by
  cases datum with
  | none => rfl
  | some v => exact (operators D).truth_datum (f v)

theorem Leaf.truth_expr (hcolumn : Resolves q row column) {l : Leaf}
    {node : List (String × Json)} (hread : l.ReadFrom cx node) :
    (operators D).truth (eval (operators D) column (l.expr q)) = l.truth D row := by
  cases l with
  | compare c attr w =>
      rcases hread with ⟨⟨_, _, raw, _, hcoerces⟩, _⟩
      by_cases htext : isValueOp c = false ∧ attr.typeName ∈ textOrderedTypes
      · simp only [expr, if_pos htext, eval, eval_sourceColumn hcolumn, Option.bind_some,
          truth_bind_datum, truth, Option.map_eq_bind]
        rfl
      · have horder : ∀ v, c.holds (D.orderUnder none v w) =
            c.holds (comparisonOrder D v w) := by
          intro v
          by_cases hvalue : isValueOp c = true
          · exact holds_of_valueOp hvalue orderUnder_eq_iff
          · have hw : ∀ s, w ≠ .text s := by
              rintro s rfl
              exact htext ⟨by simpa using hvalue,
                textOrdered_of_text (hasType_of_coerces hcoerces)⟩
            rw [comparisonOrder, orderUnder_of_not_text hw, orderUnder_of_not_text hw]
        simp only [expr, if_neg htext, eval, eval_sourceColumn hcolumn, Option.bind_some,
          truth_bind_datum, truth, Option.map_eq_bind, ← horder]
        rfl
  | nullCheck empty attr =>
      cases empty with
      | true =>
          rw [expr, if_pos rfl, eval, eval_sourceColumn hcolumn, Operators.truth_datum]
          simp [truth]
      | false =>
          rw [expr, if_neg (by simp), eval, eval_sourceColumn hcolumn, Operators.truth_datum]
          cases hdatum : row.datum attr.name <;> simp [truth, hdatum]
  | like op attr text =>
      simp only [expr, eval, eval_sourceColumn hcolumn, Option.bind_some, truth_bind_datum,
        truth, Option.map_eq_bind]
      congr 1
      funext v
      cases v with
      | text s => exact op.sqlLike_pattern text s
      | _ => rfl
  | regexp attr pattern =>
      simp only [expr, eval, eval_sourceColumn hcolumn, Option.bind_some, truth_bind_datum,
        truth]
      congr 1
      funext v
      cases v <;> rfl

theorem Leaf.raises_expr (hcolumn : Resolves q row column) (l : Leaf) :
    raises (operators D) column (l.expr q) = l.fails D row := by
  cases l with
  | compare c attr w =>
      by_cases htext : isValueOp c = false ∧ attr.typeName ∈ textOrderedTypes
      · rw [expr, if_pos htext]
        rfl
      · rw [expr, if_neg htext]
        rfl
  | nullCheck empty attr => cases empty <;> rfl
  | like op attr text =>
      simp only [expr, raises, sourceColumn, fails, Bool.false_or]
      rw [← sourceColumn, eval_sourceColumn hcolumn]
      cases row.datum attr.name with
      | none => rfl
      | some v =>
          simp only [eval, Option.any_some]
          cases v with
          | text s =>
              have hlike : (operators D).like (.text s) (.text (op.pattern text)) (.text "\\") =
                  some (decide (op.Holds text s)) := op.sqlLike_pattern text s
              exact congrArg Option.isNone hlike
          | _ => rfl
  | regexp attr pattern =>
      simp only [expr, raises, sourceColumn, fails, Bool.false_or]
      rw [← sourceColumn, eval_sourceColumn hcolumn]
      cases row.datum attr.name with
      | none => rfl
      | some v =>
          simp only [eval, Option.any_some]
          cases v <;> rfl

theorem Denotes.truth_expr (hcolumn : Resolves q row column) {p : Pred} {node : Json}
    (h : Denotes cx p node) :
    (operators D).truth (eval (operators D) column (p.expr q)) = p.truth D row := by
  induction p using Pred.induction generalizing node with
  | leaf l =>
      rcases h with ⟨members, _, _, hread⟩
      exact l.truth_expr hcolumn hread
  | not p ih =>
      rcases h with ⟨inner, _, hinner⟩
      rw [Pred.expr_not, eval, Operators.truth_datum, ih hinner, Pred.truth_not]
  | connective c ps ih =>
      rcases (denotes_connective cx).mp h with ⟨items, hnode, hps⟩
      rcases ne_nil_of_listOf hnode hps with ⟨first, rest, rfl⟩
      have hchildren : ((first :: rest).map (Pred.expr q)).map
          (fun e => (operators D).truth (eval (operators D) column e)) =
          (first :: rest).map (Pred.truth D row) := by
        rw [List.map_map]
        refine List.map_congr_left fun p hp => ?_
        rcases exists_denotes_of_mem hps hp with ⟨item, hitem⟩
        exact ih p hp hitem
      rw [Pred.expr_connective, Pred.truth_connective, ← hchildren, List.map_cons, joinAll]
      cases c with
      | and => exact truth_foldl_and _ _
      | or => exact truth_foldl_or _ _

theorem Denotes.raises_expr (hcolumn : Resolves q row column) {p : Pred} {node : Json}
    (h : Denotes cx p node) : raises (operators D) column (p.expr q) = p.fails D row := by
  induction p using Pred.induction generalizing node with
  | leaf l => exact l.raises_expr hcolumn
  | not p ih =>
      rcases h with ⟨inner, _, hinner⟩
      exact ih hinner
  | connective c ps ih =>
      rcases (denotes_connective cx).mp h with ⟨items, hnode, hps⟩
      rcases ne_nil_of_listOf hnode hps with ⟨first, rest, rfl⟩
      have hjoin : ∀ a b, raises (operators D) column (c.join a b) =
          (raises (operators D) column a || raises (operators D) column b) := by
        intro a b
        cases c <;> rfl
      rw [Pred.expr_connective, Pred.fails_connective, List.map_cons, joinAll,
        raises_foldl hjoin, ← List.map_cons (f := Pred.expr q), List.any_map]
      rw [Bool.eq_iff_iff, List.any_eq_true, List.any_eq_true]
      constructor
      · rintro ⟨p, hp, hfails⟩
        rcases exists_denotes_of_mem hps hp with ⟨item, hitem⟩
        exact ⟨p, hp, (ih p hp hitem).symm.trans hfails⟩
      · rintro ⟨p, hp, hfails⟩
        rcases exists_denotes_of_mem hps hp with ⟨item, hitem⟩
        exact ⟨p, hp, (ih p hp hitem).trans hfails⟩

/-- A compiled tree has the value of the tree on every row. -/
theorem Denotes.evalCondition (hcolumn : Resolves q row column) {p : Pred} {node : Json}
    (h : Denotes cx p node) :
    evalCondition (operators D) column (p.fragment q) p.params = some (p.outcome D row) := by
  rw [SqlExpressions.evalCondition, p.bindParams_fragment, Option.bind_some, h.parse,
    Option.map_some, outcome, h.truth_expr hcolumn, h.raises_expr hcolumn]
  rfl

end Values

/-! ## One tree for one value -/

section Unique

variable {cx : CompileContext} {node : List (String × Json)}

theorem hasOp_unique {op op' : Op} (h : HasOp node op) (h' : HasOp node op') : op = op' := by
  rcases h with ⟨name, hmember, hlookup⟩
  rcases h' with ⟨name', hmember', hlookup'⟩
  rw [hmember] at hmember'
  cases hmember'
  rw [hlookup] at hlookup'
  cases hlookup'
  rfl

theorem namesAttribute_unique {attr attr' : SearchableAttribute}
    (h : NamesAttribute cx node attr) (h' : NamesAttribute cx node attr') : attr = attr' := by
  rcases h with ⟨name, hmember, _, hget⟩
  rcases h' with ⟨name', hmember', _, hget'⟩
  rw [hmember] at hmember'
  cases hmember'
  rw [hget] at hget'
  cases hget'
  rfl

theorem carriesValue_unique {attr attr' : SearchableAttribute} {v v' : Value}
    (h : CarriesValue cx node attr v) (h' : CarriesValue cx node attr' v') :
    attr = attr' ∧ v = v' := by
  rcases h with ⟨_, hattr, raw, hraw, hv⟩
  rcases h' with ⟨_, hattr', raw', hraw', hv'⟩
  have heq := namesAttribute_unique hattr hattr'
  subst heq
  rw [HasValue, hraw.1] at hraw'
  cases hraw'.1
  rw [← coerceValue_eq_ok] at hv hv'
  rw [hv] at hv'
  cases hv'
  exact ⟨rfl, rfl⟩

theorem Leaf.readFrom_unique {l l' : Leaf} (h : l.ReadFrom cx node)
    (h' : l'.ReadFrom cx node) (hop : l.op = l'.op) : l = l' := by
  cases l <;> cases l' <;> cases hop
  · rcases carriesValue_unique h.1 h'.1 with ⟨rfl, rfl⟩
    rfl
  · rw [namesAttribute_unique h.2 h'.2]
  · rcases carriesValue_unique h.1 h'.1 with ⟨rfl, htext⟩
    cases htext
    rfl
  · rcases carriesValue_unique h.1 h'.1 with ⟨rfl, htext⟩
    cases htext
    rfl

theorem forall₂_denotes_unique {ps ps' : List Pred} {items : List Json}
    (hunique : ∀ p ∈ ps, ∀ p' item, Denotes cx p item → Denotes cx p' item → p = p')
    (h : List.Forall₂ (Denotes cx) ps items) (h' : List.Forall₂ (Denotes cx) ps' items) :
    ps = ps' := by
  induction h generalizing ps' with
  | nil =>
      cases h'
      rfl
  | @cons p item ps items hp _ ih =>
      cases h' with
      | @cons p' _ ps' _ hp' hps' =>
          rw [hunique p (List.mem_cons_self ..) p' item hp hp',
            ih (fun q hq => hunique q (List.mem_cons_of_mem p hq)) hps']

theorem Denotes.unique {p p' : Pred} {node : Json} (h : Denotes cx p node)
    (h' : Denotes cx p' node) : p = p' := by
  induction p using Pred.induction generalizing p' node with
  | leaf l =>
      rcases h with ⟨members, rfl, hop, hread⟩
      cases p' with
      | leaf l' =>
          rcases h' with ⟨_, hnode, hop', hread'⟩
          cases hnode
          have hsame := hasOp_unique hop hop'
          simp only [Op.leaf.injEq] at hsame
          rw [Leaf.readFrom_unique hread hread' hsame]
      | not p' =>
          rcases h' with ⟨_, ⟨_, hnode, hop', _⟩, _⟩
          cases hnode
          cases hasOp_unique hop hop'
      | connective c ps' =>
          rcases (denotes_connective cx).mp h' with ⟨_, ⟨_, hnode, hop', _⟩, _⟩
          cases hnode
          cases hasOp_unique hop hop'
  | not p ih =>
      rcases h with ⟨inner, ⟨members, rfl, hop, _, hmember⟩, hp⟩
      cases p' with
      | leaf l' =>
          rcases h' with ⟨_, hnode, hop', _⟩
          cases hnode
          cases hasOp_unique hop hop'
      | not p' =>
          rcases h' with ⟨inner', ⟨_, hnode, _, _, hmember'⟩, hp'⟩
          cases hnode
          rw [hmember] at hmember'
          cases hmember'
          rw [ih hp hp']
      | connective c ps' =>
          rcases (denotes_connective cx).mp h' with ⟨_, ⟨_, hnode, hop', _⟩, _⟩
          cases hnode
          cases hasOp_unique hop hop'
  | connective c ps ih =>
      rcases (denotes_connective cx).mp h with
        ⟨items, ⟨members, rfl, hop, _, hmember, _⟩, hps⟩
      cases p' with
      | leaf l' =>
          rcases h' with ⟨_, hnode, hop', _⟩
          cases hnode
          cases hasOp_unique hop hop'
      | not p' =>
          rcases h' with ⟨_, ⟨_, hnode, hop', _⟩, _⟩
          cases hnode
          cases hasOp_unique hop hop'
      | connective c' ps' =>
          rcases (denotes_connective cx).mp h' with
            ⟨items', ⟨_, hnode, hop', _, hmember', _⟩, hps'⟩
          cases hnode
          cases hasOp_unique hop hop'
          rw [hmember] at hmember'
          cases hmember'
          rw [forall₂_denotes_unique (fun p hp p' item h h' => ih p hp h h') hps hps']

end Unique

/-! ## Compiled predicates -/

/-- What the predicate asks of a row; null asks nothing. -/
def Meaning (D : Postgres) (cx : CompileContext) (predicate : Json)
    (meaning : RowData → SqlExpressions.Outcome) : Prop :=
  (predicate = .null ∧ meaning = fun _ => ⟨false, some true⟩) ∨
    ∃ p, Denotes cx p predicate ∧ meaning = fun row => p.outcome D row

/-- The condition has this meaning wherever the columns are those of the row. -/
def HasMeaning (D : Postgres) (q : Bool) (compiled : Fragment × List Value)
    (meaning : RowData → SqlExpressions.Outcome) : Prop :=
  ∀ row column, Resolves q row column →
    evalCondition (operators D) column compiled.1 compiled.2 = some (meaning row)

/-- `WHERE` keeps the rows for which the condition is true. -/
def selects (D : Postgres) (compiled : Fragment × List Value)
    (column : Option String → String → Option Value) : Bool :=
  (evalCondition (operators D) column compiled.1 compiled.2).any fun o => o.truth == some true

section Compiled

variable {D : Postgres} {cx : CompileContext} {q : Bool} {predicate : Json}

theorem Meaning.unique {meaning meaning' : RowData → SqlExpressions.Outcome}
    (h : Meaning D cx predicate meaning)
    (h' : Meaning D cx predicate meaning') : meaning = meaning' := by
  rcases h with ⟨hnull, rfl⟩ | ⟨p, hp, rfl⟩
  · rcases h' with ⟨_, rfl⟩ | ⟨p', hp', rfl⟩
    · rfl
    · rcases denotes_obj hp' with ⟨members, hobj⟩
      rw [hnull] at hobj
      cases hobj
  · rcases h' with ⟨hnull, rfl⟩ | ⟨p', hp', rfl⟩
    · rcases denotes_obj hp with ⟨members, hobj⟩
      rw [hnull] at hobj
      cases hobj
    · rw [hp.unique hp']

theorem compiled_hasMeaning {compiled : Fragment × List Value}
    {meaning : RowData → SqlExpressions.Outcome}
    (h : compilePredicateRoot cx q predicate = .ok compiled)
    (hmeaning : Meaning D cx predicate meaning) : HasMeaning D q compiled meaning := by
  intro row column hcolumn
  rcases compilePredicateRoot_eq_ok.mp h with ⟨hnull, rfl⟩ | ⟨p, hp, _, rfl⟩
  · have htrue : Meaning D cx predicate fun _ => ⟨false, some true⟩ := Or.inl ⟨hnull, rfl⟩
    rw [hmeaning.unique htrue]
    rfl
  · have htree : Meaning D cx predicate fun row => p.outcome D row := Or.inr ⟨p, hp, rfl⟩
    rw [hmeaning.unique htree]
    exact hp.evalCondition hcolumn

theorem exists_meaning (D : Postgres) {compiled : Fragment × List Value}
    (h : compilePredicateRoot cx q predicate = .ok compiled) :
    ∃ meaning, Meaning D cx predicate meaning := by
  rcases compilePredicateRoot_eq_ok.mp h with ⟨hnull, _⟩ | ⟨p, hp, _⟩
  · exact ⟨_, Or.inl ⟨hnull, rfl⟩⟩
  · exact ⟨_, Or.inr ⟨p, hp, rfl⟩⟩

theorem selects_eq {compiled : Fragment × List Value}
    {meaning : RowData → SqlExpressions.Outcome}
    (h : HasMeaning D q compiled meaning) {row : RowData}
    {column : Option String → String → Option Value} (hcolumn : Resolves q row column) :
    selects D compiled column = ((meaning row).truth == some true) := by
  rw [selects, h row column hcolumn]
  rfl

/-- An accepted predicate compiles with and without the alias of the table, and both
conditions have the meaning of the tree on every row, so they count and list the same rows. -/
theorem accepted_means (D : Postgres) {compiled : Fragment × List Value}
    (h : compilePredicateRoot cx q predicate = .ok compiled) :
    ∃ meaning, Meaning D cx predicate meaning ∧
      (∀ meaning', Meaning D cx predicate meaning' → meaning' = meaning) ∧
      ∃ count select, compilePredicateRoot cx false predicate = .ok count ∧
        compilePredicateRoot cx true predicate = .ok select ∧
        HasMeaning D false count meaning ∧ HasMeaning D true select meaning ∧
        ∀ (rows : List RowData) (bare aliased : RowData → Option String → String → Option Value),
          (∀ row, Resolves false row (bare row)) → (∀ row, Resolves true row (aliased row)) →
            rows.countP (fun row => selects D count (bare row)) =
              (rows.filter fun row => selects D select (aliased row)).length := by
  have hwell : WellFormed cx predicate := compilePredicateRoot_accepts.mp ⟨compiled, h⟩
  rcases compilePredicateRoot_accepts.mpr hwell with ⟨count, hcount⟩
  rcases compilePredicateRoot_accepts.mpr hwell with ⟨select, hselect⟩
  rcases exists_meaning D h with ⟨meaning, hmeaning⟩
  have hcounts := compiled_hasMeaning hcount hmeaning
  have hselects := compiled_hasMeaning hselect hmeaning
  refine ⟨meaning, hmeaning, fun meaning' hmeaning' => hmeaning'.unique hmeaning, count,
    select, hcount, hselect, hcounts, hselects, ?_⟩
  intro rows bare aliased hbare haliased
  rw [List.countP_eq_length_filter]
  congr 1
  refine List.filter_congr fun row _ => ?_
  rw [selects_eq hcounts (hbare row), selects_eq hselects (haliased row)]

end Compiled

/-! ## Titles of a database in the C locale -/

/-- Texts compare by codepoints, and patterns have no metacharacters. -/
def plainPostgres : Postgres where
  collate := compare
  collate_eq _ _ := Std.LawfulEqCmp.compare_eq_iff_eq
  collate_trans := inferInstance
  float := compare
  float_trans := inferInstance
  decimal := compare
  decimal_trans := inferInstance
  regexp s pattern := some (decide (pattern.toList <:+: s.toList))

def textAdapters : TypeAdapters where
  validate typeName
    | .str s => if typeName ∈ textOrderedTypes then some (.text s) else none
    | _ => none
  validate_typed {typeName raw v} h := by
    cases raw with
    | str s =>
        simp only [Option.ite_none_right_eq_some, Option.some.injEq] at h
        rcases h with ⟨htype, rfl⟩
        simp only [textOrderedTypes, List.mem_append, List.mem_singleton] at htype
        simpa [Value.hasType, textStorageFamily, textFamilySearchTypes] using htype
    | _ => cases h
  datetime _ := none

def titleContext : CompileContext where
  adapters := textAdapters
  attrs := [⟨"id", "uuid"⟩, ⟨"title", "compact_text"⟩]
  limits := ⟨3, 20, 50, 3⟩

/-- Titles before `z` without a literal `a_b`. -/
def titlePredicate : Json :=
  .obj [("op", .str "and"), ("predicates", .arr [
    .obj [("op", .str "lt"), ("attribute", .str "title"), ("value", .str "z")],
    .obj [("op", .str "not"), ("predicate", .obj [("op", .str "contains"),
      ("attribute", .str "title"), ("value", .str "a_b")])]])]

theorem titlePredicate_compiled :
    compilePredicateRoot titleContext true titlePredicate =
      .ok ([.lparen, .ident "src", .dot, .ident "title", .collate, .ident "C", .compare .lt,
        .placeholder, .and, .not, .lparen, .ident "src", .dot, .ident "title", .like,
        .placeholder, .escape, .literal "\\", .rparen, .rparen],
        [.text "z", .text "%a\\_b%"]) := by
  decide +kernel

theorem titlePredicate_means :
    ∃ meaning count, Meaning plainPostgres titleContext titlePredicate meaning ∧
      compilePredicateRoot titleContext false titlePredicate = .ok count ∧
      HasMeaning plainPostgres false count meaning := by
  rcases accepted_means plainPostgres titlePredicate_compiled with
    ⟨meaning, hmeaning, _, count, _, hcount, _, hcounts, _⟩
  exact ⟨meaning, count, hmeaning, hcount, hcounts⟩

end Untangled.Search
