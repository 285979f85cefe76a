import Untangled.SearchPredicates

/-!
# The grammar of search predicates

Predicate trees, which JSON values denote them, and the condition that a tree
stands for.  Compiling succeeds exactly on the values that denote a tree within
the budgets, and gives the condition of that tree.
-/

namespace Untangled.Search

open Mapping Records SqlExpressions

/-! ## Trees -/

inductive Leaf
  | compare (c : Comparison) (attr : SearchableAttribute) (value : Value)
  | nullCheck (empty : Bool) (attr : SearchableAttribute)
  | like (op : LikeOp) (attr : SearchableAttribute) (text : String)
  | regexp (attr : SearchableAttribute) (text : String)
  deriving DecidableEq

inductive Pred
  | leaf (l : Leaf)
  | not (child : Pred)
  | connective (c : Connective) (children : List Pred)

def Leaf.op : Leaf → LeafOp
  | .compare c _ _ => .compare c
  | .nullCheck empty _ => .nullCheck empty
  | .like op _ _ => .like op
  | .regexp _ _ => .regexp

def Leaf.attr : Leaf → SearchableAttribute
  | .compare _ attr _ => attr
  | .nullCheck _ attr => attr
  | .like _ attr _ => attr
  | .regexp attr _ => attr

namespace Pred

section Fold

variable {α : Type} (leaf : Leaf → α) (not : α → α) (connective : Connective → List α → α)

mutual

/-- The value of a tree from those of its parts. -/
def fold : Pred → α
  | .leaf l => leaf l
  | .not child => not (fold child)
  | .connective c children => connective c (foldAll children)

def foldAll : List Pred → List α
  | [] => []
  | p :: ps => fold p :: foldAll ps

end

theorem foldAll_eq_map (ps : List Pred) :
    foldAll leaf not connective ps = ps.map (fold leaf not connective) := by
  induction ps with
  | nil => rfl
  | cons p ps ih => rw [foldAll, ih, List.map_cons]

end Fold

/-- Induction over trees: a connective may assume its children. -/
@[elab_as_elim]
theorem induction {motive : Pred → Prop} (leaf : ∀ l, motive (.leaf l))
    (not : ∀ child, motive child → motive (.not child))
    (connective : ∀ c children, (∀ p ∈ children, motive p) → motive (.connective c children))
    (p : Pred) : motive p :=
  @Pred.rec motive (fun ps => ∀ p ∈ ps, motive p) leaf not connective
    (fun _ hmem => absurd hmem (List.not_mem_nil))
    (fun p ps hp hps q hq => by
      rcases List.mem_cons.mp hq with rfl | hq
      · exact hp
      · exact hps q hq) p

/-- The root has depth 1. -/
def depth : Pred → ℕ :=
  fold (fun _ => 1) (· + 1) fun _ depths => depths.foldr max 0 + 1

def nodes : Pred → ℕ := fold (fun _ => 1) (· + 1) fun _ counts => counts.sum + 1

def regexps : Pred → ℕ :=
  fold (fun l => if l.op = .regexp then 1 else 0) id fun _ counts => counts.sum

@[simp] theorem depth_leaf (l : Leaf) : (Pred.leaf l).depth = 1 := rfl

@[simp] theorem depth_not (p : Pred) : (Pred.not p).depth = p.depth + 1 := rfl

@[simp] theorem depth_connective (c : Connective) (ps : List Pred) :
    (Pred.connective c ps).depth = (ps.map depth).foldr max 0 + 1 := by
  rw [depth, fold, foldAll_eq_map]

@[simp] theorem nodes_leaf (l : Leaf) : (Pred.leaf l).nodes = 1 := rfl

@[simp] theorem nodes_not (p : Pred) : (Pred.not p).nodes = p.nodes + 1 := rfl

@[simp] theorem nodes_connective (c : Connective) (ps : List Pred) :
    (Pred.connective c ps).nodes = (ps.map nodes).sum + 1 := by
  rw [nodes, fold, foldAll_eq_map]

@[simp] theorem regexps_leaf (l : Leaf) :
    (Pred.leaf l).regexps = if l.op = .regexp then 1 else 0 := rfl

@[simp] theorem regexps_not (p : Pred) : (Pred.not p).regexps = p.regexps := rfl

@[simp] theorem regexps_connective (c : Connective) (ps : List Pred) :
    (Pred.connective c ps).regexps = (ps.map regexps).sum := by
  rw [regexps, fold, foldAll_eq_map]

theorem depth_connective_le {c : Connective} {ps : List Pred} {levels : ℕ} :
    (Pred.connective c ps).depth ≤ levels + 1 ↔ ∀ p ∈ ps, p.depth ≤ levels := by
  rw [depth_connective, Nat.add_le_add_iff_right]
  induction ps with
  | nil => simp
  | cons p ps ih => rw [List.map_cons, List.foldr_cons, max_le_iff, ih, List.forall_mem_cons]

end Pred

/-! ## The condition of a tree -/

section Condition

variable (qualifySource : Bool)

def Leaf.fragment : Leaf → Fragment
  | .compare c attr _ =>
      columnRef qualifySource attr.name ++
        ((if isValueOp c = false ∧ attr.typeName ∈ textOrderedTypes then
          [.collate, .ident "C"] else []) ++ [.compare c, .placeholder])
  | .nullCheck empty attr =>
      columnRef qualifySource attr.name ++ if empty then [.is, .null] else [.is, .not, .null]
  | .like _ attr _ =>
      columnRef qualifySource attr.name ++ [.like, .placeholder, .escape, .literal "\\"]
  | .regexp attr _ => columnRef qualifySource attr.name ++ [.tilde, .placeholder]

/-- The condition with its parameters in their places. -/
def Leaf.bound : Leaf → Fragment
  | .compare c attr v =>
      columnRef qualifySource attr.name ++
        ((if isValueOp c = false ∧ attr.typeName ∈ textOrderedTypes then
          [.collate, .ident "C"] else []) ++ [.compare c, .value v])
  | .nullCheck empty attr =>
      columnRef qualifySource attr.name ++ if empty then [.is, .null] else [.is, .not, .null]
  | .like op attr text =>
      columnRef qualifySource attr.name ++
        [.like, .value (.text (op.pattern text)), .escape, .literal "\\"]
  | .regexp attr text => columnRef qualifySource attr.name ++ [.tilde, .value (.text text)]

def Leaf.params : Leaf → List Value
  | .compare _ _ value => [value]
  | .nullCheck _ _ => []
  | .like op _ text => [.text (op.pattern text)]
  | .regexp _ text => [.text text]

def Pred.fragment : Pred → Fragment :=
  Pred.fold (Leaf.fragment qualifySource) (fun child => [.not, .lparen] ++ child ++ [.rparen])
    fun c parts => [.lparen] ++ [c.token].intercalate parts ++ [.rparen]

def Pred.bound : Pred → Fragment :=
  Pred.fold (Leaf.bound qualifySource) (fun child => [.not, .lparen] ++ child ++ [.rparen])
    fun c parts => [.lparen] ++ [c.token].intercalate parts ++ [.rparen]

def Pred.params : Pred → List Value :=
  Pred.fold Leaf.params id fun _ parts => parts.flatten

@[simp] theorem Pred.fragment_leaf (l : Leaf) :
    (Pred.leaf l).fragment qualifySource = l.fragment qualifySource := rfl

@[simp] theorem Pred.fragment_not (p : Pred) :
    (Pred.not p).fragment qualifySource =
      [.not, .lparen] ++ p.fragment qualifySource ++ [.rparen] := rfl

@[simp] theorem Pred.fragment_connective (c : Connective) (ps : List Pred) :
    (Pred.connective c ps).fragment qualifySource =
      [.lparen] ++ [c.token].intercalate (ps.map (Pred.fragment qualifySource)) ++
        [.rparen] := by
  rw [Pred.fragment, Pred.fold, Pred.foldAll_eq_map]

@[simp] theorem Pred.bound_leaf (l : Leaf) :
    (Pred.leaf l).bound qualifySource = l.bound qualifySource := rfl

@[simp] theorem Pred.bound_not (p : Pred) :
    (Pred.not p).bound qualifySource =
      [.not, .lparen] ++ p.bound qualifySource ++ [.rparen] := rfl

@[simp] theorem Pred.bound_connective (c : Connective) (ps : List Pred) :
    (Pred.connective c ps).bound qualifySource =
      [.lparen] ++ [c.token].intercalate (ps.map (Pred.bound qualifySource)) ++
        [.rparen] := by
  rw [Pred.bound, Pred.fold, Pred.foldAll_eq_map]

@[simp] theorem Pred.params_leaf (l : Leaf) : (Pred.leaf l).params = l.params := rfl

@[simp] theorem Pred.params_not (p : Pred) : (Pred.not p).params = p.params := rfl

@[simp] theorem Pred.params_connective (c : Connective) (ps : List Pred) :
    (Pred.connective c ps).params = (ps.map Pred.params).flatten := by
  rw [Pred.params, Pred.fold, Pred.foldAll_eq_map]

/-! ## Binding -/

theorem bindParams_columnRef (name : String) (tokens : Fragment) (params : List Value) :
    bindParams (columnRef qualifySource name ++ tokens) params =
      (bindParams tokens params).map (columnRef qualifySource name ++ ·) := by
  have hcolumn : bindParams (columnRef qualifySource name) ([] : List Value) =
      some (columnRef qualifySource name) := by
    cases qualifySource <;> rfl
  exact bindParams_append hcolumn tokens params

theorem Leaf.bindParams_fragment (l : Leaf) :
    bindParams (l.fragment qualifySource) l.params = some (l.bound qualifySource) := by
  cases l with
  | compare c attr v =>
      rw [fragment, params, bindParams_columnRef]
      by_cases htext : isValueOp c = false ∧ attr.typeName ∈ textOrderedTypes <;>
        simp [bound, htext, bindParams]
  | nullCheck empty attr =>
      rw [fragment, params, bindParams_columnRef]
      cases empty <;> rfl
  | like op attr text =>
      rw [fragment, params, bindParams_columnRef]
      rfl
  | regexp attr text =>
      rw [fragment, params, bindParams_columnRef]
      rfl

theorem bindParams_intercalate (c : Connective) (ps : List Pred)
    (hps : ∀ p ∈ ps,
      bindParams (p.fragment qualifySource) p.params = some (p.bound qualifySource)) :
    bindParams ([c.token].intercalate (ps.map (Pred.fragment qualifySource)))
        (ps.map Pred.params).flatten =
      some ([c.token].intercalate (ps.map (Pred.bound qualifySource))) := by
  induction ps with
  | nil => rfl
  | cons p ps ih =>
      have hp := hps p (List.mem_cons_self ..)
      have hrest := ih fun p' hp' => hps p' (List.mem_cons_of_mem p hp')
      have hjoiner : isPlaceholder c.token = false := by cases c <;> rfl
      cases ps with
      | nil =>
          have happend := bindParams_append hp [] []
          simpa [bindParams, List.intercalate] using happend
      | cons p' ps =>
          have hsplit : ∀ f : Pred → Fragment,
              [c.token].intercalate ((p :: p' :: ps).map f) =
                f p ++ c.token :: [c.token].intercalate ((p' :: ps).map f) := by
            intro f
            simp [List.intercalate]
          have hparams : ((p :: p' :: ps).map Pred.params).flatten =
              p.params ++ ((p' :: ps).map Pred.params).flatten := List.flatten_cons
          rw [hsplit, hsplit, hparams, bindParams_append hp, bindParams_cons hjoiner, hrest]
          rfl

/-- The parameters of a tree belong to its placeholders, from left to right. -/
theorem Pred.bindParams_fragment (p : Pred) :
    bindParams (p.fragment qualifySource) p.params = some (p.bound qualifySource) := by
  induction p using Pred.induction with
  | leaf l => exact l.bindParams_fragment qualifySource
  | not p ih =>
      have happend := bindParams_append ih [Token.rparen] []
      rw [List.append_nil] at happend
      rw [Pred.fragment_not, Pred.params_not, Pred.bound_not, List.append_assoc,
        List.cons_append, List.cons_append, List.nil_append, bindParams_cons rfl,
        bindParams_cons rfl, happend]
      simp [bindParams]
  | connective c ps ih =>
      have hchildren := bindParams_intercalate qualifySource c ps ih
      have happend := bindParams_append hchildren [Token.rparen] []
      rw [List.append_nil] at happend
      rw [Pred.fragment_connective, Pred.params_connective, Pred.bound_connective,
        List.append_assoc, List.singleton_append, bindParams_cons rfl, happend]
      simp [bindParams]

end Condition

/-! ## Which values denote a tree -/

def HasOp (node : List (String × Json)) (op : Op) : Prop :=
  ∃ name, member node "op" = some (.str name) ∧ implementedOps.lookup name = some op

def KeysWithin (node : List (String × Json)) (allowed : List String) : Prop :=
  ∀ m ∈ node, m.1 ∈ allowed

section Denotes

variable (cx : CompileContext)

def NamesAttribute (node : List (String × Json)) (attr : SearchableAttribute) : Prop :=
  ∃ name, member node "attribute" = some (.str name) ∧ name ≠ "" ∧
    cx.attrs.get name = some attr

def HasValue (node : List (String × Json)) (raw : Json) : Prop :=
  member node "value" = some raw ∧ raw.isNull = false

/-- An aware datetime with a UTC time in the calendar, or what the adapter of the type
returns. -/
def Coerces (attr : SearchableAttribute) (raw : Json) (v : Value) : Prop :=
  attr.typeName ∈ adapterTypes ∧
    if attr.typeName = "datetime" then
      ∃ parsed micros, cx.adapters.datetime raw = some parsed ∧ parsed.aware = true ∧
        requireUtcSeconds parsed.micros = some micros ∧ v = .datetime micros
    else cx.adapters.validate attr.typeName raw = some v

def CarriesValue (node : List (String × Json)) (attr : SearchableAttribute) (v : Value) :
    Prop :=
  KeysWithin node ["op", "attribute", "value"] ∧ NamesAttribute cx node attr ∧
    ∃ raw, HasValue node raw ∧ Coerces cx attr raw v

/-- The clause of the grammar for a leaf, its operator apart. -/
def Leaf.ReadFrom (node : List (String × Json)) : Leaf → Prop
  | .compare c attr v =>
      CarriesValue cx node attr v ∧ (isValueOp c = false → attr.typeName ∈ orderedTypes)
  | .nullCheck _ attr => KeysWithin node ["op", "attribute"] ∧ NamesAttribute cx node attr
  | .like _ attr text =>
      CarriesValue cx node attr (.text text) ∧ attr.typeName ∈ textPatternTypes
  | .regexp attr text =>
      CarriesValue cx node attr (.text text) ∧ attr.typeName ∈ textPatternTypes

/-- An object that is this leaf. -/
def LeafOf (l : Leaf) (node : Json) : Prop :=
  ∃ members, node = .obj members ∧ HasOp members (.leaf l.op) ∧ l.ReadFrom cx members

/-- An object with the key `predicate` for the child. -/
def NotOf (inner : Json) (node : Json) : Prop :=
  ∃ members, node = .obj members ∧ HasOp members .not ∧
    KeysWithin members ["op", "predicate"] ∧ member members "predicate" = some inner

/-- An object with a short enough array of children. -/
def ListOf (c : Connective) (items : List Json) (node : Json) : Prop :=
  ∃ members, node = .obj members ∧ HasOp members (.connective c) ∧
    KeysWithin members ["op", "predicates"] ∧
    member members "predicates" = some (.arr items) ∧ items ≠ [] ∧
    items.length ≤ cx.limits.maxLength

def Denotes : Pred → Json → Prop :=
  Pred.fold (LeafOf cx)
    (fun child node => ∃ inner, NotOf inner node ∧ child inner)
    fun c children node =>
      ∃ items, ListOf cx c items node ∧ List.Forall₂ (fun child => child) children items

theorem denotes_connective {c : Connective} {ps : List Pred} {node : Json} :
    Denotes cx (.connective c ps) node ↔
      ∃ items, ListOf cx c items node ∧ List.Forall₂ (Denotes cx) ps items := by
  unfold Denotes
  rw [Pred.fold, Pred.foldAll_eq_map]
  simp only [List.forall₂_map_left_iff]

/-- The tree is within the budgets. -/
structure WithinBudgets (limits : SearchNestingLimits) (p : Pred) : Prop where
  depth : p.depth ≤ limits.maxDepth
  nodes : p.nodes ≤ limits.maxTotalPredicates
  regexps : p.regexps ≤ limits.maxTotalRegexp

/-- Null, or a tree within the budgets. -/
def WellFormed (predicate : Json) : Prop :=
  predicate = .null ∨ ∃ p, Denotes cx p predicate ∧ WithinBudgets cx.limits p

end Denotes

end Untangled.Search
