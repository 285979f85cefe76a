import Untangled.SqlExpressions

/-!
# Three-valued logic

The connectives of Kleene and the value of a condition on a row.  A null operand
makes a comparison unknown; `LIKE` and `~` can fail instead of having a value.
-/

namespace SqlExpressions

/-- True, false or, as none, unknown. -/
abbrev Truth := Option Bool

namespace Truth

def not : Truth → Truth := Option.map Bool.not

def and : Truth → Truth → Truth
  | some false, _ => some false
  | some true, t => t
  | none, some false => some false
  | none, _ => none

def or : Truth → Truth → Truth
  | some true, _ => some true
  | some false, t => t
  | none, some true => some true
  | none, _ => none

/-- All of them hold. -/
def all (ts : List Truth) : Truth := ts.foldr and (some true)

/-- One of them holds. -/
def any (ts : List Truth) : Truth := ts.foldr or (some false)

theorem and_assoc (a b c : Truth) : and (and a b) c = and a (and b c) := by
  rcases a with _ | a <;> rcases b with _ | b <;> rcases c with _ | c <;>
    (try cases a) <;> (try cases b) <;> (try cases c) <;> rfl

theorem or_assoc (a b c : Truth) : or (or a b) c = or a (or b c) := by
  rcases a with _ | a <;> rcases b with _ | b <;> rcases c with _ | c <;>
    (try cases a) <;> (try cases b) <;> (try cases c) <;> rfl

theorem and_true (a : Truth) : and a (some true) = a := by
  rcases a with _ | a
  · rfl
  · cases a <;> rfl

theorem or_false (a : Truth) : or a (some false) = a := by
  rcases a with _ | a
  · rfl
  · cases a <;> rfl

theorem foldl_and (ts : List Truth) (a : Truth) : ts.foldl and a = and a (all ts) := by
  induction ts generalizing a with
  | nil => exact (and_true a).symm
  | cons t ts ih =>
      rw [List.foldl_cons, ih, and_assoc]
      rfl

theorem all_append (ts us : List Truth) : all (ts ++ us) = and (all ts) (all us) := by
  induction ts with
  | nil => rfl
  | cons t ts ih =>
      have hall : ∀ vs : List Truth, all (t :: vs) = and t (all vs) := fun _ => rfl
      rw [List.cons_append, hall, hall, ih, and_assoc]

theorem foldl_or (ts : List Truth) (a : Truth) : ts.foldl or a = or a (any ts) := by
  induction ts generalizing a with
  | nil => exact (or_false a).symm
  | cons t ts ih =>
      rw [List.foldl_cons, ih, or_assoc]
      rfl

end Truth

/-! ## Evaluation -/

/-- What a comparison asks of the order of its operands. -/
def Comparison.holds : Comparison → Ordering → Bool
  | .eq, o => o == .eq
  | .ne, o => o != .eq
  | .lt, o => o == .lt
  | .le, o => o != .gt
  | .gt, o => o == .gt
  | .ge, o => o != .lt

/-- The operators of a database on values that are not null. -/
structure Operators (ν : Type) where
  ofBool : Bool → ν
  asBool : ν → Option Bool
  asBool_ofBool : ∀ b, asBool (ofBool b) = some b
  ofText : String → ν
  /-- A comparison under an explicit collation, if there is one. -/
  compare : Comparison → Option String → ν → ν → Bool
  /-- Text, pattern and escape character; none if the pattern is malformed. -/
  like : ν → ν → ν → Option Bool
  /-- Text and pattern; none if the pattern is malformed. -/
  regexp : ν → ν → Option Bool

variable {ν : Type} (O : Operators ν)

/-- The truth value of a datum; null is unknown. -/
def Operators.truth (datum : Option ν) : Truth := datum.bind O.asBool

def Operators.datum (t : Truth) : Option ν := t.map O.ofBool

@[simp] theorem Operators.truth_datum (t : Truth) : O.truth (O.datum t) = t := by
  cases t with
  | none => rfl
  | some b => exact O.asBool_ofBool b

def explicitCollation : Expr ν → Option String
  | .collate _ collation => some collation
  | _ => none

/-- The value of an expression where columns have these values. -/
def eval (column : Option String → String → Option ν) : Expr ν → Option ν
  | .column qualifier name => column qualifier name
  | .true => O.datum (some Bool.true)
  | .value v => some v
  | .literal text => some (O.ofText text)
  | .collate a _ => eval column a
  | .regexp a pattern =>
      (eval column a).bind fun x => (eval column pattern).bind fun p =>
        O.datum (O.regexp x p)
  | .like a pattern escape =>
      (eval column a).bind fun x => (eval column pattern).bind fun p =>
        (eval column escape).bind fun e => O.datum (O.like x p e)
  | .compare c a b =>
      (eval column a).bind fun x => (eval column b).bind fun y =>
        O.datum (some (O.compare c ((explicitCollation a).or (explicitCollation b)) x y))
  | .isNull a => O.datum (some (eval column a).isNone)
  | .isNotNull a => O.datum (some (eval column a).isSome)
  | .not a => O.datum (Truth.not (O.truth (eval column a)))
  | .and a b => O.datum (Truth.and (O.truth (eval column a)) (O.truth (eval column b)))
  | .or a b => O.datum (Truth.or (O.truth (eval column a)) (O.truth (eval column b)))

/-- Some pattern in the expression is malformed and met with a text. -/
def raises (column : Option String → String → Option ν) : Expr ν → Bool
  | .column _ _ | .true | .value _ | .literal _ => false
  | .collate a _ | .isNull a | .isNotNull a | .not a => raises column a
  | .regexp a pattern =>
      raises column a || raises column pattern ||
        (eval O column a).any fun x => (eval O column pattern).any fun p =>
          (O.regexp x p).isNone
  | .like a pattern escape =>
      raises column a || raises column pattern || raises column escape ||
        (eval O column a).any fun x => (eval O column pattern).any fun p =>
          (eval O column escape).any fun e => (O.like x p e).isNone
  | .compare _ a b | .and a b | .or a b => raises column a || raises column b

/-- A condition on a row: whether it fails, and its truth value. -/
structure Outcome where
  fails : Bool
  truth : Truth
  deriving DecidableEq

def outcome (column : Option String → String → Option ν) (e : Expr ν) : Outcome where
  fails := raises O column e
  truth := O.truth (eval O column e)

/-- A condition with its parameters; none if they do not fit or it does not parse. -/
def evalCondition (column : Option String → String → Option ν) (tokens : List (Token ν))
    (params : List ν) : Option Outcome :=
  ((bindParams tokens params).bind parse).map (outcome O column)

section Connectives

variable {O} {column : Option String → String → Option ν}

theorem truth_foldl_and (items : List (Expr ν)) (first : Expr ν) :
    O.truth (eval O column (items.foldl .and first)) =
      Truth.all ((first :: items).map fun e => O.truth (eval O column e)) := by
  have hfold : ∀ (items : List (Expr ν)) (first : Expr ν),
      O.truth (eval O column (items.foldl .and first)) =
        (items.map fun e => O.truth (eval O column e)).foldl Truth.and
          (O.truth (eval O column first)) := by
    intro items
    induction items with
    | nil => intro first; rfl
    | cons e items ih =>
        intro first
        rw [List.foldl_cons, ih, List.map_cons, List.foldl_cons, eval, O.truth_datum]
  rw [hfold, Truth.foldl_and]
  rfl

theorem truth_foldl_or (items : List (Expr ν)) (first : Expr ν) :
    O.truth (eval O column (items.foldl .or first)) =
      Truth.any ((first :: items).map fun e => O.truth (eval O column e)) := by
  have hfold : ∀ (items : List (Expr ν)) (first : Expr ν),
      O.truth (eval O column (items.foldl .or first)) =
        (items.map fun e => O.truth (eval O column e)).foldl Truth.or
          (O.truth (eval O column first)) := by
    intro items
    induction items with
    | nil => intro first; rfl
    | cons e items ih =>
        intro first
        rw [List.foldl_cons, ih, List.map_cons, List.foldl_cons, eval, O.truth_datum]
  rw [hfold, Truth.foldl_or]
  rfl

/-- Operands of a connective fail one by one. -/
theorem raises_foldl {join : Expr ν → Expr ν → Expr ν}
    (hjoin : ∀ a b, raises O column (join a b) = (raises O column a || raises O column b))
    (items : List (Expr ν)) (first : Expr ν) :
    raises O column (items.foldl join first) =
      (first :: items).any (raises O column) := by
  induction items generalizing first with
  | nil => simp
  | cons e items ih => rw [List.foldl_cons, ih, List.any_cons, hjoin]; simp [Bool.or_assoc]

end Connectives

end SqlExpressions
