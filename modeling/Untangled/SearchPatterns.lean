import Untangled.LikePatterns

/-!
# Text patterns of a search

`contains`, `starts_with` and `ends_with` become `LIKE` with a backslash as its
escape character.  The value is escaped by three replacements in a row.
-/

namespace Untangled.Search

open LikePatterns

/-- `s.replace(old, new)` for a single character. -/
def replaceChar (old : Char) (new : List Char) (s : List Char) : List Char :=
  s.flatMap fun c => if c = old then new else [c]

def likeEscapeChar : Char := '\\'

/-- The patterns of SQL `LIKE` with this escape character. -/
def likeSyntax : Metacharacters Char where
  many := '%'
  one := '_'
  escape := likeEscapeChar
  many_ne_one := by decide
  many_ne_escape := by decide
  one_ne_escape := by decide

inductive LikeOp
  | contains
  | startsWith
  | endsWith
  deriving DecidableEq

def escapeLikeLiteral (value : List Char) : List Char :=
  replaceChar '_' ['\\', '_'] (replaceChar '%' ['\\', '%'] (replaceChar '\\' ['\\', '\\'] value))

/-- The pattern that is bound for a value. -/
def LikeOp.pattern (op : LikeOp) (typed : String) : String :=
  let escaped := escapeLikeLiteral typed.toList
  match op with
  | .contains => String.ofList ('%' :: (escaped ++ ['%']))
  | .startsWith => String.ofList (escaped ++ ['%'])
  | .endsWith => String.ofList ('%' :: escaped)

/-- What the operator asks of a text. -/
def LikeOp.Holds (op : LikeOp) (typed s : String) : Prop :=
  match op with
  | .contains => typed.toList <:+: s.toList
  | .startsWith => typed.toList <+: s.toList
  | .endsWith => typed.toList <:+ s.toList

instance (op : LikeOp) (typed s : String) : Decidable (op.Holds typed s) :=
  match op with
  | .contains => inferInstanceAs (Decidable (typed.toList <:+: s.toList))
  | .startsWith => inferInstanceAs (Decidable (typed.toList <+: s.toList))
  | .endsWith => inferInstanceAs (Decidable (typed.toList <:+ s.toList))

/-- `s LIKE pattern ESCAPE '\'` -/
def sqlLike (s pattern : String) : Option Bool :=
  like likeSyntax s.toList pattern.toList

/-! ## Escaping -/

theorem replaceChar_cons (old c : Char) (new s : List Char) :
    replaceChar old new (c :: s) =
      (if c = old then new else [c]) ++ replaceChar old new s := by
  simp [replaceChar]

theorem replaceChar_append (old : Char) (new s t : List Char) :
    replaceChar old new (s ++ t) = replaceChar old new s ++ replaceChar old new t := by
  simp [replaceChar]

/-- The backslashes that the later replacements add are not escaped again. -/
theorem escapeLikeLiteral_eq_quote (value : List Char) :
    escapeLikeLiteral value = quote likeSyntax value := by
  induction value with
  | nil => rfl
  | cons c value ih =>
      rw [quote_cons, ← ih]
      unfold escapeLikeLiteral
      rw [replaceChar_cons, replaceChar_append, replaceChar_append]
      congr 1
      by_cases hescape : c = '\\'
      · subst hescape
        decide
      · by_cases hmany : c = '%'
        · subst hmany
          decide
        · by_cases hone : c = '_'
          · subst hone
            decide
          · simp [replaceChar, likeSyntax, likeEscapeChar, hescape, hmany, hone]

theorem LikeOp.sqlLike_pattern (op : LikeOp) (typed s : String) :
    sqlLike s (op.pattern typed) = some (decide (op.Holds typed s)) := by
  have hlike : ∃ b, like likeSyntax s.toList (op.pattern typed).toList = some b ∧
      (b = true ↔ op.Holds typed s) := by
    cases op with
    | contains =>
        simp only [pattern, escapeLikeLiteral_eq_quote, String.toList_ofList]
        exact like_many_quote_many (M := likeSyntax) typed.toList s.toList
    | startsWith =>
        simp only [pattern, escapeLikeLiteral_eq_quote, String.toList_ofList]
        exact like_quote_many (M := likeSyntax) typed.toList s.toList
    | endsWith =>
        simp only [pattern, escapeLikeLiteral_eq_quote, String.toList_ofList]
        exact like_many_quote (M := likeSyntax) typed.toList s.toList
  rcases hlike with ⟨b, hb, hiff⟩
  have hvalue : b = decide (op.Holds typed s) := by
    rw [Bool.eq_iff_iff, hiff, decide_eq_true_eq]
  rw [sqlLike, hb, hvalue]

theorem LikeOp.not_dangling (op : LikeOp) (typed : String) :
    ¬ DanglingEscape likeSyntax (op.pattern typed).toList := by
  intro hdangling
  have hlike := op.sqlLike_pattern typed ""
  rw [sqlLike, like, read_eq_none_iff.mpr hdangling] at hlike
  cases hlike

/-- Matching a bound pattern is the operator's own test of the value, and the
pattern never ends in a dangling escape. -/
theorem likeEscaping_exact (op : LikeOp) (typed s : String) :
    (sqlLike s (op.pattern typed) = some true ↔ op.Holds typed s) ∧
      ¬ DanglingEscape likeSyntax (op.pattern typed).toList := by
  constructor
  · rw [op.sqlLike_pattern, Option.some.injEq, decide_eq_true_eq]
  · exact op.not_dangling typed

end Untangled.Search
