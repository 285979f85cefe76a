import Untangled.Records
import Untangled.SearchPatterns
import Untangled.SqlLogic

/-!
# Values in the database

How the database orders the values of a column and what its operators make of them.
The default collation, numbers and regular expressions are parameters.
-/

namespace Untangled.Search

open Records SqlExpressions

structure Postgres where
  /-- The default collation; a deterministic one. -/
  collate : String → String → Ordering
  collate_eq : ∀ s t, collate s t = .eq ↔ s = t
  collate_trans : Std.TransCmp collate
  float : String → String → Ordering
  float_trans : Std.TransCmp float
  decimal : String → String → Ordering
  decimal_trans : Std.TransCmp decimal
  /-- Text and pattern; none if the pattern is malformed. -/
  regexp : String → String → Option Bool

def valueKind : Value → ℕ
  | .null => 0
  | .text _ => 1
  | .bool _ => 2
  | .int _ => 3
  | .float _ => 4
  | .decimal _ => 5
  | .uuid _ => 6
  | .datetime _ => 7

namespace Postgres

variable (D : Postgres)

/-- The order of a column's values.  Values of different types never meet. -/
def order : Value → Value → Ordering
  | .text s, .text t => D.collate s t
  | .bool a, .bool b => compare a b
  | .int a, .int b => compare a b
  | .float a, .float b => D.float a b
  | .decimal a, .decimal b => D.decimal a b
  | .uuid a, .uuid b => compare a b
  | .datetime a, .datetime b => compare a b
  | v, w => compare (valueKind v) (valueKind w)

/-- The order under an explicit collation; `"C"` is that of the codepoints. -/
def orderUnder (collation : Option String) : Value → Value → Ordering
  | .text s, .text t => if collation = some "C" then compare s t else D.collate s t
  | v, w => D.order v w

theorem order_of_kind_ne {v w : Value} (h : valueKind v ≠ valueKind w) :
    D.order v w = compare (valueKind v) (valueKind w) := by
  cases v <;> cases w <;> first | rfl | exact absurd rfl h

instance order_trans : Std.TransCmp D.order where
  eq_swap {v w} := by
    have hbool : Std.TransCmp (compare (α := Bool)) := inferInstance
    have hint : Std.TransCmp (compare (α := ℤ)) := inferInstance
    have hstring : Std.TransCmp (compare (α := String)) := inferInstance
    by_cases hkind : valueKind v = valueKind w
    · cases v <;> cases w <;> first
        | (simp [valueKind] at hkind; done)
        | rfl
        | exact D.collate_trans.eq_swap
        | exact D.float_trans.eq_swap
        | exact D.decimal_trans.eq_swap
        | exact hbool.eq_swap
        | exact hint.eq_swap
        | exact hstring.eq_swap
    · rw [D.order_of_kind_ne hkind, D.order_of_kind_ne (Ne.symm hkind)]
      exact Std.OrientedCmp.eq_swap
  isLE_trans {u v w} huv hvw := by
    have hbool : Std.TransCmp (compare (α := Bool)) := inferInstance
    have hint : Std.TransCmp (compare (α := ℤ)) := inferInstance
    have hstring : Std.TransCmp (compare (α := String)) := inferInstance
    by_cases hfirst : valueKind u = valueKind v
    · by_cases hsecond : valueKind v = valueKind w
      · cases u <;> cases v <;> first
          | (simp [valueKind] at hfirst; done)
          | cases w <;> first
              | (simp [valueKind] at hsecond; done)
              | rfl
              | exact D.collate_trans.isLE_trans huv hvw
              | exact D.float_trans.isLE_trans huv hvw
              | exact D.decimal_trans.isLE_trans huv hvw
              | exact hbool.isLE_trans huv hvw
              | exact hint.isLE_trans huv hvw
              | exact hstring.isLE_trans huv hvw
      · have hthird : valueKind u ≠ valueKind w := by rwa [hfirst]
        rw [D.order_of_kind_ne hthird, hfirst, ← D.order_of_kind_ne hsecond]
        exact hvw
    · by_cases hsecond : valueKind v = valueKind w
      · have hthird : valueKind u ≠ valueKind w := by rwa [← hsecond]
        rw [D.order_of_kind_ne hthird, ← hsecond, ← D.order_of_kind_ne hfirst]
        exact huv
      · rw [D.order_of_kind_ne hfirst] at huv
        rw [D.order_of_kind_ne hsecond] at hvw
        have hle : (compare (valueKind u) (valueKind w)).isLE :=
          Std.TransCmp.isLE_trans huv hvw
        have hlt : valueKind u ≠ valueKind w := by
          rw [Nat.isLE_compare] at huv hvw
          omega
        rwa [D.order_of_kind_ne hlt]

end Postgres

/-! ## Operators -/

/-- `LIKE` and `~` on what is not a text have no match. -/
def operators (D : Postgres) : Operators Value where
  ofBool := .bool
  asBool
    | .bool b => some b
    | _ => none
  asBool_ofBool _ := rfl
  ofText := .text
  compare c collation v w := c.holds (D.orderUnder collation v w)
  like
    | .text s, .text pattern, .text "\\" => sqlLike s pattern
    | _, _, _ => some false
  regexp
    | .text s, .text pattern => D.regexp s pattern
    | _, _ => some false

end Untangled.Search
