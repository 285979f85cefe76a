import Mathlib.Tactic

/-!
# JSON values

What Python's and JavaScript's parsers make of a JSON text.  Integers are told
from other numbers, as Python does; an object has each key once.
-/

namespace Untangled

inductive Json
  | null
  | bool (b : Bool)
  | int (i : ℤ)
  | float (text : String)
  | str (s : String)
  | arr (items : List Json)
  | obj (members : List (String × Json))

namespace Json

def asString : Json → Option String
  | .str s => some s
  | _ => none

def isNull : Json → Bool
  | .null => true
  | _ => false

def isTrue : Json → Bool
  | .bool b => b
  | _ => false

end Json

/-- The member of an object. -/
def member (members : List (String × Json)) (key : String) : Option Json :=
  members.lookup key

end Untangled
