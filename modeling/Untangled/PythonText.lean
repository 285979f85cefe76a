import Mathlib.Tactic

/-!
# Python text

White space, stripping and words as Python's `str` has them, and what is used of
its Unicode tables: lower-casing and the alphanumeric characters.
-/

namespace PythonText

def isSpace (c : Char) : Bool :=
  let n := c.toNat
  (9 ≤ n && n ≤ 13) || (28 ≤ n && n ≤ 32) || n = 0x85 || n = 0xA0 || n = 0x1680 ||
    (0x2000 ≤ n && n ≤ 0x200A) || n = 0x2028 || n = 0x2029 || n = 0x202F ||
    n = 0x205F || n = 0x3000

def stripChars (s : List Char) : List Char :=
  ((s.dropWhile isSpace).reverse.dropWhile isSpace).reverse

def strip (s : String) : String :=
  String.ofList (stripChars s.toList)

/-- The words between white space. -/
def split (s : List Char) : List (List Char) :=
  (s.splitOnP isSpace).filter (· ≠ [])

/-- The words with one blank between them. -/
def join (words : List (List Char)) : List Char :=
  [' '].intercalate words

/-- What the Unicode tables say that is used here. -/
structure CharRules where
  lower : String → String
  isAlnum : Char → Bool
  underscore_not_alnum : isAlnum '_' = false
  underscore_of_lower : ∀ s, '_' ∈ (lower s).toList → '_' ∈ s.toList

/-- Not empty and alphanumeric throughout. -/
def CharRules.isAlnumText (R : CharRules) (s : String) : Bool :=
  s ≠ "" && s.toList.all R.isAlnum

theorem CharRules.underscore_not_mem_lower (R : CharRules) {s : String}
    (hs : R.isAlnumText s = true) : '_' ∉ (R.lower s).toList := by
  intro hmem
  have hmem := R.underscore_of_lower s hmem
  simp only [isAlnumText, Bool.and_eq_true, List.all_eq_true] at hs
  have halnum := hs.2 '_' hmem
  rw [R.underscore_not_alnum] at halnum
  cases halnum

/-! ## Words at underscores -/

def words (s : String) : List (List Char) :=
  s.toList.splitOn '_'

theorem words_inj {s s' : String} (hwords : words s = words s') : s = s' := by
  have hjoin := congrArg (List.intercalate ['_']) hwords
  rw [words, words, List.intercalate_splitOn, List.intercalate_splitOn] at hjoin
  exact String.toList_inj.mp hjoin

theorem words_ne_nil (s : String) : words s ≠ [] :=
  List.splitOn_ne_nil _ _

/-- Texts joined by underscores have the words of both. -/
theorem words_join (s s' : String) : words (s ++ "_" ++ s') = words s ++ words s' := by
  have hchars : (s ++ "_" ++ s').toList = s.toList ++ '_' :: s'.toList := by
    simp [String.toList_append]
  rw [words, hchars, List.splitOn_append_cons_self]
  rfl

theorem words_of_no_underscore {s : String} (hs : '_' ∉ s.toList) :
    words s = [s.toList] :=
  List.splitOn_eq_singleton hs

end PythonText
