import Untangled.PythonText

/-!
# Case mappings

`lower` and `capitalize` of Python's `str` over the Unicode tables.  Where lowering
leaves a text alone, capitalizing changes the first letter only.
-/

namespace PythonText

/-- What the Unicode tables say of the case of one character. -/
structure CaseTables where
  /-- The full title-case mapping. -/
  title : Char → List Char
  /-- The full lower-case mapping, apart from the context of a sigma. -/
  lowerChar : Char → List Char
  isCased : Char → Bool
  isCaseIgnorable : Char → Bool
  lowerChar_ne_nil : ∀ c, lowerChar c ≠ []

namespace CaseTables

variable (T : CaseTables)

/-- Whether the next character that counts is cased. -/
def facesCased (s : List Char) : Bool :=
  (s.find? fun c => !T.isCaseIgnorable c).any T.isCased

/-- A capital sigma at the end of a word becomes the final one; what is in front of it
is given backwards. -/
def lowerAt (before : List Char) (c : Char) (after : List Char) : List Char :=
  if c = 'Σ' then
    [if T.facesCased before && !T.facesCased after then 'ς' else 'σ']
  else T.lowerChar c

def lowerFrom : List Char → List Char → List Char
  | _, [] => []
  | before, c :: s => T.lowerAt before c s ++ lowerFrom (c :: before) s

/-- `str.lower` -/
def lowerText (s : List Char) : List Char :=
  T.lowerFrom [] s

/-- `str.capitalize` -/
def capitalize : List Char → List Char
  | [] => []
  | c :: s => T.title c ++ T.lowerFrom [c] s

/-- Lowering leaves the character alone, wherever it stands. -/
def Lowered (c : Char) : Prop :=
  c ≠ 'Σ' ∧ T.lowerChar c = [c]

theorem lowerAt_ne_nil (before : List Char) (c : Char) (after : List Char) :
    T.lowerAt before c after ≠ [] := by
  unfold lowerAt
  by_cases hc : c = 'Σ'
  · rw [if_pos hc]
    exact List.cons_ne_nil _ _
  · rw [if_neg hc]
    exact T.lowerChar_ne_nil c

theorem length_le_lowerFrom (before s : List Char) :
    s.length ≤ (T.lowerFrom before s).length := by
  induction s generalizing before with
  | nil => exact Nat.zero_le _
  | cons c s ih =>
      have hhead := List.length_pos_iff.mpr (T.lowerAt_ne_nil before c s)
      have htail := ih (c :: before)
      rw [lowerFrom, List.length_append, List.length_cons]
      omega

theorem lowered_of_lowerAt
    {before after : List Char} {c : Char}
    (h : T.lowerAt before c after = [c]) :
    T.Lowered c := by
  unfold lowerAt at h
  by_cases hc : c = 'Σ'
  · rw [if_pos hc, hc, List.cons.injEq] at h
    exfalso
    have hhead := h.1
    split at hhead
    · exact absurd hhead (by decide)
    · exact absurd hhead (by decide)
  · rw [if_neg hc] at h
    exact ⟨hc, h⟩

theorem lowerFrom_of_lowered
    {before s : List Char}
    (hs : ∀ c ∈ s, T.Lowered c) :
    T.lowerFrom before s = s := by
  induction s generalizing before with
  | nil => rfl
  | cons c s ih =>
      have hc := hs c (.head _)
      rw [lowerFrom, lowerAt, if_neg hc.1, hc.2, ih fun d hd => hs d (.tail _ hd)]
      rfl

/-- A text stays as it is only if each character does: none may grow. -/
theorem lowered_of_lowerFrom
    {before s : List Char}
    (h : T.lowerFrom before s = s) :
    ∀ c ∈ s, T.Lowered c := by
  induction s generalizing before with
  | nil => simp
  | cons c s ih =>
      have hlength := congrArg List.length h
      have hhead := List.length_pos_iff.mpr (T.lowerAt_ne_nil before c s)
      have htail := T.length_le_lowerFrom (c :: before) s
      rw [lowerFrom, List.length_append, List.length_cons] at hlength
      have hone : (T.lowerAt before c s).length = [c].length := by
        rw [List.length_singleton]
        omega
      have hparts := List.append_inj (show T.lowerAt before c s ++ T.lowerFrom (c :: before) s =
        [c] ++ s from h) hone
      rw [List.forall_mem_cons]
      exact ⟨T.lowered_of_lowerAt hparts.1, ih hparts.2⟩

theorem capitalize_of_lowered
    {c : Char} {s : List Char}
    (hs : ∀ d ∈ s, T.Lowered d) :
    T.capitalize (c :: s) = T.title c ++ s := by
  rw [capitalize, T.lowerFrom_of_lowered hs]

end CaseTables

end PythonText
