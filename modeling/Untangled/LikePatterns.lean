import Mathlib.Data.List.Infix
import Mathlib.Tactic

/-!
# Patterns with wildcards

The patterns of `LIKE`: one character stands for any text, one for any single
character, and an escape character takes away the meaning of the next one.  A
pattern is first read into items and then matched; a pattern that ends in its
escape character cannot be read.
-/

namespace LikePatterns

structure Metacharacters (α : Type) where
  many : α
  one : α
  escape : α
  many_ne_one : many ≠ one
  many_ne_escape : many ≠ escape
  one_ne_escape : one ≠ escape

inductive Item (α : Type)
  | many
  | one
  | literal (a : α)
  deriving DecidableEq

variable {α : Type} [DecidableEq α]

/-- What an unescaped character means. -/
def Metacharacters.item (M : Metacharacters α) (a : α) : Item α :=
  if a = M.many then .many else if a = M.one then .one else .literal a

/-- The items of a pattern; nothing if the last escape has nothing to escape. -/
def read (M : Metacharacters α) : List α → Option (List (Item α))
  | [] => some []
  | [a] => if a = M.escape then none else some [M.item a]
  | a :: b :: rest =>
      if a = M.escape then (read M rest).map (.literal b :: ·)
      else (read M (b :: rest)).map (M.item a :: ·)

/-- The items match the whole text. -/
def matchItems : List (Item α) → List α → Bool
  | [], s => s.isEmpty
  | .many :: items, s => s.tails.any (matchItems items)
  | .one :: _, [] => false
  | .one :: items, _ :: s => matchItems items s
  | .literal _ :: _, [] => false
  | .literal a :: items, b :: s => a = b && matchItems items s

/-- `s LIKE pattern`; none stands for the error of a dangling escape. -/
def like (M : Metacharacters α) (s pattern : List α) : Option Bool :=
  (read M pattern).map (matchItems · s)

/-- An escape character in front of each metacharacter. -/
def quote (M : Metacharacters α) (v : List α) : List α :=
  v.flatMap fun a =>
    if a = M.escape ∨ a = M.many ∨ a = M.one then [M.escape, a] else [a]

/-! ## Reading -/

section Reading

variable {M : Metacharacters α}

theorem read_cons_of_ne {a : α} {rest : List α} (ha : a ≠ M.escape) :
    read M (a :: rest) = (read M rest).map (M.item a :: ·) := by
  cases rest with
  | nil => simp [read, ha]
  | cons b rest => simp [read, ha]

theorem read_escape (b : α) (rest : List α) :
    read M (M.escape :: b :: rest) = (read M rest).map (.literal b :: ·) := by
  simp [read]

theorem read_many (rest : List α) :
    read M (M.many :: rest) = (read M rest).map (.many :: ·) := by
  rw [read_cons_of_ne M.many_ne_escape]
  simp [Metacharacters.item]

theorem quote_cons (a : α) (v : List α) :
    quote M (a :: v) =
      (if a = M.escape ∨ a = M.many ∨ a = M.one then [M.escape, a] else [a]) ++ quote M v := by
  simp [quote]

/-- The pattern ends in an escape character that nothing follows. -/
def DanglingEscape (M : Metacharacters α) (pattern : List α) : Prop :=
  ∃ complete, (read M complete).isSome = true ∧ pattern = complete ++ [M.escape]

theorem read_append_escape {pattern : List α} (hread : (read M pattern).isSome = true) :
    read M (pattern ++ [M.escape]) = none := by
  induction pattern using read.induct M with
  | case1 => simp [read]
  | case2 => simp [read] at hread
  | case3 a ha => rw [List.singleton_append, read_cons_of_ne ha]; simp [read]
  | case4 b rest ih =>
      rw [read_escape, Option.isSome_map] at hread
      rw [List.cons_append, List.cons_append, read_escape, ih hread]
      rfl
  | case5 a b rest ha ih =>
      rw [read_cons_of_ne ha, Option.isSome_map] at hread
      rw [List.cons_append, read_cons_of_ne ha, ih hread]
      rfl

theorem read_eq_none_iff {pattern : List α} :
    read M pattern = none ↔ DanglingEscape M pattern := by
  constructor
  · intro hnone
    induction pattern using read.induct M with
    | case1 => cases hnone
    | case2 => exact ⟨[], rfl, rfl⟩
    | case3 a ha => simp [read, ha] at hnone
    | case4 b rest ih =>
        rw [read_escape, Option.map_eq_none_iff] at hnone
        rcases ih hnone with ⟨complete, hsome, heq⟩
        refine ⟨M.escape :: b :: complete, ?_, by rw [heq]; rfl⟩
        rw [read_escape, Option.isSome_map, hsome]
    | case5 a b rest ha ih =>
        rw [read_cons_of_ne ha, Option.map_eq_none_iff] at hnone
        rcases ih hnone with ⟨complete, hsome, heq⟩
        refine ⟨a :: complete, ?_, by rw [heq]; rfl⟩
        rw [read_cons_of_ne ha, Option.isSome_map, hsome]
  · intro hdangling
    rcases hdangling with ⟨complete, hsome, heq⟩
    rw [heq, read_append_escape hsome]

/-- A quoted text is read as the text itself. -/
theorem read_quote_append (v rest : List α) :
    read M (quote M v ++ rest) = (read M rest).map (v.map .literal ++ ·) := by
  induction v with
  | nil => simp [quote]
  | cons a v ih =>
      rw [quote_cons]
      by_cases hmeta : a = M.escape ∨ a = M.many ∨ a = M.one
      · rw [if_pos hmeta]
        simp only [List.cons_append, List.nil_append]
        rw [read_escape, ih, Option.map_map]
        rfl
      · have hplain : a ≠ M.escape ∧ a ≠ M.many ∧ a ≠ M.one := by
          simpa only [not_or] using hmeta
        have hitem : M.item a = .literal a := by
          simp [Metacharacters.item, hplain.2.1, hplain.2.2]
        rw [if_neg hmeta]
        simp only [List.cons_append, List.nil_append]
        rw [read_cons_of_ne hplain.1, hitem, ih, Option.map_map]
        rfl

end Reading

/-! ## Matching -/

theorem matchItems_literals_append (v : List α) (items : List (Item α)) (s : List α) :
    matchItems (v.map .literal ++ items) s = true ↔
      ∃ rest, s = v ++ rest ∧ matchItems items rest = true := by
  induction v generalizing s with
  | nil => simp
  | cons a v ih =>
      cases s with
      | nil => simp [matchItems]
      | cons b s =>
          simp only [List.map_cons, List.cons_append, matchItems, Bool.and_eq_true,
            decide_eq_true_eq, ih]
          constructor
          · intro h
            rcases h with ⟨rfl, rest, rfl, hrest⟩
            exact ⟨rest, rfl, hrest⟩
          · intro h
            rcases h with ⟨rest, hs, hrest⟩
            injection hs with hb hs
            exact ⟨hb.symm, rest, hs, hrest⟩

theorem matchItems_many (items : List (Item α)) (s : List α) :
    matchItems (.many :: items) s = true ↔
      ∃ front rest, s = front ++ rest ∧ matchItems items rest = true := by
  simp only [matchItems, List.any_eq_true, List.mem_tails]
  constructor
  · intro h
    rcases h with ⟨rest, hsuffix, hrest⟩
    rcases hsuffix with ⟨front, hs⟩
    exact ⟨front, rest, hs.symm, hrest⟩
  · intro h
    rcases h with ⟨front, rest, hs, hrest⟩
    exact ⟨rest, ⟨front, hs.symm⟩, hrest⟩

theorem matchItems_only_many (s : List α) : matchItems [.many] s = true := by
  rw [matchItems_many]
  exact ⟨s, [], by simp, by simp [matchItems]⟩

/-! ## Quoted texts between wildcards -/

section Quoted

variable {M : Metacharacters α} (v s : List α)

theorem like_quote_many :
    ∃ b, like M s (quote M v ++ [M.many]) = some b ∧ (b = true ↔ v <+: s) := by
  refine ⟨_, by rw [like, read_quote_append, read_many]; rfl, ?_⟩
  rw [matchItems_literals_append]
  constructor
  · intro h
    rcases h with ⟨rest, hs, _⟩
    exact ⟨rest, hs.symm⟩
  · intro h
    rcases h with ⟨rest, hs⟩
    exact ⟨rest, hs.symm, matchItems_only_many rest⟩

theorem like_many_quote :
    ∃ b, like M s (M.many :: quote M v) = some b ∧ (b = true ↔ v <:+ s) := by
  have hread : read M (quote M v) = some (v.map .literal) := by
    have happend := read_quote_append (M := M) v []
    simpa [read] using happend
  refine ⟨_, by rw [like, read_many, hread]; rfl, ?_⟩
  rw [matchItems_many]
  constructor
  · intro h
    rcases h with ⟨front, rest, hs, hrest⟩
    rw [← List.append_nil (v.map Item.literal), matchItems_literals_append] at hrest
    rcases hrest with ⟨tail, hrest, htail⟩
    have hempty : tail = [] := by simpa [matchItems] using htail
    subst hempty
    exact ⟨front, by rw [hs, hrest, List.append_nil]⟩
  · intro h
    rcases h with ⟨front, hs⟩
    refine ⟨front, v, hs.symm, ?_⟩
    rw [← List.append_nil (v.map Item.literal), matchItems_literals_append]
    exact ⟨[], by simp, by simp [matchItems]⟩

theorem like_many_quote_many :
    ∃ b, like M s (M.many :: (quote M v ++ [M.many])) = some b ∧ (b = true ↔ v <:+: s) := by
  refine ⟨_, by rw [like, read_many, read_quote_append, read_many]; rfl, ?_⟩
  rw [matchItems_many]
  constructor
  · intro h
    rcases h with ⟨front, rest, hs, hrest⟩
    rw [matchItems_literals_append] at hrest
    rcases hrest with ⟨back, hrest, _⟩
    exact ⟨front, back, by rw [hs, hrest, List.append_assoc]⟩
  · intro h
    rcases h with ⟨front, back, hs⟩
    refine ⟨front, v ++ back, by rw [← hs, List.append_assoc], ?_⟩
    rw [matchItems_literals_append]
    exact ⟨back, rfl, matchItems_only_many back⟩

end Quoted

end LikePatterns
