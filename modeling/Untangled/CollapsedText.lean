import Mathlib.Data.List.TakeWhile
import Untangled.PythonText

/-!
# Collapsed white space

`" ".join(text.split())` leaves the characters of a text in place but for its
white space: the runs of it become single blanks, and those at both ends go.  A
text is tidy if nothing but its ends can change.
-/

namespace PythonText

/-- Each run of white space as one blank; `gap` says that one came before. -/
def squeeze : Bool → List Char → List Char
  | _, [] => []
  | gap, c :: s =>
      if isSpace c then (if gap then squeeze true s else ' ' :: squeeze true s)
      else c :: squeeze false s

def Trimmed (s : List Char) : Prop :=
  (∀ c ∈ s.head?, isSpace c = false) ∧ ∀ c ∈ s.getLast?, isSpace c = false

theorem trimmed_nil : Trimmed [] := by
  constructor <;> simp

/-! ## Stripping -/

theorem dropWhile_space {gap : List Char} (h : ∀ c ∈ gap, isSpace c = true) (s : List Char) :
    (gap ++ s).dropWhile isSpace = s.dropWhile isSpace := by
  rw [List.dropWhile_append, List.dropWhile_eq_nil_iff.mpr h]
  rfl

theorem dropWhile_head {s : List Char} (h : ∀ c ∈ s.head?, isSpace c = false) :
    s.dropWhile isSpace = s := by
  cases s with
  | nil => rfl
  | cons c s => rw [List.dropWhile_cons, h c rfl, if_neg (by simp)]

theorem stripChars_trimmed {t gap : List Char} (ht : Trimmed t)
    (hgap : ∀ c ∈ gap, isSpace c = true) : stripChars (t ++ gap) = t := by
  have hleft : (t ++ gap).dropWhile isSpace = t ++ gap ∨ t = [] := by
    cases t with
    | nil => exact Or.inr rfl
    | cons c t => exact Or.inl (dropWhile_head fun d hd => ht.1 d hd)
  rcases hleft with hleft | rfl
  · have hreverse : t.reverse.dropWhile isSpace = t.reverse :=
      dropWhile_head fun c hc => ht.2 c (by rwa [List.head?_reverse] at hc)
    rw [stripChars, hleft, List.reverse_append,
      dropWhile_space (fun c hc => hgap c (List.mem_reverse.mp hc)), hreverse,
      List.reverse_reverse]
  · rw [List.nil_append, stripChars, List.dropWhile_eq_nil_iff.mpr hgap]
    rfl

/-- A text is white space around what stripping leaves of it. -/
theorem stripChars_spec (s : List Char) :
    ∃ before after, s = before ++ stripChars s ++ after ∧ (∀ c ∈ before, isSpace c = true) ∧
      (∀ c ∈ after, isSpace c = true) ∧ Trimmed (stripChars s) := by
  let middle := s.dropWhile isSpace
  have hsplit : middle.reverse.takeWhile isSpace ++ middle.reverse.dropWhile isSpace =
      middle.reverse := List.takeWhile_append_dropWhile
  have hmiddle : middle = stripChars s ++ (middle.reverse.takeWhile isSpace).reverse := by
    have h := congrArg List.reverse hsplit
    rw [List.reverse_append, List.reverse_reverse] at h
    exact h.symm
  refine ⟨s.takeWhile isSpace, (middle.reverse.takeWhile isSpace).reverse, ?_, ?_, ?_, ?_, ?_⟩
  · rw [List.append_assoc, ← hmiddle]
    exact List.takeWhile_append_dropWhile.symm
  · exact fun c hc => List.mem_takeWhile_imp hc
  · exact fun c hc => List.mem_takeWhile_imp (List.mem_reverse.mp hc)
  · intro c hc
    have hhead : c ∈ middle.head? := by
      rw [hmiddle]
      cases hstrip : stripChars s with
      | nil =>
          rw [hstrip] at hc
          cases hc
      | cons d rest =>
          rw [hstrip] at hc
          exact hc
    have hnot := List.head?_dropWhile_not isSpace s
    rw [show (s.dropWhile isSpace).head? = some c from hhead] at hnot
    simpa using hnot
  · intro c hc
    have hnot := List.head?_dropWhile_not isSpace middle.reverse
    rw [stripChars, List.getLast?_reverse] at hc
    rw [show (middle.reverse.dropWhile isSpace).head? = some c from hc] at hnot
    simpa using hnot

/-! ## Words and blanks -/

theorem split_space {c : Char} (hc : isSpace c = true) (s : List Char) :
    split (c :: s) = split s := by
  rw [split, List.splitOnP_cons_eq_if_modifyHead, if_pos hc]
  rfl

theorem split_word {w : List Char} (hw : w ≠ []) (hspace : ∀ c ∈ w, isSpace c = false) :
    split w = [w] := by
  rw [split, List.splitOnP_eq_singleton hspace]
  simp [hw]

theorem split_word_space {w : List Char} (hw : w ≠ []) (hspace : ∀ c ∈ w, isSpace c = false)
    {c : Char} (hc : isSpace c = true) (s : List Char) :
    split (w ++ c :: s) = w :: split s := by
  rw [split, List.splitOnP_append_cons_of_forall_mem hspace c hc]
  simp [hw, split]

theorem trimmed_word {w : List Char} (hspace : ∀ c ∈ w, isSpace c = false) : Trimmed w :=
  ⟨fun c hc => hspace c (List.mem_of_head? hc), fun c hc => hspace c (List.mem_of_getLast? hc)⟩

/-- The text after a blank follows a word. -/
theorem Trimmed.after_word {w t : List Char} (hw : w ≠ [])
    (hspace : ∀ c ∈ w, isSpace c = false) (ht : Trimmed t) (hne : t ≠ []) :
    Trimmed (w ++ ' ' :: t) := by
  constructor
  · intro c hc
    rw [List.head?_append_of_ne_nil _ hw] at hc
    exact hspace c (List.mem_of_head? hc)
  · intro c hc
    rw [List.getLast?_append_of_ne_nil _ (List.cons_ne_nil _ _)] at hc
    cases t with
    | nil => exact absurd rfl hne
    | cons d t => exact ht.2 c (by simpa [List.getLast?_cons] using hc)

/-- What a text is up to the blanks behind it. -/
def UpToBlank (s t : List Char) : Prop :=
  Trimmed t ∧ ∃ gap : List Char, (∀ c ∈ gap, isSpace c = true) ∧ s = t ++ gap

theorem upToBlank_word {w : List Char} (hw : w ≠ []) (hspace : ∀ c ∈ w, isSpace c = false)
    {s : List Char} (h : UpToBlank (squeeze true s) (join (split s))) :
    UpToBlank (w ++ ' ' :: squeeze true s) (join (w :: split s)) := by
  rcases h with ⟨htrim, gap, hgap, heq⟩
  cases hwords : split s with
  | nil =>
      rw [hwords] at heq
      refine ⟨by simpa [join] using trimmed_word hspace, ' ' :: gap, ?_, ?_⟩
      · exact List.forall_mem_cons.mpr ⟨rfl, hgap⟩
      · rw [heq]
        simp [join]
  | cons word words =>
      have hjoin : join (w :: word :: words) = w ++ ' ' :: join (word :: words) := by
        simp [join, List.intercalate_cons_cons]
      have hne : join (split s) ≠ [] := by
        rw [hwords]
        have hword : word ∈ split s := by simp [hwords]
        have hnil : word ≠ [] := by
          simpa using (List.mem_filter.mp hword).2
        cases words with
        | nil => simpa [join] using hnil
        | cons next words => simp [join, List.intercalate_cons_cons, hnil]
      rw [hjoin, ← hwords]
      exact ⟨htrim.after_word hw hspace hne, gap, hgap, by rw [heq]; simp⟩

theorem upToBlank_squeeze (s : List Char) :
    UpToBlank (squeeze true s) (join (split s)) ∧
      ∀ w : List Char, w ≠ [] → (∀ c ∈ w, isSpace c = false) →
        UpToBlank (w ++ squeeze false s) (join (split (w ++ s))) := by
  induction s with
  | nil =>
      refine ⟨⟨trimmed_nil, [], by simp, rfl⟩, fun w hw hspace => ?_⟩
      rw [List.append_nil, split_word hw hspace]
      exact ⟨by simpa [join] using trimmed_word hspace, [], by simp, by simp [join, squeeze]⟩
  | cons c s ih =>
      cases hc : isSpace c with
      | true =>
          refine ⟨?_, fun w hw hspace => ?_⟩
          · rw [split_space hc, squeeze, if_pos hc, if_pos rfl]
            exact ih.1
          · rw [split_word_space hw hspace hc, squeeze, if_pos hc, if_neg (by simp)]
            exact upToBlank_word hw hspace ih.1
      | false =>
          refine ⟨?_, fun w hw hspace => ?_⟩
          · rw [squeeze, hc, if_neg (by simp)]
            exact ih.2 [c] (by simp) (by simpa using hc)
          · have hword := ih.2 (w ++ [c]) (by simp) (by
              intro d hd
              rcases List.mem_append.mp hd with hd | hd
              · exact hspace d hd
              · rwa [List.mem_singleton.mp hd])
            rw [squeeze, hc, if_neg (by simp)]
            simpa using hword

/-- Joining the words of a text squeezes and strips it. -/
theorem join_split (s : List Char) : join (split s) = stripChars (squeeze true s) := by
  rcases (upToBlank_squeeze s).1 with ⟨htrim, gap, hgap, heq⟩
  rw [heq, stripChars_trimmed htrim hgap]

theorem trimmed_join_split (s : List Char) : Trimmed (join (split s)) :=
  (upToBlank_squeeze s).1.1

theorem split_append_space {gap : List Char} (h : ∀ c ∈ gap, isSpace c = true) (s : List Char) :
    split (gap ++ s) = split s := by
  induction gap with
  | nil => rfl
  | cons c gap ih =>
      rw [List.cons_append, split_space (h c (.head _))]
      exact ih fun d hd => h d (.tail _ hd)

theorem split_stripChars (s : List Char) : split (stripChars s) = split s := by
  rcases stripChars_spec s with ⟨before, after, heq, hbefore, hafter, _⟩
  have hsplit : split s = split (stripChars s ++ after) := by
    conv_lhs => rw [heq, List.append_assoc, split_append_space hbefore]
  rw [hsplit]
  cases after with
  | nil => rw [List.append_nil]
  | cons c after =>
      have hnone : split after = [] := by
        have hspace := split_append_space (fun d hd => hafter d (.tail _ hd)) []
        rw [List.append_nil] at hspace
        rw [hspace]
        rfl
      rw [split, split, List.splitOnP_append_cons _ _ (hafter c (.head _)),
        List.filter_append, show (after.splitOnP isSpace).filter (· ≠ []) = [] from hnone,
        List.append_nil]

/-! ## Tidy texts -/

/-- White space stands in a tidy text as single blanks. -/
structure Tidy (s : List Char) : Prop where
  blank : ∀ c ∈ s, isSpace c = true → c = ' '
  single : s.IsChain fun a b => isSpace a = false ∨ isSpace b = false

theorem Tidy.part {s t : List Char} (h : Tidy s) (hpart : t <:+: s) : Tidy t where
  blank c hc := h.blank c (hpart.subset hc)
  single := List.IsChain.infix h.single hpart

theorem Tidy.append {s t : List Char} (hs : Tidy s) (ht : Tidy t)
    (h : ∀ a ∈ s.getLast?, ∀ b ∈ t.head?, isSpace a = false ∨ isSpace b = false) :
    Tidy (s ++ t) where
  blank c hc := by
    rcases List.mem_append.mp hc with hc | hc
    · exact hs.blank c hc
    · exact ht.blank c hc
  single := List.isChain_append.mpr ⟨hs.single, ht.single, h⟩

theorem Tidy.of_word {w : List Char} (h : ∀ c ∈ w, isSpace c = false) : Tidy w where
  blank c hc hspace := by
    rw [h c hc] at hspace
    cases hspace
  single := by
    induction w with
    | nil => exact .nil
    | cons c w ih =>
        exact List.isChain_cons.mpr ⟨fun _ _ => Or.inl (h c (.head _)),
          ih fun d hd => h d (.tail _ hd)⟩

theorem tidy_cons {c : Char} {s : List Char} :
    Tidy (c :: s) ↔ (isSpace c = true → c = ' ') ∧
      (∀ d ∈ s.head?, isSpace c = false ∨ isSpace d = false) ∧ Tidy s := by
  constructor
  · intro h
    have hsingle := List.isChain_cons.mp h.single
    exact ⟨h.blank c (.head _), hsingle.1, fun d hd => h.blank d (.tail _ hd), hsingle.2⟩
  · rintro ⟨hblank, hnext, hs⟩
    exact ⟨List.forall_mem_cons.mpr ⟨hblank, hs.blank⟩,
      List.isChain_cons.mpr ⟨hnext, hs.single⟩⟩

theorem tidy_squeeze (s : List Char) (gap : Bool) :
    Tidy (squeeze gap s) ∧ (gap = true → ∀ c ∈ (squeeze gap s).head?, isSpace c = false) := by
  induction s generalizing gap with
  | nil => exact ⟨⟨by simp [squeeze], .nil⟩, by simp [squeeze]⟩
  | cons c s ih =>
      rw [squeeze]
      cases hc : isSpace c with
      | true =>
          cases gap with
          | true => exact ih true
          | false =>
              refine ⟨tidy_cons.mpr ⟨fun _ => rfl, fun d hd => ?_, (ih true).1⟩, by simp⟩
              exact Or.inr ((ih true).2 rfl d hd)
      | false =>
          refine ⟨tidy_cons.mpr ⟨?_, fun _ _ => Or.inl hc, (ih false).1⟩, ?_⟩
          · intro h
            rw [hc] at h
            cases h
          · intro _ d hd
            rcases hd
            exact hc

theorem tidy_join_split (s : List Char) : Tidy (join (split s)) := by
  rcases (upToBlank_squeeze s).1 with ⟨_, gap, _, heq⟩
  exact (tidy_squeeze s true).1.part ⟨[], gap, by rw [List.nil_append, heq]⟩

theorem squeeze_of_tidy {s : List Char} (h : Tidy s) : squeeze false s = s ∧
    ((∀ c ∈ s.head?, isSpace c = false) → squeeze true s = s) := by
  induction s with
  | nil => exact ⟨rfl, fun _ => rfl⟩
  | cons c s ih =>
      rcases tidy_cons.mp h with ⟨hblank, hnext, hs⟩
      simp only [squeeze]
      cases hc : isSpace c with
      | true =>
          have hhead : ∀ d ∈ s.head?, isSpace d = false := by
            intro d hd
            rcases hnext d hd with hcd | hd
            · rw [hc] at hcd
              cases hcd
            · exact hd
          refine ⟨?_, fun h => ?_⟩
          · rw [if_pos rfl, if_neg (by simp), (ih hs).2 hhead, hblank hc]
          · have hspace := h c rfl
            rw [hc] at hspace
            cases hspace
      | false => exact ⟨by simp [(ih hs).1], fun _ => by simp [(ih hs).1]⟩

/-- Of a tidy text only the ends change. -/
theorem Tidy.join_split {s : List Char} (h : Tidy s) : join (split s) = stripChars s := by
  rcases stripChars_spec s with ⟨before, after, heq, _, _, htrim⟩
  have hmiddle : Tidy (stripChars s) := h.part ⟨before, after, heq.symm⟩
  have hstrip := stripChars_trimmed htrim (List.forall_mem_nil fun c => isSpace c = true)
  rw [List.append_nil] at hstrip
  rw [← split_stripChars, PythonText.join_split, (squeeze_of_tidy hmiddle).2 htrim.1, hstrip]

theorem stripChars_of_trimmed {s : List Char} (h : Trimmed s) : stripChars s = s := by
  have hstrip := stripChars_trimmed h (List.forall_mem_nil fun c => isSpace c = true)
  rwa [List.append_nil] at hstrip

end PythonText
