import Mathlib.Tactic

/-!
# Texts of UUIDs

The pattern that both JavaScript tiers ask of a user id, and the spellings that
Python's `UUID` takes: with `urn:` or `uuid:` in it, in braces, and with hyphens
anywhere.
-/

namespace Untangled

def isHexDigit (c : Char) : Bool :=
  ('0' ≤ c && c ≤ '9') || ('a' ≤ c && c ≤ 'f') || ('A' ≤ c && c ≤ 'F')

def hexDigitValue (c : Char) : ℕ :=
  if c ≤ '9' then c.toNat - 48 else if c ≤ 'F' then c.toNat - 55 else c.toNat - 87

def hexNumber (digits : List Char) : ℕ :=
  digits.foldl (fun n c => 16 * n + hexDigitValue c) 0

/-! ## JavaScript -/

/-- Runs of so many hexadecimal digits with a hyphen between them. -/
def hexRuns : List ℕ → List Char → Bool
  | [], s => s.isEmpty
  | [k], s => s.length = k && s.all isHexDigit
  | k :: runs, s =>
      (s.take k).length = k && (s.take k).all isHexDigit && (s.drop k).head? = some '-' &&
        hexRuns runs (s.drop (k + 1))

/-- `UUID_RE.test(text)` -/
def uuidRe (text : List Char) : Bool := hexRuns [8, 4, 4, 4, 12] text

/-- The user that a text of the pattern stands for. -/
def uuidOfText (text : List Char) : ℕ := hexNumber (text.filter (· ≠ '-'))

/-! ## Python -/

/-- `int(text, 16)`; it takes more than hexadecimal digits. -/
structure IntBase16 where
  parse : List Char → Option ℤ
  parse_hex : ∀ {digits : List Char}, digits ≠ [] → digits.all isHexDigit = true →
    parse digits = some (hexNumber digits : ℤ)

/-- `s.replace(pattern, "")`; the first argument counts the characters of a match
that are still to go. -/
def removeAll (pattern : List Char) : ℕ → List Char → List Char
  | _, [] => []
  | left + 1, _ :: s => removeAll pattern left s
  | 0, c :: s =>
      if pattern <+: c :: s then removeAll pattern (pattern.length - 1) s
      else c :: removeAll pattern 0 s

def isBrace (c : Char) : Bool := c = '{' || c = '}'

/-- `s.strip("{}")` -/
def stripBraces (s : List Char) : List Char :=
  ((s.dropWhile isBrace).reverse.dropWhile isBrace).reverse

/-- `UUID(text)`; none stands for `ValueError`. -/
def pythonUuid (I : IntBase16) (text : List Char) : Option ℕ :=
  let hex := removeAll "uuid:".toList 0 (removeAll "urn:".toList 0 text)
  let hex := (stripBraces hex).filter (· ≠ '-')
  if hex.length ≠ 32 then none
  else (I.parse hex).bind fun i =>
    if 0 ≤ i ∧ i < 2 ^ 128 then some i.toNat else none

/-! ## The pattern is a spelling that both read alike -/

theorem hexRuns_spec {runs : List ℕ} {s : List Char} (h : hexRuns runs s = true) :
    (∀ c ∈ s, isHexDigit c = true ∨ c = '-') ∧
      (s.filter (· ≠ '-')).length = runs.sum := by
  induction runs, s using hexRuns.induct with
  | case1 s =>
      have hempty : s = [] := by simpa [hexRuns] using h
      simp [hempty]
  | case2 k s =>
      simp only [hexRuns, Bool.and_eq_true, decide_eq_true_eq, List.all_eq_true] at h
      have hkeep : s.filter (· ≠ '-') = s := by
        rw [List.filter_eq_self]
        intro c hc
        have hhex := h.2 c hc
        by_cases hyphen : c = '-'
        · subst hyphen
          cases hhex
        · simpa using hyphen
      refine ⟨fun c hc => Or.inl (h.2 c hc), ?_⟩
      rw [hkeep, h.1]
      simp
  | case3 k runs s hruns ih =>
      have hunfold : hexRuns (k :: runs) s =
          ((s.take k).length = k && (s.take k).all isHexDigit &&
            (s.drop k).head? = some '-' && hexRuns runs (s.drop (k + 1))) := by
        cases runs with
        | nil => exact absurd rfl hruns
        | cons r runs => rfl
      rw [hunfold] at h
      simp only [Bool.and_eq_true, decide_eq_true_eq, List.all_eq_true] at h
      rcases h with ⟨⟨⟨hlength, hhex⟩, hhead⟩, hrest⟩
      rcases ih hrest with ⟨hchars, hcount⟩
      have hsplit : s = s.take k ++ '-' :: s.drop (k + 1) := by
        have hdrop : s.drop k = '-' :: s.drop (k + 1) := by
          cases hd : s.drop k with
          | nil => simp [hd] at hhead
          | cons c rest =>
              have htail : s.drop (k + 1) = rest := by
                rw [← List.drop_drop, hd]
                rfl
              rw [hd] at hhead
              simp only [List.head?_cons, Option.some.injEq] at hhead
              rw [htail, hhead]
        rw [← hdrop, List.take_append_drop]
      have hkeep : (s.take k).filter (· ≠ '-') = s.take k := by
        rw [List.filter_eq_self]
        intro c hc
        have hdigit := hhex c hc
        by_cases hyphen : c = '-'
        · subst hyphen
          cases hdigit
        · simpa using hyphen
      constructor
      · intro c hc
        rw [hsplit, List.mem_append, List.mem_cons] at hc
        rcases hc with hc | hc | hc
        · exact Or.inl (hhex c hc)
        · exact Or.inr hc
        · exact hchars c hc
      · rw [hsplit, List.filter_append, hkeep, List.filter_cons_of_neg (by simp),
          List.length_append, hlength, hcount, List.sum_cons]

theorem removeAll_of_notMem {first : Char} {pattern s : List Char} (hfirst : first ∉ s) :
    removeAll (first :: pattern) 0 s = s := by
  induction s with
  | nil => rfl
  | cons c s ih =>
      have hne : ¬ (first :: pattern) <+: c :: s := by
        intro hpre
        have hhead := List.cons_prefix_cons.mp hpre
        exact hfirst (by simp [hhead.1])
      have hrest : first ∉ s := fun hmem => hfirst (List.mem_cons_of_mem c hmem)
      rw [removeAll, if_neg hne, ih hrest]

theorem dropWhile_of_forall {s : List Char} {q : Char → Bool} (h : ∀ c ∈ s, q c = false) :
    s.dropWhile q = s := by
  cases s with
  | nil => rfl
  | cons c s => rw [List.dropWhile_cons_of_neg (by simp [h c (List.mem_cons_self ..)])]

theorem stripBraces_of_forall {s : List Char} (h : ∀ c ∈ s, isBrace c = false) :
    stripBraces s = s := by
  unfold stripBraces
  rw [dropWhile_of_forall h, dropWhile_of_forall, List.reverse_reverse]
  intro c hc
  exact h c (List.mem_reverse.mp hc)

theorem hexDigitValue_lt {c : Char} (hc : isHexDigit c = true) : hexDigitValue c < 16 := by
  simp only [isHexDigit, Bool.or_eq_true, Bool.and_eq_true, decide_eq_true_eq] at hc
  unfold hexDigitValue
  simp only [Char.le_def, UInt32.le_iff_toNat_le] at *
  simp at *
  split
  · omega
  · split
    · omega
    · omega

theorem hexNumber_lt {digits : List Char} (hdigits : ∀ c ∈ digits, isHexDigit c = true) :
    hexNumber digits < 16 ^ digits.length := by
  have hfold : ∀ (digits : List Char) (n : ℕ), (∀ c ∈ digits, isHexDigit c = true) →
      digits.foldl (fun n c => 16 * n + hexDigitValue c) n < (n + 1) * 16 ^ digits.length := by
    intro digits
    induction digits with
    | nil => intro n _; simp
    | cons c digits ih =>
        intro n hdigits
        have hc := hexDigitValue_lt (hdigits c (List.mem_cons_self ..))
        have hrest := ih (16 * n + hexDigitValue c)
          fun d hd => hdigits d (List.mem_cons_of_mem c hd)
        calc digits.foldl (fun n c => 16 * n + hexDigitValue c) (16 * n + hexDigitValue c)
            < (16 * n + hexDigitValue c + 1) * 16 ^ digits.length := hrest
          _ ≤ ((n + 1) * 16) * 16 ^ digits.length :=
              Nat.mul_le_mul_right _ (by omega)
          _ = (n + 1) * 16 ^ (c :: digits).length := by
              rw [List.length_cons, pow_succ]
              ring
  simpa [hexNumber] using hfold digits 0 hdigits

/-- `UUID` reads a text of the pattern as the user that it stands for. -/
theorem pythonUuid_of_uuidRe (I : IntBase16) {text : List Char} (h : uuidRe text = true) :
    pythonUuid I text = some (uuidOfText text) := by
  rcases hexRuns_spec h with ⟨hchars, hcount⟩
  have hnotMem : ∀ c : Char, isHexDigit c = false → c ≠ '-' → c ∉ text := by
    intro c hhex hne hmem
    rcases hchars c hmem with h | h
    · rw [hhex] at h
      cases h
    · exact hne h
  have hu : 'u' ∉ text := hnotMem 'u' (by decide) (by decide)
  have hbrace : ∀ c ∈ text, isBrace c = false := by
    intro c hc
    by_cases hopen : c = '{'
    · subst hopen
      exact absurd hc (hnotMem '{' (by decide) (by decide))
    · by_cases hclose : c = '}'
      · subst hclose
        exact absurd hc (hnotMem '}' (by decide) (by decide))
      · simp [isBrace, hopen, hclose]
  have hurn : removeAll "urn:".toList 0 text = text := removeAll_of_notMem hu
  have huuid : removeAll "uuid:".toList 0 text = text := removeAll_of_notMem hu
  have hdigits : ∀ c ∈ text.filter (· ≠ '-'), isHexDigit c = true := by
    intro c hc
    rw [List.mem_filter] at hc
    rcases hchars c hc.1 with h | h
    · exact h
    · simp [h] at hc
  have hlength : (text.filter (· ≠ '-')).length = 32 := by rw [hcount]; rfl
  have hne : text.filter (· ≠ '-') ≠ [] := by
    intro hempty
    rw [hempty] at hlength
    cases hlength
  have hlt := hexNumber_lt hdigits
  rw [hlength] at hlt
  unfold pythonUuid
  simp only [hurn, huuid, stripBraces_of_forall hbrace]
  rw [if_neg (not_not_intro hlength), I.parse_hex hne (List.all_eq_true.mpr hdigits)]
  rw [Option.bind_some, if_pos ⟨by positivity, by exact_mod_cast hlt⟩]
  rfl

end Untangled
