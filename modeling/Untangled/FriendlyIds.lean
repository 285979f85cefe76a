import Untangled.LoadedNames
import Untangled.PaddedNumerals
import Untangled.Records
import Untangled.UuidTexts

/-!
# Friendly ids

`format_friendly_id` of `types.py` and `classify_locator` of `locator.py`.  A locator
that `UUID` takes is an id, whatever else it may be: a friendly id of 32 characters
that reads as a hexadecimal number is not found.
-/

namespace Untangled.Mapping

open PythonText Records PaddedNumerals

/-! ## Numbers in base 16 -/

/-- What else the Unicode tables say of the characters of a locator. -/
structure LocatorRules extends Scalars where
  /-- `str.isdigit` of a character. -/
  isDigit : Char → Bool
  /-- The value of a decimal digit that is not ASCII. -/
  decimalDigit : Char → Option ℕ
  repr : String → String
  alnum_ascii : ∀ c, c.toNat < 128 → isAlnum c = c.isAlphanum
  alnum_space : ∀ c, isSpace c = true → isAlnum c = false
  isDigit_ascii : ∀ c, c.isDigit = true → isDigit c = true
  decimalDigit_lt : ∀ c d, decimalDigit c = some d → d < 10

/-- A blank of C, which is what `int` skips at both ends. -/
def isBlank (c : Char) : Bool :=
  (9 ≤ c.toNat && c.toNat ≤ 13) || c.toNat = 32

def hexDigit (c : Char) : Option ℕ :=
  if isHexDigit c then some (hexDigitValue c) else none

/-- The digits of a number with single underscores between them; the flag says that
a digit was last. -/
def readDigits : Bool → ℕ → List Char → Option ℕ
  | digitLast, n, [] => if digitLast then some n else none
  | digitLast, n, c :: s =>
      if c = '_' then if digitLast then readDigits false n s else none
      else (hexDigit c).bind fun d => readDigits true (16 * n + d) s

/-- Without `0x`. -/
def dropMarker : List Char → List Char
  | '0' :: 'x' :: s => s
  | '0' :: 'X' :: s => s
  | s => s

def readMagnitude (s : List Char) : Option ℕ :=
  let rest := dropMarker s
  let rest := if rest.length < s.length ∧ rest.head? = some '_' then rest.tail else rest
  readDigits false 0 rest

/-- A text of ASCII characters as a number in base 16. -/
def readNumber (text : List Char) : Option ℤ :=
  match ((text.dropWhile isBlank).reverse.dropWhile isBlank).reverse with
  | '-' :: s => (readMagnitude s).map fun (n : ℕ) => -(n : ℤ)
  | '+' :: s => (readMagnitude s).map fun (n : ℕ) => (n : ℤ)
  | s => (readMagnitude s).map fun (n : ℕ) => (n : ℤ)

theorem hexDigit_isSome (c : Char) : (hexDigit c).isSome = isHexDigit c := by
  unfold hexDigit
  cases isHexDigit c <;> rfl

theorem readDigits_of_all
    {s : List Char} {n : ℕ}
    (hs : ∀ c ∈ s, c ≠ '_') :
    (readDigits true n s).isSome = s.all isHexDigit := by
  induction s generalizing n with
  | nil => simp [readDigits]
  | cons c s ih =>
      rw [readDigits, if_neg (hs c (.head _)), List.all_cons, ← hexDigit_isSome]
      cases hdigit : hexDigit c with
      | none => rfl
      | some d =>
          rw [Option.bind_some, ih fun c hc => hs c (.tail _ hc)]
          rfl

theorem hexDigit_lt
    {c : Char} {d : ℕ}
    (h : hexDigit c = some d) :
    d < 16 := by
  unfold hexDigit at h
  by_cases hhex : isHexDigit c = true
  · rw [if_pos hhex, Option.some.injEq] at h
    rw [← h]
    exact hexDigitValue_lt hhex
  · rw [if_neg hhex] at h
    cases h

theorem readDigits_lt
    {s : List Char} {b : Bool} {n m : ℕ}
    (h : readDigits b n s = some m) :
    m < (n + 1) * 16 ^ s.length := by
  induction s generalizing b n with
  | nil =>
      rw [readDigits] at h
      by_cases hb : b = true
      · rw [if_pos hb, Option.some.injEq] at h
        rw [h, List.length_nil]
        omega
      · rw [if_neg hb] at h
        cases h
  | cons c s ih =>
      rw [readDigits] at h
      have hpow : 16 ^ (c :: s).length = 16 * 16 ^ s.length := by
        rw [List.length_cons, pow_succ, mul_comm]
      by_cases hc : c = '_'
      · rw [if_pos hc] at h
        by_cases hb : b = true
        · rw [if_pos hb] at h
          calc m < (n + 1) * 16 ^ s.length := ih h
            _ ≤ (n + 1) * 16 ^ (c :: s).length := by
              rw [hpow]
              exact Nat.mul_le_mul_left _ (by omega)
        · rw [if_neg hb] at h
          cases h
      · rw [if_neg hc] at h
        rcases Option.bind_eq_some_iff.mp h with ⟨d, hd, h⟩
        have hlt := hexDigit_lt hd
        calc m < (16 * n + d + 1) * 16 ^ s.length := ih h
          _ ≤ ((n + 1) * 16) * 16 ^ s.length := Nat.mul_le_mul_right _ (by omega)
          _ = (n + 1) * 16 ^ (c :: s).length := by rw [hpow, mul_assoc]

theorem readDigits_hex
    {s : List Char} {b : Bool} {n : ℕ}
    (hne : b = true ∨ s ≠ []) (hs : s.all isHexDigit = true) :
    readDigits b n s = some (s.foldl (fun n c => 16 * n + hexDigitValue c) n) := by
  induction s generalizing b n with
  | nil =>
      have hb : b = true := hne.resolve_right (not_not_intro rfl)
      rw [readDigits, if_pos hb]
      rfl
  | cons c s ih =>
      rw [List.all_cons, Bool.and_eq_true] at hs
      have hc : c ≠ '_' := by
        intro heq
        rw [heq] at hs
        cases hs.1
      rw [readDigits, if_neg hc, hexDigit, if_pos hs.1, Option.bind_some,
        ih (.inl rfl) hs.2]
      rfl

theorem dropMarker_suffix (s : List Char) : dropMarker s <:+ s := by
  unfold dropMarker
  split
  · exact ⟨['0', 'x'], rfl⟩
  · exact ⟨['0', 'X'], rfl⟩
  · exact List.suffix_rfl

theorem readMagnitude_of_no_underscore
    {s : List Char}
    (hs : ∀ c ∈ s, c ≠ '_') :
    readMagnitude s = readDigits false 0 (dropMarker s) := by
  unfold readMagnitude
  dsimp only
  rw [if_neg]
  intro h
  have hmem := List.mem_of_mem_head? h.2
  exact hs '_' ((dropMarker_suffix s).mem hmem) rfl

/-- Neither blanks, signs nor underscores. -/
def Plain (c : Char) : Prop :=
  isBlank c = false ∧ c ≠ '-' ∧ c ≠ '+' ∧ c ≠ '_'

theorem readNumber_plain
    {s : List Char}
    (hs : ∀ c ∈ s, Plain c) :
    readNumber s = (readDigits false 0 (dropMarker s)).map fun (n : ℕ) => (n : ℤ) := by
  have hstrip : ((s.dropWhile isBlank).reverse.dropWhile isBlank).reverse = s := by
    rw [dropWhile_of_forall fun c hc => (hs c hc).1, dropWhile_of_forall, List.reverse_reverse]
    intro c hc
    exact (hs c (List.mem_reverse.mp hc)).1
  unfold readNumber
  rw [hstrip]
  split
  · exact absurd rfl (hs '-' (.head _)).2.1
  · exact absurd rfl (hs '+' (.head _)).2.2.1
  · rw [readMagnitude_of_no_underscore fun c hc => (hs c hc).2.2.2]

theorem dropMarker_hex
    {s : List Char}
    (hs : s.all isHexDigit = true) :
    dropMarker s = s := by
  unfold dropMarker
  split
  · cases hs
  · cases hs
  · rfl

theorem isHexDigit_ascii
    {c : Char}
    (hc : isHexDigit c = true) :
    48 ≤ c.toNat ∧ c.toNat ≤ 102 := by
  simp only [isHexDigit, Bool.or_eq_true, Bool.and_eq_true, decide_eq_true_eq,
    Char.le_def, UInt32.le_iff_toNat_le] at hc
  simp at hc
  omega

theorem plain_of_isHexDigit
    {c : Char}
    (hc : isHexDigit c = true) :
    Plain c := by
  have hrange := isHexDigit_ascii hc
  refine ⟨?_, ?_, ?_, ?_⟩
  · simp only [isBlank, Bool.or_eq_false_iff, Bool.and_eq_false_iff, decide_eq_false_iff_not]
    omega
  all_goals
    intro heq
    rw [heq] at hc
    cases hc

/-- What 32 characters without blanks, signs and underscores are as a `UUID`. -/
theorem readNumber_isSome
    {s : List Char}
    (hs : ∀ c ∈ s, Plain c) (hlength : s.length = 32) :
    ((readNumber s).bind fun i => if 0 ≤ i ∧ i < 2 ^ 128 then some i.toNat else none).isSome =
      (dropMarker s).all isHexDigit := by
  have hsuffix := dropMarker_suffix s
  have hlong : dropMarker s ≠ [] := by
    intro hnil
    unfold dropMarker at hnil
    split at hnil
    · simp [hnil] at hlength
    · simp [hnil] at hlength
    · simp [hnil] at hlength
  have hsome : (readDigits false 0 (dropMarker s)).isSome = (dropMarker s).all isHexDigit := by
    cases hrest : dropMarker s with
    | nil => exact absurd hrest hlong
    | cons c rest =>
        have hunder : ∀ d ∈ c :: rest, d ≠ '_' := by
          intro d hd
          rw [← hrest] at hd
          exact (hs d (hsuffix.mem hd)).2.2.2
        rw [readDigits, if_neg (hunder c (.head _)), List.all_cons, ← hexDigit_isSome]
        cases hdigit : hexDigit c with
        | none => rfl
        | some v =>
            rw [Option.bind_some, readDigits_of_all fun d hd => hunder d (.tail _ hd)]
            rfl
  have hsmall : ∀ n, readDigits false 0 (dropMarker s) = some n → n < 2 ^ 128 := by
    intro n hn
    have hle : (dropMarker s).length ≤ 32 := hlength ▸ hsuffix.length_le
    calc n < (0 + 1) * 16 ^ (dropMarker s).length := readDigits_lt hn
      _ ≤ (0 + 1) * 16 ^ 32 :=
        Nat.mul_le_mul_left _ (Nat.pow_le_pow_right (by decide) hle)
      _ = 2 ^ 128 := by norm_num
  rw [readNumber_plain hs, ← hsome]
  cases hn : readDigits false 0 (dropMarker s) with
  | none => rfl
  | some n =>
      have hlt := hsmall n hn
      rw [Option.map_some, Option.bind_some, if_pos ⟨by positivity, by exact_mod_cast hlt⟩]
      rfl

section Locators

variable (L : LocatorRules)

/-- The ASCII character that `int` takes a character for: decimal digits and white
space are translated before anything is read. -/
def asciiOf (c : Char) : Char :=
  if c.toNat < 128 then c
  else if isSpace c then ' '
  else ((L.decimalDigit c).map Nat.digitChar).getD '?'

/-- `int(text, 16)` -/
def intBase16 (text : List Char) : Option ℤ :=
  readNumber (text.map (asciiOf L))

/-- Every character is a hexadecimal digit, after a marker. -/
def isHexSpelling (s : List Char) : Bool :=
  (dropMarker (s.map (asciiOf L))).all isHexDigit

theorem asciiOf_ascii
    {c : Char}
    (hc : c.toNat < 128) :
    asciiOf L c = c :=
  if_pos hc

theorem map_asciiOf
    {s : List Char}
    (hs : ∀ c ∈ s, c.toNat < 128) :
    s.map (asciiOf L) = s := by
  calc s.map (asciiOf L) = s.map id := List.map_congr_left fun c hc => asciiOf_ascii L (hs c hc)
    _ = s := List.map_id s

/-- `int(·, 16)` as `UUID` uses it. -/
def hexReader : IntBase16 where
  parse := intBase16 L
  parse_hex := by
    intro digits hne hdigits
    have hhex := List.all_eq_true.mp hdigits
    have hascii : ∀ c ∈ digits, c.toNat < 128 := by
      intro c hc
      have hrange := isHexDigit_ascii (hhex c hc)
      omega
    rw [intBase16, map_asciiOf L hascii, readNumber_plain fun c hc => plain_of_isHexDigit (hhex c hc),
      dropMarker_hex hdigits, readDigits_hex (.inr hne) hdigits]
    rfl

/-! ## Classification -/

inductive Locator
  | id (u : ℕ)
  | friendly (text : String)
  deriving DecidableEq

/-- `UUID` comes first; the errors are the details of the 422. -/
def classifyLocator (d : ClassDefinition) (locator : String) : Except String Locator :=
  match pythonUuid (hexReader L) locator.toList with
  | some u => .ok (.id u)
  | none =>
      match d.friendlyIdAttr.bind AttributeDefinition.idPrefix with
      | none => .error ("locator " ++ L.repr locator ++
          " is not a valid UUID and class " ++ L.repr d.nameSnake ++ " has no friendly-id")
      | some p =>
          let body := locator.toList.drop p.length
          if p.toList <+: locator.toList ∧ p.length < locator.length ∧
              body.all L.isDigit = true then .ok (.friendly locator)
          else .error ("locator " ++ L.repr locator ++
            " is neither a valid id nor a valid " ++ p ++ "… friendly id for " ++ d.nameSnake)

theorem alnum_not_special
    {c : Char}
    (hc : L.isAlnum c = true) :
    c ∉ ['-', '+', '_', '{', '}', ':'] := by
  intro hmem
  have hascii : c.toNat < 128 ∧ c.isAlphanum = false := by
    simp only [List.mem_cons, List.not_mem_nil, or_false] at hmem
    rcases hmem with h | h | h | h | h | h <;>
    · rw [h]
      decide
  rw [L.alnum_ascii c hascii.1, hascii.2] at hc
  cases hc

theorem plain_asciiOf
    {c : Char}
    (hc : L.isAlnum c = true) :
    Plain (asciiOf L c) := by
  have hspace : isSpace c = false := by
    rw [Bool.eq_false_iff]
    intro hspace
    rw [L.alnum_space c hspace] at hc
    cases hc
  unfold asciiOf
  by_cases hascii : c.toNat < 128
  · have hspecial := alnum_not_special L hc
    simp only [List.mem_cons, List.not_mem_nil, or_false, not_or] at hspecial
    rw [if_pos hascii]
    refine ⟨?_, hspecial.1, hspecial.2.1, hspecial.2.2.1⟩
    simp only [isSpace, Bool.or_eq_false_iff, Bool.and_eq_false_iff, decide_eq_false_iff_not]
      at hspace
    simp only [isBlank, Bool.or_eq_false_iff, Bool.and_eq_false_iff, decide_eq_false_iff_not]
    omega
  · rw [if_neg hascii, hspace, if_neg Bool.false_ne_true]
    cases hdigit : L.decimalDigit c with
    | none =>
        change Plain '?'
        unfold Plain
        decide
    | some d =>
        have hten := L.decimalDigit_lt c d hdigit
        change Plain (Nat.digitChar d)
        unfold Plain
        interval_cases d <;> decide

theorem removeAll_of_char_notMem
    {pattern s : List Char} {c : Char}
    (hpattern : c ∈ pattern) (hs : c ∉ s) :
    removeAll pattern 0 s = s := by
  induction s with
  | nil => rfl
  | cons d s ih =>
      have hne : ¬ pattern <+: d :: s := fun h => hs (h.mem hpattern)
      rw [removeAll, if_neg hne, ih fun hmem => hs (.tail _ hmem)]

/-- What `UUID` takes of the alphanumeric texts. -/
theorem pythonUuid_alnum
    {s : List Char}
    (hs : ∀ c ∈ s, L.isAlnum c = true) :
    (pythonUuid (hexReader L) s).isSome = true ↔
      s.length = 32 ∧ isHexSpelling L s = true := by
  have hspecial := fun c hc => alnum_not_special L (hs c hc)
  have hnot : ∀ c ∈ ['-', '+', '_', '{', '}', ':'], ∀ d ∈ s, d ≠ c := by
    intro c hc d hd heq
    rw [heq] at hd
    exact hspecial c hd hc
  have hcolon : ':' ∉ s := fun hmem => hnot ':' (by simp) ':' hmem rfl
  have hurn : removeAll "urn:".toList 0 s = s :=
    removeAll_of_char_notMem (by decide : ':' ∈ "urn:".toList) hcolon
  have huuid : removeAll "uuid:".toList 0 s = s :=
    removeAll_of_char_notMem (by decide : ':' ∈ "uuid:".toList) hcolon
  have hbraces : stripBraces s = s := by
    apply stripBraces_of_forall
    intro c hc
    simp [isBrace, hnot '{' (by simp) c hc, hnot '}' (by simp) c hc]
  have hhyphens : s.filter (· ≠ '-') = s := by
    rw [List.filter_eq_self]
    intro c hc
    exact decide_eq_true (hnot '-' (by simp) c hc)
  have hplain : ∀ c ∈ s.map (asciiOf L), Plain c := by
    intro c hc
    rcases List.mem_map.mp hc with ⟨d, hd, rfl⟩
    exact plain_asciiOf L (hs d hd)
  unfold pythonUuid
  simp only [hurn, huuid, hbraces, hhyphens]
  by_cases hlength : s.length = 32
  · have hmapped : (s.map (asciiOf L)).length = 32 := by rw [List.length_map, hlength]
    have hread := readNumber_isSome hplain hmapped
    rw [if_neg (not_not_intro hlength)]
    change ((readNumber (s.map (asciiOf L))).bind _).isSome = true ↔ _
    rw [hread, isHexSpelling]
    simp [hlength]
  · rw [if_pos hlength]
    simp [hlength]

/-! ## Friendly ids as locators -/

theorem formatFriendlyId_toList (p : String) (n : ℕ) (w : ℤ) :
    (formatFriendlyId p n w).toList = p.toList ++ padded w.toNat n := by
  have hdigits : (toString n).toList = Nat.toDigits 10 n := Nat.toList_repr
  have hlength : (toString n).length = (Nat.toDigits 10 n).length := by
    rw [← hdigits, String.length_toList]
  unfold formatFriendlyId
  dsimp only
  rw [String.toList_append, String.toList_append, String.toList_ofList, hdigits, hlength,
    List.append_assoc]
  rfl

theorem formatFriendlyId_injective (p : String) (w : ℤ) :
    Function.Injective fun n => formatFriendlyId p n w := by
  intro n m h
  have htexts := congrArg String.toList h
  dsimp only at htexts
  rw [formatFriendlyId_toList, formatFriendlyId_toList] at htexts
  exact padded_injective _ (List.append_cancel_left htexts)

theorem dropMarker_append
    {p body : List Char}
    (hp : p ≠ []) (hbody : ∀ c ∈ body, c.isDigit = true) :
    dropMarker (p ++ body) = dropMarker p ++ body := by
  match p, hp with
  | [c], _ =>
      have hmarker : ∀ d ∈ body.head?, d ≠ 'x' ∧ d ≠ 'X' := by
        intro d hd
        have hdigit := hbody d (List.mem_of_mem_head? hd)
        constructor
        · intro heq
          rw [heq] at hdigit
          cases hdigit
        · intro heq
          rw [heq] at hdigit
          cases hdigit
      cases body with
      | nil => simp
      | cons d body =>
          have hd := hmarker d rfl
          simp [dropMarker, hd.1, hd.2]
  | c :: c' :: p, _ =>
      simp only [List.cons_append]
      unfold dropMarker
      split
      · simp_all
      · simp_all
      · rename_i hx hX
        split
        · rename_i heq
          cases heq
          exact absurd rfl (hx _)
        · rename_i heq
          cases heq
          exact absurd rfl (hX _)
        · rfl

theorem isHexSpelling_append
    {p body : List Char}
    (hp : p ≠ []) (hbody : ∀ c ∈ body, c.isDigit = true) :
    isHexSpelling L (p ++ body) = isHexSpelling L p := by
  have hrange : ∀ c ∈ body, '0' ≤ c ∧ c ≤ '9' := by
    intro c hc
    have hdigit := hbody c hc
    simp only [Char.isDigit, Bool.and_eq_true, decide_eq_true_eq] at hdigit
    exact hdigit
  have hascii : ∀ c ∈ body, c.toNat < 128 := by
    intro c hc
    have hle : c.toNat ≤ 57 := (hrange c hc).2
    omega
  have hall : body.all isHexDigit = true := by
    rw [List.all_eq_true]
    intro c hc
    simp [isHexDigit, (hrange c hc).1, (hrange c hc).2]
  have hmapped : p.map (asciiOf L) ≠ [] := by simpa using hp
  rw [isHexSpelling, List.map_append, map_asciiOf L hascii, dropMarker_append hmapped hbody,
    List.all_append, hall, Bool.and_true]
  rfl

/-- It has 32 characters, all of which `int(·, 16)` takes. -/
def ReadsAsUuid (p : String) (n : ℕ) (w : ℤ) : Prop :=
  p.length + max w.toNat (Nat.toDigits 10 n).length = 32 ∧ isHexSpelling L p.toList = true

theorem classify_formatFriendlyId
    {d : ClassDefinition} {a : AttributeDefinition} {p : String}
    (ha : d.friendlyIdAttr = some a) (hp : a.idPrefix = some p)
    (halnum : L.isAlnumText p = true) (n : ℕ) (w : ℤ) :
    classifyLocator L d (formatFriendlyId p n w) = .ok (.friendly (formatFriendlyId p n w)) ↔
      ¬ReadsAsUuid L p n w := by
  simp only [CharRules.isAlnumText, Bool.and_eq_true, decide_eq_true_eq, List.all_eq_true]
    at halnum
  have hne : p.toList ≠ [] := by
    intro hnil
    exact halnum.1 (String.toList_inj.mp hnil)
  have hdigits : ∀ c ∈ padded w.toNat n, c.isDigit = true :=
    fun c hc => isDigit_of_mem_padded hc
  have htext := formatFriendlyId_toList p n w
  have hall : ∀ c ∈ (formatFriendlyId p n w).toList, L.isAlnum c = true := by
    rw [htext, List.forall_mem_append]
    refine ⟨halnum.2, ?_⟩
    intro c hc
    have hdigit := hdigits c hc
    have hascii : c.toNat < 128 := by
      simp only [Char.isDigit, Bool.and_eq_true, decide_eq_true_eq] at hdigit
      have hle : c.toNat ≤ 57 := hdigit.2
      omega
    rw [L.alnum_ascii c hascii, Char.isAlphanum, hdigit, Bool.or_true]
  have huuid := pythonUuid_alnum L hall
  have hlength : (formatFriendlyId p n w).toList.length =
      p.length + max w.toNat (Nat.toDigits 10 n).length := by
    rw [htext, List.length_append, length_padded, String.length_toList]
  rw [hlength, htext, isHexSpelling_append L hne hdigits, ← htext] at huuid
  unfold classifyLocator
  cases hread : pythonUuid (hexReader L) (formatFriendlyId p n w).toList with
  | some u =>
      rw [hread] at huuid
      have hreads : ReadsAsUuid L p n w := huuid.mp rfl
      simp [hreads]
  | none =>
      rw [hread] at huuid
      have hreads : ¬ReadsAsUuid L p n w := fun h => by simpa using huuid.mpr h
      have hstart : p.toList <+: (formatFriendlyId p n w).toList := by
        rw [htext]
        exact List.prefix_append _ _
      have hlonger : p.length < (formatFriendlyId p n w).length := by
        have hpos : 0 < (padded w.toNat n).length :=
          List.length_pos_iff.mpr (padded_ne_nil _ _)
        rw [← String.length_toList, ← String.length_toList, htext, List.length_append]
        omega
      have hbody : ((formatFriendlyId p n w).toList.drop p.length).all L.isDigit = true := by
        rw [htext, ← String.length_toList, List.drop_left, List.all_eq_true]
        exact fun c hc => L.isDigit_ascii c (hdigits c hc)
      have hattr : d.friendlyIdAttr.bind AttributeDefinition.idPrefix = some p := by
        rw [ha, Option.bind_some, hp]
      rw [hattr]
      dsimp only
      rw [if_pos ⟨hstart, hlonger, hbody⟩]
      simp [hreads]

end Locators

end Untangled.Mapping
