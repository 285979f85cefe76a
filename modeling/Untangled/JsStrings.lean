import Mathlib.Data.List.Basic
import Mathlib.Data.String.Basic
import Mathlib.Tactic

/-!
# JavaScript strings

A JavaScript string is a sequence of UTF-16 code units: its length counts them,
`slice` cuts between them and `sort` compares them.  Integers are written in
decimal, and `encodeURIComponent` leaves a text of unreserved characters.
-/

namespace Untangled

def utf16Units (s : String) : List ℕ :=
  s.toList.flatMap fun c =>
    if c.toNat < 0x10000 then [c.toNat]
    else [0xD800 + (c.toNat - 0x10000) / 0x400, 0xDC00 + (c.toNat - 0x10000) % 0x400]

/-- `[...strings].sort()` -/
def sortStrings (strings : List String) : List String :=
  strings.mergeSort fun a b => decide (utf16Units a ≤ utf16Units b)

@[simp] theorem mem_sortStrings
    {strings : List String} {s : String} :
    s ∈ sortStrings strings ↔ s ∈ strings :=
  List.mem_mergeSort

/-! ## Integers as texts -/

/-- `String(n)` -/
def numberText (n : ℤ) : String := toString n

def parseDigits (digits : List Char) : Option ℕ :=
  if digits.isEmpty then none
  else if digits.all Char.isDigit then some (Nat.ofDigitChars 10 digits 0)
  else none

/-- `Number(text)` where the text is that of an integer. -/
def parseNumber (text : String) : Option ℤ :=
  match text.toList with
  | [] => none
  | c :: digits =>
      if c = '-' then (parseDigits digits).map fun (n : ℕ) => -(n : ℤ)
      else (parseDigits (c :: digits)).map fun (n : ℕ) => (n : ℤ)

theorem parseDigits_toDigits (n : ℕ) : parseDigits (Nat.toDigits 10 n) = some n := by
  unfold parseDigits
  have hnonempty : (Nat.toDigits 10 n).isEmpty = false := by
    simp [List.isEmpty_eq_false_iff]
  have hdigits : (Nat.toDigits 10 n).all Char.isDigit = true := by
    rw [List.all_eq_true]
    intro c hc
    exact Nat.isDigit_of_mem_toDigits (by decide) (by decide) hc
  rw [hnonempty, hdigits, if_neg Bool.false_ne_true, if_pos rfl, Nat.ofDigitChars_ten_toDigits]

theorem numberText_toList_nonneg
    {n : ℤ}
    (h : 0 ≤ n) :
    (numberText n).toList = Nat.toDigits 10 n.toNat := by
  unfold numberText
  rw [Int.toString_eq_repr, Int.repr_eq_if, if_pos h, Nat.toList_repr]

theorem numberText_toList_neg
    {n : ℤ}
    (h : n < 0) :
    (numberText n).toList = '-' :: Nat.toDigits 10 (-n).toNat := by
  unfold numberText
  rw [Int.toString_eq_repr, Int.repr_eq_if, if_neg (not_le.mpr h), String.toList_append,
    Nat.toList_repr]
  rfl

theorem parseNumber_numberText (n : ℤ) : parseNumber (numberText n) = some n := by
  unfold parseNumber
  rcases lt_or_ge n 0 with hneg | hnonneg
  · rw [numberText_toList_neg hneg]
    simp only
    rw [if_pos trivial, parseDigits_toDigits, Option.map_some, Int.toNat_of_nonneg (by omega),
      neg_neg]
  · rw [numberText_toList_nonneg hnonneg]
    cases hdigits : Nat.toDigits 10 n.toNat with
    | nil => exact absurd hdigits (List.ne_nil_of_length_pos Nat.length_toDigits_pos)
    | cons c digits =>
        have hc : c.isDigit = true := by
          apply @Nat.isDigit_of_mem_toDigits 10 n.toNat c (by decide) (by decide)
          rw [hdigits]
          exact List.mem_cons_self
        have hminus : c ≠ '-' := by
          rintro rfl
          exact absurd hc (by decide)
        simp only
        rw [if_neg hminus, ← hdigits, parseDigits_toDigits, Option.map_some,
          Int.toNat_of_nonneg hnonneg]

theorem numberText_inj
    {n m : ℤ}
    (h : numberText n = numberText m) :
    n = m := by
  have hparsed := parseNumber_numberText n
  rw [h, parseNumber_numberText] at hparsed
  exact (Option.some.inj hparsed).symm

theorem numberText_ne_empty (n : ℤ) : numberText n ≠ "" := by
  intro hempty
  have hparse := parseNumber_numberText n
  rw [hempty] at hparse
  exact absurd hparse (by simp [parseNumber])

/-! ## Texts in the paths of keys -/

/-- The characters that `encodeURIComponent` leaves as they are. -/
def uriUnreserved (c : Char) : Bool :=
  c.isAlphanum || "-_.!~*'()".toList.contains c

def hexDigit (n : ℕ) : Char := "0123456789ABCDEF".toList.getD n '0'

def hexValue (c : Char) : Option ℕ :=
  if c.isDigit then some (c.toNat - '0'.toNat)
  else if 'A' ≤ c ∧ c ≤ 'F' then some (c.toNat - 'A'.toNat + 10)
  else if 'a' ≤ c ∧ c ≤ 'f' then some (c.toNat - 'a'.toNat + 10)
  else none

def percentByte (b : UInt8) : List Char :=
  ['%', hexDigit (b.toNat / 16), hexDigit (b.toNat % 16)]

def encodeUriChar (c : Char) : List Char :=
  if uriUnreserved c then [c] else (String.utf8EncodeChar c).flatMap percentByte

def encodeUriComponent (s : String) : String :=
  String.ofList (s.toList.flatMap encodeUriChar)

/-- The bytes that a text with escapes stands for. -/
def percentDecode : List Char → Option (List UInt8)
  | [] => some []
  | '%' :: high :: low :: rest =>
      match hexValue high, hexValue low with
      | some h, some l => (percentDecode rest).map fun bytes => UInt8.ofNat (16 * h + l) :: bytes
      | _, _ => none
  | c :: rest =>
      if c = '%' then none
      else (percentDecode rest).map fun bytes => String.utf8EncodeChar c ++ bytes

/-- `decodeURIComponent`, which throws where there is no result. -/
def decodeUriComponent (s : String) : Option String :=
  (percentDecode s.toList).bind fun bytes => String.fromUTF8? bytes.toByteArray

theorem hexValue_hexDigit
    {n : ℕ}
    (h : n < 16) :
    hexValue (hexDigit n) = some n := by
  interval_cases n <;> decide

theorem percentDecode_byte (b : UInt8) (rest : List Char) :
    percentDecode (percentByte b ++ rest) = (percentDecode rest).map fun bytes => b :: bytes := by
  have hbyte := b.toNat_lt
  have hhigh : hexValue (hexDigit (b.toNat / 16)) = some (b.toNat / 16) :=
    hexValue_hexDigit (by omega)
  have hlow : hexValue (hexDigit (b.toNat % 16)) = some (b.toNat % 16) :=
    hexValue_hexDigit (by omega)
  have hvalue : UInt8.ofNat (16 * (b.toNat / 16) + b.toNat % 16) = b := by
    rw [Nat.div_add_mod, UInt8.ofNat_toNat]
  simp only [percentByte, List.cons_append, List.nil_append, percentDecode, hhigh, hlow, hvalue]

theorem percentDecode_bytes (bytes : List UInt8) (rest : List Char) :
    percentDecode (bytes.flatMap percentByte ++ rest) =
      (percentDecode rest).map fun after => bytes ++ after := by
  induction bytes with
  | nil => simp
  | cons b bytes ih =>
      rw [List.flatMap_cons, List.append_assoc, percentDecode_byte, ih, Option.map_map]
      rfl

theorem ne_percent_of_unreserved
    {c : Char}
    (h : uriUnreserved c = true) :
    c ≠ '%' := by
  rintro rfl
  exact absurd h (by decide)

theorem percentDecode_char (c : Char) (rest : List Char) :
    percentDecode (encodeUriChar c ++ rest) =
      (percentDecode rest).map fun after => String.utf8EncodeChar c ++ after := by
  unfold encodeUriChar
  split
  · rename_i hunreserved
    have hc := ne_percent_of_unreserved hunreserved
    rw [List.singleton_append, percentDecode.eq_3 c rest fun _ _ _ hpercent _ => hc hpercent,
      if_neg hc]
  · exact percentDecode_bytes _ rest

theorem percentDecode_chars (chars : List Char) :
    percentDecode (chars.flatMap encodeUriChar) =
      some (chars.flatMap String.utf8EncodeChar) := by
  induction chars with
  | nil => rfl
  | cons c chars ih =>
      rw [List.flatMap_cons, percentDecode_char, ih, Option.map_some, List.flatMap_cons]

theorem fromUTF8_toByteArray (s : String) : String.fromUTF8? s.toByteArray = some s := by
  unfold String.fromUTF8?
  rw [dif_pos s.isValidUTF8]
  rfl

/-- Every text comes back from its encoding. -/
theorem decodeUriComponent_encode (s : String) :
    decodeUriComponent (encodeUriComponent s) = some s := by
  unfold decodeUriComponent encodeUriComponent
  rw [String.toList_ofList, percentDecode_chars, Option.bind_some]
  have hbytes : (s.toList.flatMap String.utf8EncodeChar).toByteArray = s.toByteArray := by
    rw [← String.utf8Encode_toList]
    rfl
  rw [hbytes, fromUTF8_toByteArray]

theorem encodeUriComponent_inj
    {s s' : String}
    (h : encodeUriComponent s = encodeUriComponent s') :
    s = s' := by
  have hdecoded := decodeUriComponent_encode s
  rw [h, decodeUriComponent_encode] at hdecoded
  exact (Option.some.inj hdecoded).symm

theorem colon_not_mem_percentByte (b : UInt8) : ':' ∉ percentByte b := by
  have hdigit : ∀ n < 16, hexDigit n ≠ ':' := by decide
  have hbyte := b.toNat_lt
  simp only [percentByte, List.mem_cons, List.not_mem_nil, or_false, not_or]
  exact ⟨by decide, (hdigit _ (by omega)).symm, (hdigit _ (by omega)).symm⟩

/-- A colon is always escaped. -/
theorem colon_not_mem_encode (s : String) : ':' ∉ (encodeUriComponent s).toList := by
  unfold encodeUriComponent
  rw [String.toList_ofList, List.mem_flatMap]
  rintro ⟨c, _, hmem⟩
  unfold encodeUriChar at hmem
  split at hmem
  · rename_i hunreserved
    rw [List.mem_singleton] at hmem
    subst hmem
    exact absurd hunreserved (by decide)
  · rw [List.mem_flatMap] at hmem
    rcases hmem with ⟨b, _, hb⟩
    exact colon_not_mem_percentByte b hb

end Untangled
