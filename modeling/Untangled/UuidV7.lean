import Mathlib.Data.Char
import Mathlib.Data.List.Lex
import Untangled.BigEndian
import Untangled.UuidTexts

/-!
# Time-ordered UUIDs

`new_uuid7` of the auth service writes bytes, the fallback of the backend shifts and masks
one integer.  Both lay out the same 128 bits, and their texts are in the order of the
timestamps.
-/

namespace Untangled.Uuid7

open BigEndian

/-- The bytes of `randomBytes(10)` and `os.urandom(10)`. -/
abbrev RandomBytes := Fin 10 → UInt8

def byteValues (bytes : List UInt8) : List ℕ :=
  bytes.map UInt8.toNat

/-! ## The auth service -/

/-- `buffer.writeUIntBE(value, 0, width)` -/
def writeUIntBE (value width : ℕ) : List UInt8 :=
  (digits 256 width value).map UInt8.ofNat

/-- The sixteen bytes of `new_uuid7`. -/
def newUuid7Bytes (nowMs : ℕ) (rand : RandomBytes) : List UInt8 :=
  let unixMs := nowMs % 0x1000000000000
  let randA := (((rand 0).toNat <<< 8) ||| (rand 1).toNat) &&& 0x0fff
  writeUIntBE unixMs 6 ++
    [UInt8.ofNat (0x70 ||| ((randA >>> 8) &&& 0x0f)), UInt8.ofNat (randA &&& 0xff),
      UInt8.ofNat (0x80 ||| ((rand 2).toNat &&& 0x3f))] ++
    (List.ofFn rand).drop 3

/-- `bytes.toString("hex")` -/
def hexOfBytes (bytes : List UInt8) : List Char :=
  (bytes.flatMap fun byte => digits 16 2 byte.toNat).map Nat.digitChar

/-- The five groups of a UUID. -/
def hyphenate (hex : List Char) : List Char :=
  hex.take 8 ++ '-' :: ((hex.drop 8).take 4 ++ '-' :: ((hex.drop 12).take 4 ++ '-' ::
    ((hex.drop 16).take 4 ++ '-' :: hex.drop 20)))

def newUuid7 (nowMs : ℕ) (rand : RandomBytes) : List Char :=
  hyphenate (hexOfBytes (newUuid7Bytes nowMs rand))

/-! ## The backend -/

/-- `int.from_bytes(bytes, "big")` -/
def intFromBytes (bytes : List UInt8) : ℕ :=
  number 256 (byteValues bytes)

def randA (rand : RandomBytes) : ℕ :=
  intFromBytes ((List.ofFn rand).take 2) &&& 0x0FFF

def randB (rand : RandomBytes) : ℕ :=
  intFromBytes ((List.ofFn rand).drop 2) &&& 0x3FFFFFFFFFFFFFFF

/-- `_uuid7_fallback` at a time in milliseconds. -/
def uuid7Fallback (nowMs : ℕ) (rand : RandomBytes) : ℕ :=
  let unixMs := nowMs &&& 0xFFFFFFFFFFFF
  (unixMs <<< 80) ||| (0x7 <<< 76) ||| (randA rand <<< 64) ||| (0b10 <<< 62) ||| randB rand

/-- `str(UUID(int=value))` -/
def pythonUuidText (value : ℕ) : List Char :=
  hyphenate ((digits 16 32 value).map Nat.digitChar)

/-! ## Bits as sums -/

theorem shiftLeft_or
    {b i : ℕ} (a : ℕ)
    (hb : b < 2 ^ i) :
    a <<< i ||| b = a * 2 ^ i + b := by
  rw [← Nat.shiftLeft_add_eq_or_of_lt hb, Nat.shiftLeft_eq]

theorem randA_eq (rand : RandomBytes) :
    randA rand = ((rand 0).toNat * 256 + (rand 1).toNat) % 2 ^ 12 := by
  have hmask : (0x0FFF : ℕ) = 2 ^ 12 - 1 := by norm_num
  have hnumber : intFromBytes ((List.ofFn rand).take 2) =
      (rand 0).toNat * 256 + (rand 1).toNat := by
    simp [intFromBytes, byteValues, number, List.ofFn_succ]
    ring
  rw [randA, hnumber, hmask, Nat.and_two_pow_sub_one_eq_mod]

theorem randB_eq (rand : RandomBytes) :
    randB rand = intFromBytes ((List.ofFn rand).drop 2) % 2 ^ 62 := by
  have hmask : (0x3FFFFFFFFFFFFFFF : ℕ) = 2 ^ 62 - 1 := by norm_num
  rw [randB, hmask, Nat.and_two_pow_sub_one_eq_mod]

theorem randA_lt (rand : RandomBytes) : randA rand < 2 ^ 12 := by
  rw [randA_eq]
  exact Nat.mod_lt _ (by norm_num)

theorem randB_lt (rand : RandomBytes) : randB rand < 2 ^ 62 := by
  rw [randB_eq]
  exact Nat.mod_lt _ (by norm_num)

/-- The layout: timestamp, version, 12 bits, variant, 62 bits. -/
theorem uuid7Fallback_eq (nowMs : ℕ) (rand : RandomBytes) :
    uuid7Fallback nowMs rand =
      (nowMs % 2 ^ 48) * 2 ^ 80 + 7 * 2 ^ 76 + randA rand * 2 ^ 64 + 2 * 2 ^ 62 +
        randB rand := by
  have hmask : (0xFFFFFFFFFFFF : ℕ) = 2 ^ 48 - 1 := by norm_num
  have hA := randA_lt rand
  have hB := randB_lt rand
  unfold uuid7Fallback
  rw [hmask, Nat.and_two_pow_sub_one_eq_mod]
  generalize nowMs % 2 ^ 48 = t
  generalize randA rand = a at hA
  generalize randB rand = b at hB
  have hvariant : (0b10 <<< 62 : ℕ) ||| b = 2 * 2 ^ 62 + b := shiftLeft_or 2 hB
  have hrandom : a <<< 64 ||| (2 * 2 ^ 62 + b) = a * 2 ^ 64 + (2 * 2 ^ 62 + b) :=
    shiftLeft_or a (by omega)
  have hversion : (0x7 <<< 76 : ℕ) ||| (a * 2 ^ 64 + (2 * 2 ^ 62 + b)) =
      7 * 2 ^ 76 + (a * 2 ^ 64 + (2 * 2 ^ 62 + b)) := shiftLeft_or 7 (by omega)
  have htime : t <<< 80 ||| (7 * 2 ^ 76 + (a * 2 ^ 64 + (2 * 2 ^ 62 + b))) =
      t * 2 ^ 80 + (7 * 2 ^ 76 + (a * 2 ^ 64 + (2 * 2 ^ 62 + b))) := shiftLeft_or t (by omega)
  rw [Nat.or_assoc, Nat.or_assoc, Nat.or_assoc, hvariant, hrandom, hversion, htime]
  ring

theorem uuid7Fallback_lt (nowMs : ℕ) (rand : RandomBytes) :
    uuid7Fallback nowMs rand < 2 ^ 128 := by
  have ht : nowMs % 2 ^ 48 < 2 ^ 48 := Nat.mod_lt _ (by norm_num)
  have hA := randA_lt rand
  have hB := randB_lt rand
  rw [uuid7Fallback_eq]
  omega

/-! ## One layout -/

theorem intFromBytes_drop_two (rand : RandomBytes) :
    intFromBytes ((List.ofFn rand).drop 2) =
      (rand 2).toNat * 2 ^ 56 + intFromBytes ((List.ofFn rand).drop 3) := by
  have hdrop : (List.ofFn rand).drop 2 = rand 2 :: (List.ofFn rand).drop 3 := by
    simp [List.ofFn_succ]
  have hlength : ((List.ofFn rand).drop 3).length = 7 := by simp
  rw [hdrop, intFromBytes, byteValues, List.map_cons, ← List.singleton_append, number_append,
    List.length_map, hlength]
  simp [number, intFromBytes, byteValues]

theorem intFromBytes_lt (bytes : List UInt8) : intFromBytes bytes < 256 ^ bytes.length := by
  have hbytes : ∀ d ∈ byteValues bytes, d < 256 := by
    intro d hd
    rcases List.mem_map.mp hd with ⟨byte, _, hbyte⟩
    rw [← hbyte]
    exact byte.toNat_lt
  have hspell := number_digits 256 bytes.length (intFromBytes bytes)
  have hback := digits_number hbytes
  rw [byteValues, List.length_map, ← byteValues] at hback
  have hsame : intFromBytes bytes = intFromBytes bytes % 256 ^ bytes.length := by
    conv_lhs => rw [intFromBytes, ← hback]
    exact hspell
  rw [hsame]
  exact Nat.mod_lt _ (by positivity)

theorem byteValues_writeUIntBE (value width : ℕ) :
    byteValues (writeUIntBE value width) = digits 256 width value := by
  unfold byteValues writeUIntBE
  rw [List.map_map, List.map_congr_left, List.map_id]
  intro d hd
  exact UInt8.toNat_ofNat_of_lt' (digits_lt (by norm_num) hd)

/-- The bytes of the one generator spell the number of the other. -/
theorem number_newUuid7Bytes (nowMs : ℕ) (rand : RandomBytes) :
    number 256 (byteValues (newUuid7Bytes nowMs rand)) = uuid7Fallback nowMs rand := by
  have hmaskA : (0x0fff : ℕ) = 2 ^ 12 - 1 := by norm_num
  have hmask4 : (0x0f : ℕ) = 2 ^ 4 - 1 := by norm_num
  have hmask6 : (0x3f : ℕ) = 2 ^ 6 - 1 := by norm_num
  have hmask8 : (0xff : ℕ) = 2 ^ 8 - 1 := by norm_num
  have hbase : (2 : ℕ) ^ 8 = 256 := by norm_num
  have hrandA : (((rand 0).toNat <<< 8) ||| (rand 1).toNat) &&& 0x0fff = randA rand := by
    rw [shiftLeft_or _ (rand 1).toNat_lt, hmaskA, Nat.and_two_pow_sub_one_eq_mod, randA_eq,
      hbase]
  have hA := randA_lt rand
  have hversion : (0x70 : ℕ) ||| ((randA rand >>> 8) &&& 0x0f) = 112 + randA rand / 256 := by
    have hsmall : randA rand / 256 < 2 ^ 4 := by omega
    rw [hmask4, Nat.and_two_pow_sub_one_eq_mod, Nat.shiftRight_eq_div_pow,
      Nat.mod_eq_of_lt hsmall]
    exact shiftLeft_or 7 hsmall
  have hvariant : (0x80 : ℕ) ||| ((rand 2).toNat &&& 0x3f) = 128 + (rand 2).toNat % 64 := by
    have hsmall : (rand 2).toNat % 64 < 2 ^ 6 := Nat.mod_lt _ (by norm_num)
    rw [hmask6, Nat.and_two_pow_sub_one_eq_mod]
    exact shiftLeft_or 2 hsmall
  have hlow : randA rand &&& 0xff = randA rand % 256 := by
    rw [hmask8, Nat.and_two_pow_sub_one_eq_mod]
  have hrest := intFromBytes_lt ((List.ofFn rand).drop 3)
  have hlength : ((List.ofFn rand).drop 3).length = 7 := by simp
  have hbytes : byteValues (newUuid7Bytes nowMs rand) =
      digits 256 6 (nowMs % 2 ^ 48) ++ ([112 + randA rand / 256, randA rand % 256,
        128 + (rand 2).toNat % 64] ++ byteValues ((List.ofFn rand).drop 3)) := by
    have hsixth : 112 + randA rand / 256 < 256 := by omega
    have heighth : 128 + (rand 2).toNat % 64 < 256 := by omega
    unfold newUuid7Bytes
    dsimp only
    rw [hrandA, hversion, hvariant, hlow, List.append_assoc, byteValues, List.map_append,
      ← byteValues, byteValues_writeUIntBE, List.map_append]
    simp [byteValues, Nat.mod_eq_of_lt hsixth, Nat.mod_eq_of_lt heighth]
  rw [hbytes, number_append, number_append, number_digits, uuid7Fallback_eq, randB_eq,
    intFromBytes_drop_two, ← intFromBytes]
  rw [hlength] at hrest
  generalize intFromBytes ((List.ofFn rand).drop 3) = r at hrest
  generalize randA rand = a at hA
  have hsecond := (rand 2).toNat_lt
  generalize (rand 2).toNat = c at hsecond
  simp only [number, List.foldl_cons, List.foldl_nil, List.length_append, List.length_cons,
    List.length_nil, byteValues, List.length_map, hlength]
  omega

theorem byteValues_eq_digits (nowMs : ℕ) (rand : RandomBytes) :
    byteValues (newUuid7Bytes nowMs rand) = digits 256 16 (uuid7Fallback nowMs rand) := by
  have hlength : (byteValues (newUuid7Bytes nowMs rand)).length = 16 := by
    simp [byteValues, newUuid7Bytes, writeUIntBE, length_digits]
  have hbytes : ∀ d ∈ byteValues (newUuid7Bytes nowMs rand), d < 256 := by
    intro d hd
    rcases List.mem_map.mp hd with ⟨byte, _, hbyte⟩
    rw [← hbyte]
    exact byte.toNat_lt
  have hdigits := digits_number hbytes
  rw [hlength, number_newUuid7Bytes] at hdigits
  exact hdigits.symm

theorem newUuid7_eq (nowMs : ℕ) (rand : RandomBytes) :
    newUuid7 nowMs rand = pythonUuidText (uuid7Fallback nowMs rand) := by
  have hhex : (newUuid7Bytes nowMs rand).flatMap (fun byte => digits 16 2 byte.toNat) =
      (byteValues (newUuid7Bytes nowMs rand)).flatMap (digits 16 2) := by
    rw [byteValues, List.flatMap_map]
  have hbase : (256 : ℕ) = 16 ^ 2 := by norm_num
  rw [newUuid7, hexOfBytes, hhex, byteValues_eq_digits, hbase, flatMap_digits]
  rfl

/-! ## Texts -/

theorem digitChar_hex : ∀ d, d < 16 →
    isHexDigit (Nat.digitChar d) = true ∧ hexDigitValue (Nat.digitChar d) = d ∧
      Nat.digitChar d ≠ '-' := by
  decide

theorem digitChar_lt : ∀ c, c < 16 → ∀ d, d < 16 → c < d →
    Nat.digitChar c < Nat.digitChar d := by
  decide

theorem mem_hex
    {k n : ℕ} {c : Char}
    (hc : c ∈ (digits 16 k n).map Nat.digitChar) :
    isHexDigit c = true ∧ c ≠ '-' := by
  rcases List.mem_map.mp hc with ⟨d, hd, rfl⟩
  have hspec := digitChar_hex d (digits_lt (by norm_num) hd)
  exact ⟨hspec.1, hspec.2.2⟩

/-- The groups as parts of the whole. -/
theorem groups_append (hex : List Char) :
    hex.take 8 ++ ((hex.drop 8).take 4 ++ ((hex.drop 12).take 4 ++
      ((hex.drop 16).take 4 ++ hex.drop 20))) = hex := by
  have hlast : (hex.drop 16).take 4 ++ hex.drop 20 = hex.drop 16 := by
    rw [show 20 = 16 + 4 from rfl, ← List.drop_drop, List.take_append_drop]
  have hthird : (hex.drop 12).take 4 ++ hex.drop 16 = hex.drop 12 := by
    rw [show 16 = 12 + 4 from rfl, ← List.drop_drop, List.take_append_drop]
  have hsecond : (hex.drop 8).take 4 ++ hex.drop 12 = hex.drop 8 := by
    rw [show 12 = 8 + 4 from rfl, ← List.drop_drop, List.take_append_drop]
  rw [hlast, hthird, hsecond, List.take_append_drop]

theorem filter_hyphenate
    {hex : List Char}
    (hhex : ∀ c ∈ hex, c ≠ '-') :
    (hyphenate hex).filter (· ≠ '-') = hex := by
  have hkeep : hex.filter (· ≠ '-') = hex := by
    rw [List.filter_eq_self]
    intro c hc
    exact decide_eq_true (hhex c hc)
  have hgroups := congrArg (List.filter (· ≠ '-')) (groups_append hex)
  rw [hkeep] at hgroups
  conv_rhs => rw [← hgroups]
  simp [hyphenate]

theorem uuidOfText_hyphenate (k value : ℕ) :
    uuidOfText (hyphenate ((digits 16 k value).map Nat.digitChar)) = value % 16 ^ k := by
  have hnumber : ∀ l : List ℕ, (∀ d ∈ l, d < 16) →
      hexNumber (l.map Nat.digitChar) = number 16 l := by
    intro l hl
    unfold hexNumber number
    rw [List.foldl_map]
    apply List.foldl_ext
    intro n d hd
    rw [(digitChar_hex d (hl d hd)).2.1]
  rw [uuidOfText, filter_hyphenate fun c hc => (mem_hex hc).2,
    hnumber _ fun d hd => digits_lt (by norm_num) hd, number_digits]

theorem uuidOfText_pythonUuidText
    {value : ℕ}
    (hvalue : value < 2 ^ 128) :
    uuidOfText (pythonUuidText value) = value := by
  have hbase : (16 : ℕ) ^ 32 = 2 ^ 128 := by norm_num
  rw [pythonUuidText, uuidOfText_hyphenate, hbase, Nat.mod_eq_of_lt hvalue]

theorem hexRuns_cons
    {k k' : ℕ} {runs : List ℕ} {group rest : List Char}
    (hlength : group.length = k) (hgroup : ∀ c ∈ group, isHexDigit c = true)
    (hrest : hexRuns (k' :: runs) rest = true) :
    hexRuns (k :: k' :: runs) (group ++ '-' :: rest) = true := by
  have htake : (group ++ '-' :: rest).take k = group := by
    rw [← hlength, List.take_left]
  have hdrop : (group ++ '-' :: rest).drop k = '-' :: rest := by
    rw [← hlength, List.drop_left]
  have hnext : (group ++ '-' :: rest).drop (k + 1) = rest := by
    rw [← List.drop_drop, hdrop]
    rfl
  rw [hexRuns, htake, hdrop, hnext, hrest, hlength, List.all_eq_true.mpr hgroup]
  · simp
  · simp

theorem uuidRe_pythonUuidText (value : ℕ) : uuidRe (pythonUuidText value) = true := by
  have hlength : ((digits 16 32 value).map Nat.digitChar).length = 32 := by
    rw [List.length_map, length_digits]
  have hhex : ∀ c ∈ (digits 16 32 value).map Nat.digitChar, isHexDigit c = true :=
    fun c hc => (mem_hex hc).1
  unfold uuidRe pythonUuidText hyphenate
  generalize (digits 16 32 value).map Nat.digitChar = hex at hlength hhex
  have hdrop : ∀ k, ∀ c ∈ hex.drop k, isHexDigit c = true :=
    fun k c hc => hhex c (List.mem_of_mem_drop hc)
  have hgroup : ∀ k, ∀ c ∈ (hex.drop k).take 4, isHexDigit c = true :=
    fun k c hc => hdrop k c (List.mem_of_mem_take hc)
  have hfirst : ∀ c ∈ hex.take 8, isHexDigit c = true :=
    fun c hc => hhex c (List.mem_of_mem_take hc)
  have hlast : hexRuns [12] (hex.drop 20) = true := by
    rw [hexRuns, List.length_drop, hlength, List.all_eq_true.mpr (hdrop 20)]
    rfl
  apply hexRuns_cons (by simp [hlength]) hfirst
  apply hexRuns_cons (by simp [hlength]) (hgroup 8)
  apply hexRuns_cons (by simp [hlength]) (hgroup 12)
  exact hexRuns_cons (by simp [hlength]) (hgroup 16) hlast

/-! ## Order -/

/-- A character between two parts keeps the order. -/
theorem interpose_lt
    {a a' x x' y y' : List Char} (c : Char)
    (hlength : a.length = a'.length) (hrest : x < x' → y < y') (h : a ++ x < a' ++ x') :
    a ++ c :: y < a' ++ c :: y' := by
  rcases lt_trichotomy a a' with hlt | heq | hgt
  · exact append_lt_append hlength hlt _ _
  · rw [heq] at h ⊢
    apply List.append_left_lt
    rw [List.cons_lt_cons_self]
    apply hrest
    by_contra hnot
    have hge : a' ++ x' ≤ a' ++ x := by
      rcases (not_lt.mp hnot).lt_or_eq with hlt | heq
      · exact (List.append_left_lt hlt).le
      · rw [heq]
    exact absurd h (not_lt.mpr hge)
  · exact absurd h (append_lt_append hlength.symm hgt _ _).not_gt

theorem hyphenate_lt
    {hex hex' : List Char}
    (hlength : hex.length = 32) (hlength' : hex'.length = 32) (h : hex < hex') :
    hyphenate hex < hyphenate hex' := by
  have htake : ∀ k, ((hex.drop k).take 4).length = ((hex'.drop k).take 4).length := by
    intro k
    simp [hlength, hlength']
  rw [← groups_append hex, ← groups_append hex'] at h
  refine interpose_lt '-' (by simp [hlength, hlength']) (fun h => ?_) h
  refine interpose_lt '-' (htake 8) (fun h => ?_) h
  refine interpose_lt '-' (htake 12) (fun h => ?_) h
  exact interpose_lt '-' (htake 16) (fun h => h) h

theorem pythonUuidText_lt
    {value value' : ℕ}
    (h : value < value') (hvalue : value' < 2 ^ 128) :
    pythonUuidText value < pythonUuidText value' := by
  have hsmall : value' < 16 ^ 32 := by
    have hbase : (16 : ℕ) ^ 32 = 2 ^ 128 := by norm_num
    rw [hbase]
    exact hvalue
  apply hyphenate_lt
  · rw [List.length_map, length_digits]
  · rw [List.length_map, length_digits]
  · apply map_lt_map _ _ (digits_lt_digits (by norm_num) h hsmall)
    · intro c hc d hd hlt
      exact digitChar_lt c (digits_lt (by norm_num) hc) d (digits_lt (by norm_num) hd) hlt
    · rw [length_digits, length_digits]

theorem uuid7Fallback_lt_of_lt
    {nowMs nowMs' : ℕ}
    (h : nowMs < nowMs') (hnow : nowMs' < 2 ^ 48) (rand rand' : RandomBytes) :
    uuid7Fallback nowMs rand < uuid7Fallback nowMs' rand' := by
  have hA := randA_lt rand
  have hB := randB_lt rand
  rw [uuid7Fallback_eq, uuid7Fallback_eq, Nat.mod_eq_of_lt (h.trans hnow),
    Nat.mod_eq_of_lt hnow]
  omega

/-- What stands in the fields of the layout. -/
theorem uuid7Fallback_fields (nowMs : ℕ) (rand : RandomBytes) :
    uuid7Fallback nowMs rand >>> 76 &&& 0xF = 7 ∧
    uuid7Fallback nowMs rand >>> 62 &&& 0b11 = 0b10 ∧
    uuid7Fallback nowMs rand >>> 80 = nowMs % 2 ^ 48 ∧
    uuid7Fallback nowMs rand >>> 64 &&& 0xFFF = randA rand ∧
    uuid7Fallback nowMs rand &&& 0x3FFFFFFFFFFFFFFF = randB rand := by
  have hA := randA_lt rand
  have hB := randB_lt rand
  have hmask4 : (0xF : ℕ) = 2 ^ 4 - 1 := by norm_num
  have hmask2 : (0b11 : ℕ) = 2 ^ 2 - 1 := by norm_num
  have hmask12 : (0xFFF : ℕ) = 2 ^ 12 - 1 := by norm_num
  have hmask62 : (0x3FFFFFFFFFFFFFFF : ℕ) = 2 ^ 62 - 1 := by norm_num
  rw [hmask4, hmask2, hmask12, hmask62, Nat.and_two_pow_sub_one_eq_mod,
    Nat.and_two_pow_sub_one_eq_mod, Nat.and_two_pow_sub_one_eq_mod,
    Nat.and_two_pow_sub_one_eq_mod, Nat.shiftRight_eq_div_pow, Nat.shiftRight_eq_div_pow,
    Nat.shiftRight_eq_div_pow, Nat.shiftRight_eq_div_pow, uuid7Fallback_eq]
  refine ⟨?_, ?_, ?_, ?_, ?_⟩ <;> omega

/-- Both generators use one layout, from which the timestamp and 74 bits of the drawn bytes
are read back, and which is in the order of the timestamps. -/
theorem uuid7_one_layout :
    (∀ nowMs rand,
      number 256 (byteValues (newUuid7Bytes nowMs rand)) = uuid7Fallback nowMs rand ∧
      newUuid7 nowMs rand = pythonUuidText (uuid7Fallback nowMs rand)) ∧
    (∀ nowMs rand,
      uuidRe (newUuid7 nowMs rand) = true ∧
      uuidOfText (newUuid7 nowMs rand) = uuid7Fallback nowMs rand ∧
      uuid7Fallback nowMs rand >>> 76 &&& 0xF = 7 ∧
      uuid7Fallback nowMs rand >>> 62 &&& 0b11 = 0b10 ∧
      uuid7Fallback nowMs rand >>> 80 = nowMs % 2 ^ 48 ∧
      uuid7Fallback nowMs rand >>> 64 &&& 0xFFF =
        intFromBytes ((List.ofFn rand).take 2) % 2 ^ 12 ∧
      uuid7Fallback nowMs rand &&& 0x3FFFFFFFFFFFFFFF =
        intFromBytes ((List.ofFn rand).drop 2) % 2 ^ 62) ∧
    (∀ nowMs nowMs', nowMs < nowMs' → nowMs' < 2 ^ 48 → ∀ rand rand',
      newUuid7 nowMs rand < newUuid7 nowMs' rand' ∧
      byteValues (newUuid7Bytes nowMs rand) < byteValues (newUuid7Bytes nowMs' rand')) := by
  refine ⟨fun nowMs rand => ⟨number_newUuid7Bytes nowMs rand, newUuid7_eq nowMs rand⟩, ?_, ?_⟩
  · intro nowMs rand
    have hfields := uuid7Fallback_fields nowMs rand
    have hmask12 : (0x0FFF : ℕ) = 2 ^ 12 - 1 := by norm_num
    have htake : intFromBytes ((List.ofFn rand).take 2) % 2 ^ 12 = randA rand := by
      rw [randA, hmask12, Nat.and_two_pow_sub_one_eq_mod]
    rw [newUuid7_eq, uuidOfText_pythonUuidText (uuid7Fallback_lt nowMs rand), htake, ← randB_eq]
    exact ⟨uuidRe_pythonUuidText _, rfl, hfields⟩
  · intro nowMs nowMs' h hnow rand rand'
    have hvalues := uuid7Fallback_lt_of_lt h hnow rand rand'
    have hbase : (256 : ℕ) ^ 16 = 2 ^ 128 := by norm_num
    have hlarge := uuid7Fallback_lt nowMs' rand'
    constructor
    · rw [newUuid7_eq, newUuid7_eq]
      exact pythonUuidText_lt hvalues hlarge
    · rw [byteValues_eq_digits, byteValues_eq_digits]
      exact digits_lt_digits (by norm_num) hvalues (hbase ▸ hlarge)

end Untangled.Uuid7
