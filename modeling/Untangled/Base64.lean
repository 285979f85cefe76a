import Untangled.BigEndian

/-!
# Base64

The canonical encoding with padding, and a lenient decoder that passes over whatever is
outside of the alphabet, padding included.  The decoder takes back what the encoder
writes; the encoding is known by its shape up to the padding.
-/

namespace Base64

open BigEndian

def alphabet : List Char :=
  "ABCDEFGHIJKLMNOPQRSTUVWXYZabcdefghijklmnopqrstuvwxyz0123456789+/".toList

def charOf (d : ℕ) : Char := alphabet.getD d '='

/-- The value of a character; the characters of the URL-safe alphabet count as well. -/
def sextet (c : Char) : Option ℕ :=
  if c = '-' then some 62 else if c = '_' then some 63 else alphabet.idxOf? c

/-- `k` characters for a number. -/
def group (k n : ℕ) : List Char := (digits 64 k n).map charOf

def encode : List UInt8 → List Char
  | [] => []
  | [a] => group 2 (a.toNat * 16) ++ ['=', '=']
  | [a, b] => group 3 (number 256 [a.toNat, b.toNat] * 4) ++ ['=']
  | a :: b :: c :: rest => group 4 (number 256 [a.toNat, b.toNat, c.toNat]) ++ encode rest

def bytesOf (k n : ℕ) : List UInt8 := (digits 256 k n).map UInt8.ofNat

/-- Four sextets make three bytes; the bits that fill no byte are dropped. -/
def decodeSextets : List ℕ → List UInt8
  | a :: b :: c :: d :: rest => bytesOf 3 (number 64 [a, b, c, d]) ++ decodeSextets rest
  | [a, b, c] => bytesOf 2 (number 64 [a, b, c] / 4)
  | [a, b] => bytesOf 1 (number 64 [a, b] / 16)
  | _ => []

def decode (s : List Char) : List UInt8 :=
  decodeSextets (s.filterMap sextet)

/-! ## Characters -/

theorem sextet_charOf : ∀ d, d < 64 → sextet (charOf d) = some d := by
  decide +kernel

theorem charOf_mem : ∀ d, d < 64 → charOf d ∈ alphabet := by
  decide +kernel

theorem filterMap_group (k n : ℕ) : (group k n).filterMap sextet = digits 64 k n := by
  have hall : ∀ l : List ℕ, (∀ d ∈ l, d < 64) → (l.map charOf).filterMap sextet = l := by
    intro l hl
    induction l with
    | nil => rfl
    | cons d l ih =>
        rw [List.forall_mem_cons] at hl
        rw [List.map_cons, List.filterMap_cons_some (sextet_charOf d hl.1), ih hl.2]
  exact hall _ fun d hd => digits_lt (by norm_num) hd

theorem group_mem
    {k n : ℕ} {c : Char}
    (hc : c ∈ group k n) :
    c ∈ alphabet := by
  rcases List.mem_map.mp hc with ⟨d, hd, rfl⟩
  exact charOf_mem d (digits_lt (by norm_num) hd)

theorem length_group (k n : ℕ) : (group k n).length = k := by
  rw [group, List.length_map, length_digits]

/-! ## The decoder takes back the encoding -/

theorem bytesOf_number
    {bytes : List UInt8} {k : ℕ}
    (hk : bytes.length = k) :
    bytesOf k (number 256 (bytes.map UInt8.toNat)) = bytes := by
  have hlt : ∀ d ∈ bytes.map UInt8.toNat, d < 256 := by
    intro d hd
    rcases List.mem_map.mp hd with ⟨byte, _, rfl⟩
    exact byte.toNat_lt
  have hdigits := digits_number hlt
  rw [List.length_map, hk] at hdigits
  rw [bytesOf, hdigits, List.map_map]
  have hid : UInt8.ofNat ∘ UInt8.toNat = id := funext fun byte => UInt8.ofNat_toNat
  rw [hid, List.map_id]

theorem number_digits_of_lt
    {k n : ℕ}
    (hn : n < 64 ^ k) :
    number 64 (digits 64 k n) = n := by
  rw [number_digits, Nat.mod_eq_of_lt hn]

theorem decode_encode (bytes : List UInt8) : decode (encode bytes) = bytes := by
  have hpad : sextet '=' = none := by decide
  unfold decode
  induction bytes using encode.induct with
  | case1 => rfl
  | case2 a =>
      have ha := a.toNat_lt
      have hnumber := number_digits_of_lt (k := 2) (n := a.toNat * 16) (by omega)
      rw [encode, List.filterMap_append, filterMap_group, List.filterMap_cons_none hpad,
        List.filterMap_cons_none hpad, List.filterMap_nil, List.append_nil]
      change bytesOf 1 (number 64 (digits 64 2 (a.toNat * 16)) / 16) = [a]
      rw [hnumber, Nat.mul_div_cancel _ (by norm_num)]
      have hback := @bytesOf_number [a] 1 rfl
      simpa [number] using hback
  | case3 a b =>
      have ha := a.toNat_lt
      have hb := b.toNat_lt
      have hsmall : number 256 [a.toNat, b.toNat] * 4 < 64 ^ 3 := by
        simp only [number, List.foldl_cons, List.foldl_nil]
        omega
      have hnumber := number_digits_of_lt hsmall
      rw [encode, List.filterMap_append, filterMap_group, List.filterMap_cons_none hpad,
        List.filterMap_nil, List.append_nil]
      change bytesOf 2 (number 64 (digits 64 3 (number 256 [a.toNat, b.toNat] * 4)) / 4) = [a, b]
      rw [hnumber, Nat.mul_div_cancel _ (by norm_num)]
      exact @bytesOf_number [a, b] 2 rfl
  | case4 a b c rest ih =>
      have ha := a.toNat_lt
      have hb := b.toNat_lt
      have hc := c.toNat_lt
      have hsmall : number 256 [a.toNat, b.toNat, c.toNat] < 64 ^ 4 := by
        simp only [number, List.foldl_cons, List.foldl_nil]
        omega
      have hnumber := number_digits_of_lt hsmall
      rw [encode, List.filterMap_append, filterMap_group]
      change bytesOf 3 (number 64 (digits 64 4 (number 256 [a.toNat, b.toNat, c.toNat]))) ++
        decodeSextets ((encode rest).filterMap sextet) = a :: b :: c :: rest
      rw [hnumber, ih]
      have hback : bytesOf 3 (number 256 [a.toNat, b.toNat, c.toNat]) = [a, b, c] :=
        @bytesOf_number [a, b, c] 3 rfl
      rw [hback]
      rfl

/-! ## Shape -/

/-- Characters of the alphabet, then as much padding as makes groups of four. -/
structure Shaped (s core : List Char) (p : ℕ) : Prop where
  eq : s = core ++ List.replicate p '='
  core_mem : ∀ c ∈ core, c ∈ alphabet
  pad_le : p ≤ 2
  whole : (core.length + p) % 4 = 0

theorem encode_shaped (bytes : List UInt8) : ∃ core p, Shaped (encode bytes) core p := by
  induction bytes using encode.induct with
  | case1 => exact ⟨[], 0, rfl, by simp, by omega, rfl⟩
  | case2 a =>
      refine ⟨group 2 (a.toNat * 16), 2, rfl, fun c => group_mem, by omega, ?_⟩
      rw [length_group]
  | case3 a b =>
      refine ⟨group 3 (number 256 [a.toNat, b.toNat] * 4), 1, rfl, fun c => group_mem,
        by omega, ?_⟩
      rw [length_group]
  | case4 a b c rest ih =>
      rcases ih with ⟨core, p, hshaped⟩
      refine ⟨group 4 (number 256 [a.toNat, b.toNat, c.toNat]) ++ core, p, ?_, ?_,
        hshaped.pad_le, ?_⟩
      · rw [encode, hshaped.eq, List.append_assoc]
      · rw [List.forall_mem_append]
        exact ⟨fun c => group_mem, hshaped.core_mem⟩
      · have hwhole := hshaped.whole
        rw [List.length_append, length_group]
        omega

/-- The core tells how much padding there is. -/
theorem Shaped.eq_of_core
    {s s' core : List Char} {p p' : ℕ}
    (h : Shaped s core p) (h' : Shaped s' core p') :
    s = s' := by
  have hp : p = p' := by
    have hle := h.pad_le
    have hle' := h'.pad_le
    have hwhole := h.whole
    have hwhole' := h'.whole
    omega
  rw [h.eq, h'.eq, hp]

end Base64
