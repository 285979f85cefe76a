import Mathlib.Tactic

/-!
# Big-endian digits

Numbers as lists of digits of a fixed width, the highest first, in any base: what they
read back, how widths and bases fit together, and that the order of the lists is the
order of the numbers.
-/

namespace BigEndian

/-- The lowest `k` digits of `n`. -/
def digits (b : ℕ) : ℕ → ℕ → List ℕ
  | 0, _ => []
  | k + 1, n => digits b k (n / b) ++ [n % b]

/-- The number that digits spell. -/
def number (b : ℕ) (l : List ℕ) : ℕ :=
  l.foldl (fun n d => b * n + d) 0

theorem length_digits (b k n : ℕ) : (digits b k n).length = k := by
  induction k generalizing n with
  | zero => rfl
  | succ k ih => rw [digits, List.length_append, ih, List.length_singleton]

theorem digits_lt
    {b k n d : ℕ}
    (hb : 0 < b) (hd : d ∈ digits b k n) :
    d < b := by
  induction k generalizing n with
  | zero => cases hd
  | succ k ih =>
      rw [digits, List.mem_append, List.mem_singleton] at hd
      rcases hd with hd | hd
      · exact ih hd
      · rw [hd]
        exact Nat.mod_lt n hb

theorem number_append (b : ℕ) (l l' : List ℕ) :
    number b (l ++ l') = number b l * b ^ l'.length + number b l' := by
  induction l' using List.reverseRecOn with
  | nil => simp [number]
  | append_singleton l' d ih =>
      have hsnoc : ∀ l'' : List ℕ, number b (l'' ++ [d]) = b * number b l'' + d := by
        intro l''
        rw [number, List.foldl_append]
        rfl
      rw [← List.append_assoc, hsnoc, hsnoc, ih, List.length_append, List.length_singleton]
      ring

theorem number_digits (b k n : ℕ) : number b (digits b k n) = n % b ^ k := by
  induction k generalizing n with
  | zero => simp [digits, number, Nat.mod_one]
  | succ k ih =>
      rw [digits, number_append, ih, List.length_singleton, pow_one, pow_succ', Nat.mod_mul]
      simp [number]
      ring

theorem digits_number
    {b : ℕ} {l : List ℕ}
    (hl : ∀ d ∈ l, d < b) :
    digits b l.length (number b l) = l := by
  induction l using List.reverseRecOn with
  | nil => rfl
  | append_singleton l d ih =>
      rw [List.forall_mem_append, List.forall_mem_singleton] at hl
      have hnumber : number b (l ++ [d]) = d + b * number b l := by
        rw [number_append]
        simp [number]
        ring
      have hb : 0 < b := (Nat.zero_le d).trans_lt hl.2
      rw [List.length_append, List.length_singleton, digits, hnumber,
        Nat.add_mul_div_left _ _ hb, Nat.div_eq_of_lt hl.2, Nat.zero_add, ih hl.1,
        Nat.add_mul_mod_self_left, Nat.mod_eq_of_lt hl.2]

theorem digits_add (b j k n : ℕ) :
    digits b (j + k) n = digits b j (n / b ^ k) ++ digits b k n := by
  induction k generalizing n with
  | zero => simp [digits]
  | succ k ih =>
      rw [← Nat.add_assoc, digits, ih, Nat.div_div_eq_div_mul, ← pow_succ', digits,
        List.append_assoc]

/-- The lower digits know nothing of the higher ones. -/
theorem digits_mod (b k n : ℕ) : digits b k (n % b ^ k) = digits b k n := by
  induction k generalizing n with
  | zero => rfl
  | succ k ih =>
      rw [digits, digits, pow_succ', Nat.mod_mul_right_div_self, ih, Nat.mod_mul_right_mod]

/-- Digits of digits are the digits in the smaller base. -/
theorem flatMap_digits (b j k n : ℕ) :
    (digits (b ^ j) k n).flatMap (digits b j) = digits b (k * j) n := by
  induction k generalizing n with
  | zero => simp [digits]
  | succ k ih =>
      rw [digits, List.flatMap_append, ih, List.flatMap_singleton, digits_mod, Nat.succ_mul,
        digits_add]

/-! ## Order -/

variable {α : Type} [LinearOrder α]

/-- Of lists of one length, what follows does not matter. -/
theorem append_lt_append
    {l l' : List α}
    (hlength : l.length = l'.length) (h : l < l') (s s' : List α) :
    l ++ s < l' ++ s' := by
  induction l generalizing l' with
  | nil =>
      rw [List.eq_nil_of_length_eq_zero hlength.symm] at h
      exact absurd h (lt_irrefl _)
  | cons x l ih =>
      cases l' with
      | nil => cases hlength
      | cons y l' =>
          rw [List.cons_append, List.cons_append, List.cons_lt_cons_iff]
          rcases List.cons_lt_cons_iff.mp h with hlt | ⟨heq, hlt⟩
          · exact .inl hlt
          · exact .inr ⟨heq, ih (Nat.succ.inj hlength) hlt⟩

theorem digits_lt_digits
    {b k n m : ℕ}
    (hb : 0 < b) (h : n < m) (hm : m < b ^ k) :
    digits b k n < digits b k m := by
  induction k generalizing n m with
  | zero =>
      rw [pow_zero] at hm
      omega
  | succ k ih =>
      rw [digits, digits]
      have hm' : m / b < b ^ k := by
        rw [Nat.div_lt_iff_lt_mul hb, ← pow_succ]
        exact hm
      rcases (Nat.div_le_div_right (c := b) h.le).lt_or_eq with hlt | heq
      · apply append_lt_append _ (ih hlt hm')
        rw [length_digits, length_digits]
      · have hmod : n % b < m % b := by
          have hn := Nat.div_add_mod n b
          have hm := Nat.div_add_mod m b
          rw [heq] at hn
          omega
        rw [heq]
        exact List.append_left_lt (List.cons_lt_cons_iff.mpr (.inl hmod))

/-- A map that is monotone on the elements keeps the order. -/
theorem map_lt_map
    {β : Type} [LinearOrder β] {f : α → β} {l l' : List α}
    (hf : ∀ x ∈ l, ∀ y ∈ l', x < y → f x < f y) (hlength : l.length = l'.length)
    (h : l < l') :
    l.map f < l'.map f := by
  induction l generalizing l' with
  | nil =>
      rw [List.eq_nil_of_length_eq_zero hlength.symm] at h
      exact absurd h (lt_irrefl _)
  | cons x l ih =>
      cases l' with
      | nil => cases hlength
      | cons y l' =>
          rw [List.map_cons, List.map_cons, List.cons_lt_cons_iff]
          rcases List.cons_lt_cons_iff.mp h with hlt | ⟨heq, hlt⟩
          · exact .inl (hf x (.head _) y (.head _) hlt)
          · exact .inr ⟨congrArg f heq, ih (fun x hx y hy => hf x (.tail _ hx) y (.tail _ hy))
              (Nat.succ.inj hlength) hlt⟩

end BigEndian
