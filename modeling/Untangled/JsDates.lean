import Untangled.CivilCalendar
import Untangled.PaddedNumerals

/-!
# JavaScript dates

`Date` as ECMAScript has it.  A time value counts milliseconds from 1970;
`toISOString` writes it in the date-time string format and `Date.parse` reads that
format.  The zone of the platform says for every instant how far its wall clock is
ahead.  A date-time without an offset is wall time and stands for the first instant
at which the clock shows it.  What the platform makes of other texts is its own.
-/

namespace JsDates

open CivilCalendar PaddedNumerals

abbrev Text := List Char

/-! ## Instants and wall clocks -/

structure Platform where
  /-- Minutes by which the wall clock is ahead of an instant. -/
  offset : ℤ → ℤ
  /-- `Date.parse` outside of the format; none is `NaN`. -/
  legacyParse : Text → Option ℤ

def maxTime : ℤ := 8640000000000000

def IsTimeValue (t : ℤ) : Prop := -maxTime ≤ t ∧ t ≤ maxTime

instance (t : ℤ) : Decidable (IsTimeValue t) :=
  inferInstanceAs (Decidable (-maxTime ≤ t ∧ t ≤ maxTime))

def timeClip (t : ℤ) : Option ℤ :=
  if IsTimeValue t then some t else none

def Platform.wall (P : Platform) (t : ℤ) : ℤ :=
  t + 60000 * P.offset t

/-- The first of `n` instants from `t` on with a property. -/
def firstFrom (p : ℤ → Bool) : ℕ → ℤ → Option ℤ
  | 0, _ => none
  | n + 1, t => if p t then some t else firstFrom p n (t + 1)

theorem firstFrom_eq_some
    {p : ℤ → Bool} {n : ℕ} {t u : ℤ} :
    firstFrom p n t = some u ↔
      t ≤ u ∧ u < t + n ∧ p u = true ∧ ∀ v, t ≤ v → v < u → p v = false := by
  induction n generalizing t with
  | zero =>
      simp only [firstFrom, reduceCtorEq, false_iff]
      intro h
      omega
  | succ n ih =>
      rw [firstFrom]
      by_cases hp : p t = true
      · rw [if_pos hp, Option.some.injEq]
        constructor
        · intro heq
          subst heq
          exact ⟨le_rfl, by omega, hp, fun v hlow hhigh => absurd hlow (not_le.mpr hhigh)⟩
        · intro h
          by_contra hne
          have hfirst := h.2.2.2 t le_rfl (by omega)
          rw [hp] at hfirst
          cases hfirst
      · rw [if_neg hp, ih]
        rw [Bool.not_eq_true] at hp
        constructor
        · intro h
          refine ⟨by omega, by omega, h.2.2.1, ?_⟩
          intro v hlow hhigh
          by_cases hv : v = t
          · rw [hv]
            exact hp
          · exact h.2.2.2 v (by omega) hhigh
        · intro h
          have hne : u ≠ t := by
            intro heq
            rw [heq, hp] at h
            cases h.2.2.1
          exact ⟨by omega, by omega, h.2.2.1, fun v hlow => h.2.2.2 v (by omega)⟩

def instantCount : ℕ := 17280000000000001

/-- The first instant at which the clock shows a wall time. -/
def Platform.firstInstant (P : Platform) (w : ℤ) : Option ℤ :=
  firstFrom (fun t => P.wall t = w) instantCount (-maxTime)

/-- Of the instants from `t` on that show a wall time before `w`, the last that shows
the latest. -/
def Platform.lastBefore (P : Platform) (w : ℤ) : ℕ → ℤ → Option ℤ → Option ℤ
  | 0, _, best => best
  | n + 1, t, best =>
      P.lastBefore w n (t + 1)
        (if P.wall t < w ∧ ∀ b ∈ best, P.wall b ≤ P.wall t then some t else best)

/-- A wall time that the clock skips is read with the offset before the gap. -/
def Platform.instantOfWall (P : Platform) (w : ℤ) : Option ℤ :=
  match P.firstInstant w with
  | some t => some t
  | none => (P.lastBefore w instantCount (-maxTime) none).bind fun t =>
      timeClip (w - 60000 * P.offset t)

/-- No earlier instant has the same wall time. -/
def Platform.IsFirst (P : Platform) (t : ℤ) : Prop :=
  ∀ u, IsTimeValue u → u < t → P.wall u ≠ P.wall t

theorem Platform.firstInstant_eq_some
    {P : Platform} {w t : ℤ} :
    P.firstInstant w = some t ↔ IsTimeValue t ∧ P.wall t = w ∧ P.IsFirst t := by
  unfold firstInstant
  rw [firstFrom_eq_some]
  simp only [decide_eq_true_eq, decide_eq_false_iff_not, IsTimeValue, IsFirst, maxTime,
    instantCount]
  constructor
  · intro h
    refine ⟨⟨h.1, by omega⟩, h.2.2.1, ?_⟩
    intro u hu hlt heq
    exact h.2.2.2 u hu.1 hlt (heq.trans h.2.2.1)
  · intro h
    refine ⟨h.1.1, by omega, h.2.1, ?_⟩
    intro v hlow hlt heq
    exact h.2.2 v ⟨hlow, by omega⟩ hlt (heq.trans h.2.1.symm)

/-- A wall time that is shown at all is shown for the first time. -/
theorem Platform.exists_firstInstant
    (P : Platform) {t : ℤ}
    (ht : IsTimeValue t) :
    ∃ u, P.firstInstant (P.wall t) = some u := by
  by_contra hnone
  have hall : ∀ n : ℕ, ∀ u, IsTimeValue u → u < -maxTime + n → P.wall u ≠ P.wall t := by
    intro n
    induction n with
    | zero =>
        intro u hu hlt
        have := hu.1
        omega
    | succ n ih =>
        intro u hu hlt heq
        apply hnone
        refine ⟨u, Platform.firstInstant_eq_some.mpr ⟨hu, heq, ?_⟩⟩
        intro v hv hvu heq'
        exact ih v hv (by omega) (heq'.trans heq)
  have hlt : t < -maxTime + ((t + maxTime).toNat + 1 : ℕ) := by
    have := ht.1
    omega
  exact hall _ t ht hlt rfl

theorem Platform.instantOfWall_of_first
    {P : Platform} {w t : ℤ}
    (h : P.firstInstant w = some t) :
    P.instantOfWall w = some t := by
  rw [instantOfWall, h]

/-! ## The date-time string format -/

def digits (n : ℕ) (s : Text) : Option (ℕ × Text) :=
  if (s.take n).length = n ∧ (s.take n).all Char.isDigit then
    some (value (s.take n), s.drop n)
  else none

def isoYear : Text → Option (ℤ × Text)
  | '+' :: s => (digits 6 s).map fun r => ((r.1 : ℤ), r.2)
  | '-' :: s => (digits 6 s).bind fun r =>
      if r.1 = 0 then none else some (-(r.1 : ℤ), r.2)
  | s => (digits 4 s).map fun r => ((r.1 : ℤ), r.2)

/-- The month and the day where they are given. -/
def isoMonthDay : Text → Option (ℕ × ℕ × Text)
  | '-' :: s => (digits 2 s).bind fun (month, s) =>
      match s with
      | '-' :: s => (digits 2 s).map fun (day, s) => (month, day, s)
      | s => some (month, 1, s)
  | s => some (1, 1, s)

/-- The seconds and milliseconds where they are given. -/
def isoSeconds : Text → Option (ℕ × ℕ × Text)
  | ':' :: s => (digits 2 s).bind fun (second, s) =>
      match s with
      | '.' :: s => (digits 3 s).map fun (millis, s) => (second, millis, s)
      | s => some (second, 0, s)
  | s => some (0, 0, s)

def isoOffset (s : Text) : Option ℤ :=
  (digits 2 s).bind fun (hour, s) =>
    match s with
    | ':' :: s => (digits 2 s).bind fun (minute, s) =>
        if s = [] ∧ hour < 24 ∧ minute < 60 then some (60 * hour + minute : ℕ) else none
    | _ => none

/-- The offset in minutes, none where there is none. -/
def isoZone : Text → Option (Option ℤ)
  | [] => some none
  | ['Z'] => some (some 0)
  | '+' :: s => (isoOffset s).map some
  | '-' :: s => (isoOffset s).map fun minutes => some (-minutes)
  | _ => none

/-- The milliseconds of a time of day and its offset. -/
def isoTime (s : Text) : Option (ℕ × Option ℤ) :=
  (digits 2 s).bind fun (hour, s) =>
    match s with
    | ':' :: s => (digits 2 s).bind fun (minute, s) =>
        (isoSeconds s).bind fun (second, millis, s) =>
          (isoZone s).bind fun zone =>
            if minute < 60 ∧ second < 60 ∧
                (hour < 24 ∨ hour = 24 ∧ minute = 0 ∧ second = 0 ∧ millis = 0) then
              some (hour * 3600000 + minute * 60000 + second * 1000 + millis, zone)
            else none
    | _ => none

/-- A date alone is in UTC; a date-time without an offset is local. -/
def isoParse (s : Text) : Option (ℤ × Option ℤ) :=
  (isoYear s).bind fun (year, s) =>
    (isoMonthDay s).bind fun (month, day, s) =>
      if 1 ≤ month ∧ month ≤ 12 ∧ 1 ≤ day ∧ day ≤ 31 then
        match s with
        | [] => some (dayOfDate year month day * millisPerDay, some 0)
        | 'T' :: s => (isoTime s).map fun (time, zone) =>
            (dayOfDate year month day * millisPerDay + time, zone)
        | _ => none
      else none

def dateParse (P : Platform) (s : Text) : Option ℤ :=
  match isoParse s with
  | some (t, some minutes) => timeClip (t - 60000 * minutes)
  | some (w, none) => P.instantOfWall w
  | none => P.legacyParse s

/-- Four digits, or six behind a sign. -/
def isoYearText (y : ℤ) : Text :=
  if 0 ≤ y ∧ y ≤ 9999 then padded 4 y.toNat
  else if y < 0 then '-' :: padded 6 (-y).toNat
  else '+' :: padded 6 y.toNat

/-- A date and a time with `separator` between them, after a text of the year. -/
def dateTimeText (year : Text) (p : Fields) (separator : Char) (rest : Text) : Text :=
  year ++ '-' :: (padded 2 p.month ++ '-' :: (padded 2 p.day ++ separator ::
    (padded 2 p.hour ++ ':' :: (padded 2 p.minute ++ ':' ::
      (padded 2 p.second ++ rest)))))

def toISOString (t : ℤ) : Text :=
  let p := fieldsOf t
  dateTimeText (isoYearText p.year) p 'T' ('.' :: (padded 3 p.millisecond ++ ['Z']))

/-! ## Reading what is written -/

theorem digits_padded
    {n k : ℕ}
    (hn : 0 < n) (hk : k < 10 ^ n) (s : Text) :
    digits n (padded n k ++ s) = some (k, s) := by
  have hlength : (padded n k).length = n := by
    have hdigits := (Nat.length_toDigits_le_iff (b := 10) (by decide) hn).mpr hk
    rw [length_padded]
    omega
  have htake : (padded n k ++ s).take n = padded n k := by
    rw [List.take_append_of_le_length (by omega), List.take_of_length_le (by omega)]
  have hdrop : (padded n k ++ s).drop n = s := by
    rw [List.drop_append_of_le_length (by omega), List.drop_of_length_le (by omega),
      List.nil_append]
  have hall : (padded n k).all Char.isDigit = true :=
    List.all_eq_true.mpr fun c hc => isDigit_of_mem_padded hc
  rw [digits, htake, hdrop, if_pos ⟨hlength, hall⟩, value_padded]

theorem isoYear_of_digit
    {c : Char} {s : Text}
    (hc : c.isDigit = true) :
    isoYear (c :: s) = (digits 4 (c :: s)).map fun r => ((r.1 : ℤ), r.2) := by
  unfold isoYear
  split
  · rename_i heq
    cases heq
    exact absurd hc (by decide)
  · rename_i heq
    cases heq
    exact absurd hc (by decide)
  · rfl

theorem isoYear_padded
    {n : ℕ}
    (hn : n < 10 ^ 4) (s : Text) :
    isoYear (padded 4 n ++ s) = some ((n : ℤ), s) := by
  have hdigits := digits_padded (by decide) hn s
  cases hcons : padded 4 n with
  | nil => exact absurd hcons (padded_ne_nil 4 n)
  | cons c year =>
      rw [hcons, List.cons_append] at hdigits
      have hmem : c ∈ padded 4 n := by
        rw [hcons]
        exact .head _
      have hc := isDigit_of_mem_padded hmem
      rw [List.cons_append, isoYear_of_digit hc, hdigits]
      rfl

theorem isoYear_isoYearText
    {y : ℤ}
    (hlow : -10 ^ 6 < y) (hhigh : y < 10 ^ 6) (s : Text) :
    isoYear (isoYearText y ++ s) = some (y, s) := by
  unfold isoYearText
  split_ifs with hfour hneg
  · rw [isoYear_padded (by omega), Int.toNat_of_nonneg hfour.1]
  · rw [List.cons_append]
    simp only [isoYear]
    rw [digits_padded (by decide) (by omega), Option.bind_some, if_neg (by omega),
      Int.toNat_of_nonneg (by omega), neg_neg]
  · rw [List.cons_append]
    simp only [isoYear]
    rw [digits_padded (by decide) (by omega), Option.map_some,
      Int.toNat_of_nonneg (by omega)]

/-- A date-time text stands for its fields, with the fraction and the offset that
follow. -/
theorem isoParse_dateTimeText
    {year rest tail : Text} {p : Fields} {millis : ℕ} {zone : Option ℤ}
    (hyear : ∀ s, isoYear (year ++ s) = some (p.year, s))
    (hp : p.InRange)
    (hseconds : isoSeconds (':' :: (padded 2 p.second ++ rest)) =
      some (p.second, millis, tail))
    (hzone : isoZone tail = some zone) :
    isoParse (dateTimeText year p 'T' rest) =
      some (millisOf { p with millisecond := millis }, zone) := by
  have hmonth : p.month < 10 ^ 2 := by
    have := hp.month
    omega
  have hday : p.day < 10 ^ 2 := by
    have := hp.day
    omega
  have hhour : p.hour < 10 ^ 2 := by
    have := hp.hour
    omega
  have hminute : p.minute < 10 ^ 2 := by
    have := hp.minute
    omega
  have htime : isoTime (padded 2 p.hour ++ ':' :: (padded 2 p.minute ++ ':' ::
      (padded 2 p.second ++ rest))) =
      some (p.hour * 3600000 + p.minute * 60000 + p.second * 1000 + millis, zone) := by
    unfold isoTime
    rw [digits_padded (by decide) hhour]
    simp only [Option.bind_some]
    rw [digits_padded (by decide) hminute, Option.bind_some]
    dsimp only
    rw [hseconds, Option.bind_some]
    dsimp only
    rw [hzone, Option.bind_some, if_pos ⟨hp.minute, hp.second, .inl hp.hour⟩]
  unfold isoParse dateTimeText
  rw [hyear, Option.bind_some]
  simp only [isoMonthDay]
  rw [digits_padded (by decide) hmonth]
  simp only [Option.bind_some]
  rw [digits_padded (by decide) hday]
  simp only [Option.map_some, Option.bind_some]
  rw [if_pos ⟨hp.month.1, hp.month.2, hp.day⟩, htime]
  rfl

theorem isoSeconds_padded
    {n : ℕ}
    (hn : n < 60) (millis : ℕ) (hmillis : millis < 1000) (s : Text) :
    isoSeconds (':' :: (padded 2 n ++ '.' :: (padded 3 millis ++ s))) =
      some (n, millis, s) := by
  simp only [isoSeconds]
  rw [digits_padded (by decide) (by omega)]
  simp only [Option.bind_some]
  rw [digits_padded (by decide) (by omega), Option.map_some]

theorem isoSeconds_whole
    {n : ℕ}
    (hn : n < 60) {s : Text} (hs : s.head? ≠ some '.') :
    isoSeconds (':' :: (padded 2 n ++ s)) = some (n, 0, s) := by
  simp only [isoSeconds]
  rw [digits_padded (by decide) (by omega), Option.bind_some]
  dsimp only
  split
  · exact absurd rfl hs
  · rfl

/-! ## Time values -/

theorem year_of_isTimeValue
    {t : ℤ}
    (ht : IsTimeValue t) :
    -10 ^ 6 < (fieldsOf t).year ∧ (fieldsOf t).year < 10 ^ 6 := by
  have hspec := yearOfDay_spec (t / millisPerDay)
  unfold IsTimeValue maxTime at ht
  unfold dayFromYear millisPerDay at hspec
  dsimp only [fieldsOf, millisPerDay]
  omega

/-- `Date.parse` reads what `toISOString` writes. -/
theorem dateParse_toISOString
    (P : Platform) {t : ℤ}
    (ht : IsTimeValue t) :
    dateParse P (toISOString t) = some t := by
  have hrange := fieldsOf_inRange t
  have hyear := year_of_isTimeValue ht
  have hparse : isoParse (toISOString t) = some (t, some 0) := by
    unfold toISOString
    rw [isoParse_dateTimeText (isoYear_isoYearText hyear.1 hyear.2) hrange
      (isoSeconds_padded hrange.second _ hrange.millisecond ['Z']) rfl]
    exact congrArg (fun u => some (u, some 0)) (millisOf_fieldsOf t)
  rw [dateParse, hparse]
  dsimp only
  rw [mul_zero, sub_zero, timeClip, if_pos ht]

end JsDates
