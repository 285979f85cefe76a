import Untangled.LocalDatetimes

/-!
# Whole seconds

An instant is rounded to the nearest second in four places: by the transform that
`emit_zod.py` emits, by `utc_seconds` of the auth service, by `format_utc_iso_z` of the
shell and by `require_utc_seconds` in Python.  The first three see milliseconds, the last
one microseconds.
-/

namespace Untangled.WholeSeconds

open JsDates CivilCalendar PaddedNumerals
open Datetime (roundToSecond ApiInstant)

/-! ## Texts of instants -/

inductive Zone
  | utc
  | ahead (hour minute : ℕ)
  | behind (hour minute : ℕ)

def Zone.InRange : Zone → Prop
  | .utc => True
  | .ahead hour minute => hour < 24 ∧ minute < 60
  | .behind hour minute => hour < 24 ∧ minute < 60

def Zone.minutes : Zone → ℤ
  | .utc => 0
  | .ahead hour minute => (60 * hour + minute : ℕ)
  | .behind hour minute => -(60 * hour + minute : ℕ)

def Zone.text : Zone → Text
  | .utc => ['Z']
  | .ahead hour minute => '+' :: (padded 2 hour ++ ':' :: padded 2 minute)
  | .behind hour minute => '-' :: (padded 2 hour ++ ':' :: padded 2 minute)

/-- A wall time with an explicit offset and at most six digits of a fraction. -/
structure IsoInstant where
  /-- Of the wall clock, since the start of 1970. -/
  seconds : ℤ
  fraction : Text
  zone : Zone
  year : 0 ≤ (fieldsOf (1000 * seconds)).year ∧ (fieldsOf (1000 * seconds)).year ≤ 9999
  digits : ∀ c ∈ fraction, c.isDigit = true
  short : fraction.length ≤ 6
  range : zone.InRange

def fractionText (fraction : Text) : Text :=
  if fraction = [] then [] else '.' :: fraction

def IsoInstant.text (i : IsoInstant) : Text :=
  dateTimeText (padded 4 (fieldsOf (1000 * i.seconds)).year.toNat)
    (fieldsOf (1000 * i.seconds)) 'T' (fractionText i.fraction ++ i.zone.text)

def fractionMicros (fraction : Text) : ℕ :=
  value (fraction ++ List.replicate (6 - fraction.length) '0')

def IsoInstant.wallMicros (i : IsoInstant) : ℤ :=
  1000000 * i.seconds + fractionMicros i.fraction

/-- The microseconds of the instant itself. -/
def IsoInstant.micros (i : IsoInstant) : ℤ :=
  i.wallMicros - 60000000 * i.zone.minutes

/-! ## JavaScript -/

/-- None is an invalid date. -/
abbrev Date := Option ℤ

/-- `new Date(Math.round(ms / 1000) * 1000)`; a time value is so short that its quotient
tells on which side of the half second it is. -/
def utcSeconds (value : Date) : Date :=
  value.bind fun ms => timeClip (roundToSecond ms)

/-- `replace(/\.\d{3}Z$/, "Z")` -/
def dropMillis (s : Text) : Text :=
  match s.reverse with
  | 'Z' :: a :: b :: c :: '.' :: rest =>
      if a.isDigit && b.isDigit && c.isDigit then rest.reverse ++ ['Z'] else s
  | _ => s

/-- An invalid date has no text. -/
def isoText (value : Date) : Except String Text :=
  match value with
  | none => throw "Invalid time value"
  | some t => pure (toISOString t)

def toSecondPrecisionUtcIso (P : Platform) (raw : Text) : Except String Text :=
  match dateParse P raw with
  | none => throw "invalid datetime"
  | some ms => do
      let rounded := timeClip (roundToSecond ms)
      pure (dropMillis (← isoText rounded))

def formatUtcIsoZ (value : Date) : Except String Text := do
  let rounded := value.bind fun ms => timeClip (roundToSecond ms)
  pure (dropMillis (← isoText rounded))

/-! ## Python -/

/-- The years of a `datetime`. -/
def InYears (u : ℤ) : Prop :=
  1 ≤ (fieldsOf (u / 1000)).year ∧ (fieldsOf (u / 1000)).year ≤ 9999

instance (u : ℤ) : Decidable (InYears u) :=
  inferInstanceAs (Decidable (_ ∧ _))

structure PyDatetime where
  /-- The microseconds of the wall clock. -/
  wall : ℤ
  /-- The offset in microseconds, none in a naive one. -/
  tzinfo : Option ℤ
  years : InYears wall

def PyDatetime.of (wall : ℤ) (tzinfo : Option ℤ) : Except String PyDatetime :=
  if h : InYears wall then pure ⟨wall, tzinfo, h⟩ else throw "date value out of range"

/-- `astimezone(timezone.utc)` -/
def PyDatetime.toUtc (d : PyDatetime) (offset : ℤ) : Except String PyDatetime :=
  PyDatetime.of (d.wall - offset) (some 0)

def PyDatetime.microsecond (d : PyDatetime) : ℤ :=
  d.wall % 1000000

theorem inYears_whole
    {u : ℤ}
    (h : InYears u) :
    InYears (u - u % 1000000) := by
  have hday : (u - u % 1000000) / 1000 / millisPerDay = u / 1000 / millisPerDay := by
    unfold millisPerDay
    omega
  unfold InYears at h ⊢
  dsimp only [fieldsOf] at h ⊢
  rw [hday]
  exact h

/-- `replace(microsecond=0)` -/
def PyDatetime.whole (d : PyDatetime) : PyDatetime :=
  ⟨d.wall - d.microsecond, d.tzinfo, inYears_whole d.years⟩

def requireUtcSeconds (d : PyDatetime) : Except String PyDatetime :=
  match d.tzinfo with
  | none => throw "datetime must be timezone-aware (UTC)"
  | some offset => do
      let utc ← d.toUtc offset
      if 500000 ≤ utc.microsecond then
        PyDatetime.of (utc.whole.wall + 1000000) utc.whole.tzinfo
      else pure utc.whole

/-! ## Reading the text of an instant -/

theorem value_zeros (s : Text) (n : ℕ) :
    value (s ++ List.replicate n '0') = value s * 10 ^ n := by
  rw [value, value, Nat.ofDigitChars_append, Nat.ofDigitChars_replicate_zero, Nat.mul_comm]

theorem head_zoneText (zone : Zone) :
    ∃ c s, zone.text = c :: s ∧ c.isDigit = false ∧ c ≠ '.' := by
  cases zone with
  | utc => exact ⟨'Z', [], rfl, by decide, by decide⟩
  | ahead hour minute => exact ⟨'+', _, rfl, by decide, by decide⟩
  | behind hour minute => exact ⟨'-', _, rfl, by decide, by decide⟩

theorem isoOffset_padded
    {hour minute : ℕ}
    (h : hour < 24 ∧ minute < 60) :
    isoOffset (padded 2 hour ++ ':' :: padded 2 minute) =
      some ((60 * hour + minute : ℕ) : ℤ) := by
  have hminute : digits 2 (padded 2 minute) = some (minute, []) := by
    have hread := digits_padded (n := 2) (by decide) (show minute < 10 ^ 2 by omega) []
    rwa [List.append_nil] at hread
  unfold isoOffset
  rw [digits_padded (by decide) (by omega)]
  simp only [Option.bind_some]
  rw [hminute, Option.bind_some, if_pos ⟨rfl, h.1, h.2⟩]

theorem isoZone_text
    {zone : Zone}
    (h : zone.InRange) :
    isoZone zone.text = some (some zone.minutes) := by
  cases zone with
  | utc => rfl
  | ahead hour minute =>
      simp only [Zone.text, isoZone]
      rw [isoOffset_padded h]
      rfl
  | behind hour minute =>
      simp only [Zone.text, isoZone]
      rw [isoOffset_padded h]
      rfl

theorem isoZone_digit
    {c : Char} {s : Text}
    (hc : c.isDigit = true) :
    isoZone (c :: s) = none := by
  unfold isoZone
  split
  · cases ‹c :: s = []›
  all_goals
    first
    | rfl
    | (rename_i heq
       cases heq
       exact absurd hc (by decide))

/-- A text whose fraction or offset does not fit is not in the format. -/
theorem isoParse_dateTimeText_none
    {year rest : Text} {p : Fields}
    (hyear : ∀ s, isoYear (year ++ s) = some (p.year, s))
    (hp : p.InRange)
    (hrest : (isoSeconds (':' :: (padded 2 p.second ++ rest))).bind
      (fun r => isoZone r.2.2) = none) :
    isoParse (dateTimeText year p 'T' rest) = none := by
  have hmonth := hp.month
  have hday := hp.day
  have hhour := hp.hour
  have hminute := hp.minute
  have htime : isoTime (padded 2 p.hour ++ ':' :: (padded 2 p.minute ++ ':' ::
      (padded 2 p.second ++ rest))) = none := by
    unfold isoTime
    rw [digits_padded (by decide) (by omega)]
    simp only [Option.bind_some]
    rw [digits_padded (by decide) (by omega), Option.bind_some]
    dsimp only
    cases hseconds : isoSeconds (':' :: (padded 2 p.second ++ rest)) with
    | none => rfl
    | some r =>
        rw [hseconds, Option.bind_some] at hrest
        rw [Option.bind_some, hrest]
        rfl
  unfold isoParse dateTimeText
  rw [hyear, Option.bind_some]
  simp only [isoMonthDay]
  rw [digits_padded (by decide) (by omega)]
  simp only [Option.bind_some]
  rw [digits_padded (by decide) (by omega)]
  simp only [Option.map_some, Option.bind_some]
  rw [if_pos ⟨hp.month.1, hp.month.2, hp.day⟩, htime]
  rfl

theorem digits_three
    {fraction : Text}
    (h : ∀ c ∈ fraction, c.isDigit = true) (hlength : fraction.length = 3) (s : Text) :
    digits 3 (fraction ++ s) = some (value fraction, s) := by
  rw [digits, ← hlength, List.take_left, List.drop_left,
    if_pos ⟨rfl, List.all_eq_true.mpr h⟩]

theorem isoSeconds_fraction
    {n : ℕ} {s : Text}
    (hn : n < 60) :
    isoSeconds (':' :: (padded 2 n ++ '.' :: s)) =
      (digits 3 s).map fun r => (n, r.1, r.2) := by
  simp only [isoSeconds]
  rw [digits_padded (by decide) (by omega)]
  rfl

/-- Other numbers of digits than none and three are outside of the format. -/
theorem isoSeconds_other
    {n : ℕ} {fraction : Text} {zone : Zone}
    (hn : n < 60)
    (hdigits : ∀ c ∈ fraction, c.isDigit = true)
    (hthree : fraction.length ≠ 3) :
    (isoSeconds (':' :: (padded 2 n ++ '.' :: (fraction ++ zone.text)))).bind
      (fun r => isoZone r.2.2) = none := by
  rw [isoSeconds_fraction hn]
  rcases head_zoneText zone with ⟨c, rest, hzone, hc, _⟩
  by_cases hshort : fraction.length < 3
  · have hnone : digits 3 (fraction ++ zone.text) = none := by
      unfold digits
      rw [if_neg]
      intro h
      have hmem : c ∈ (fraction ++ zone.text).take 3 := by
        rw [hzone, List.take_append, List.mem_append,
          show 3 - fraction.length = 2 - fraction.length + 1 by omega, List.take_succ_cons]
        exact .inr (.head _)
      rw [List.all_eq_true.mp h.2 c hmem] at hc
      cases hc
    rw [hnone]
    rfl
  · cases hdrop : fraction.drop 3 with
    | nil =>
        have hlength := congrArg List.length hdrop
        rw [List.length_drop, List.length_nil] at hlength
        omega
    | cons d more =>
        have hsplit : fraction ++ zone.text = fraction.take 3 ++ (d :: more ++ zone.text) := by
          rw [← hdrop, ← List.append_assoc, List.take_append_drop]
        have hthird : (fraction.take 3).length = 3 :=
          List.length_take_of_le (by omega)
        have hd : d.isDigit = true :=
          hdigits d (List.mem_of_mem_drop (by rw [hdrop]; exact .head _))
        rw [hsplit, digits_three (fun c hc => hdigits c (List.mem_of_mem_take hc)) hthird]
        exact isoZone_digit hd

theorem millisOf_add (p : Fields) (millis : ℕ) :
    millisOf { p with millisecond := millis } =
      millisOf { p with millisecond := 0 } + millis := by
  simp only [millisOf]
  push_cast
  ring

theorem secondsYear_isTimeValue
    {t minutes : ℤ}
    (h : 0 ≤ (fieldsOf t).year ∧ (fieldsOf t).year ≤ 9999)
    (hminutes : -1440 ≤ minutes ∧ minutes ≤ 1440) {millis : ℕ} (hmillis : millis < 1000) :
    IsTimeValue (t + millis - 60000 * minutes) := by
  have hspec := yearOfDay_spec (t / millisPerDay)
  unfold dayFromYear millisPerDay at hspec
  dsimp only [fieldsOf, millisPerDay] at h
  unfold IsTimeValue maxTime
  omega

theorem Zone.minutes_bound
    {zone : Zone}
    (h : zone.InRange) :
    -1440 ≤ zone.minutes ∧ zone.minutes ≤ 1440 := by
  cases zone with
  | utc => exact ⟨by decide, by decide⟩
  | ahead hour minute =>
      have hhour : hour < 24 := h.1
      have hminute : minute < 60 := h.2
      simp only [Zone.minutes]
      omega
  | behind hour minute =>
      have hhour : hour < 24 := h.1
      have hminute : minute < 60 := h.2
      simp only [Zone.minutes]
      omega

theorem ofDigitChars_lt
    {s : Text} (n : ℕ)
    (h : ∀ c ∈ s, c.isDigit = true) :
    Nat.ofDigitChars 10 s n < (n + 1) * 10 ^ s.length := by
  induction s generalizing n with
  | nil => simp
  | cons c s ih =>
      have hc := h c List.mem_cons_self
      have hbound : c.toNat - '0'.toNat < 10 := by
        simp only [Char.isDigit, Bool.and_eq_true, decide_eq_true_eq] at hc
        have hhigh : c.toNat ≤ 57 := hc.2
        have hzero : '0'.toNat = 48 := rfl
        omega
      have hrest := ih (10 * n + (c.toNat - '0'.toNat)) fun d hd => h d (List.mem_cons_of_mem c hd)
      rw [Nat.ofDigitChars_cons, List.length_cons, pow_succ]
      calc _ < (10 * n + (c.toNat - '0'.toNat) + 1) * 10 ^ s.length := hrest
        _ ≤ ((n + 1) * 10) * 10 ^ s.length := Nat.mul_le_mul_right _ (by omega)
        _ = (n + 1) * (10 ^ s.length * 10) := by ring

theorem fractionMicros_lt
    {fraction : Text}
    (hdigits : ∀ c ∈ fraction, c.isDigit = true) (hshort : fraction.length ≤ 6) :
    fractionMicros fraction < 1000000 := by
  have hlt := ofDigitChars_lt 0 hdigits
  rw [Nat.zero_add, Nat.one_mul] at hlt
  rw [fractionMicros, value_zeros]
  calc _ < 10 ^ fraction.length * 10 ^ (6 - fraction.length) :=
        Nat.mul_lt_mul_of_pos_right hlt (by positivity)
    _ = 1000000 := by
        rw [← pow_add, Nat.add_sub_cancel' hshort]
        rfl

/-- `Date.parse` sees the instant in whole milliseconds. -/
theorem dateParse_text
    (P : Platform) {i : IsoInstant}
    (hlegacy : isoParse i.text = none → P.legacyParse i.text = some (i.micros / 1000)) :
    dateParse P i.text = some (i.micros / 1000) := by
  have hrange := fieldsOf_inRange (1000 * i.seconds)
  have hwhole : 1000 * i.seconds % 1000 = 0 := by
    omega
  have hyear : ∀ s, isoYear (padded 4 (fieldsOf (1000 * i.seconds)).year.toNat ++ s) =
      some ((fieldsOf (1000 * i.seconds)).year, s) := by
    intro s
    have hbound := i.year
    rw [isoYear_padded (by omega), Int.toNat_of_nonneg hbound.1]
  have hmicros := fractionMicros_lt i.digits i.short
  have hfits : ∀ millis : ℕ, fractionMicros i.fraction / 1000 = millis →
      isoSeconds (':' :: (padded 2 (fieldsOf (1000 * i.seconds)).second ++
        (fractionText i.fraction ++ i.zone.text))) =
        some ((fieldsOf (1000 * i.seconds)).second, millis, i.zone.text) →
      dateParse P i.text = some (i.micros / 1000) := by
    intro millis hmillis hseconds
    have hparse := isoParse_dateTimeText hyear hrange hseconds (isoZone_text i.range)
    have hvalue : millisOf { fieldsOf (1000 * i.seconds) with millisecond := millis } =
        1000 * i.seconds + millis := by
      rw [millisOf_add, Datetime.millisOf_of_whole hwhole]
    have htime : IsTimeValue (1000 * i.seconds + millis - 60000 * i.zone.minutes) :=
      secondsYear_isTimeValue i.year (Zone.minutes_bound i.range) (by omega)
    rw [dateParse, IsoInstant.text, hparse]
    dsimp only
    rw [hvalue, timeClip, if_pos htime]
    unfold IsoInstant.micros IsoInstant.wallMicros
    congr 1
    omega
  by_cases hnil : i.fraction = []
  · apply hfits 0
    · rw [hnil]
      rfl
    · rcases head_zoneText i.zone with ⟨c, rest, hzone, _, hdot⟩
      rw [fractionText, if_pos hnil, List.nil_append]
      apply isoSeconds_whole hrange.second
      rw [hzone]
      simpa using hdot
  · by_cases hthree : i.fraction.length = 3
    · apply hfits (value i.fraction)
      · rw [fractionMicros, value_zeros, hthree]
        exact Nat.mul_div_cancel _ (by decide)
      · rw [fractionText, if_neg hnil, List.cons_append, isoSeconds_fraction hrange.second,
          digits_three i.digits hthree]
        rfl
    · have hnone : isoParse i.text = none := by
        apply isoParse_dateTimeText_none hyear hrange
        rw [fractionText, if_neg hnil, List.cons_append]
        exact isoSeconds_other hrange.second i.digits hthree
      rw [dateParse, hnone]
      exact hlegacy hnone

/-! ## The whole second -/

/-- The nearest whole second, and the later one of two that are as near. -/
def wholeSecond (u : ℤ) : ℤ :=
  (u + 500000) / 1000000

theorem roundToSecond_millis (u : ℤ) : roundToSecond (u / 1000) = 1000 * wholeSecond u := by
  unfold roundToSecond wholeSecond
  omega

theorem wholeSecond_whole (s : ℤ) : wholeSecond (1000000 * s) = s := by
  unfold wholeSecond
  omega

theorem apiInstant_of_inYears
    {s : ℤ}
    (h : InYears (1000000 * s)) :
    ApiInstant (1000 * s) := by
  have hmillis : 1000000 * s / 1000 = 1000 * s := by
    omega
  unfold InYears at h
  rw [hmillis] at h
  exact ⟨by omega, h⟩

theorem dropMillis_append (s : Text) :
    dropMillis (s ++ ['.', '0', '0', '0', 'Z']) = s ++ ['Z'] := by
  unfold dropMillis
  rw [List.reverse_append]
  simp

/-- A whole second loses nothing with its milliseconds. -/
theorem dropMillis_toISOString
    {t : ℤ}
    (ht : ApiInstant t) :
    dropMillis (toISOString t) = Datetime.formatUtcIsoZ t := by
  have hyear := ht.year
  have hmillis : '.' :: (padded 3 (fieldsOf t).millisecond ++ ['Z']) =
      ['.', '0', '0', '0', 'Z'] := by
    rw [Datetime.millisecond_of_whole ht.whole]
    decide
  have hfour : isoYearText (fieldsOf t).year = padded 4 (fieldsOf t).year.toNat := by
    rw [isoYearText, if_pos ⟨by omega, hyear.2⟩]
  unfold toISOString Datetime.formatUtcIsoZ
  rw [Datetime.roundToSecond_of_whole ht.whole]
  dsimp only
  rw [hmillis, hfour, ← List.nil_append ['.', '0', '0', '0', 'Z'],
    Datetime.dateTimeText_append, dropMillis_append, ← Datetime.dateTimeText_append,
    List.nil_append]

/-- The text of a whole second. -/
def secondText (s : ℤ) : Text :=
  Datetime.formatUtcIsoZ (1000 * s)

theorem utcSeconds_eq
    {ms s : ℤ}
    (hs : InYears (1000000 * s)) (hround : roundToSecond ms = 1000 * s) :
    utcSeconds (some ms) = some (1000 * s) := by
  rw [utcSeconds, Option.bind_some, hround, timeClip,
    if_pos (apiInstant_of_inYears hs).isTimeValue]

theorem formatUtcIsoZ_eq
    {ms s : ℤ}
    (hs : InYears (1000000 * s)) (hround : roundToSecond ms = 1000 * s) :
    formatUtcIsoZ (some ms) = .ok (secondText s) := by
  have hclip := utcSeconds_eq hs hround
  unfold utcSeconds at hclip
  unfold formatUtcIsoZ secondText
  rw [hclip, ← dropMillis_toISOString (apiInstant_of_inYears hs)]
  rfl

theorem toSecondPrecisionUtcIso_eq
    {P : Platform} {raw : Text} {ms s : ℤ}
    (hparse : dateParse P raw = some ms)
    (hs : InYears (1000000 * s)) (hround : roundToSecond ms = 1000 * s) :
    toSecondPrecisionUtcIso P raw = .ok (secondText s) := by
  have hformat := formatUtcIsoZ_eq hs hround
  rw [toSecondPrecisionUtcIso, hparse]
  exact hformat

theorem requireUtcSeconds_eq
    {d : PyDatetime} {offset : ℤ}
    (htzinfo : d.tzinfo = some offset)
    (hutc : InYears (d.wall - offset))
    (hs : InYears (1000000 * wholeSecond (d.wall - offset))) :
    requireUtcSeconds d = .ok ⟨1000000 * wholeSecond (d.wall - offset), some 0, hs⟩ := by
  have htoUtc : d.toUtc offset = .ok ⟨d.wall - offset, some 0, hutc⟩ := by
    rw [PyDatetime.toUtc, PyDatetime.of, dif_pos hutc]
    rfl
  rw [requireUtcSeconds, htzinfo]
  dsimp only
  rw [htoUtc]
  change (if 500000 ≤ (d.wall - offset) % 1000000 then
      PyDatetime.of (d.wall - offset - (d.wall - offset) % 1000000 + 1000000) (some 0)
    else pure ⟨d.wall - offset - (d.wall - offset) % 1000000, some 0, _⟩) = _
  by_cases hhalf : 500000 ≤ (d.wall - offset) % 1000000
  · have hnext : d.wall - offset - (d.wall - offset) % 1000000 + 1000000 =
        1000000 * wholeSecond (d.wall - offset) := by
      unfold wholeSecond
      omega
    rw [if_pos hhalf, hnext, PyDatetime.of, dif_pos hs]
    rfl
  · have hsame : d.wall - offset - (d.wall - offset) % 1000000 =
        1000000 * wholeSecond (d.wall - offset) := by
      unfold wholeSecond
      omega
    rw [if_neg hhalf]
    simp only [hsame]
    rfl

/-- The `datetime` of an instant. -/
structure IsoInstant.IsDatetime (i : IsoInstant) (d : PyDatetime) : Prop where
  wall : d.wall = i.wallMicros
  tzinfo : d.tzinfo = some (60000000 * i.zone.minutes)

/-- The four places give one whole second, and each gives it again for what it gave. -/
theorem whole_seconds_agree
    {P : Platform} {i : IsoInstant} {d : PyDatetime}
    (hlegacy : isoParse i.text = none → P.legacyParse i.text = some (i.micros / 1000))
    (hd : i.IsDatetime d)
    (hutc : InYears i.micros)
    (hrounded : InYears (1000000 * wholeSecond i.micros)) :
    ∃ s : ℤ, s = wholeSecond i.micros ∧
      dateParse P (secondText s) = some (1000 * s) ∧
      (toSecondPrecisionUtcIso P i.text = .ok (secondText s) ∧
        toSecondPrecisionUtcIso P (secondText s) = .ok (secondText s)) ∧
      (utcSeconds (dateParse P i.text) = some (1000 * s) ∧
        utcSeconds (some (1000 * s)) = some (1000 * s)) ∧
      (formatUtcIsoZ (dateParse P i.text) = .ok (secondText s) ∧
        formatUtcIsoZ (dateParse P (secondText s)) = .ok (secondText s)) ∧
      ∃ d', requireUtcSeconds d = .ok d' ∧ d'.wall = 1000000 * s ∧ d'.tzinfo = some 0 ∧
        requireUtcSeconds d' = .ok d' := by
  have hparse := dateParse_text P hlegacy
  have hround := roundToSecond_millis i.micros
  have hagain : roundToSecond (1000 * wholeSecond i.micros) = 1000 * wholeSecond i.micros :=
    Datetime.roundToSecond_of_whole (by omega)
  have hread : dateParse P (secondText (wholeSecond i.micros)) =
      some (1000 * wholeSecond i.micros) :=
    Datetime.dateParse_formatUtcIsoZ P (apiInstant_of_inYears hrounded)
  have hmicros : d.wall - 60000000 * i.zone.minutes = i.micros := by
    rw [hd.wall]
    rfl
  refine ⟨_, rfl, hread, ⟨?_, ?_⟩, ⟨?_, ?_⟩, ⟨?_, ?_⟩, ?_⟩
  · exact toSecondPrecisionUtcIso_eq hparse hrounded hround
  · exact toSecondPrecisionUtcIso_eq hread hrounded hagain
  · rw [hparse]
    exact utcSeconds_eq hrounded hround
  · exact utcSeconds_eq hrounded hagain
  · rw [hparse]
    exact formatUtcIsoZ_eq hrounded hround
  · rw [hread]
    exact formatUtcIsoZ_eq hrounded hagain
  · rw [← hmicros] at hutc hrounded ⊢
    refine ⟨_, requireUtcSeconds_eq hd.tzinfo hutc hrounded, rfl, rfl, ?_⟩
    have hwhole := wholeSecond_whole (wholeSecond (d.wall - 60000000 * i.zone.minutes))
    have hrun := @requireUtcSeconds_eq
      ⟨1000000 * wholeSecond (d.wall - 60000000 * i.zone.minutes), some 0, hrounded⟩ 0 rfl
    dsimp only at hrun
    simp only [sub_zero, hwhole] at hrun
    exact hrun hrounded hrounded

/-- 1969-12-31T23:59:58.499999+00:00 -/
def beforeTheEpoch : IsoInstant where
  seconds := -2
  fraction := ['4', '9', '9', '9', '9', '9']
  zone := .ahead 0 0
  year := by decide +kernel
  digits := by simp
  short := by decide
  range := by
    unfold Zone.InRange
    decide

/-- A platform in UTC that truncates the six digits of this text. -/
def truncating : Platform where
  offset _ := 0
  legacyParse raw := if raw = "1969-12-31T23:59:58.499999+00:00".toList then some (-1501) else none

theorem whole_seconds_agree_before_the_epoch :
    toSecondPrecisionUtcIso truncating beforeTheEpoch.text = .ok (secondText (-2)) ∧
      ∃ d', requireUtcSeconds ⟨-1500001, some 0, by decide +kernel⟩ = .ok d' ∧
        d'.wall = -2000000 := by
  have hd : beforeTheEpoch.IsDatetime ⟨-1500001, some 0, by decide +kernel⟩ :=
    ⟨rfl, rfl⟩
  have hlegacy : truncating.legacyParse beforeTheEpoch.text =
      some (beforeTheEpoch.micros / 1000) := by
    decide +kernel
  rcases whole_seconds_agree (fun _ => hlegacy) hd (by decide +kernel) (by decide +kernel) with
    ⟨s, hs, _, hzod, _, _, d', hpython, hwall, _⟩
  have hvalue : s = -2 := hs
  rw [hvalue] at hzod hwall
  exact ⟨hzod.1, d', hpython, hwall⟩

/-- 0001-01-01T00:59:59.500+01:00, which is still the year before in UTC. -/
def beforeTheYears : IsoInstant where
  seconds := -62135593201
  fraction := ['5', '0', '0']
  zone := .ahead 1 0
  year := by decide +kernel
  digits := by simp
  short := by decide
  range := by
    unfold Zone.InRange
    decide

/-- Python goes through the unrounded value in UTC, JavaScript does not mind it. -/
theorem before_the_years :
    ∃ d, beforeTheYears.IsDatetime d ∧
      InYears (1000000 * wholeSecond beforeTheYears.micros) ∧
      toSecondPrecisionUtcIso truncating beforeTheYears.text = .ok "0001-01-01T00:00:00Z".toList ∧
      requireUtcSeconds d = .error "date value out of range" := by
  refine ⟨⟨-62135593200500000, some 3600000000, by decide +kernel⟩, ⟨rfl, rfl⟩,
    by decide +kernel, rfl, ?_⟩
  have hearly : ¬ InYears (-62135593200500000 - 3600000000) := by
    decide +kernel
  rw [requireUtcSeconds]
  dsimp only
  rw [PyDatetime.toUtc, PyDatetime.of, dif_neg hearly]
  rfl

end Untangled.WholeSeconds
