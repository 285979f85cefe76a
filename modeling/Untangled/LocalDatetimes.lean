import Untangled.JsDates
import Untangled.JsStrings
import Untangled.Login

/-!
# Datetimes in local time

`format_datetime_local`, `iso_to_local_combined` and `local_combined_to_iso` of
`format.ts`, over any platform.  A datetime of the API is shown and edited as a
wall time, and the wall time goes back to the wire as an instant.
-/

namespace Untangled.Datetime

open JsDates CivilCalendar PaddedNumerals

/-! ## Display -/

def trim (s : Text) : Text :=
  ((s.dropWhile Auth.jsWhitespace).reverse.dropWhile Auth.jsWhitespace).reverse

/-- `/(?:Z|[+-]\d{2}:?\d{2})$/i`, read from the end. -/
def hasTimezoneSuffix (raw : Text) : Bool :=
  match raw.reverse with
  | [] => false
  | c :: s =>
      let tail := if (c :: s)[2]? = some ':' then (c :: s).eraseIdx 2 else c :: s
      c = 'Z' || c = 'z' ||
        ((tail.take 4).length = 4 && (tail.take 4).all Char.isDigit &&
          (tail[4]? = some '+' || tail[4]? = some '-'))

def formatLocalDatetimeParts (P : Platform) (t : ℤ) : Text :=
  let p := fieldsOf (P.wall t)
  dateTimeText (numberText p.year).toList p ' ' []

/-- `Math.round(ms / 1000) * 1000` -/
def roundToSecond (ms : ℤ) : ℤ :=
  (ms + 500) / 1000 * 1000

/-- `\d{1,2}` -/
def shortDigits (s : Text) : Option (ℕ × Text) :=
  let number := (s.take 2).takeWhile Char.isDigit
  if number = [] then none else some (value number, s.drop number.length)

def expect (allowed : List Char) : Text → Option Text
  | [] => none
  | c :: s => if c ∈ allowed then some s else none

/-- The seconds and the digits of the fraction, where they are given. -/
def localSeconds (s : Text) : Option (ℕ × Text) :=
  (match s with
    | ':' :: s => shortDigits s
    | s => some (0, s)).bind fun (second, s) =>
      match s with
      | [] => some (second, [])
      | '.' :: fraction =>
          if fraction ≠ [] ∧ fraction.all Char.isDigit then some (second, fraction) else none
      | _ => none

/-- The pattern of a datetime without an offset. -/
def localPattern (s : Text) : Option Fields := do
  let (year, s) ← digits 4 s
  let s ← expect ['-'] s
  let (month, s) ← digits 2 s
  let s ← expect ['-'] s
  let (day, s) ← digits 2 s
  let s ← expect [' ', 'T'] s
  let (hour, s) ← shortDigits s
  let s ← expect [':'] s
  let (minute, s) ← shortDigits s
  let (second, fraction) ← localSeconds s
  pure ⟨year, month, day, hour, minute, second, value ((fraction ++ ['0', '0', '0']).take 3)⟩

/-- `new Date(year, month - 1, ...)`; a year below 100 is one of the twentieth
century. -/
def localDate (P : Platform) (p : Fields) : Option ℤ :=
  let year := if 0 ≤ p.year ∧ p.year ≤ 99 then 1900 + p.year else p.year
  P.instantOfWall (millisOf { p with year := year })

def formatDatetimeLocal (P : Platform) (raw : Text) : Option Text :=
  let trimmed := trim raw
  if trimmed = [] then none
  else if hasTimezoneSuffix trimmed then
    (dateParse P trimmed).map fun ms => formatLocalDatetimeParts P (roundToSecond ms)
  else
    let spaced := trimmed.replace 'T' ' '
    match localPattern spaced with
    | none => none
    | some p =>
        if 23 < p.hour ∨ 59 < p.minute ∨ 59 < p.second then none
        else (localDate P p).map fun ms => formatLocalDatetimeParts P (roundToSecond ms)

/-- The date and the time of the control. -/
def localDatetimeControlParts (P : Platform) (value : Text) : Text × Text :=
  match formatDatetimeLocal P value with
  | none => ([], [])
  | some formatted =>
      match formatted.span (· ≠ ' ') with
      | (date, _ :: time) => (date, time)
      | (_, []) => ([], [])

/-! ## Conversion -/

def isoToLocalCombined (P : Platform) (iso : Text) : Text :=
  let trimmed := trim iso
  if trimmed = [] then []
  else
    let (date, time) := localDatetimeControlParts P trimmed
    if date ≠ [] then date ++ 'T' :: time
    else if (dateParse P trimmed).isNone then
      if 'T' ∈ trimmed then trimmed else trimmed.replace ' ' 'T'
    else []

/-- None is `undefined`. -/
def localCombinedToIso (P : Platform) (combined : Text) : Option Text :=
  if trim combined = [] then none
  else
    match dateParse P combined with
    | none => some combined
    | some ms => some (toISOString ms)

/-! ## The API's texts -/

/-- `format_utc_iso_z`: to the nearest second, in UTC. -/
def formatUtcIsoZ (t : ℤ) : Text :=
  let p := fieldsOf (roundToSecond t)
  dateTimeText (padded 4 p.year.toNat) p 'T' ['Z']

/-- A whole second in the years of a Python `datetime`. -/
structure ApiInstant (t : ℤ) : Prop where
  whole : t % 1000 = 0
  year : 1 ≤ (fieldsOf t).year ∧ (fieldsOf t).year ≤ 9999

def localYear (P : Platform) (t : ℤ) : ℤ :=
  (fieldsOf (P.wall t)).year

/-- The instant that a result of the conversion stands for. -/
def denoted (P : Platform) (iso : Option Text) : Option ℤ :=
  iso.bind (dateParse P)

theorem mem_dateTimeText
    {year rest : Text} {p : Fields} {separator c : Char}
    (hc : c ∈ dateTimeText year p separator rest) :
    c ∈ year ∨ c.isDigit = true ∨ c = '-' ∨ c = ':' ∨ c = separator ∨ c ∈ rest := by
  have hpadded : ∀ n, c ∈ padded 2 n → c.isDigit = true := fun n => isDigit_of_mem_padded
  simp only [dateTimeText, List.mem_append, List.mem_cons] at hc
  rcases hc with h | h | h | h | h | h | h | h | h | h | h
  · exact .inl h
  · exact .inr (.inr (.inl h))
  · exact .inr (.inl (hpadded _ h))
  · exact .inr (.inr (.inl h))
  · exact .inr (.inl (hpadded _ h))
  · exact .inr (.inr (.inr (.inr (.inl h))))
  · exact .inr (.inl (hpadded _ h))
  · exact .inr (.inr (.inr (.inl h)))
  · exact .inr (.inl (hpadded _ h))
  · exact .inr (.inr (.inr (.inl h)))
  · rcases h with h | h
    · exact .inr (.inl (hpadded _ h))
    · exact .inr (.inr (.inr (.inr (.inr h))))

theorem not_jsWhitespace_of_isDigit
    {c : Char}
    (hc : c.isDigit = true) :
    Auth.jsWhitespace c = false := by
  have hrange : 48 ≤ c.toNat ∧ c.toNat ≤ 57 := by
    simp only [Char.isDigit, Bool.and_eq_true, decide_eq_true_eq] at hc
    exact hc
  simp only [Auth.jsWhitespace, Bool.or_eq_false_iff, decide_eq_false_iff_not]
  omega

theorem trim_of_none
    {s : Text}
    (hs : ∀ c ∈ s, Auth.jsWhitespace c = false) :
    trim s = s := by
  have hdrop : ∀ r : Text, (∀ c ∈ r, Auth.jsWhitespace c = false) →
      r.dropWhile Auth.jsWhitespace = r := by
    intro r hr
    cases r with
    | nil => rfl
    | cons c r => rw [List.dropWhile_cons, hr c (.head _), if_neg Bool.false_ne_true]
  rw [trim, hdrop s hs, hdrop s.reverse (fun c hc => hs c (List.mem_reverse.mp hc)),
    List.reverse_reverse]

/-- A text of digits, hyphens, colons and `T` is not trimmed. -/
theorem trim_dateTimeText
    {year rest : Text} (p : Fields)
    (hyear : ∀ c ∈ year, c.isDigit = true)
    (hrest : ∀ c ∈ rest, Auth.jsWhitespace c = false) :
    trim (dateTimeText year p 'T' rest) = dateTimeText year p 'T' rest := by
  apply trim_of_none
  intro c hc
  rcases mem_dateTimeText hc with h | h | h | h | h | h
  · exact not_jsWhitespace_of_isDigit (hyear c h)
  · exact not_jsWhitespace_of_isDigit h
  · rw [h]
    decide
  · rw [h]
    decide
  · rw [h]
    decide
  · exact hrest c h

theorem dateTimeText_ne_nil
    {year rest : Text} {p : Fields} {separator : Char} :
    dateTimeText year p separator rest ≠ [] := by
  unfold dateTimeText
  intro h
  cases (List.append_eq_nil_iff.mp h).2

theorem dateTimeText_append
    (year rest rest' : Text) (p : Fields) (separator : Char) :
    dateTimeText year p separator (rest ++ rest') =
      dateTimeText year p separator rest ++ rest' := by
  simp [dateTimeText]

theorem hasTimezoneSuffix_Z (s : Text) : hasTimezoneSuffix (s ++ ['Z']) = true := by
  unfold hasTimezoneSuffix
  rw [List.reverse_append]
  rfl

theorem roundToSecond_of_whole
    {t : ℤ}
    (ht : t % 1000 = 0) :
    roundToSecond t = t := by
  unfold roundToSecond
  omega

theorem millisecond_of_whole
    {t : ℤ}
    (ht : t % 1000 = 0) :
    (fieldsOf t).millisecond = 0 := by
  dsimp only [fieldsOf, millisPerDay]
  omega

theorem millisOf_of_whole
    {t : ℤ}
    (ht : t % 1000 = 0) :
    millisOf { fieldsOf t with millisecond := 0 } = t := by
  conv_rhs => rw [← millisOf_fieldsOf t]
  rw [← millisecond_of_whole ht]

theorem ApiInstant.isTimeValue
    {t : ℤ}
    (ht : ApiInstant t) :
    IsTimeValue t := by
  have hyear := ht.year
  have hspec := yearOfDay_spec (t / millisPerDay)
  unfold dayFromYear millisPerDay at hspec
  dsimp only [fieldsOf, millisPerDay] at hyear
  unfold IsTimeValue maxTime
  omega

/-- `Date.parse` reads what the API writes. -/
theorem dateParse_formatUtcIsoZ
    (P : Platform) {t : ℤ}
    (ht : ApiInstant t) :
    dateParse P (formatUtcIsoZ t) = some t := by
  have hyear := ht.year
  have hrange := fieldsOf_inRange t
  have hread : ∀ s, isoYear (padded 4 (fieldsOf t).year.toNat ++ s) =
      some ((fieldsOf t).year, s) := by
    intro s
    rw [isoYear_padded (by omega), Int.toNat_of_nonneg (by omega)]
  have hparse : isoParse (formatUtcIsoZ t) = some (t, some 0) := by
    unfold formatUtcIsoZ
    rw [roundToSecond_of_whole ht.whole]
    rw [isoParse_dateTimeText hread hrange
      (isoSeconds_whole (s := ['Z']) hrange.second (by decide)) rfl,
      millisOf_of_whole ht.whole]
  rw [dateParse, hparse]
  dsimp only
  rw [mul_zero, sub_zero, timeClip, if_pos ht.isTimeValue]

/-! ## The wall time of the control -/

theorem wall_whole
    {P : Platform} {t : ℤ}
    (ht : t % 1000 = 0) :
    P.wall t % 1000 = 0 := by
  unfold Platform.wall
  omega

theorem isDigit_of_mem_numberText
    {n : ℤ} {c : Char}
    (hn : 0 ≤ n) (hc : c ∈ (numberText n).toList) :
    c.isDigit = true := by
  rw [numberText_toList_nonneg hn] at hc
  exact Nat.isDigit_of_mem_toDigits (by decide) (by decide) hc

/-- A year of four digits is written as the format wants it. -/
theorem numberText_eq_padded
    {n : ℤ}
    (hlow : 1000 ≤ n) (hhigh : n ≤ 9999) :
    (numberText n).toList = padded 4 n.toNat := by
  have hlong : ¬(Nat.toDigits 10 n.toNat).length ≤ 3 := by
    rw [Nat.length_toDigits_le_iff (by decide) (by decide)]
    omega
  rw [numberText_toList_nonneg (by omega), padded, padLeft,
    show 4 - (Nat.toDigits 10 n.toNat).length = 0 by omega]
  rfl

theorem trim_formatUtcIsoZ (t : ℤ) : trim (formatUtcIsoZ t) = formatUtcIsoZ t :=
  trim_dateTimeText _ (fun _ hc => isDigit_of_mem_padded hc) (by simp [Auth.jsWhitespace])

theorem formatUtcIsoZ_ne_nil (t : ℤ) : formatUtcIsoZ t ≠ [] :=
  dateTimeText_ne_nil

theorem formatDatetimeLocal_formatUtcIsoZ
    (P : Platform) {t : ℤ}
    (ht : ApiInstant t) :
    formatDatetimeLocal P (formatUtcIsoZ t) = some (formatLocalDatetimeParts P t) := by
  have hsuffix : hasTimezoneSuffix (formatUtcIsoZ t) = true := by
    unfold formatUtcIsoZ
    rw [← List.nil_append ['Z'], dateTimeText_append]
    exact hasTimezoneSuffix_Z _
  unfold formatDatetimeLocal
  dsimp only
  rw [trim_formatUtcIsoZ, if_neg (formatUtcIsoZ_ne_nil t), if_pos hsuffix, dateParse_formatUtcIsoZ P ht,
    Option.map_some, roundToSecond_of_whole ht.whole]

/-- The blank is the only one. -/
theorem span_dateTimeText
    {year : Text} (p : Fields)
    (hyear : ∀ c ∈ year, c.isDigit = true) :
    ∃ date time, date ≠ [] ∧
      (dateTimeText year p ' ' []).span (· ≠ ' ') = (date, ' ' :: time) ∧
      date ++ 'T' :: time = dateTimeText year p 'T' [] := by
  have hpadded : ∀ n, ∀ c ∈ padded 2 n, c.isDigit = true :=
    fun n c hc => isDigit_of_mem_padded hc
  have hdate : ∀ c ∈ year ++ '-' :: (padded 2 p.month ++ '-' :: padded 2 p.day),
      decide (c ≠ ' ') = true := by
    intro c hc
    have hblank : c ≠ ' ' := by
      intro heq
      subst heq
      simp only [List.mem_append, List.mem_cons] at hc
      rcases hc with h | h | h | h | h
      · exact absurd (hyear _ h) (by decide)
      · exact absurd h (by decide)
      · exact absurd (hpadded _ _ h) (by decide)
      · exact absurd h (by decide)
      · exact absurd (hpadded _ _ h) (by decide)
    exact decide_eq_true hblank
  refine ⟨year ++ '-' :: (padded 2 p.month ++ '-' :: padded 2 p.day),
    padded 2 p.hour ++ ':' :: (padded 2 p.minute ++ ':' :: (padded 2 p.second ++ [])), ?_, ?_, ?_⟩
  · intro h
    cases (List.append_eq_nil_iff.mp h).2
  · rw [List.span_eq_takeWhile_dropWhile]
    have hsplit : dateTimeText year p ' ' [] =
        (year ++ '-' :: (padded 2 p.month ++ '-' :: padded 2 p.day)) ++ ' ' ::
          (padded 2 p.hour ++ ':' :: (padded 2 p.minute ++ ':' ::
            (padded 2 p.second ++ []))) := by
      simp [dateTimeText]
    rw [hsplit, List.takeWhile_append_of_pos hdate, List.dropWhile_append_of_pos hdate]
    simp
  · simp [dateTimeText]

theorem isoToLocalCombined_formatUtcIsoZ
    (P : Platform) {t : ℤ}
    (ht : ApiInstant t) (hyear : 0 ≤ localYear P t) :
    isoToLocalCombined P (formatUtcIsoZ t) =
      dateTimeText (numberText (localYear P t)).toList (fieldsOf (P.wall t)) 'T' [] := by
  rcases span_dateTimeText (fieldsOf (P.wall t))
    (fun c hc => isDigit_of_mem_numberText hyear hc) with ⟨date, time, hdate, hspan, hjoin⟩
  have hparts : localDatetimeControlParts P (formatUtcIsoZ t) = (date, time) := by
    unfold localDatetimeControlParts
    rw [formatDatetimeLocal_formatUtcIsoZ P ht]
    dsimp only
    unfold formatLocalDatetimeParts
    dsimp only
    rw [show (fieldsOf (P.wall t)).year = localYear P t from rfl, hspan]
  unfold isoToLocalCombined
  dsimp only
  rw [trim_formatUtcIsoZ, if_neg (formatUtcIsoZ_ne_nil t), hparts]
  dsimp only
  rw [if_pos hdate, hjoin]

/-! ## There and back -/

/-- The control's text is read as the wall time. -/
theorem dateParse_combined
    (P : Platform) {t : ℤ}
    (ht : t % 1000 = 0) (hlow : 1000 ≤ localYear P t) (hhigh : localYear P t ≤ 9999) :
    dateParse P (dateTimeText (numberText (localYear P t)).toList
      (fieldsOf (P.wall t)) 'T' []) = P.instantOfWall (P.wall t) := by
  have hrange := fieldsOf_inRange (P.wall t)
  have hread : ∀ s, isoYear ((numberText (localYear P t)).toList ++ s) =
      some ((fieldsOf (P.wall t)).year, s) := by
    intro s
    rw [numberText_eq_padded hlow hhigh, isoYear_padded (by omega),
      Int.toNat_of_nonneg (by omega)]
    rfl
  have hparse : isoParse (dateTimeText (numberText (localYear P t)).toList
      (fieldsOf (P.wall t)) 'T' []) = some (P.wall t, none) := by
    rw [isoParse_dateTimeText hread hrange
      (isoSeconds_whole (s := []) hrange.second (by decide)) rfl,
      millisOf_of_whole (wall_whole ht)]
  rw [dateParse, hparse]

/-- A shorter year is not padded, which leaves the text to the platform. -/
theorem dateParse_short_year
    (P : Platform) {t : ℤ}
    (hlow : 1 ≤ localYear P t) (hhigh : localYear P t ≤ 999) :
    dateParse P (dateTimeText (numberText (localYear P t)).toList
      (fieldsOf (P.wall t)) 'T' []) =
      P.legacyParse (dateTimeText (numberText (localYear P t)).toList
        (fieldsOf (P.wall t)) 'T' []) := by
  have hshort : (numberText (localYear P t)).toList.length ≤ 3 := by
    rw [numberText_toList_nonneg (by omega),
      Nat.length_toDigits_le_iff (by decide) (by decide)]
    omega
  have hhyphen : ∀ rest : Text,
      digits 4 ((numberText (localYear P t)).toList ++ '-' :: rest) = none := by
    intro rest
    unfold digits
    rw [if_neg]
    intro h
    have hmem : '-' ∈ ((numberText (localYear P t)).toList ++ '-' :: rest).take 4 := by
      rw [List.take_append, List.mem_append,
        show 4 - (numberText (localYear P t)).toList.length =
          3 - (numberText (localYear P t)).toList.length + 1 by omega, List.take_succ_cons]
      exact .inr (.head _)
    exact absurd (List.all_eq_true.mp h.2 '-' hmem) (by decide)
  have hparse : ∀ rest : Text,
      isoParse ((numberText (localYear P t)).toList ++ '-' :: rest) = none := by
    intro rest
    have hnone := hhyphen rest
    unfold isoParse
    cases hcons : (numberText (localYear P t)).toList with
    | nil =>
        rw [numberText_toList_nonneg (by omega)] at hcons
        exact absurd hcons Nat.toDigits_ne_nil
    | cons c year =>
        have hc : c.isDigit = true :=
          isDigit_of_mem_numberText (n := localYear P t) (by omega)
            (by rw [hcons]; exact .head _)
        rw [hcons, List.cons_append] at hnone
        rw [List.cons_append, isoYear_of_digit hc, hnone]
        rfl
  rw [dateParse, dateTimeText, hparse]

theorem denoted_localCombinedToIso
    (P : Platform) {combined : Text} {t : ℤ}
    (hne : trim combined ≠ []) (hparse : dateParse P combined = some t)
    (ht : IsTimeValue t) :
    denoted P (localCombinedToIso P combined) = some t := by
  unfold localCombinedToIso
  rw [if_neg hne, hparse]
  exact dateParse_toISOString P ht

theorem denoted_edited
    (P : Platform) {t : ℤ}
    (ht : ApiInstant t) (hlow : 1000 ≤ localYear P t) (hhigh : localYear P t ≤ 9999) :
    denoted P (localCombinedToIso P (isoToLocalCombined P (formatUtcIsoZ t))) =
      P.firstInstant (P.wall t) := by
  rcases P.exists_firstInstant ht.isTimeValue with ⟨u, hu⟩
  have hdigits : ∀ c ∈ (numberText (localYear P t)).toList, c.isDigit = true :=
    fun c hc => isDigit_of_mem_numberText (by omega) hc
  rw [isoToLocalCombined_formatUtcIsoZ P ht (by omega), hu]
  apply denoted_localCombinedToIso P _ _ (Platform.firstInstant_eq_some.mp hu).1
  · rw [trim_dateTimeText _ hdigits (by simp)]
    exact dateTimeText_ne_nil
  · rw [dateParse_combined P ht.whole hlow hhigh]
    exact Platform.instantOfWall_of_first hu

/-- An edited datetime is the first instant that shows its wall time, so it is kept
unless an earlier one does. -/
theorem edited_is_first
    (P : Platform) {t : ℤ}
    (ht : ApiInstant t) (hlow : 1000 ≤ localYear P t) (hhigh : localYear P t ≤ 9999) :
    (∃ u, IsTimeValue u ∧ P.wall u = P.wall t ∧ P.IsFirst u ∧
      denoted P (localCombinedToIso P (isoToLocalCombined P (formatUtcIsoZ t))) = some u) ∧
    (denoted P (localCombinedToIso P (isoToLocalCombined P (formatUtcIsoZ t))) = some t ↔
      P.IsFirst t) := by
  rw [denoted_edited P ht hlow hhigh]
  constructor
  · rcases P.exists_firstInstant ht.isTimeValue with ⟨u, hu⟩
    have hspec := Platform.firstInstant_eq_some.mp hu
    exact ⟨u, hspec.1, hspec.2.1, hspec.2.2, hu⟩
  · constructor
    · intro h
      exact (Platform.firstInstant_eq_some.mp h).2.2
    · intro hfirst
      exact Platform.firstInstant_eq_some.mpr ⟨ht.isTimeValue, rfl, hfirst⟩

/-- 25 October 2026, 01:00 in UTC. -/
def setBackAt : ℤ := 1792890000000

/-- A clock that is set back by an hour. -/
def setBack : Platform :=
  ⟨fun t => if t < setBackAt then 60 else 0, fun _ => none⟩

/-- Five hours before the change. -/
theorem edited_before_the_change :
    denoted setBack (localCombinedToIso setBack
      (isoToLocalCombined setBack (formatUtcIsoZ (setBackAt - 18000000)))) =
        some (setBackAt - 18000000) := by
  apply (edited_is_first setBack (t := setBackAt - 18000000) ⟨by decide, by decide +kernel⟩
    (by decide +kernel) (by decide +kernel)).2.mpr
  intro u hu hlt
  simp only [Platform.wall, setBack, setBackAt] at hlt ⊢
  split_ifs <;> omega

/-- Half an hour after the clock was set back, the wall time is that of half an hour
before. -/
theorem edited_after_the_change :
    ApiInstant (setBackAt + 1800000) ∧ localYear setBack (setBackAt + 1800000) = 2026 ∧
    denoted setBack (localCombinedToIso setBack
      (isoToLocalCombined setBack (formatUtcIsoZ (setBackAt + 1800000)))) =
        some (setBackAt - 1800000) := by
  have hyear : localYear setBack (setBackAt + 1800000) = 2026 := by decide +kernel
  have hinstant : ApiInstant (setBackAt + 1800000) := ⟨by decide, by decide +kernel⟩
  refine ⟨hinstant, hyear, ?_⟩
  rw [denoted_edited setBack hinstant (by omega) (by omega), Platform.firstInstant_eq_some]
  refine ⟨by decide, by decide, ?_⟩
  intro u hu hlt
  simp only [Platform.wall, setBack, setBackAt] at hlt ⊢
  split_ifs <;> omega

end Untangled.Datetime
