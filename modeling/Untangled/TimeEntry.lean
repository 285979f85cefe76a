import Mathlib.Data.List.DropRight
import Mathlib.Data.List.TakeWhile
import Untangled.LocalDatetimes

/-!
# Time entry

`parse_time_24h` of `parse_time.ts` and the dual controls of `local_datetime_compose.ts`.
The grammar of a time is stated apart from its parser; what is composed of a date and a
time is split again into both.
-/

namespace Untangled.Datetime

open JsDates PaddedNumerals

/-! ## Times -/

def timeWarning : String := "Enter time as 24-hour HH:mm:ss (e.g. 14:30:00)."

/-- `HH:mm:ss` -/
def hmsText (hour minute second : ℕ) : Text :=
  padded 2 hour ++ ':' :: (padded 2 minute ++ ':' :: padded 2 second)

def packHms (hour minute second : ℕ) : Except String Text :=
  if hour > 23 ∨ minute > 59 ∨ second > 59 then throw timeWarning
  else pure (hmsText hour minute second)

/-- `/^\d{1,2}$/` -/
def isShortNumber (p : Text) : Bool :=
  p ≠ [] && p.length ≤ 2 && p.all Char.isDigit

/-- `parse_time_24h` behind the trimming. -/
def parseTrimmed (t : Text) : Except String Text :=
  if t = [] then throw timeWarning
  else if t.all Char.isDigit then
    if t.length = 6 then
      packHms (value (t.take 2)) (value ((t.drop 2).take 2)) (value (t.drop 4))
    else if t.length = 5 then
      packHms (value (t.take 1)) (value ((t.drop 1).take 2)) (value (t.drop 3))
    else if t.length = 4 then packHms (value (t.take 2)) (value (t.drop 2)) 0
    else throw timeWarning
  else
    -- a text without a colon is one part
    match t.splitOn ':' with
    | [hour, minute, second] =>
        if isShortNumber hour && isShortNumber minute && isShortNumber second then
          packHms (value hour) (value minute) (value second)
        else throw timeWarning
    | [hour, minute] =>
        if isShortNumber hour && isShortNumber minute then
          packHms (value hour) (value minute) 0
        else throw timeWarning
    | _ => throw timeWarning

def parseTime24h (raw : Text) : Except String Text :=
  parseTrimmed (trim raw)

/-! ## The grammar -/

/-- A number of exactly `n` digits. -/
def IsNumber (n : ℕ) (s : Text) : Prop :=
  s.length = n ∧ ∀ c ∈ s, c.isDigit = true

/-- The forms of a time with what they mean. -/
inductive TimeForm : Text → ℕ → ℕ → ℕ → Prop
  | hhmm {hour minute : Text} (hhour : IsNumber 2 hour) (hminute : IsNumber 2 minute) :
      TimeForm (hour ++ minute) (value hour) (value minute) 0
  | hmmss {hour minute second : Text} (hhour : IsNumber 1 hour)
      (hminute : IsNumber 2 minute) (hsecond : IsNumber 2 second) :
      TimeForm (hour ++ (minute ++ second)) (value hour) (value minute) (value second)
  | hhmmss {hour minute second : Text} (hhour : IsNumber 2 hour)
      (hminute : IsNumber 2 minute) (hsecond : IsNumber 2 second) :
      TimeForm (hour ++ (minute ++ second)) (value hour) (value minute) (value second)
  | twoGroups {hour minute : Text} (hhour : isShortNumber hour = true)
      (hminute : isShortNumber minute = true) :
      TimeForm (hour ++ ':' :: minute) (value hour) (value minute) 0
  | threeGroups {hour minute second : Text} (hhour : isShortNumber hour = true)
      (hminute : isShortNumber minute = true) (hsecond : isShortNumber second = true) :
      TimeForm (hour ++ ':' :: (minute ++ ':' :: second)) (value hour) (value minute)
        (value second)

theorem packHms_eq_ok_iff
    {hour minute second : ℕ} {time : Text} :
    packHms hour minute second = .ok time ↔
      hour ≤ 23 ∧ minute ≤ 59 ∧ second ≤ 59 ∧ time = hmsText hour minute second := by
  unfold packHms
  by_cases hrange : hour > 23 ∨ minute > 59 ∨ second > 59
  · rw [if_pos hrange]
    constructor
    · intro h
      cases h
    · intro h
      omega
  · rw [if_neg hrange]
    constructor
    · intro h
      cases h
      exact ⟨by omega, by omega, by omega, rfl⟩
    · intro h
      rw [h.2.2.2]
      rfl

theorem isShortNumber_iff
    {p : Text} :
    isShortNumber p = true ↔ p ≠ [] ∧ p.length ≤ 2 ∧ ∀ c ∈ p, c.isDigit = true := by
  simp [isShortNumber, and_assoc]

theorem colon_notMem
    {p : Text}
    (hp : isShortNumber p = true) :
    ':' ∉ p := by
  intro hmem
  exact absurd ((isShortNumber_iff.mp hp).2.2 ':' hmem) (by decide)

theorem parseTrimmed_digits
    {t : Text}
    (hne : t ≠ []) (ht : ∀ c ∈ t, c.isDigit = true) :
    parseTrimmed t =
      if t.length = 6 then
        packHms (value (t.take 2)) (value ((t.drop 2).take 2)) (value (t.drop 4))
      else if t.length = 5 then
        packHms (value (t.take 1)) (value ((t.drop 1).take 2)) (value (t.drop 3))
      else if t.length = 4 then packHms (value (t.take 2)) (value (t.drop 2)) 0
      else throw timeWarning := by
  rw [parseTrimmed, if_neg hne, if_pos (List.all_eq_true.mpr ht)]

theorem parseTrimmed_of_form
    {t : Text} {hour minute second : ℕ}
    (h : TimeForm t hour minute second) :
    parseTrimmed t = packHms hour minute second := by
  have hgroups : ∀ {p rest : Text}, isShortNumber p = true →
      (p ++ ':' :: rest).all Char.isDigit = false ∧ p ++ ':' :: rest ≠ [] ∧
        (p ++ ':' :: rest).splitOn ':' = p :: rest.splitOn ':' := by
    intro p rest hp
    refine ⟨by simp, by simp, List.splitOn_append_cons_self_of_not_mem (colon_notMem hp) ..⟩
  cases h with
  | @hhmm hour minute hhour hminute =>
      have hdigits := List.forall_mem_append.mpr ⟨hhour.2, hminute.2⟩
      have hlength : (hour ++ minute).length = 4 := by
        rw [List.length_append, hhour.1, hminute.1]
      have hne : hour ++ minute ≠ [] := by
        intro hnil
        rw [hnil] at hlength
        cases hlength
      rw [parseTrimmed_digits hne hdigits, hlength, if_neg (by omega), if_neg (by omega),
        if_pos rfl, List.take_left' hhour.1, List.drop_left' hhour.1]
  | @hmmss hour minute second hhour hminute hsecond =>
      have hdigits := List.forall_mem_append.mpr
        ⟨hhour.2, List.forall_mem_append.mpr ⟨hminute.2, hsecond.2⟩⟩
      have hlength : (hour ++ (minute ++ second)).length = 5 := by
        rw [List.length_append, List.length_append, hhour.1, hminute.1, hsecond.1]
      have hne : hour ++ (minute ++ second) ≠ [] := by
        intro hnil
        rw [hnil] at hlength
        cases hlength
      have hlast : (hour ++ (minute ++ second)).drop 3 = second := by
        rw [show 3 = 1 + 2 from rfl, ← List.drop_drop, List.drop_left' hhour.1,
          List.drop_left' hminute.1]
      rw [parseTrimmed_digits hne hdigits, hlength, if_neg (by omega), if_pos rfl, hlast,
        List.take_left' hhour.1, List.drop_left' hhour.1, List.take_left' hminute.1]
  | @hhmmss hour minute second hhour hminute hsecond =>
      have hdigits := List.forall_mem_append.mpr
        ⟨hhour.2, List.forall_mem_append.mpr ⟨hminute.2, hsecond.2⟩⟩
      have hlength : (hour ++ (minute ++ second)).length = 6 := by
        rw [List.length_append, List.length_append, hhour.1, hminute.1, hsecond.1]
      have hne : hour ++ (minute ++ second) ≠ [] := by
        intro hnil
        rw [hnil] at hlength
        cases hlength
      have hlast : (hour ++ (minute ++ second)).drop 4 = second := by
        rw [show 4 = 2 + 2 from rfl, ← List.drop_drop, List.drop_left' hhour.1,
          List.drop_left' hminute.1]
      rw [parseTrimmed_digits hne hdigits, hlength, if_pos rfl, hlast,
        List.take_left' hhour.1, List.drop_left' hhour.1, List.take_left' hminute.1]
  | @twoGroups hour minute hhour hminute =>
      have hsplit := @hgroups hour minute hhour
      rw [List.splitOn_eq_singleton (colon_notMem hminute)] at hsplit
      rw [parseTrimmed, if_neg hsplit.2.1, hsplit.1, if_neg Bool.false_ne_true, hsplit.2.2]
      simp [hhour, hminute]
  | @threeGroups hour minute second hhour hminute hsecond =>
      have hsplit := @hgroups hour (minute ++ ':' :: second) hhour
      have hrest := @hgroups minute second hminute
      rw [List.splitOn_eq_singleton (colon_notMem hsecond)] at hrest
      rw [parseTrimmed, if_neg hsplit.2.1, hsplit.1, if_neg Bool.false_ne_true, hsplit.2.2,
        hrest.2.2]
      simp [hhour, hminute, hsecond]

theorem form_of_parseTrimmed
    {t time : Text}
    (h : parseTrimmed t = .ok time) :
    ∃ hour minute second, TimeForm t hour minute second ∧
      packHms hour minute second = .ok time := by
  unfold parseTrimmed at h
  by_cases hne : t = []
  · rw [if_pos hne] at h
    cases h
  · rw [if_neg hne] at h
    by_cases hall : t.all Char.isDigit = true
    · rw [if_pos hall] at h
      have hdigits := List.all_eq_true.mp hall
      have htake : ∀ {s : Text} (n : ℕ), (∀ c ∈ s, c.isDigit = true) → n ≤ s.length →
          IsNumber n (s.take n) := fun n hs hn =>
        ⟨List.length_take_of_le hn, fun c hc => hs c (List.mem_of_mem_take hc)⟩
      have hdrop : ∀ n, ∀ c ∈ t.drop n, c.isDigit = true :=
        fun n c hc => hdigits c (List.mem_of_mem_drop hc)
      have hthree : ∀ n k, (t.take n) ++ ((t.drop n).take k ++ t.drop (n + k)) = t := by
        intro n k
        rw [← List.drop_drop, List.take_append_drop, List.take_append_drop]
      split at h
      · rename_i hsix
        have hform := TimeForm.hhmmss (htake 2 hdigits (by omega))
          (htake 2 (hdrop 2) (by rw [List.length_drop]; omega))
          (show IsNumber 2 (t.drop (2 + 2)) from ⟨by rw [List.length_drop]; omega, hdrop 4⟩)
        rw [hthree] at hform
        exact ⟨_, _, _, hform, h⟩
      · split at h
        · rename_i hfive
          have hform := TimeForm.hmmss (htake 1 hdigits (by omega))
            (htake 2 (hdrop 1) (by rw [List.length_drop]; omega))
            (show IsNumber 2 (t.drop (1 + 2)) from ⟨by rw [List.length_drop]; omega, hdrop 3⟩)
          rw [hthree] at hform
          exact ⟨_, _, _, hform, h⟩
        · split at h
          · rename_i hfour
            have hform := TimeForm.hhmm (htake 2 hdigits (by omega))
              (show IsNumber 2 (t.drop 2) from ⟨by rw [List.length_drop]; omega, hdrop 2⟩)
            rw [List.take_append_drop] at hform
            exact ⟨_, _, _, hform, h⟩
          · cases h
    · rw [if_neg hall] at h
      have hjoin : [':'].intercalate (t.splitOn ':') = t := List.intercalate_splitOn ':'
      split at h
      · rename_i hour minute second hsplit
        rw [hsplit] at hjoin
        split at h
        · rename_i hshort
          simp only [Bool.and_eq_true] at hshort
          have hform := TimeForm.threeGroups hshort.1.1 hshort.1.2 hshort.2
          have htext : hour ++ ':' :: (minute ++ ':' :: second) = t := by
            rw [← hjoin]
            simp [List.intercalate_cons_cons]
          rw [htext] at hform
          exact ⟨_, _, _, hform, h⟩
        · cases h
      · rename_i hour minute hsplit
        rw [hsplit] at hjoin
        split at h
        · rename_i hshort
          simp only [Bool.and_eq_true] at hshort
          have hform := TimeForm.twoGroups hshort.1 hshort.2
          have htext : hour ++ ':' :: minute = t := by
            rw [← hjoin]
            simp [List.intercalate_cons_cons]
          rw [htext] at hform
          exact ⟨_, _, _, hform, h⟩
        · cases h
      · cases h

/-- The parser takes exactly the forms whose components are in range. -/
theorem parseTime24h_eq_ok_iff (raw time : Text) :
    parseTime24h raw = .ok time ↔
      ∃ hour minute second, TimeForm (trim raw) hour minute second ∧
        hour ≤ 23 ∧ minute ≤ 59 ∧ second ≤ 59 ∧ time = hmsText hour minute second := by
  constructor
  · intro h
    rcases form_of_parseTrimmed h with ⟨hour, minute, second, hform, hpack⟩
    exact ⟨hour, minute, second, hform, packHms_eq_ok_iff.mp hpack⟩
  · intro h
    rcases h with ⟨hour, minute, second, hform, hrange⟩
    rw [parseTime24h, parseTrimmed_of_form hform]
    exact packHms_eq_ok_iff.mpr hrange

/-! ## Canonical times -/

theorem length_padded_two
    {n : ℕ}
    (hn : n < 100) :
    (padded 2 n).length = 2 := by
  have hdigits := (Nat.length_toDigits_le_iff (b := 10) (k := 2) (by decide) (by decide)).mpr hn
  rw [length_padded]
  omega

theorem isShortNumber_padded
    {n : ℕ}
    (hn : n < 100) :
    isShortNumber (padded 2 n) = true :=
  isShortNumber_iff.mpr ⟨padded_ne_nil 2 n, (length_padded_two hn).le,
    fun _ hc => isDigit_of_mem_padded hc⟩

theorem hmsText_form
    {hour minute second : ℕ}
    (hhour : hour < 100) (hminute : minute < 100) (hsecond : second < 100) :
    TimeForm (hmsText hour minute second) hour minute second := by
  have hform := TimeForm.threeGroups (isShortNumber_padded hhour)
    (isShortNumber_padded hminute) (isShortNumber_padded hsecond)
  rwa [value_padded, value_padded, value_padded] at hform

theorem hmsText_no_space (hour minute second : ℕ) :
    ∀ c ∈ hmsText hour minute second, Auth.jsWhitespace c = false := by
  intro c hc
  have hcolon : Auth.jsWhitespace ':' = false := by decide
  simp only [hmsText, List.mem_append, List.mem_cons] at hc
  rcases hc with h | h | h | h | h
  · exact not_jsWhitespace_of_isDigit (isDigit_of_mem_padded h)
  · rw [h]
    exact hcolon
  · exact not_jsWhitespace_of_isDigit (isDigit_of_mem_padded h)
  · rw [h]
    exact hcolon
  · exact not_jsWhitespace_of_isDigit (isDigit_of_mem_padded h)

/-- A text that the parser returns. -/
def IsCanonicalTime (t : Text) : Prop :=
  ∃ hour minute second, hour ≤ 23 ∧ minute ≤ 59 ∧ second ≤ 59 ∧
    t = hmsText hour minute second

theorem canonical_of_parse
    {raw time : Text}
    (h : parseTime24h raw = .ok time) :
    IsCanonicalTime time := by
  rcases (parseTime24h_eq_ok_iff raw time).mp h with ⟨hour, minute, second, _, hrange⟩
  exact ⟨hour, minute, second, hrange⟩

theorem IsCanonicalTime.parse
    {t : Text}
    (h : IsCanonicalTime t) :
    parseTime24h t = .ok t := by
  rcases h with ⟨hour, minute, second, hhour, hminute, hsecond, rfl⟩
  have hform := hmsText_form (show hour < 100 by omega) (show minute < 100 by omega)
    (show second < 100 by omega)
  rw [parseTime24h_eq_ok_iff, trim_of_none (hmsText_no_space hour minute second)]
  exact ⟨hour, minute, second, hform, hhour, hminute, hsecond, rfl⟩

/-! ## Composition -/

def datetimeFromDefaultTime : Text := "00:00:00".toList

def datetimeToDefaultTime : Text := "23:59:59".toList

/-- `/^\d{1,2}:\d{1,2}(?::\d{1,2})?$/` -/
def isColonTime (t : Text) : Bool :=
  let parts := t.splitOn ':'
  (parts.length = 2 || parts.length = 3) && parts.all isShortNumber

def normalizeTimeSeconds (time : Text) : Text :=
  let t := trim time
  if isColonTime t then
    match parseTime24h t with
    | .ok parsed => parsed
    | .error _ => t
  else t

/-- The date and the time; none is `undefined`. -/
def splitDatetimeLocal (combined : Option Text) : Text × Text :=
  let raw := (combined.map trim).getD []
  if raw = [] then ([], [])
  else if 'T' ∉ raw then (raw, [])
  else (raw.take (raw.idxOf 'T'), normalizeTimeSeconds (raw.drop (raw.idxOf 'T' + 1)))

def combineDatetimeLocal (date time defaultTime : Text) : Text :=
  let d := trim date
  if d = [] then []
  else
    let t := trim time
    d ++ 'T' :: (if t = [] then defaultTime else normalizeTimeSeconds t)

def applyDatetimeTimeChange
    (time : Text) (currentCombined : Option Text) (defaultTime : Text) :
    Except String Text :=
  let date := (splitDatetimeLocal currentCombined).1
  if date = [] then throw "Pick a date first (time defaults when you choose a date)."
  else
    let trimmed := trim time
    if trimmed = [] then pure (combineDatetimeLocal date [] defaultTime)
    else do
      let parsed ← parseTime24h trimmed
      pure (combineDatetimeLocal date parsed defaultTime)

/-! ### Trimming -/

theorem trim_eq_rdropWhile (s : Text) :
    trim s = (s.dropWhile Auth.jsWhitespace).rdropWhile Auth.jsWhitespace :=
  rfl

theorem trim_of_ends
    {s : Text}
    (hhead : ∀ c ∈ s.head?, Auth.jsWhitespace c = false)
    (hlast : ∀ c ∈ s.getLast?, Auth.jsWhitespace c = false) :
    trim s = s := by
  have hdrop : s.dropWhile Auth.jsWhitespace = s := by
    cases s with
    | nil => rfl
    | cons c s => rw [List.dropWhile_cons, hhead c rfl, if_neg Bool.false_ne_true]
  rw [trim_eq_rdropWhile, hdrop, List.rdropWhile_eq_self_iff]
  intro hne hspace
  rw [hlast _ (List.getLast?_eq_some_getLast hne)] at hspace
  cases hspace

theorem head_trim (s : Text) : ∀ c ∈ (trim s).head?, Auth.jsWhitespace c = false := by
  intro c hc
  have hlead : trim s <+: s.dropWhile Auth.jsWhitespace := List.rdropWhile_prefix _ _
  rcases hlead with ⟨rest, hrest⟩
  have hhead : (s.dropWhile Auth.jsWhitespace).head? = some c := by
    rw [← hrest, List.head?_append, hc]
    rfl
  have hnot := List.head?_dropWhile_not Auth.jsWhitespace s
  rw [hhead] at hnot
  simpa using hnot

theorem last_trim (s : Text) : ∀ c ∈ (trim s).getLast?, Auth.jsWhitespace c = false := by
  intro c hc
  have hne : (s.dropWhile Auth.jsWhitespace).rdropWhile Auth.jsWhitespace ≠ [] := by
    intro hnil
    rw [trim_eq_rdropWhile, hnil] at hc
    cases hc
  have hnot := List.rdropWhile_last_not Auth.jsWhitespace _ hne
  rw [trim_eq_rdropWhile, List.getLast?_eq_some_getLast hne] at hc
  rw [Option.some.inj hc] at hnot
  simpa using hnot

theorem trim_trim (s : Text) : trim (trim s) = trim s :=
  trim_of_ends (head_trim s) (last_trim s)

theorem mem_of_mem_trim
    {s : Text} {c : Char}
    (hc : c ∈ trim s) :
    c ∈ s :=
  (List.dropWhile_suffix _).mem ((List.rdropWhile_prefix _ _).mem hc)

theorem trim_ne_nil
    {s : Text}
    (hne : s ≠ []) (hhead : ∀ c ∈ s.head?, Auth.jsWhitespace c = false) :
    trim s ≠ [] := by
  intro hnil
  cases s with
  | nil => exact hne rfl
  | cons c s =>
      have hc := hhead c rfl
      rw [trim_eq_rdropWhile, List.dropWhile_cons, hc, if_neg Bool.false_ne_true,
        List.rdropWhile_eq_nil_iff] at hnil
      rw [hnil c (.head _)] at hc
      cases hc

/-! ### Dates and times apart -/

theorem IsCanonicalTime.normalize
    {t : Text}
    (h : IsCanonicalTime t) :
    normalizeTimeSeconds t = t := by
  have hparse := h.parse
  rcases h with ⟨hour, minute, second, hhour, hminute, hsecond, rfl⟩
  have hfirst := isShortNumber_padded (show hour < 100 by omega)
  have hmiddle := isShortNumber_padded (show minute < 100 by omega)
  have hlast := isShortNumber_padded (show second < 100 by omega)
  have hsplit : (hmsText hour minute second).splitOn ':' =
      [padded 2 hour, padded 2 minute, padded 2 second] := by
    rw [hmsText, List.splitOn_append_cons_self_of_not_mem (colon_notMem hfirst),
      List.splitOn_append_cons_self_of_not_mem (colon_notMem hmiddle),
      List.splitOn_eq_singleton (colon_notMem hlast)]
  have hcolon : isColonTime (hmsText hour minute second) = true := by
    rw [isColonTime, hsplit]
    simp [hfirst, hmiddle, hlast]
  rw [normalizeTimeSeconds, trim_of_none (hmsText_no_space hour minute second), if_pos hcolon,
    hparse]

theorem IsCanonicalTime.ne_nil
    {t : Text}
    (h : IsCanonicalTime t) :
    t ≠ [] := by
  rcases h with ⟨hour, minute, second, _, _, _, rfl⟩
  simp [hmsText]

theorem IsCanonicalTime.no_space
    {t : Text}
    (h : IsCanonicalTime t) :
    ∀ c ∈ t, Auth.jsWhitespace c = false := by
  rcases h with ⟨hour, minute, second, _, _, _, rfl⟩
  exact hmsText_no_space hour minute second

theorem split_compose
    {d t : Text}
    (hne : d ≠ []) (hT : 'T' ∉ d) (hhead : ∀ c ∈ d.head?, Auth.jsWhitespace c = false)
    (ht : IsCanonicalTime t) :
    splitDatetimeLocal (some (d ++ 'T' :: t)) = (d, t) := by
  have htrim : trim (d ++ 'T' :: t) = d ++ 'T' :: t := by
    apply trim_of_ends
    · intro c hc
      rw [List.head?_append_of_ne_nil _ hne] at hc
      exact hhead c hc
    · intro c hc
      have hassoc : d ++ 'T' :: t = (d ++ ['T']) ++ t := by simp
      rw [hassoc, List.getLast?_append_of_ne_nil _ ht.ne_nil] at hc
      exact ht.no_space c (List.mem_of_getLast? hc)
  have hindex : (d ++ 'T' :: t).idxOf 'T' = d.length := by
    rw [List.idxOf_append_of_notMem hT, List.idxOf_cons_self, Nat.add_zero]
  unfold splitDatetimeLocal
  dsimp only [Option.map_some, Option.getD_some]
  rw [htrim, if_neg (by simp), if_neg (by simp), hindex, List.take_left, ← List.drop_drop,
    List.drop_left]
  exact congrArg (Prod.mk d) ht.normalize

/-- A date that is split off starts with a character and contains no `T`. -/
theorem split_date
    {current : Option Text}
    (hne : (splitDatetimeLocal current).1 ≠ []) :
    'T' ∉ (splitDatetimeLocal current).1 ∧
      ∀ c ∈ (splitDatetimeLocal current).1.head?, Auth.jsWhitespace c = false := by
  cases current with
  | none => exact absurd rfl hne
  | some combined =>
      have hhead := head_trim combined
      unfold splitDatetimeLocal at hne ⊢
      dsimp only [Option.map_some, Option.getD_some] at hne ⊢
      by_cases hraw : trim combined = []
      · rw [if_pos hraw] at hne
        exact absurd rfl hne
      · rw [if_neg hraw] at hne ⊢
        by_cases hT : 'T' ∉ trim combined
        · rw [if_pos hT]
          exact ⟨hT, hhead⟩
        · rw [if_neg hT] at hne ⊢
          dsimp only at hne ⊢
          constructor
          · intro hmem
            rw [List.mem_take_iff_idxOf_lt (not_not.mp hT)] at hmem
            exact hmem.false
          · intro c hc
            apply hhead c
            rw [← List.take_append_drop ((trim combined).idxOf 'T') (trim combined),
              List.head?_append_of_ne_nil _ hne]
            exact hc

theorem parseTime24h_trim (raw : Text) : parseTime24h (trim raw) = parseTime24h raw := by
  rw [parseTime24h, trim_trim]
  rfl

/-- The combined value for each kind of time text. -/
theorem applyDatetimeTimeChange_eq
    {time : Text} {current : Option Text} (defaultTime : Text)
    (hne : (splitDatetimeLocal current).1 ≠ []) :
    applyDatetimeTimeChange time current defaultTime =
      if trim time = [] then
        .ok (trim (splitDatetimeLocal current).1 ++ 'T' :: defaultTime)
      else (parseTime24h time).map fun t =>
        trim (splitDatetimeLocal current).1 ++ 'T' :: t := by
  have hdate := trim_ne_nil hne (split_date hne).2
  unfold applyDatetimeTimeChange
  dsimp only
  rw [if_neg hne, parseTime24h_trim]
  by_cases hblank : trim time = []
  · rw [if_pos hblank, if_pos hblank, combineDatetimeLocal, if_neg hdate]
    rfl
  · rw [if_neg hblank, if_neg hblank]
    cases hparse : parseTime24h time with
    | error warning => rfl
    | ok t =>
        have hcanonical := canonical_of_parse hparse
        have htrim := trim_of_none hcanonical.no_space
        change Except.ok (combineDatetimeLocal _ t defaultTime) = Except.ok _
        rw [combineDatetimeLocal, if_neg hdate, htrim]
        dsimp only
        rw [if_neg hcanonical.ne_nil, hcanonical.normalize]

/-- Time entry takes exactly its grammar, and a change of the time is split again into the
date, without white space around it, and the canonical time. -/
theorem time_entry_correct :
    (∀ raw time, parseTime24h raw = .ok time ↔
      ∃ hour minute second, TimeForm (trim raw) hour minute second ∧
        hour ≤ 23 ∧ minute ≤ 59 ∧ second ≤ 59 ∧ time = hmsText hour minute second) ∧
    (∀ raw time, parseTime24h raw = .ok time → parseTime24h time = .ok time) ∧
    (∀ current time defaultTime, (splitDatetimeLocal current).1 ≠ [] →
      IsCanonicalTime defaultTime →
      ((∃ combined, applyDatetimeTimeChange time current defaultTime = .ok combined) ↔
        trim time = [] ∨ ∃ t, parseTime24h time = .ok t) ∧
      ∀ combined, applyDatetimeTimeChange time current defaultTime = .ok combined →
        (splitDatetimeLocal (some combined)).1 = trim (splitDatetimeLocal current).1 ∧
        (trim time = [] → (splitDatetimeLocal (some combined)).2 = defaultTime) ∧
        ∀ t, parseTime24h time = .ok t → (splitDatetimeLocal (some combined)).2 = t) ∧
    IsCanonicalTime datetimeFromDefaultTime ∧ IsCanonicalTime datetimeToDefaultTime := by
  refine ⟨parseTime24h_eq_ok_iff, fun raw time h => (canonical_of_parse h).parse, ?_,
    ⟨0, 0, 0, by decide⟩, ⟨23, 59, 59, by decide⟩⟩
  intro current time defaultTime hne hdefault
  have hdate := split_date hne
  have htrimmed := trim_ne_nil hne hdate.2
  have hsplit : ∀ t, IsCanonicalTime t →
      splitDatetimeLocal (some (trim (splitDatetimeLocal current).1 ++ 'T' :: t)) =
        (trim (splitDatetimeLocal current).1, t) := fun t ht =>
    split_compose htrimmed (fun hmem => hdate.1 (mem_of_mem_trim hmem)) (head_trim _) ht
  have hempty : trim time = [] → ∀ t, parseTime24h time ≠ .ok t := by
    intro hblank t hparse
    rw [parseTime24h, hblank] at hparse
    cases hparse
  rw [applyDatetimeTimeChange_eq defaultTime hne]
  by_cases hblank : trim time = []
  · rw [if_pos hblank]
    constructor
    · exact iff_of_true ⟨_, rfl⟩ (.inl hblank)
    · intro combined hcombined
      cases hcombined
      rw [hsplit defaultTime hdefault]
      exact ⟨rfl, fun _ => rfl, fun t hparse => absurd hparse (hempty hblank t)⟩
  · rw [if_neg hblank]
    cases hparse : parseTime24h time with
    | error warning => simp [hblank, Except.map]
    | ok t =>
        constructor
        · exact iff_of_true ⟨_, rfl⟩ (.inr ⟨t, rfl⟩)
        · intro combined hcombined
          cases hcombined
          rw [hsplit t (canonical_of_parse hparse)]
          refine ⟨rfl, fun h => absurd h hblank, ?_⟩
          intro t' ht'
          exact Except.ok.inj ht'

/-- White space between the date and `T` is lost. -/
theorem date_space_lost :
    (splitDatetimeLocal (some "2026-07-27 T10:00".toList)).1 = "2026-07-27 ".toList ∧
    applyDatetimeTimeChange "14:30".toList (some "2026-07-27 T10:00".toList)
      datetimeFromDefaultTime = .ok "2026-07-27T14:30:00".toList ∧
    (splitDatetimeLocal (some "2026-07-27T14:30:00".toList)).1 = "2026-07-27".toList := by
  decide +kernel

end Untangled.Datetime
