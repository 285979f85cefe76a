import Mathlib.Data.Rat.Floor
import Mathlib.Tactic

/-!
# Runtime settings

`settings_from_row` of `system_config.ts` with the bounds of
`session_settings.ts` and the clamps of `login_settings.ts`: which
`system_config` rows the auth service accepts, and the settings it runs with.
-/

namespace Untangled.Auth

def sessionRefreshReuseGraceMin : ℤ := 5
def sessionRefreshReuseGraceMax : ℤ := 60
def sessionRefreshProcessTimeMinimumMin : ℤ := 100
def sessionRefreshProcessTimeMinimumMax : ℤ := 500
def sessionRefreshProcessTimeMaximumMin : ℤ := 200
def sessionRefreshProcessTimeMaximumMax : ℤ := 1000

structure RateLimitSettings where
  perUserThreshold : ℤ
  perUserSamplePeriodS : ℤ
  perIpThreshold : ℤ
  perIpSamplePeriodS : ℤ
  l1DelayMs : ℤ
  l2DelayMs : ℤ
  lockoutS : ℤ
  maxKib : ℤ
  deriving DecidableEq

def clampMin (value minimum : ℤ) : ℤ := max minimum value

def clampRateLimit (raw : RateLimitSettings) : RateLimitSettings where
  perUserThreshold := clampMin raw.perUserThreshold 1
  perUserSamplePeriodS := clampMin raw.perUserSamplePeriodS 1
  perIpThreshold := clampMin raw.perIpThreshold 1
  perIpSamplePeriodS := clampMin raw.perIpSamplePeriodS 1
  l1DelayMs := clampMin raw.l1DelayMs 0
  l2DelayMs := clampMin raw.l2DelayMs 0
  lockoutS := clampMin raw.lockoutS 1
  maxKib := min 262144 (clampMin raw.maxKib 8192)

def usernameEventBound : ℕ := 256

structure LoginProcessSettings where
  processTimeMinimumMs : ℤ
  processTimeMaximumMs : ℤ
  hashConcurrencyLimit : ℤ
  maximumFailedCount : ℤ
  cacheTtlSeconds : ℤ
  passwordExpiryDays : ℤ
  passwordGraceDays : ℤ
  passwordMinimumChars : ℤ
  passwordMaximumChars : ℤ
  passwordAcceptableCrackTimeDays : ℤ
  passwordGuessPerSecond : ℤ
  passwordEstimateDriftFactor : ℚ
  rateLimit : RateLimitSettings
  deriving DecidableEq

def clampLoginProcess (raw : LoginProcessSettings) : LoginProcessSettings where
  processTimeMinimumMs := max 100 raw.processTimeMinimumMs
  processTimeMaximumMs := max 200 raw.processTimeMaximumMs
  hashConcurrencyLimit := min 10 (max 1 raw.hashConcurrencyLimit)
  maximumFailedCount := max 1 raw.maximumFailedCount
  cacheTtlSeconds := min 86400 (max 1 raw.cacheTtlSeconds)
  passwordExpiryDays := max 3 raw.passwordExpiryDays
  passwordGraceDays := max 3 raw.passwordGraceDays
  passwordMinimumChars := max 1 raw.passwordMinimumChars
  passwordMaximumChars := max 1 raw.passwordMaximumChars
  passwordAcceptableCrackTimeDays := max 1 raw.passwordAcceptableCrackTimeDays
  passwordGuessPerSecond := max 1 raw.passwordGuessPerSecond
  passwordEstimateDriftFactor := max 1 raw.passwordEstimateDriftFactor
  rateLimit := clampRateLimit raw.rateLimit

/-- A column read as `unknown`: a number, a string together with what
`Number` makes of it (`none` for a blank or non-numeric text), or anything
else. -/
inductive RawSetting
  | number (value : ℚ)
  | text (numeral : Option ℚ)
  | other
  deriving DecidableEq

def RawSetting.toNumber : RawSetting → Option ℚ
  | .number value => some value
  | .text numeral => numeral
  | .other => none

/-- The columns of the `system_config` row that `settings_from_row` reads. -/
structure SystemConfigRow where
  login : LoginProcessSettings
  sessionRefreshReuseGraceSeconds : ℤ
  sessionRefreshReuseWindowSeconds : ℤ
  sessionRefreshProcessTimeMinimum : ℤ
  sessionRefreshProcessTimeMaximum : ℤ
  sessionAccessTtlSeconds : RawSetting
  sessionRefreshTtlSeconds : RawSetting
  sessionTotalTtlSeconds : RawSetting
  sessionMaxRefreshRetries : RawSetting
  sessionRefreshCleanupSeconds : RawSetting
  deriving DecidableEq

structure AuthRuntimeSettings where
  login : LoginProcessSettings
  sessionAccessTtlSeconds : ℤ
  sessionRefreshTtlSeconds : ℤ
  sessionTotalTtlSeconds : ℤ
  sessionRefreshReuseGraceSeconds : ℤ
  sessionRefreshReuseWindowSeconds : ℤ
  sessionMaxRefreshRetries : ℤ
  sessionRefreshCleanupSeconds : ℤ
  sessionRefreshProcessTimeMinimum : ℤ
  sessionRefreshProcessTimeMaximum : ℤ
  deriving DecidableEq

/-- `abort` is `SessionSettingsAbortError`, which a cached value never masks. -/
inductive SettingsError
  | abort (message : String)
  | error (message : String)
  deriving DecidableEq

def requirePositiveInt (value : RawSetting) (name : String) :
    Except SettingsError ℤ :=
  match value.toNumber with
  | some n =>
      if n.isInt && decide (1 ≤ n) then .ok n.num
      else .error (.abort (name ++ " is unusable; auth abort"))
  | none => .error (.abort (name ++ " is unusable; auth abort"))

/-- A range check with the column's name in the message. -/
def requireInRange (value low high : ℤ) (name : String) :
    Except SettingsError Unit :=
  if value < low ∨ high < value then
    .error (.abort
      (name ++ " is out of range (" ++ toString value ++ "); auth abort"))
  else .ok ()

/-- Abort with `message` when `condition` holds. -/
def refuseIf (condition : Bool) (failure : SettingsError) :
    Except SettingsError Unit :=
  if condition then .error failure else .ok ()

def settingsFromRow (row : SystemConfigRow) :
    Except SettingsError AuthRuntimeSettings := do
  let grace := row.sessionRefreshReuseGraceSeconds
  let window := row.sessionRefreshReuseWindowSeconds
  let processMin := row.sessionRefreshProcessTimeMinimum
  let processMax := row.sessionRefreshProcessTimeMaximum
  requireInRange grace sessionRefreshReuseGraceMin sessionRefreshReuseGraceMax
    "session_refresh_reuse_grace_seconds"
  requireInRange processMin sessionRefreshProcessTimeMinimumMin
    sessionRefreshProcessTimeMinimumMax "session_refresh_process_time_minimum"
  requireInRange processMax sessionRefreshProcessTimeMaximumMin
    sessionRefreshProcessTimeMaximumMax "session_refresh_process_time_maximum"
  refuseIf (decide (processMin > processMax)) (.abort
    ("session_refresh_process_time_minimum must be <= " ++
      "session_refresh_process_time_maximum; auth abort"))
  refuseIf (decide (window ≤ grace)) (.abort
    ("session_refresh_reuse_window_seconds must be > " ++
      "session_refresh_reuse_grace_seconds; auth abort"))
  let access ← requirePositiveInt row.sessionAccessTtlSeconds
    "session_access_ttl_seconds"
  let refresh ← requirePositiveInt row.sessionRefreshTtlSeconds
    "session_refresh_ttl_seconds"
  let total ← requirePositiveInt row.sessionTotalTtlSeconds
    "session_total_ttl_seconds"
  let retries ← requirePositiveInt row.sessionMaxRefreshRetries
    "session_max_refresh_retries"
  let cleanup ← requirePositiveInt row.sessionRefreshCleanupSeconds
    "session_refresh_cleanup_seconds"
  let login := clampLoginProcess row.login
  refuseIf (decide (login.processTimeMinimumMs > login.processTimeMaximumMs))
    (.error "login_process_time_minimum must be <= login_process_time_maximum")
  return {
    login := login
    sessionAccessTtlSeconds := access
    sessionRefreshTtlSeconds := refresh
    sessionTotalTtlSeconds := total
    sessionRefreshReuseGraceSeconds := grace
    sessionRefreshReuseWindowSeconds := window
    sessionMaxRefreshRetries := retries
    sessionRefreshCleanupSeconds := cleanup
    sessionRefreshProcessTimeMinimum := processMin
    sessionRefreshProcessTimeMaximum := processMax }

/-- The row as the class definition creates it. -/
def defaultSystemConfigRow : SystemConfigRow where
  login :=
    { processTimeMinimumMs := 300
      processTimeMaximumMs := 500
      hashConcurrencyLimit := 4
      maximumFailedCount := 5
      cacheTtlSeconds := 900
      passwordExpiryDays := 90
      passwordGraceDays := 14
      passwordMinimumChars := 12
      passwordMaximumChars := 128
      passwordAcceptableCrackTimeDays := 1000
      passwordGuessPerSecond := 10000
      passwordEstimateDriftFactor := 11 / 10
      rateLimit :=
        { perUserThreshold := 10
          perUserSamplePeriodS := 300
          perIpThreshold := 10
          perIpSamplePeriodS := 300
          l1DelayMs := 500
          l2DelayMs := 2000
          lockoutS := 900
          maxKib := 16384 } }
  sessionRefreshReuseGraceSeconds := 15
  sessionRefreshReuseWindowSeconds := 86400
  sessionRefreshProcessTimeMinimum := 300
  sessionRefreshProcessTimeMaximum := 500
  sessionAccessTtlSeconds := .number 900
  sessionRefreshTtlSeconds := .number 604800
  sessionTotalTtlSeconds := .number 2592000
  sessionMaxRefreshRetries := .number 5
  sessionRefreshCleanupSeconds := .number 14400

def defaultSettings : AuthRuntimeSettings where
  login := defaultSystemConfigRow.login
  sessionAccessTtlSeconds := 900
  sessionRefreshTtlSeconds := 604800
  sessionTotalTtlSeconds := 2592000
  sessionRefreshReuseGraceSeconds := 15
  sessionRefreshReuseWindowSeconds := 86400
  sessionMaxRefreshRetries := 5
  sessionRefreshCleanupSeconds := 14400
  sessionRefreshProcessTimeMinimum := 300
  sessionRefreshProcessTimeMaximum := 500

/-- The defaults pass every check, and no clamp changes them. -/
theorem settingsFromRow_default :
    settingsFromRow defaultSystemConfigRow = .ok defaultSettings := by
  decide +kernel

/-- What every accepted row guarantees about the session settings. -/
structure AuthRuntimeSettings.Accepted (s : AuthRuntimeSettings) : Prop where
  access_pos : 1 ≤ s.sessionAccessTtlSeconds
  refresh_pos : 1 ≤ s.sessionRefreshTtlSeconds
  total_pos : 1 ≤ s.sessionTotalTtlSeconds
  grace_min : 5 ≤ s.sessionRefreshReuseGraceSeconds
  grace_max : s.sessionRefreshReuseGraceSeconds ≤ 60
  grace_lt_window :
    s.sessionRefreshReuseGraceSeconds < s.sessionRefreshReuseWindowSeconds

theorem one_le_of_requirePositiveInt {value : RawSetting} {name : String}
    {n : ℤ} (hok : requirePositiveInt value name = .ok n) :
    1 ≤ n := by
  unfold requirePositiveInt at hok
  cases hnumber : value.toNumber with
  | none => simp [hnumber] at hok
  | some q =>
      simp only [hnumber] at hok
      split at hok
      · rename_i hcheck
        simp only [Bool.and_eq_true, decide_eq_true_eq] at hcheck
        have hq : (q.num : ℚ) = q := Rat.coe_int_num_of_den_eq_one
          (by simpa [Rat.isInt] using hcheck.1)
        rw [← Except.ok.inj hok]
        exact_mod_cast hq.symm ▸ hcheck.2
      · cases hok

theorem bind_ok {ε β γ : Type} {x : Except ε β} {f : β → Except ε γ} {c : γ}
    (hok : (x >>= f) = .ok c) :
    ∃ b, x = .ok b ∧ f b = .ok c := by
  cases x with
  | error e => cases hok
  | ok b => exact ⟨b, rfl, hok⟩

theorem requireInRange_ok {value low high : ℤ} {name : String} {u : Unit}
    (hok : requireInRange value low high name = .ok u) :
    low ≤ value ∧ value ≤ high := by
  unfold requireInRange at hok
  split at hok
  · cases hok
  · omega

theorem refuseIf_ok {condition : Bool} {failure : SettingsError} {u : Unit}
    (hok : refuseIf condition failure = .ok u) :
    condition = false := by
  cases condition with
  | false => rfl
  | true => simp [refuseIf] at hok

theorem settingsFromRow_accepted {row : SystemConfigRow}
    {s : AuthRuntimeSettings} (hok : settingsFromRow row = .ok s) :
    s.Accepted := by
  unfold settingsFromRow at hok
  obtain ⟨_, hgrace, hok⟩ := bind_ok hok
  obtain ⟨_, _, hok⟩ := bind_ok hok
  obtain ⟨_, _, hok⟩ := bind_ok hok
  obtain ⟨_, _, hok⟩ := bind_ok hok
  obtain ⟨_, hwindow, hok⟩ := bind_ok hok
  obtain ⟨access, haccess, hok⟩ := bind_ok hok
  obtain ⟨refresh, hrefresh, hok⟩ := bind_ok hok
  obtain ⟨total, htotal, hok⟩ := bind_ok hok
  obtain ⟨_, _, hok⟩ := bind_ok hok
  obtain ⟨_, _, hok⟩ := bind_ok hok
  obtain ⟨_, _, hok⟩ := bind_ok hok
  rw [← Except.ok.inj hok]
  have hrange := requireInRange_ok hgrace
  have hnot := refuseIf_ok hwindow
  exact {
    access_pos := one_le_of_requirePositiveInt haccess
    refresh_pos := one_le_of_requirePositiveInt hrefresh
    total_pos := one_le_of_requirePositiveInt htotal
    grace_min := hrange.1
    grace_max := hrange.2
    grace_lt_window := by simpa using hnot }

end Untangled.Auth
