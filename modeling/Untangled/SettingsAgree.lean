import Untangled.SystemConfig
import Untangled.SystemConfigCoherence

/-!
# The settings of both services

The auth service clamps a `system_config` row with constants of its own, the API
with the bounds of `system_config.yaml`.  The integer `login_*` and `password_*`
settings of one row are compared.
-/

namespace Untangled.SystemConfig

open Auth Mapping Records Settings

/-! ## The class -/

def integerAttribute (name : String) (createDefault minValue : ℤ) (maxValue : Option ℤ) :
    AttributeDefinition where
  nameSnake := name
  typeName := "integer"
  required := true
  references := none
  unique := false
  createDefault := some (.int createDefault)
  minValue := some (.int minValue)
  maxValue := maxValue.map .int
  idPrefix := none
  padWidth := defaultFriendlyIdPadWidth
  startAt := none

def driftFactorAttribute : AttributeDefinition where
  nameSnake := "password_estimate_drift_factor"
  typeName := "decimal"
  required := true
  references := none
  unique := false
  createDefault := some (.str "1.1")
  minValue := some (.decimal "1")
  maxValue := some (.decimal "10")
  idPrefix := none
  padWidth := defaultFriendlyIdPadWidth
  startAt := none

/-- The attributes of `system_config.yaml`. -/
def systemConfigAttributes : List AttributeDefinition :=
  [ integerAttribute "max_search_nesting_depth" 3 1 (some 10),
    integerAttribute "max_search_nesting_length" 20 1 (some 100),
    integerAttribute "max_search_total_predicates" 50 1 (some 500),
    integerAttribute "max_search_total_regexp" 3 0 (some 20),
    integerAttribute "system_config_cache_ttl_seconds" 900 1 (some 86400),
    integerAttribute "password_minimum_chars" 12 1 (some 256),
    integerAttribute "password_maximum_chars" 128 1 (some 256),
    integerAttribute "password_acceptable_crack_time_days" 1000 100 (some 1000000),
    integerAttribute "password_guess_per_second" 10000 100 (some 1000000),
    driftFactorAttribute,
    integerAttribute "password_expiry_days" 90 3 none,
    integerAttribute "password_grace_days" 14 3 none,
    integerAttribute "login_process_time_minimum" 300 100 none,
    integerAttribute "login_process_time_maximum" 500 200 none,
    integerAttribute "login_hash_concurrency_limit" 4 1 (some 10),
    integerAttribute "login_maximum_failed_count" 5 1 none,
    integerAttribute "login_rate_limit_per_user_threshold" 10 1 none,
    integerAttribute "login_rate_limit_per_user_sample_period" 300 1 none,
    integerAttribute "login_rate_limit_per_ip_threshold" 10 1 none,
    integerAttribute "login_rate_limit_per_ip_sample_period" 300 1 none,
    integerAttribute "login_rate_limit_l1_delay" 500 0 none,
    integerAttribute "login_rate_limit_l2_delay" 2000 0 none,
    integerAttribute "login_rate_limit_lockout_seconds" 900 1 none,
    integerAttribute "login_rate_limit_max_kib" 16384 8192 (some 262144),
    integerAttribute "audit_bulk_read_window_seconds" 600 60 (some 86400),
    integerAttribute "audit_bulk_read_max_searches" 100 1 (some 100000),
    integerAttribute "session_access_ttl_seconds" 900 60 (some 86400),
    integerAttribute "session_refresh_ttl_seconds" 604800 300 (some 7776000),
    integerAttribute "session_total_ttl_seconds" 2592000 300 (some 15552000),
    integerAttribute "session_refresh_reuse_grace_seconds" 15 5 (some 60),
    integerAttribute "session_refresh_reuse_window_seconds" 86400 3600 (some 604800),
    integerAttribute "session_max_refresh_retries" 5 1 (some 10),
    integerAttribute "session_refresh_cleanup_seconds" 14400 3600 (some 259200),
    integerAttribute "session_refresh_process_time_minimum" 300 100 (some 500),
    integerAttribute "session_refresh_process_time_maximum" 500 200 (some 1000) ]

def systemConfigClass : RecordClass where
  nameSnake := "system_config"
  displayName := "System Configuration"
  description :=
    "Singleton holding general system settings operators may tune per deployment " ++
      "without a Git promote cycle. Safe for authenticated read (public: true). " ++
      "Search-limit attributes are the initial contents; the class is expected to " ++
      "grow. Secrets must not live here."
  attributes := systemConfigAttributes
  sourcePath := "system_config.yaml"
  displayAttribute := none
  isPublic := true
  permissions := ["read", "update"]
  checkConstraints :=
    [ "id = '01900000-0000-7000-8000-000000000050'::uuid",
      "password_maximum_chars > password_minimum_chars",
      "login_process_time_minimum <= login_process_time_maximum",
      "session_refresh_reuse_window_seconds > session_refresh_reuse_grace_seconds",
      "session_refresh_process_time_minimum <= session_refresh_process_time_maximum" ]
  uniqueConstraints := []
  names := by decide +kernel
  notSystem := by decide +kernel

/-! ## One row read twice -/

/-- The integer `login_*` and `password_*` columns with their settings. -/
def loginColumns (login : LoginProcessSettings) : List (String × ℤ) :=
  [ ("login_process_time_minimum", login.processTimeMinimumMs),
    ("login_process_time_maximum", login.processTimeMaximumMs),
    ("login_hash_concurrency_limit", login.hashConcurrencyLimit),
    ("login_maximum_failed_count", login.maximumFailedCount),
    ("login_rate_limit_per_user_threshold", login.rateLimit.perUserThreshold),
    ("login_rate_limit_per_user_sample_period", login.rateLimit.perUserSamplePeriodS),
    ("login_rate_limit_per_ip_threshold", login.rateLimit.perIpThreshold),
    ("login_rate_limit_per_ip_sample_period", login.rateLimit.perIpSamplePeriodS),
    ("login_rate_limit_l1_delay", login.rateLimit.l1DelayMs),
    ("login_rate_limit_l2_delay", login.rateLimit.l2DelayMs),
    ("login_rate_limit_lockout_seconds", login.rateLimit.lockoutS),
    ("login_rate_limit_max_kib", login.rateLimit.maxKib),
    ("password_expiry_days", login.passwordExpiryDays),
    ("password_grace_days", login.passwordGraceDays),
    ("password_minimum_chars", login.passwordMinimumChars),
    ("password_maximum_chars", login.passwordMaximumChars),
    ("password_acceptable_crack_time_days", login.passwordAcceptableCrackTimeDays),
    ("password_guess_per_second", login.passwordGuessPerSecond) ]

/-- The row as `RecordStore` reads it; `others` holds the columns that are not
compared. -/
def apiRow (row : SystemConfigRow) (others : Row) : Row :=
  { others with
    fields := fun f =>
      match (loginColumns row.login).lookup f with
      | some v => .int v
      | none => others.fields f }

/-- The check constraints of the table. -/
structure Checked (row : SystemConfigRow) : Prop where
  passwordChars : row.login.passwordMinimumChars < row.login.passwordMaximumChars
  processTime : row.login.processTimeMinimumMs ≤ row.login.processTimeMaximumMs
  reuseWindow : row.sessionRefreshReuseGraceSeconds < row.sessionRefreshReuseWindowSeconds
  refreshTime :
    row.sessionRefreshProcessTimeMinimum ≤ row.sessionRefreshProcessTimeMaximum

/-- The API reports every setting that the auth service runs with. -/
def SameSettings (settings : AuthRuntimeSettings) (reported : Row) : Prop :=
  ∀ column ∈ loginColumns settings.login, reported.fields column.1 = .int column.2

/-- The bounds that only `system_config.yaml` has. -/
structure InsideYamlBounds (login : LoginProcessSettings) : Prop where
  minimumChars : login.passwordMinimumChars ≤ 256
  maximumChars : login.passwordMaximumChars ≤ 256
  crackTime : 100 ≤ login.passwordAcceptableCrackTimeDays ∧
    login.passwordAcceptableCrackTimeDays ≤ 1000000
  guesses : 100 ≤ login.passwordGuessPerSecond ∧ login.passwordGuessPerSecond ≤ 1000000

/-! ## What the API reports -/

def clampInteger (value minValue : ℤ) (maxValue : Option ℤ) : ℤ :=
  let raised := if value < minValue then minValue else value
  match maxValue with
  | some upper => if upper < raised then upper else raised
  | none => raised

section Reported

variable {P : Pydantic} {less : Value → Value → Bool}

theorem clampNumber_integer
    (name : String) (value createDefault minValue : ℤ) (maxValue : Option ℤ) :
    clampNumber less (.int value) (integerAttribute name createDefault minValue maxValue) =
      .int (clampInteger value minValue maxValue) := by
  unfold clampNumber clampInteger
  cases maxValue with
  | none =>
      by_cases hlow : value < minValue <;>
        simp [integerAttribute, numberLess, boundNumber, hlow]
  | some upper =>
      by_cases hlow : value < minValue
      · by_cases hhigh : upper < minValue <;>
          simp [integerAttribute, numberLess, boundNumber, hlow, hhigh]
      · by_cases hhigh : upper < value <;>
          simp [integerAttribute, numberLess, boundNumber, hlow, hhigh]

/-- An integer that is stored for an attribute is reported within its bounds. -/
theorem loadSystemConfig_integer
    {r reported : Row} {name : String} {value createDefault minValue : ℤ}
    {maxValue : Option ℤ}
    (hload : loadSystemConfig systemConfigClass P less r = .ok reported)
    (hmem : integerAttribute name createDefault minValue maxValue ∈ systemConfigAttributes)
    (hstored : r.fields name = .int value) :
    reported.fields name = .int (clampInteger value minValue maxValue) := by
  unfold loadSystemConfig at hload
  cases hvalid : systemConfigClass.modelValidate P r with
  | none => simp [hvalid] at hload
  | some obj =>
      simp only [hvalid, Except.ok.injEq] at hload
      have hfound := RecordClass.findAttribute_of_mem (C := systemConfigClass) hmem
      have hfield := RecordClass.modelValidate_field hvalid hmem
      have htype : (Value.int value).hasType "integer" = true := by simp [Value.hasType]
      have hobj : obj.fields name = .int value := by
        change validateField P _ (r.fields name) = some (obj.fields name) at hfield
        rw [hstored, validateField_typed htype] at hfield
        exact (Option.some.inj hfield).symm
      change systemConfigClass.findAttribute name = _ at hfound
      rw [← hload, clampSystemConfig]
      simp only [hfound, hobj]
      rw [if_pos (by rfl), clampNumber_integer]

/-- What the bounds of `system_config.yaml` make of the columns. -/
def reportedColumns (login : LoginProcessSettings) : List (String × ℤ) :=
  [ ("login_process_time_minimum", clampInteger login.processTimeMinimumMs 100 none),
    ("login_process_time_maximum", clampInteger login.processTimeMaximumMs 200 none),
    ("login_hash_concurrency_limit", clampInteger login.hashConcurrencyLimit 1 (some 10)),
    ("login_maximum_failed_count", clampInteger login.maximumFailedCount 1 none),
    ("login_rate_limit_per_user_threshold",
      clampInteger login.rateLimit.perUserThreshold 1 none),
    ("login_rate_limit_per_user_sample_period",
      clampInteger login.rateLimit.perUserSamplePeriodS 1 none),
    ("login_rate_limit_per_ip_threshold", clampInteger login.rateLimit.perIpThreshold 1 none),
    ("login_rate_limit_per_ip_sample_period",
      clampInteger login.rateLimit.perIpSamplePeriodS 1 none),
    ("login_rate_limit_l1_delay", clampInteger login.rateLimit.l1DelayMs 0 none),
    ("login_rate_limit_l2_delay", clampInteger login.rateLimit.l2DelayMs 0 none),
    ("login_rate_limit_lockout_seconds", clampInteger login.rateLimit.lockoutS 1 none),
    ("login_rate_limit_max_kib", clampInteger login.rateLimit.maxKib 8192 (some 262144)),
    ("password_expiry_days", clampInteger login.passwordExpiryDays 3 none),
    ("password_grace_days", clampInteger login.passwordGraceDays 3 none),
    ("password_minimum_chars", clampInteger login.passwordMinimumChars 1 (some 256)),
    ("password_maximum_chars", clampInteger login.passwordMaximumChars 1 (some 256)),
    ("password_acceptable_crack_time_days",
      clampInteger login.passwordAcceptableCrackTimeDays 100 (some 1000000)),
    ("password_guess_per_second", clampInteger login.passwordGuessPerSecond 100 (some 1000000)) ]

/-- Default and bounds that `system_config.yaml` gives to each of the columns. -/
def integerBounds : List (String × ℤ × ℤ × Option ℤ) :=
  [ ("login_process_time_minimum", 300, 100, none),
    ("login_process_time_maximum", 500, 200, none),
    ("login_hash_concurrency_limit", 4, 1, some 10),
    ("login_maximum_failed_count", 5, 1, none),
    ("login_rate_limit_per_user_threshold", 10, 1, none),
    ("login_rate_limit_per_user_sample_period", 300, 1, none),
    ("login_rate_limit_per_ip_threshold", 10, 1, none),
    ("login_rate_limit_per_ip_sample_period", 300, 1, none),
    ("login_rate_limit_l1_delay", 500, 0, none),
    ("login_rate_limit_l2_delay", 2000, 0, none),
    ("login_rate_limit_lockout_seconds", 900, 1, none),
    ("login_rate_limit_max_kib", 16384, 8192, some 262144),
    ("password_expiry_days", 90, 3, none),
    ("password_grace_days", 14, 3, none),
    ("password_minimum_chars", 12, 1, some 256),
    ("password_maximum_chars", 128, 1, some 256),
    ("password_acceptable_crack_time_days", 1000, 100, some 1000000),
    ("password_guess_per_second", 10000, 100, some 1000000) ]

theorem integerBounds_mem : ∀ bound ∈ integerBounds,
    integerAttribute bound.1 bound.2.1 bound.2.2.1 bound.2.2.2 ∈ systemConfigAttributes := by
  decide +kernel

def clampColumn (column : String × ℤ) (bound : String × ℤ × ℤ × Option ℤ) : String × ℤ :=
  (column.1, clampInteger column.2 bound.2.2.1 bound.2.2.2)

theorem reportedColumns_eq (login : LoginProcessSettings) :
    reportedColumns login = List.zipWith clampColumn (loginColumns login) integerBounds :=
  rfl

/-- Each column stands beside its bounds, and the row has its value. -/
theorem loginColumns_stored (row : SystemConfigRow) (others : Row) :
    List.Forall₂
      (fun column bound => bound.1 = column.1 ∧
        (apiRow row others).fields column.1 = .int column.2)
      (loginColumns row.login) integerBounds := by
  unfold loginColumns integerBounds
  repeat
    first
      | exact .nil
      | refine .cons ⟨rfl, rfl⟩ ?_

/-- A column is reported within its bounds. -/
theorem loadSystemConfig_columns
    {row : SystemConfigRow} {others reported : Row}
    (hload : loadSystemConfig systemConfigClass P less (apiRow row others) = .ok reported) :
    ∀ column ∈ reportedColumns row.login, reported.fields column.1 = .int column.2 := by
  rw [reportedColumns_eq]
  have hstored := loginColumns_stored row others
  have hmem := integerBounds_mem
  generalize loginColumns row.login = columns at hstored
  generalize integerBounds = bounds at hstored hmem
  induction hstored with
  | nil => exact fun _ h => absurd h List.not_mem_nil
  | @cons column bound columns bounds hfirst _ ih =>
      rw [List.forall_mem_cons] at hmem
      rw [List.zipWith_cons_cons, List.forall_mem_cons]
      refine ⟨?_, ih hmem.2⟩
      have hattribute := hmem.1
      rw [hfirst.1] at hattribute
      exact loadSystemConfig_integer hload hattribute hfirst.2

end Reported

/-! ## Both services -/

theorem settingsFromRow_login {row : SystemConfigRow} {settings : AuthRuntimeSettings}
    (hauth : settingsFromRow row = .ok settings) :
    settings.login = clampLoginProcess row.login := by
  unfold settingsFromRow at hauth
  rcases bind_ok hauth with ⟨_, _, hauth⟩
  rcases bind_ok hauth with ⟨_, _, hauth⟩
  rcases bind_ok hauth with ⟨_, _, hauth⟩
  rcases bind_ok hauth with ⟨_, _, hauth⟩
  rcases bind_ok hauth with ⟨_, _, hauth⟩
  rcases bind_ok hauth with ⟨_, _, hauth⟩
  rcases bind_ok hauth with ⟨_, _, hauth⟩
  rcases bind_ok hauth with ⟨_, _, hauth⟩
  rcases bind_ok hauth with ⟨_, _, hauth⟩
  rcases bind_ok hauth with ⟨_, _, hauth⟩
  rcases bind_ok hauth with ⟨_, _, hauth⟩
  rw [← Except.ok.inj hauth]

/-- The two clamps differ in the upper bounds of the password lengths and in both
bounds of the crack time and the guesses. -/
theorem loginColumns_clamp_eq_iff (login : LoginProcessSettings) :
    loginColumns (clampLoginProcess login) = reportedColumns login ↔
      InsideYamlBounds login := by
  simp only [loginColumns, reportedColumns, clampLoginProcess, clampRateLimit, clampMin,
    clampInteger, List.cons.injEq, Prod.mk.injEq, true_and, and_true]
  constructor
  · intro h
    rcases h with ⟨-, -, -, -, -, -, -, -, -, -, -, -, -, -, hminimum, hmaximum, hcrack, hguesses⟩
    constructor
    · omega
    · omega
    · omega
    · omega
  · intro h
    rcases h with ⟨hminimum, hmaximum, hcrack, hguesses⟩
    refine ⟨?_, ?_, ?_, ?_, ?_, ?_, ?_, ?_, ?_, ?_, ?_, ?_, ?_, ?_, ?_, ?_, ?_, ?_⟩ <;>
      omega

theorem sameSettings_iff_columns
    {row : SystemConfigRow} {settings : AuthRuntimeSettings} {reported : Row}
    (hauth : settingsFromRow row = .ok settings)
    (hreported : ∀ column ∈ reportedColumns row.login,
      reported.fields column.1 = .int column.2) :
    SameSettings settings reported ↔
      loginColumns (clampLoginProcess row.login) = reportedColumns row.login := by
  rw [SameSettings, settingsFromRow_login hauth]
  constructor
  · intro hsame
    simp only [loginColumns, reportedColumns, List.forall_mem_cons, List.not_mem_nil,
      false_implies, implies_true, and_true] at hsame hreported
    simp_all [loginColumns, reportedColumns]
  · intro heq
    rw [heq]
    exact hreported

/-- The services run with the same settings exactly when the row keeps the bounds
that the constants of the auth service leave out. -/
theorem settings_agree_iff
    {P : Pydantic} {less : Value → Value → Bool} {row : SystemConfigRow}
    {others reported : Row} {settings : AuthRuntimeSettings}
    (hauth : settingsFromRow row = .ok settings)
    (hapi : loadSystemConfig systemConfigClass P less (apiRow row others) = .ok reported) :
    SameSettings settings reported ↔ InsideYamlBounds row.login := by
  rw [sameSettings_iff_columns hauth (loadSystemConfig_columns hapi),
    loginColumns_clamp_eq_iff]

/-- A stored row with the other columns in range. -/
def otherColumns : Row where
  id := "01900000-0000-7000-8000-000000000050"
  createdAt := 0
  updatedAt := 0
  createdBy := "01900000-0000-7000-8000-000000000006"
  updatedBy := "01900000-0000-7000-8000-000000000006"
  fields f := if f = "password_estimate_drift_factor" then .decimal "1.1" else .int 100

theorem exists_loadSystemConfig_row (less : Value → Value → Bool) (row : SystemConfigRow) :
    ∃ reported,
      loadSystemConfig systemConfigClass epochTexts less (apiRow row otherColumns) =
        .ok reported := by
  have hfields : ∀ a ∈ systemConfigClass.attributes,
      (validateField epochTexts a
        ((apiRow row otherColumns).fields a.nameSnake)).isSome = true := by
    change ∀ a ∈ systemConfigAttributes, _
    simp only [systemConfigAttributes, List.forall_mem_cons, List.not_mem_nil, false_implies,
      implies_true, and_true]
    refine ⟨?_, ?_, ?_, ?_, ?_, ?_, ?_, ?_, ?_, ?_, ?_, ?_, ?_, ?_, ?_, ?_, ?_, ?_, ?_, ?_,
      ?_, ?_, ?_, ?_, ?_, ?_, ?_, ?_, ?_, ?_, ?_, ?_, ?_, ?_, ?_⟩ <;> rfl
  have htime : (requireUtcSeconds 0).isSome = true := by decide
  rcases RecordClass.exists_modelValidate htime htime hfields with ⟨obj, hobj⟩
  exact exists_loadSystemConfig systemConfigClass epochTexts less hobj

/-- A row with columns that both services move into their range. -/
def outOfRange : SystemConfigRow :=
  { defaultSystemConfigRow with
    login :=
      { defaultSystemConfigRow.login with
        processTimeMinimumMs := 50
        hashConcurrencyLimit := 40
        passwordExpiryDays := 0
        rateLimit := { defaultSystemConfigRow.login.rateLimit with maxKib := 1 } } }

theorem outOfRange_agree :
    ∃ reported,
      loadSystemConfig systemConfigClass epochTexts (fun _ _ => false)
          (apiRow outOfRange otherColumns) = .ok reported ∧
        SameSettings { defaultSettings with login := clampLoginProcess outOfRange.login }
          reported := by
  rcases exists_loadSystemConfig_row (fun _ _ => false) outOfRange with ⟨reported, hreported⟩
  have hauth : settingsFromRow outOfRange =
      .ok { defaultSettings with login := clampLoginProcess outOfRange.login } := by
    decide +kernel
  refine ⟨reported, hreported, ?_⟩
  exact (settings_agree_iff hauth hreported).mpr ⟨by decide, by decide, by decide, by decide⟩

/-- Fifty guesses a second: the auth service reckons with them, the API reports a
hundred. -/
def fiftyGuesses : SystemConfigRow :=
  { defaultSystemConfigRow with
    login := { defaultSystemConfigRow.login with passwordGuessPerSecond := 50 } }

theorem settings_differ :
    ¬ ∀ (P : Pydantic) (less : Value → Value → Bool) (row : SystemConfigRow)
        (others reported : Row) (settings : AuthRuntimeSettings),
      Checked row → settingsFromRow row = .ok settings →
      loadSystemConfig systemConfigClass P less (apiRow row others) = .ok reported →
      SameSettings settings reported := by
  intro hsame
  rcases exists_loadSystemConfig_row (fun _ _ => false) fiftyGuesses with
    ⟨reported, hreported⟩
  have hchecked : Checked fiftyGuesses := ⟨by decide, by decide, by decide, by decide⟩
  have hauth : settingsFromRow fiftyGuesses =
      .ok { defaultSettings with login := fiftyGuesses.login } := by decide +kernel
  have hagree := hsame _ _ _ _ _ _ hchecked hauth hreported
  rw [sameSettings_iff_columns hauth (loadSystemConfig_columns hreported)] at hagree
  exact absurd hagree (by decide +kernel)

end Untangled.SystemConfig
