import Untangled.AuthTables

/-!
# Session lifetimes

`session_issue.ts`, `datetime_utc.ts` and `expiry.ts`: when a session and its
refresh token expire, and the cookie lifetimes that go with them.  Instants are
whole milliseconds; integer division by a positive number rounds down, as
`Math.floor` does.
-/

namespace Untangled.Auth

/-- `Math.floor(now.getTime() / 1000)`. -/
def floorSeconds (now : ℤ) : ℤ := now / 1000

/-- Round to the nearest whole second, half up. -/
def utcSeconds (value : ℤ) : ℤ := (value + 500) / 1000 * 1000

structure LoginSessionTimes where
  sessionExpiresAt : ℤ
  refreshExpiresAt : ℤ
  jwtTtlSeconds : ℤ
  accessMaxAge : ℤ
  refreshMaxAge : Option ℤ
  deriving DecidableEq

def loginSessionTimes (now : ℤ)
    (accessTtlSeconds refreshTtlSeconds totalTtlSeconds : ℤ)
    (mustChange : Bool) : LoginSessionTimes :=
  let issued := floorSeconds now
  let sessionExp := issued + totalTtlSeconds
  let jwtExp := issued + accessTtlSeconds
  if mustChange then
    { sessionExpiresAt := sessionExp * 1000
      refreshExpiresAt := jwtExp * 1000
      jwtTtlSeconds := accessTtlSeconds
      accessMaxAge := max 1 accessTtlSeconds
      refreshMaxAge := none }
  else
    let refreshExp := min (issued + refreshTtlSeconds) sessionExp
    let remaining := max 1 (refreshExp - issued)
    { sessionExpiresAt := sessionExp * 1000
      refreshExpiresAt := refreshExp * 1000
      jwtTtlSeconds := accessTtlSeconds
      accessMaxAge := remaining
      refreshMaxAge := some remaining }

structure RotateSessionTimes where
  refreshExpiresAt : ℤ
  maxAge : ℤ
  deriving DecidableEq

def rotateSessionTimes (now sessionExpiresAt : ℤ)
    (refreshTtlSeconds : ℤ) : RotateSessionTimes :=
  let issued := floorSeconds now
  let sessionExp := floorSeconds sessionExpiresAt
  let refreshExp := min (issued + refreshTtlSeconds) sessionExp
  { refreshExpiresAt := refreshExp * 1000
    maxAge := max 1 (refreshExp - issued) }

/-- The verdict of `classify_expiry` on a password's age. -/
inductive ExpiryVerdict
  | normalSuccess
  | mustChange
  | failure
  deriving DecidableEq

def msPerDay : ℤ := 86400000

def classifyExpiry (user : UserRow) (graceDays : ℤ) (now : ℤ) :
    ExpiryVerdict :=
  let graceEnd := user.passwordExpiresAt + graceDays * msPerDay
  if now < user.passwordExpiresAt then .normalSuccess
  else if now ≤ graceEnd then .mustChange
  else .failure

/-! ## Bounds -/

theorem floorSeconds_mul_le (now : ℤ) :
    floorSeconds now * 1000 ≤ now := by
  unfold floorSeconds
  omega

@[simp] theorem floorSeconds_mul (seconds : ℤ) :
    floorSeconds (seconds * 1000) = seconds := by
  unfold floorSeconds
  omega

@[simp] theorem loginSessionTimes_sessionExpiresAt
    (now : ℤ) (access refresh total : ℤ) (mustChange : Bool) :
    (loginSessionTimes now access refresh total mustChange).sessionExpiresAt =
      (floorSeconds now + total) * 1000 := by
  cases mustChange <;> rfl

/-- An ordinary login never promises a refresh beyond the session's cap. -/
theorem loginSessionTimes_refresh_le
    (now : ℤ) (access refresh total : ℤ) :
    (loginSessionTimes now access refresh total false).refreshExpiresAt ≤
      (loginSessionTimes now access refresh total false).sessionExpiresAt := by
  simp only [loginSessionTimes, Bool.false_eq_true, if_false]
  omega

theorem rotateSessionTimes_refresh_le
    (now sessionExpiresAt : ℤ) (refreshTtl : ℤ) :
    (rotateSessionTimes now sessionExpiresAt refreshTtl).refreshExpiresAt ≤
      sessionExpiresAt := by
  have hfloor := floorSeconds_mul_le sessionExpiresAt
  simp only [rotateSessionTimes]
  omega

/-- A cookie lifetime handed out with a rotation is at least one second. -/
theorem one_le_rotateSessionTimes_maxAge
    (now sessionExpiresAt : ℤ) (refreshTtl : ℤ) :
    1 ≤ (rotateSessionTimes now sessionExpiresAt refreshTtl).maxAge :=
  le_max_left _ _

/-- As long as a second of the session is left, the lifetime is within it. -/
theorem rotateSessionTimes_maxAge_le
    {now sessionExpiresAt : ℤ} (refreshTtl : ℤ)
    (hleft : floorSeconds now < floorSeconds sessionExpiresAt) :
    (rotateSessionTimes now sessionExpiresAt refreshTtl).maxAge ≤
      floorSeconds sessionExpiresAt - floorSeconds now := by
  simp only [rotateSessionTimes]
  omega

end Untangled.Auth
