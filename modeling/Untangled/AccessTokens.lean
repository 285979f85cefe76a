import Untangled.JsonValues
import Untangled.Records
import Untangled.UuidTexts

/-!
# Verifying access tokens

`verify_access_jwt` of the auth service, of the SSR server and of the API, for a
token with the signature of the auth key.  The libraries check the required
claims, `nbf` and `exp`, PyJWT also `iat`; the rest is checked by hand.
-/

namespace Untangled.AccessTokens

open Records

/-- An instant that Python's `datetime` has, in microseconds. -/
abbrev Instant := {micros : ℤ // inCalendar (micros / 1000000)}

/-- `Math.floor(now.getTime() / 1000)` -/
def Instant.seconds (now : Instant) : ℤ := now.val / 1000000

/-- The claims of a token; those that are times are integers. -/
structure Payload where
  iat : Option ℤ
  nbf : Option ℤ
  exp : Option ℤ
  others : String → Option Json

def Payload.get (p : Payload) (claim : String) : Option Json :=
  if claim = "iat" then p.iat.map .int
  else if claim = "nbf" then p.nbf.map .int
  else if claim = "exp" then p.exp.map .int
  else p.others claim

def Payload.text (p : Payload) (claim : String) : Option String :=
  (p.get claim).bind Json.asString

inductive AccessJwtResult
  | valid (payload : Payload)
  | expired (payload : Payload)
  | invalid

/-- The constants that each tier declares for itself. -/
structure TokenRules where
  accessTokenTyp : String
  passwordChangeRequiredClaim : String
  sessionIdClaim : String
  accessTokenIatSkewSeconds : ℤ

def authRules : TokenRules where
  accessTokenTyp := "access"
  passwordChangeRequiredClaim := "password_change_required"
  sessionIdClaim := "sid"
  accessTokenIatSkewSeconds := 60

def ssrRules : TokenRules where
  accessTokenTyp := "access"
  passwordChangeRequiredClaim := "password_change_required"
  sessionIdClaim := "sid"
  accessTokenIatSkewSeconds := 60

def apiRules : TokenRules where
  accessTokenTyp := "access"
  passwordChangeRequiredClaim := "password_change_required"
  sessionIdClaim := "sid"
  accessTokenIatSkewSeconds := 60

/-- `payload[PASSWORD_CHANGE_REQUIRED_CLAIM] === true` -/
def passwordChangeRequired (R : TokenRules) (p : Payload) : Bool :=
  (p.get R.passwordChangeRequiredClaim).any Json.isTrue

/-! ## jose -/

/-- The double that JavaScript reads an integer of a JSON text as.  Beyond
`2 ^ 53` digits are lost, but never the order. -/
structure JsNumbers where
  read : ℤ → ℤ
  read_mono : Monotone read
  read_exact : ∀ {i : ℤ}, |i| ≤ 2 ^ 53 → read i = i

section Javascript

variable (R : TokenRules) (J : JsNumbers) (p : Payload)

def requiredClaims : List String := ["sub", "iat", "exp"]

/-- `Math.floor(date.getTime() / 1000)` for `new Date(iat * 1000)`; none stands
for `NaN`, the time of a date out of range. -/
def dateSeconds (iat : ℤ) : Option ℤ :=
  if |iat| ≤ 8640000000000 then some iat else none

/-- Every comparison with `NaN` is false, so such a date passes both checks. -/
def jwtVerify (currentDate : Option ℤ) : Bool :=
  requiredClaims.all (fun claim => (p.get claim).isSome) &&
    !(currentDate.any fun clock => p.nbf.any fun nbf => clock < J.read nbf) &&
    !(currentDate.any fun clock => p.exp.any fun exp => J.read exp ≤ clock)

/-- `custom_claims_ok` of both JavaScript tiers. -/
def jsCustomClaimsOk (nowSeconds : ℤ) : Bool :=
  p.text "typ" = some R.accessTokenTyp &&
    (p.text "sub").any (fun sub => uuidRe sub.toList) &&
    (p.text R.sessionIdClaim).any (fun sid => sid ≠ "") &&
    p.iat.any fun iat => p.exp.any fun exp =>
      J.read iat < J.read exp && !(nowSeconds + R.accessTokenIatSkewSeconds < J.read iat)

def jsVerifyAccessJwt (now : Instant) : AccessJwtResult :=
  let nowSeconds := now.seconds
  if jwtVerify J p (some nowSeconds) then
    if jsCustomClaimsOk R J p nowSeconds then .valid p else .invalid
  else
    match p.iat with
    | none => .invalid
    | some iat =>
        if jwtVerify J p (dateSeconds (J.read iat)) then
          if jsCustomClaimsOk R J p nowSeconds then .expired p else .invalid
        else .invalid

/-- `verify_access_jwt` of `auth/src/jwt.ts` -/
def authVerifyAccessJwt : Instant → AccessJwtResult := jsVerifyAccessJwt authRules J p

/-- `verify_access_jwt` of `frontend/app/auth/access_jwt.ts` -/
def ssrVerifyAccessJwt : Instant → AccessJwtResult := jsVerifyAccessJwt ssrRules J p

end Javascript

/-! ## PyJWT -/

inductive DecodeFailure
  | expiredSignature
  | other
  deriving DecidableEq

section Python

variable (R : TokenRules) (I : IntBase16) (p : Payload)

/-- `jwt.decode` of a token with the right signature. -/
def jwtDecode (now : Instant) (verifyExp : Bool) : Except DecodeFailure Payload :=
  if !requiredClaims.all (fun claim => (p.get claim).any fun v => !v.isNull) then
    .error .other
  else if p.iat.any fun iat => now.val < iat * 1000000 then .error .other
  else if p.nbf.any fun nbf => now.val < nbf * 1000000 then .error .other
  else if verifyExp && p.exp.any fun exp => exp * 1000000 ≤ now.val then
    .error .expiredSignature
  else .ok p

/-- `_custom_claims_ok` -/
def customClaimsOk (now : Instant) : Bool :=
  p.text "typ" = some R.accessTokenTyp &&
    (p.text "sub").any (fun sub => sub ≠ "" && (pythonUuid I sub.toList).isSome) &&
    (p.text R.sessionIdClaim).any (fun sid => sid ≠ "") &&
    p.iat.any fun iat => p.exp.any fun exp =>
      iat < exp && !(now.val + R.accessTokenIatSkewSeconds * 1000000 < iat * 1000000)

/-- `verify_access_jwt` of `auth/tokens.py` -/
def apiVerifyAccessJwt (now : Instant) : AccessJwtResult :=
  match jwtDecode p now true with
  | .ok payload => if customClaimsOk apiRules I payload now then .valid payload else .invalid
  | .error .other => .invalid
  | .error .expiredSignature =>
      match jwtDecode p now false with
      | .error _ => .invalid
      | .ok payload =>
          if customClaimsOk apiRules I payload now then .expired payload else .invalid

end Python

/-! ## Agreement -/

/-- The user of a token for the JavaScript tiers. -/
def jsUser (p : Payload) : Option ℕ :=
  (p.text "sub").map fun sub => uuidOfText sub.toList

/-- `UUID(payload["sub"])` -/
def apiUser (I : IntBase16) (p : Payload) : Option ℕ :=
  (p.text "sub").bind fun sub => pythonUuid I sub.toList

/-- The same kind and, if valid, the same user and flag. -/
def SameVerdict (R : TokenRules) (I : IntBase16) : AccessJwtResult → AccessJwtResult → Prop
  | .valid p, .valid q =>
      jsUser p = apiUser I q ∧ passwordChangeRequired R p = passwordChangeRequired apiRules q
  | .expired _, .expired _ => True
  | .invalid, .invalid => True
  | _, _ => False

/-- No `nbf`, or one that has come. -/
def Payload.NotBeforeBy (p : Payload) (clock : ℤ) : Prop :=
  ∀ nbf ∈ p.nbf, nbf ≤ clock

/-- The claims that the three tiers read alike. -/
structure Payload.Shaped (p : Payload) (iat exp : ℤ) (sub : String) : Prop where
  iat : p.iat = some iat
  exp : p.exp = some exp
  sub : p.text "sub" = some sub
  typ : p.text "typ" = some "access"
  sid : ∃ sid, p.text "sid" = some sid ∧ sid ≠ ""

/-- Issued within the next minute: PyJWT rejects what the skew would allow. -/
def IssuedAhead (p : Payload) (iat exp : ℤ) (sub : String) (now : ℤ) : Prop :=
  now < iat ∧ iat ≤ now + 60 ∧ iat < exp ∧ p.NotBeforeBy iat ∧ uuidRe sub.toList = true

/-- A user id that only `UUID` takes. -/
def SpelledOtherwise (I : IntBase16) (p : Payload) (iat exp : ℤ) (sub : String) (now : ℤ) :
    Prop :=
  iat ≤ now ∧ iat < exp ∧ p.NotBeforeBy now ∧ uuidRe sub.toList = false ∧
    sub ≠ "" ∧ (pythonUuid I sub.toList).isSome = true

/-- An expired token whose `nbf` lies after its `iat`, or whose `exp` JavaScript
cannot tell from its `iat`. -/
def ExpiredApart (J : JsNumbers) (p : Payload) (iat exp : ℤ) (sub : String) (now : ℤ) :
    Prop :=
  iat < exp ∧ exp ≤ now ∧ p.NotBeforeBy now ∧ uuidRe sub.toList = true ∧
    ((|iat| ≤ 8640000000000 ∧ ¬ p.NotBeforeBy iat) ∨ J.read exp ≤ J.read iat)

/-- Issued before any date of JavaScript, so that its `nbf` is not looked at. -/
def IssuedLongAgo (J : JsNumbers) (p : Payload) (iat exp : ℤ) (sub : String) (now : ℤ) :
    Prop :=
  iat < -8640000000000 ∧ ¬ p.NotBeforeBy now ∧ J.read iat < J.read exp ∧
    uuidRe sub.toList = true

def Apart (J : JsNumbers) (I : IntBase16) (p : Payload) (now : ℤ) : Prop :=
  ∃ iat exp sub, p.Shaped iat exp sub ∧
    (IssuedAhead p iat exp sub now ∨ SpelledOtherwise I p iat exp sub now ∨
      ExpiredApart J p iat exp sub now ∨ IssuedLongAgo J p iat exp sub now)

/-! ## Numbers -/

section Numbers

variable {J : JsNumbers} {a b : ℤ}

theorem lt_read_iff (hb : |b| < 2 ^ 53) : b < J.read a ↔ b < a := by
  rw [abs_lt] at hb
  constructor
  · intro h
    by_contra hle
    have hmono := J.read_mono (not_lt.mp hle)
    have hexact : J.read b = b := J.read_exact (abs_le.mpr ⟨by omega, by omega⟩)
    omega
  · intro h
    have hmono := J.read_mono (show b + 1 ≤ a by omega)
    have hexact : J.read (b + 1) = b + 1 :=
      J.read_exact (abs_le.mpr ⟨by omega, by omega⟩)
    omega

theorem read_le_iff (hb : |b| < 2 ^ 53) : J.read a ≤ b ↔ a ≤ b := by
  rw [← not_lt, lt_read_iff hb, not_lt]

theorem read_lt_iff (hb : |b| < 2 ^ 53) : J.read a < b ↔ a < b := by
  rw [abs_lt] at hb
  constructor
  · intro h
    by_contra hle
    have hmono := J.read_mono (not_lt.mp hle)
    have hexact : J.read b = b := J.read_exact (abs_le.mpr ⟨by omega, by omega⟩)
    omega
  · intro h
    have hmono := J.read_mono (show a ≤ b - 1 by omega)
    have hexact : J.read (b - 1) = b - 1 :=
      J.read_exact (abs_le.mpr ⟨by omega, by omega⟩)
    omega

/-- A date in range is read without loss. -/
theorem dateSeconds_read (iat : ℤ) :
    dateSeconds (J.read iat) = if |iat| ≤ 8640000000000 then some iat else none := by
  unfold dateSeconds
  by_cases hiat : |iat| ≤ 8640000000000
  · have hexact : J.read iat = iat := J.read_exact (by omega)
    rw [hexact, if_pos hiat]
  · have hread : ¬ |J.read iat| ≤ 8640000000000 := by
      rw [abs_le, not_and_or, not_le, not_le] at hiat ⊢
      rcases hiat with hlow | hhigh
      · exact Or.inl ((read_lt_iff (by norm_num)).mpr hlow)
      · exact Or.inr ((lt_read_iff (by norm_num)).mpr hhigh)
    rw [if_neg hiat, if_neg hread]

end Numbers

/-! ## The verdict on a token of the common shape -/

section Shaped

variable {J : JsNumbers} {I : IntBase16} {p : Payload} {now : Instant} {iat exp : ℤ}
  {sub : String}

theorem Instant.seconds_bounds (now : Instant) :
    -62135596800 ≤ now.seconds ∧ now.seconds ≤ 253402300799 :=
  now.property

theorem Instant.abs_seconds_lt (now : Instant) (skew : ℤ) (hskew : 0 ≤ skew ∧ skew ≤ 60) :
    |now.seconds + skew| < 2 ^ 53 := by
  have hbounds := now.seconds_bounds
  rw [abs_lt]
  constructor <;> omega

theorem Payload.NotBeforeBy.mono {a b : ℤ} (hab : a ≤ b) (h : p.NotBeforeBy a) :
    p.NotBeforeBy b := by
  intro nbf hnbf
  exact le_trans (h nbf hnbf) hab

theorem Payload.Shaped.required (h : p.Shaped iat exp sub) :
    requiredClaims.all (fun claim => (p.get claim).any fun v => !v.isNull) = true := by
  have hsub := h.sub
  unfold Payload.text at hsub
  cases hget : p.get "sub" with
  | none => simp [hget] at hsub
  | some v =>
      cases v <;> simp [hget, Json.asString] at hsub
      simp only [requiredClaims, List.all_cons, List.all_nil, hget]
      simp [Payload.get, h.iat, h.exp, Json.isNull]

theorem Payload.Shaped.present (h : p.Shaped iat exp sub) :
    requiredClaims.all (fun claim => (p.get claim).isSome) = true := by
  have hrequired := h.required
  rw [List.all_eq_true] at hrequired ⊢
  intro claim hclaim
  have hsome := hrequired claim hclaim
  cases hget : p.get claim with
  | none => simp [hget] at hsome
  | some v => rfl

theorem jwtVerify_now (h : p.Shaped iat exp sub) :
    jwtVerify J p (some now.seconds) = true ↔
      p.NotBeforeBy now.seconds ∧ now.seconds < exp := by
  have hsmall : |now.seconds| < 2 ^ 53 := by
    simpa using now.abs_seconds_lt 0 ⟨by norm_num, by norm_num⟩
  unfold jwtVerify Payload.NotBeforeBy
  rw [h.present, h.exp]
  cases hnbf : p.nbf with
  | none => simp [lt_read_iff hsmall]
  | some nbf => simp [lt_read_iff hsmall, read_le_iff hsmall]

/-- The second look takes the token as of its `iat`. -/
theorem jwtVerify_issued (h : p.Shaped iat exp sub) (hlater : J.read iat < J.read exp) :
    jwtVerify J p (dateSeconds (J.read iat)) = true ↔
      (|iat| ≤ 8640000000000 → p.NotBeforeBy iat) := by
  rw [dateSeconds_read]
  unfold jwtVerify Payload.NotBeforeBy
  rw [h.present, h.exp]
  by_cases hiat : |iat| ≤ 8640000000000
  · have hexact : J.read iat = iat := J.read_exact (by omega)
    have hsmall : |iat| < 2 ^ 53 := by omega
    rw [hexact, lt_read_iff hsmall] at hlater
    cases hnbf : p.nbf with
    | none => simp [hiat, hlater, read_le_iff hsmall]
    | some nbf => simp [hiat, hlater, read_le_iff hsmall]
  · simp [hiat]

theorem jsCustomClaimsOk_iff (now : Instant) (h : p.Shaped iat exp sub) :
    jsCustomClaimsOk authRules J p now.seconds = true ↔
      uuidRe sub.toList = true ∧ J.read iat < J.read exp ∧ iat ≤ now.seconds + 60 := by
  have hsmall := now.abs_seconds_lt 60 ⟨by norm_num, by norm_num⟩
  rcases h.sid with ⟨sid, hsid, hne⟩
  unfold jsCustomClaimsOk
  simp only [authRules, h.typ, h.sub, hsid, h.iat, h.exp, Option.any_some]
  simp only [hne, ne_eq, not_false_eq_true, decide_true, Bool.true_and, Bool.and_true,
    Bool.and_eq_true, decide_eq_true_eq, Bool.not_eq_true', decide_eq_false_iff_not,
    lt_read_iff hsmall, not_lt]

theorem js_valid_iff (h : p.Shaped iat exp sub) :
    authVerifyAccessJwt J p now = .valid p ↔
      (p.NotBeforeBy now.seconds ∧ now.seconds < exp) ∧
        uuidRe sub.toList = true ∧ J.read iat < J.read exp ∧ iat ≤ now.seconds + 60 := by
  rw [← jwtVerify_now h (J := J), ← jsCustomClaimsOk_iff now h, authVerifyAccessJwt,
    jsVerifyAccessJwt, h.iat]
  by_cases hnow : jwtVerify J p (some now.seconds) = true
  · by_cases hclaims : jsCustomClaimsOk authRules J p now.seconds = true <;>
      simp [hnow, hclaims]
  · by_cases hissued : jwtVerify J p (dateSeconds (J.read iat)) = true <;>
      by_cases hclaims : jsCustomClaimsOk authRules J p now.seconds = true <;>
        simp [hnow, hissued, hclaims]

theorem js_expired_iff (h : p.Shaped iat exp sub) :
    authVerifyAccessJwt J p now = .expired p ↔
      ¬ (p.NotBeforeBy now.seconds ∧ now.seconds < exp) ∧
        (|iat| ≤ 8640000000000 → p.NotBeforeBy iat) ∧
        uuidRe sub.toList = true ∧ J.read iat < J.read exp ∧ iat ≤ now.seconds + 60 := by
  have hclaims := jsCustomClaimsOk_iff (J := J) now h
  rw [← jwtVerify_now h (J := J), ← hclaims, authVerifyAccessJwt, jsVerifyAccessJwt, h.iat]
  by_cases hok : jsCustomClaimsOk authRules J p now.seconds = true
  · have hissued := jwtVerify_issued h (hclaims.mp hok).2.1
    by_cases hnow : jwtVerify J p (some now.seconds) = true
    · simp [hnow, hok]
    · by_cases hfirst : jwtVerify J p (dateSeconds (J.read iat)) = true
      · simpa [hnow, hok, hfirst] using hissued.mp hfirst
      · simp [hnow, hok, hfirst, ← hissued]
  · by_cases hnow : jwtVerify J p (some now.seconds) = true <;> simp [hnow, hok]

theorem later_seconds_iff (now : Instant) (t : ℤ) : now.val < t * 1000000 ↔ now.seconds < t := by
  unfold Instant.seconds
  constructor <;> intro h <;> omega

theorem by_seconds_iff (now : Instant) (t : ℤ) : t * 1000000 ≤ now.val ↔ t ≤ now.seconds := by
  rw [← not_lt, later_seconds_iff, not_lt]

theorem jwtDecode_early (h : p.Shaped iat exp sub) {verifyExp : Bool}
    (hearly : ¬ (iat ≤ now.seconds ∧ p.NotBeforeBy now.seconds)) :
    jwtDecode p now verifyExp = .error .other := by
  unfold jwtDecode
  rw [h.required, h.iat]
  by_cases hiat : iat ≤ now.seconds
  · cases hnbf : p.nbf with
    | none => exact absurd ⟨hiat, by simp [Payload.NotBeforeBy, hnbf]⟩ hearly
    | some nbf =>
        have hlater : now.seconds < nbf := by
          by_contra hnot
          exact hearly ⟨hiat, by simpa [Payload.NotBeforeBy, hnbf] using hnot⟩
        simp [later_seconds_iff, hlater]
  · simp [later_seconds_iff, not_le.mp hiat]

theorem jwtDecode_due (h : p.Shaped iat exp sub) {verifyExp : Bool}
    (hiat : iat ≤ now.seconds) (hnbf : p.NotBeforeBy now.seconds) :
    jwtDecode p now verifyExp =
      if verifyExp = true ∧ exp ≤ now.seconds then .error .expiredSignature else .ok p := by
  unfold jwtDecode
  rw [h.required, h.iat, h.exp]
  cases hcase : p.nbf with
  | none => simp [later_seconds_iff, by_seconds_iff, not_lt.mpr hiat]
  | some nbf =>
      have hle : nbf ≤ now.seconds := hnbf nbf hcase
      simp [later_seconds_iff, by_seconds_iff, not_lt.mpr hiat, not_lt.mpr hle]

/-- `UUID` takes the user id. -/
def UuidTakes (I : IntBase16) (sub : String) : Prop :=
  sub ≠ "" ∧ (pythonUuid I sub.toList).isSome = true

theorem customClaimsOk_iff (h : p.Shaped iat exp sub) (hiat : iat ≤ now.seconds) :
    customClaimsOk apiRules I p now = true ↔ UuidTakes I sub ∧ iat < exp := by
  rcases h.sid with ⟨sid, hsid, hne⟩
  have hskew : ¬ now.val + 60 * 1000000 < iat * 1000000 := by
    have hby := (by_seconds_iff now iat).mpr hiat
    omega
  unfold customClaimsOk UuidTakes
  simp only [apiRules, h.typ, h.sub, hsid, h.iat, h.exp, Option.any_some]
  simp only [hne, hskew, ne_eq, not_false_eq_true, decide_true, decide_false, Bool.true_and,
    Bool.and_true, Bool.not_false, Bool.and_eq_true, decide_eq_true_eq]

theorem api_valid_iff (h : p.Shaped iat exp sub) :
    apiVerifyAccessJwt I p now = .valid p ↔
      (iat ≤ now.seconds ∧ p.NotBeforeBy now.seconds) ∧ now.seconds < exp ∧
        UuidTakes I sub ∧ iat < exp := by
  unfold apiVerifyAccessJwt
  by_cases hdue : iat ≤ now.seconds ∧ p.NotBeforeBy now.seconds
  · have hclaims := customClaimsOk_iff h (I := I) hdue.1
    rw [jwtDecode_due h hdue.1 hdue.2, jwtDecode_due h hdue.1 hdue.2, ← hclaims]
    by_cases hexp : exp ≤ now.seconds
    · by_cases hok : customClaimsOk apiRules I p now = true <;> simp [hexp, hok]
    · by_cases hok : customClaimsOk apiRules I p now = true <;>
        simp [hdue, hexp, hok, not_le.mp hexp]
  · rw [jwtDecode_early h hdue]
    simp [hdue]

theorem api_expired_iff (h : p.Shaped iat exp sub) :
    apiVerifyAccessJwt I p now = .expired p ↔
      (iat ≤ now.seconds ∧ p.NotBeforeBy now.seconds) ∧ exp ≤ now.seconds ∧
        UuidTakes I sub ∧ iat < exp := by
  unfold apiVerifyAccessJwt
  by_cases hdue : iat ≤ now.seconds ∧ p.NotBeforeBy now.seconds
  · have hclaims := customClaimsOk_iff h (I := I) hdue.1
    rw [jwtDecode_due h hdue.1 hdue.2, jwtDecode_due h hdue.1 hdue.2, ← hclaims]
    by_cases hexp : exp ≤ now.seconds
    · by_cases hok : customClaimsOk apiRules I p now = true <;> simp [hdue, hexp, hok]
    · by_cases hok : customClaimsOk apiRules I p now = true <;> simp [hexp, hok]
  · rw [jwtDecode_early h hdue]
    simp [hdue]

end Shaped

/-! ## The three tiers -/

section Agreement

variable {J : JsNumbers} {I : IntBase16} {p : Payload} {now : Instant}

theorem shaped_of_jsCustomClaimsOk {nowSeconds : ℤ}
    (h : jsCustomClaimsOk authRules J p nowSeconds = true) :
    ∃ iat exp sub, p.Shaped iat exp sub := by
  simp only [jsCustomClaimsOk, authRules, Bool.and_eq_true, decide_eq_true_eq,
    Option.any_eq_true] at h
  rcases h with ⟨⟨⟨htyp, sub, hsub, _⟩, sid, hsid, hne⟩, iat, hiat, exp, hexp, _⟩
  exact ⟨iat, exp, sub, hiat, hexp, hsub, of_decide_eq_true htyp, sid, hsid, hne⟩

theorem shaped_of_customClaimsOk (h : customClaimsOk apiRules I p now = true) :
    ∃ iat exp sub, p.Shaped iat exp sub := by
  simp only [customClaimsOk, apiRules, Bool.and_eq_true, decide_eq_true_eq,
    Option.any_eq_true] at h
  rcases h with ⟨⟨⟨htyp, sub, hsub, _⟩, sid, hsid, hne⟩, iat, hiat, exp, hexp, _⟩
  exact ⟨iat, exp, sub, hiat, hexp, hsub, of_decide_eq_true htyp, sid, hsid, hne⟩

theorem js_cases (J : JsNumbers) (p : Payload) (now : Instant) :
    authVerifyAccessJwt J p now = .invalid ∨
      (jsCustomClaimsOk authRules J p now.seconds = true ∧
        (authVerifyAccessJwt J p now = .valid p ∨
          authVerifyAccessJwt J p now = .expired p)) := by
  unfold authVerifyAccessJwt jsVerifyAccessJwt
  by_cases hclaims : jsCustomClaimsOk authRules J p now.seconds = true
  · cases hiat : p.iat with
    | none => by_cases hnow : jwtVerify J p (some now.seconds) = true <;> simp [hnow, hclaims]
    | some iat =>
        by_cases hnow : jwtVerify J p (some now.seconds) = true
        · simp [hnow, hclaims]
        · by_cases hissued : jwtVerify J p (dateSeconds (J.read iat)) = true <;>
            simp [hnow, hissued, hclaims]
  · cases hiat : p.iat with
    | none => by_cases hnow : jwtVerify J p (some now.seconds) = true <;> simp [hnow, hclaims]
    | some iat =>
        by_cases hnow : jwtVerify J p (some now.seconds) = true <;> simp [hnow, hclaims]

theorem api_cases (I : IntBase16) (p : Payload) (now : Instant) :
    apiVerifyAccessJwt I p now = .invalid ∨
      (customClaimsOk apiRules I p now = true ∧
        (apiVerifyAccessJwt I p now = .valid p ∨
          apiVerifyAccessJwt I p now = .expired p)) := by
  have hdecode : ∀ verifyExp q, jwtDecode p now verifyExp = .ok q → q = p := by
    intro verifyExp q h
    unfold jwtDecode at h
    split_ifs at h
    exact (Except.ok.inj h).symm
  unfold apiVerifyAccessJwt
  cases hfirst : jwtDecode p now true with
  | ok q =>
      have hq := hdecode true q hfirst
      subst hq
      by_cases hclaims : customClaimsOk apiRules I q now = true <;> simp [hclaims]
  | error failure =>
      cases failure with
      | other => simp
      | expiredSignature =>
          cases hsecond : jwtDecode p now false with
          | error failure => simp
          | ok q =>
              have hq := hdecode false q hsecond
              subst hq
              by_cases hclaims : customClaimsOk apiRules I q now = true <;> simp [hclaims]

theorem sameVerdict_iff
    {a b : AccessJwtResult}
    (ha : a = .invalid ∨ a = .valid p ∨ a = .expired p)
    (hb : b = .invalid ∨ b = .valid p ∨ b = .expired p)
    (huser : a = .valid p → jsUser p = apiUser I p) :
    SameVerdict authRules I a b ↔
      ((a = .valid p ↔ b = .valid p) ∧ (a = .expired p ↔ b = .expired p)) := by
  rcases ha with rfl | rfl | rfl
  · rcases hb with rfl | rfl | rfl <;> simp [SameVerdict]
  · have heq := huser rfl
    rcases hb with rfl | rfl | rfl <;> simp [SameVerdict, heq, authRules, apiRules]
  · rcases hb with rfl | rfl | rfl <;> simp [SameVerdict]

theorem lt_of_read_lt {a b : ℤ} (h : J.read a < J.read b) : a < b := by
  by_contra hle
  have hmono := J.read_mono (not_lt.mp hle)
  omega

theorem uuidTakes_of_uuidRe {sub : String} (hre : uuidRe sub.toList = true) :
    UuidTakes I sub := by
  have hsome := pythonUuid_of_uuidRe I hre
  refine ⟨?_, by rw [hsome]; rfl⟩
  rintro rfl
  cases hre

/-- How the verdicts on a token of the common shape compare. -/
def SameKinds (J : JsNumbers) (I : IntBase16) (p : Payload) (now : Instant) : Prop :=
  (authVerifyAccessJwt J p now = .valid p ↔ apiVerifyAccessJwt I p now = .valid p) ∧
    (authVerifyAccessJwt J p now = .expired p ↔ apiVerifyAccessJwt I p now = .expired p)

section Kinds

variable {iat exp : ℤ} {sub : String}

/-- PyJWT rejects; JavaScript reads such an `iat` exactly. -/
theorem sameKinds_ahead (h : p.Shaped iat exp sub) (hahead : now.seconds < iat) :
    SameKinds J I p now ↔ ¬ IssuedAhead p iat exp sub now.seconds := by
  have hbounds := now.seconds_bounds
  have hnot : ¬ iat ≤ now.seconds := not_le.mpr hahead
  rw [SameKinds, js_valid_iff h, js_expired_iff h, api_valid_iff h, api_expired_iff h]
  unfold IssuedAhead
  by_cases hskew : iat ≤ now.seconds + 60
  · have hiat : |iat| ≤ 8640000000000 := by rw [abs_le]; constructor <;> omega
    have hread : J.read iat = iat := J.read_exact (by omega)
    have hlater : J.read iat < J.read exp ↔ iat < exp := by
      rw [hread, lt_read_iff (by omega)]
    rw [hlater]
    simp only [hnot, hahead, hskew, hiat, false_and, true_and, and_true, iff_false,
      true_implies]
    by_cases hnow : p.NotBeforeBy now.seconds ∧ now.seconds < exp
    · have hissued : p.NotBeforeBy iat := hnow.1.mono hahead.le
      simp [hnow, hissued, and_comm]
    · by_cases hlt : iat < exp
      · simp [hnow, hlt]
      · simp [hnow, hlt]
  · simp [hnot, hskew]

theorem sameKinds_due (h : p.Shaped iat exp sub) (hdue : iat ≤ now.seconds) :
    SameKinds J I p now ↔
      ¬ (SpelledOtherwise I p iat exp sub now.seconds ∨
        ExpiredApart J p iat exp sub now.seconds ∨
        IssuedLongAgo J p iat exp sub now.seconds) := by
  have hbounds := now.seconds_bounds
  have hsmall := now.abs_seconds_lt 0 ⟨by norm_num, by norm_num⟩
  rw [add_zero] at hsmall
  have hskew : iat ≤ now.seconds + 60 := by omega
  have hrange : iat < -8640000000000 ↔ ¬ |iat| ≤ 8640000000000 := by
    rw [abs_le]
    omega
  have htakes : uuidRe sub.toList = true → UuidTakes I sub := uuidTakes_of_uuidRe
  rw [SameKinds, js_valid_iff h, js_expired_iff h, api_valid_iff h, api_expired_iff h]
  unfold SpelledOtherwise ExpiredApart IssuedLongAgo
  change _ ↔ ¬ ((_ ∧ _ ∧ _ ∧ _ ∧ UuidTakes I sub) ∨ _ ∨ _)
  rw [hrange]
  by_cases hnow : p.NotBeforeBy now.seconds
  · by_cases hexp : now.seconds < exp
    · -- valid for both, but for the spelling of the user
      have hlt : iat < exp := by omega
      have hread : J.read iat < J.read exp := by
        have hle := (read_le_iff (J := J) hsmall).mpr hdue
        have hlater := (lt_read_iff (J := J) hsmall).mpr hexp
        omega
      cases hre : uuidRe sub.toList with
      | true => simp [hnow, hexp, hlt, hread, hdue, hskew, htakes hre, not_le.mpr hexp]
      | false => simp [hnow, hexp, hlt, hdue]
    · -- expired, if at all
      have hle : exp ≤ now.seconds := not_lt.mp hexp
      cases hre : uuidRe sub.toList with
      | true =>
          by_cases hread : J.read iat < J.read exp
          · have hlt : iat < exp := lt_of_read_lt hread
            simp [hnow, hexp, hle, hlt, hread, hdue, hskew, htakes hre, not_le.mpr hread]
          · simp [hnow, hexp, hle, hread, hdue, htakes hre, not_lt.mp hread]
      | false =>
          by_cases hlt : iat < exp
          · simp [hnow, hexp, hle, hdue, hlt]
          · simp [hnow, hexp, hle, hlt]
  · have hissued : ¬ p.NotBeforeBy iat := fun hissued => hnow (hissued.mono hdue)
    cases hre : uuidRe sub.toList with
    | true => simp [hnow, hissued, hskew]
    | false => simp [hnow]

end Kinds

/-- The tiers agree: both JavaScript tiers give one verdict, and it is that of the
API. -/
def TiersAgree (J : JsNumbers) (I : IntBase16) (p : Payload) (now : Instant) : Prop :=
  ssrVerifyAccessJwt J p now = authVerifyAccessJwt J p now ∧
    SameVerdict authRules I (authVerifyAccessJwt J p now) (apiVerifyAccessJwt I p now) ∧
    SameVerdict ssrRules I (ssrVerifyAccessJwt J p now) (apiVerifyAccessJwt I p now)

theorem verifiers_agree_iff (J : JsNumbers) (I : IntBase16) (p : Payload) (now : Instant) :
    TiersAgree J I p now ↔ ¬ Apart J I p now.seconds := by
  have hauth : TiersAgree J I p now ↔
      SameVerdict authRules I (authVerifyAccessJwt J p now) (apiVerifyAccessJwt I p now) :=
    ⟨fun h => h.2.1, fun h => ⟨rfl, h, h⟩⟩
  rw [hauth]
  by_cases hshaped : ∃ iat exp sub, p.Shaped iat exp sub
  · rcases hshaped with ⟨iat, exp, sub, hshaped⟩
    have huser : authVerifyAccessJwt J p now = .valid p → jsUser p = apiUser I p := by
      intro hvalid
      have hre := ((js_valid_iff hshaped).mp hvalid).2.1
      rw [jsUser, apiUser, hshaped.sub, Option.map_some, Option.bind_some,
        pythonUuid_of_uuidRe I hre]
    have hapart : Apart J I p now.seconds ↔
        (IssuedAhead p iat exp sub now.seconds ∨
          SpelledOtherwise I p iat exp sub now.seconds ∨
          ExpiredApart J p iat exp sub now.seconds ∨
          IssuedLongAgo J p iat exp sub now.seconds) := by
      constructor
      · rintro ⟨iat', exp', sub', hother, hcases⟩
        cases hshaped.iat.symm.trans hother.iat
        cases hshaped.exp.symm.trans hother.exp
        cases hshaped.sub.symm.trans hother.sub
        exact hcases
      · intro hcases
        exact ⟨iat, exp, sub, hshaped, hcases⟩
    have hkinds : SameKinds J I p now ↔ ¬ Apart J I p now.seconds := by
      rw [hapart]
      rcases lt_or_ge now.seconds iat with hahead | hdue
      · rw [sameKinds_ahead hshaped hahead]
        have hnot : ¬ iat ≤ now.seconds := not_le.mpr hahead
        have hbounds := now.seconds_bounds
        have hspelled : ¬ SpelledOtherwise I p iat exp sub now.seconds := fun h => hnot h.1
        have hexpired : ¬ ExpiredApart J p iat exp sub now.seconds := by
          intro h
          have hlt := h.1
          have hle := h.2.1
          omega
        have hlong : ¬ IssuedLongAgo J p iat exp sub now.seconds := by
          intro h
          have hlt := h.1
          omega
        simp [hspelled, hexpired, hlong]
      · rw [sameKinds_due hshaped hdue]
        have hissued : ¬ IssuedAhead p iat exp sub now.seconds := by
          intro h
          exact absurd h.1 (not_lt.mpr hdue)
        simp [hissued]
    rw [← hkinds]
    exact sameVerdict_iff ((js_cases J p now).imp id And.right)
      ((api_cases I p now).imp id And.right) huser
  · have hapart : ¬ Apart J I p now.seconds := by
      rintro ⟨iat, exp, sub, hother, _⟩
      exact hshaped ⟨iat, exp, sub, hother⟩
    have hjs : authVerifyAccessJwt J p now = .invalid := by
      rcases js_cases J p now with h | ⟨hclaims, _⟩
      · exact h
      · exact absurd (shaped_of_jsCustomClaimsOk hclaims) hshaped
    have hapi : apiVerifyAccessJwt I p now = .invalid := by
      rcases api_cases I p now with h | ⟨hclaims, _⟩
      · exact h
      · exact absurd (shaped_of_customClaimsOk hclaims) hshaped
    rw [hjs, hapi]
    exact ⟨fun _ => hapart, fun _ => trivial⟩

end Agreement

/-! ## A token issued half a minute ahead -/

def exactNumbers : JsNumbers where
  read := id
  read_mono := monotone_id
  read_exact := fun _ => rfl

/-- `int` of the texts that are hexadecimal digits throughout. -/
def hexOnly : IntBase16 where
  parse digits :=
    if digits ≠ [] ∧ digits.all isHexDigit = true then some (hexNumber digits : ℤ) else none
  parse_hex := by
    intro digits hne hall
    rw [if_pos ⟨hne, hall⟩]

def aheadPayload : Payload where
  iat := some 1700000030
  nbf := none
  exp := some 1700000930
  others claim :=
    if claim = "sub" then some (.str "01900000-0000-7000-8000-000000000006")
    else if claim = "typ" then some (.str "access")
    else if claim = "sid" then some (.str "session")
    else none

def aheadInstant : Instant := ⟨1700000000 * 1000000, by decide⟩

theorem ahead_rejected_by_api :
    ¬ ∀ (J : JsNumbers) (I : IntBase16) (p : Payload) (now : Instant),
      TiersAgree J I p now := by
  intro hagree
  have hshaped : aheadPayload.Shaped 1700000030 1700000930
      "01900000-0000-7000-8000-000000000006" :=
    ⟨rfl, rfl, rfl, rfl, "session", rfl, by decide⟩
  have hvalid : authVerifyAccessJwt exactNumbers aheadPayload aheadInstant =
      .valid aheadPayload := by
    rw [js_valid_iff hshaped]
    refine ⟨⟨?_, by decide⟩, by decide +kernel, by decide, by decide⟩
    intro nbf hnbf
    cases hnbf
  have hinvalid : apiVerifyAccessJwt hexOnly aheadPayload aheadInstant = .invalid := by
    rw [apiVerifyAccessJwt, jwtDecode_early hshaped]
    intro hdue
    exact absurd hdue.1 (by decide)
  have hsame := (hagree exactNumbers hexOnly aheadPayload aheadInstant).2.1
  rw [hvalid, hinvalid] at hsame
  exact hsame

end Untangled.AccessTokens
