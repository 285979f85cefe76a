import Untangled.AccessTokens
import Untangled.UuidV7

/-!
# Tokens that the auth service signs

`sign_access_token` of `auth/src/jwt.ts` against the verifiers of the three
tiers: a token of a log-in or a refresh is in force for its whole lifetime and
says the same everywhere, and one signed after a change of password outlives
none before it.
-/

namespace Untangled.IssuedTokens

open AccessTokens Uuid7

/-! ## Signing -/

structure SignAccessTokenArgs where
  ttlSeconds : Option ℚ
  exp : Option ℤ
  sid : Option String
  passwordChangeRequired : Bool
  now : Instant

/-- The expiry of the claims; none stands for the exception. -/
def expiry (args : SignAccessTokenArgs) : Option ℤ :=
  match args.exp with
  | some exp => some exp
  | none =>
      match args.ttlSeconds with
      | none => none
      | some ttl => if ttl.den ≠ 1 ∨ ttl < 1 then none else some (args.now.seconds + ttl.num)

def privateClaims (userId : String) (args : SignAccessTokenArgs) (claim : String) : Option Json :=
  if claim = "sub" then some (.str userId)
  else if claim = "typ" then some (.str authRules.accessTokenTyp)
  else if claim = authRules.sessionIdClaim then (args.sid.filter (· ≠ "")).map .str
  else if claim = authRules.passwordChangeRequiredClaim then
    if args.passwordChangeRequired then some (.bool true) else none
  else none

def claims (userId : String) (args : SignAccessTokenArgs) (exp : ℤ) : Payload where
  iat := some args.now.seconds
  nbf := none
  exp := some exp
  others := privateClaims userId args

def signAccessToken (userId : String) (args : SignAccessTokenArgs) : Option Payload :=
  (expiry args).map (claims userId args)

/-- A user id as the database has it. -/
def idText (user : ℕ) : String := String.ofList (pythonUuidText user)

/-! ## What a token says -/

/-- The three tiers take the token for one of this user and flag. -/
structure InForce (J : JsNumbers) (I : IntBase16) (p : Payload) (user : ℕ) (mustChange : Bool)
    (now : Instant) : Prop where
  auth : authVerifyAccessJwt J p now = .valid p
  ssr : ssrVerifyAccessJwt J p now = .valid p
  api : apiVerifyAccessJwt I p now = .valid p
  jsUser : jsUser p = some user
  apiUser : apiUser I p = some user
  flags : ∀ R ∈ [authRules, ssrRules, apiRules], passwordChangeRequired R p = mustChange

structure Expired (J : JsNumbers) (I : IntBase16) (p : Payload) (now : Instant) : Prop where
  auth : authVerifyAccessJwt J p now = .expired p
  ssr : ssrVerifyAccessJwt J p now = .expired p
  api : apiVerifyAccessJwt I p now = .expired p

section Signed

variable {J : JsNumbers} {I : IntBase16} {p : Payload} {args : SignAccessTokenArgs} {user : ℕ}
  {exp : ℤ} {sid : String} {now : Instant}

theorem claims_sid
    (hsid : args.sid = some sid) (hne : sid ≠ "") :
    (claims (idText user) args exp).text authRules.sessionIdClaim = some sid := by
  have hclaim : privateClaims (idText user) args "sid" = some (.str sid) := by
    simp [privateClaims, authRules, hsid, hne]
  exact congrArg (Option.bind · Json.asString) hclaim

theorem shaped_of_signed
    (hsigned : signAccessToken (idText user) args = some p) (hexp : expiry args = some exp)
    (hsid : args.sid = some sid) (hne : sid ≠ "") :
    p.Shaped args.now.seconds exp (idText user) ∧ p.nbf = none := by
  rw [signAccessToken, hexp, Option.map_some, Option.some_inj] at hsigned
  rw [← hsigned]
  exact ⟨⟨rfl, rfl, rfl, rfl, sid, claims_sid hsid hne, hne⟩, rfl⟩

theorem users_of_signed
    (hshaped : p.Shaped args.now.seconds exp (idText user)) (huser : user < 2 ^ 128) :
    jsUser p = some user ∧ apiUser I p = some user := by
  have hre : uuidRe (idText user).toList = true := by
    rw [idText, String.toList_ofList]
    exact uuidRe_pythonUuidText user
  have hread : uuidOfText (idText user).toList = user := by
    rw [idText, String.toList_ofList]
    exact uuidOfText_pythonUuidText huser
  constructor
  · rw [jsUser, hshaped.sub, Option.map_some, hread]
  · rw [apiUser, hshaped.sub, Option.bind_some, pythonUuid_of_uuidRe I hre, hread]

theorem flags_of_signed
    (hsigned : signAccessToken (idText user) args = some p) :
    ∀ R ∈ [authRules, ssrRules, apiRules],
      passwordChangeRequired R p = args.passwordChangeRequired := by
  have hclaim : p.get "password_change_required" =
      if args.passwordChangeRequired then some (.bool true) else none := by
    obtain ⟨exp, hexp, hp⟩ := Option.map_eq_some_iff.mp hsigned
    rw [← hp]
    rfl
  have hflag : (p.get "password_change_required").any Json.isTrue =
      args.passwordChangeRequired := by
    rw [hclaim]
    cases args.passwordChangeRequired with
    | false => rfl
    | true => rfl
  intro R hR
  simp only [List.mem_cons, List.not_mem_nil, or_false] at hR
  rcases hR with rfl | rfl | rfl
  · exact hflag
  · exact hflag
  · exact hflag

theorem InForce.lt
    {iat : ℤ} {sub : String} {mustChange : Bool}
    (h : InForce J I p user mustChange now) (hshaped : p.Shaped iat exp sub) :
    now.seconds < exp :=
  ((js_valid_iff hshaped).mp h.auth).1.2

theorem Expired.le
    {iat : ℤ} {sub : String}
    (h : Expired J I p now) (hshaped : p.Shaped iat exp sub) :
    exp ≤ now.seconds :=
  ((api_expired_iff hshaped).mp h.api).2.1

/-- The verdicts on a signed token, from the second of its signature on. -/
theorem verdicts_of_signed
    (hsigned : signAccessToken (idText user) args = some p) (hexp : expiry args = some exp)
    (hsid : args.sid = some sid) (hne : sid ≠ "") (huser : user < 2 ^ 128)
    (hdue : args.now.seconds ≤ now.seconds) (hlife : args.now.seconds < exp) :
    (now.seconds < exp → InForce J I p user args.passwordChangeRequired now) ∧
      (exp ≤ now.seconds → Expired J I p now) := by
  obtain ⟨hshaped, hnbf⟩ := shaped_of_signed hsigned hexp hsid hne
  have hbefore : ∀ clock, p.NotBeforeBy clock := by
    intro clock nbf hmem
    rw [hnbf] at hmem
    cases hmem
  have hre : uuidRe (idText user).toList = true := by
    rw [idText, String.toList_ofList]
    exact uuidRe_pythonUuidText user
  have hread : J.read args.now.seconds < J.read exp := by
    have hsmall : |args.now.seconds| < 2 ^ 53 := by
      simpa using args.now.abs_seconds_lt 0 ⟨by norm_num, by norm_num⟩
    rw [J.read_exact (le_of_lt hsmall)]
    exact (lt_read_iff hsmall).mpr hlife
  have hskew : args.now.seconds ≤ now.seconds + 60 := by omega
  constructor
  · intro hnow
    obtain ⟨hjs, hapi⟩ := @users_of_signed I p args user exp hshaped huser
    have hvalid := (js_valid_iff hshaped).mpr ⟨⟨hbefore _, hnow⟩, hre, hread, hskew⟩
    exact
      { auth := hvalid
        ssr := hvalid
        api := (api_valid_iff hshaped).mpr
          ⟨⟨hdue, hbefore _⟩, hnow, uuidTakes_of_uuidRe hre, hlife⟩
        jsUser := hjs
        apiUser := hapi
        flags := flags_of_signed hsigned }
  · intro hnow
    have hexpired := (@js_expired_iff J p now args.now.seconds exp (idText user) hshaped).mpr
      ⟨fun h => absurd h.2 (not_lt.mpr hnow), fun _ => hbefore _, hre, hread, hskew⟩
    exact
      { auth := hexpired
        ssr := hexpired
        api := (api_expired_iff hshaped).mpr
          ⟨⟨hdue, hbefore _⟩, hnow, uuidTakes_of_uuidRe hre, hlife⟩ }

end Signed

/-! ## Log-ins and refreshes -/

theorem expiry_ttl (issued : Instant) (ttl : ℤ) (sid : Option String) (mustChange : Bool) :
    expiry ⟨some ttl, none, sid, mustChange, issued⟩ =
      if 1 ≤ ttl then some (issued.seconds + ttl) else none := by
  have hcond : ((ttl : ℚ).den ≠ 1 ∨ (ttl : ℚ) < 1) ↔ ¬ 1 ≤ ttl := by
    rw [Rat.den_intCast, not_le]
    constructor
    · intro h
      exact_mod_cast h.resolve_left fun hne => hne rfl
    · intro h
      exact .inr (by exact_mod_cast h)
  unfold expiry
  dsimp only
  rw [Rat.num_intCast]
  by_cases httl : 1 ≤ ttl
  · rw [if_pos httl, if_neg fun h => hcond.mp h httl]
  · rw [if_neg httl, if_pos (hcond.mpr httl)]

/-- A token with a lifetime is in force in all three tiers for just that long,
for the user and with the flag that it was signed for. -/
theorem issued_token_lives
    {J : JsNumbers} {I : IntBase16} {issued now : Instant} {ttl : ℤ} {user : ℕ} {sid : String}
    {mustChange : Bool}
    (httl : 1 ≤ ttl) (huser : user < 2 ^ 128) (hne : sid ≠ "")
    (hdue : issued.seconds ≤ now.seconds) :
    ∃ p, signAccessToken (idText user) ⟨some ttl, none, some sid, mustChange, issued⟩ = some p ∧
      p.text authRules.sessionIdClaim = some sid ∧
      (now.seconds < issued.seconds + ttl → InForce J I p user mustChange now) ∧
      (issued.seconds + ttl ≤ now.seconds → Expired J I p now) := by
  have hexp : expiry ⟨some ttl, none, some sid, mustChange, issued⟩ =
      some (issued.seconds + ttl) := by
    rw [expiry_ttl, if_pos httl]
  have hsigned := congrArg (Option.map (claims (idText user)
    ⟨some ttl, none, some sid, mustChange, issued⟩)) hexp
  have hverdicts := @verdicts_of_signed J I _ _ user _ sid now hsigned hexp rfl hne huser hdue
    (by dsimp only; omega)
  exact ⟨_, hsigned, claims_sid rfl hne, hverdicts⟩

theorem inCalendar_of_bounds {seconds : ℤ} (hlow : 1600000000 ≤ seconds)
    (hhigh : seconds ≤ 1800000000) : Records.inCalendar seconds := by
  unfold Records.inCalendar
  constructor <;> omega

theorem loginInstant_inCalendar : Records.inCalendar (1700000000 * 1000000 / 1000000) :=
  inCalendar_of_bounds (by norm_num) (by norm_num)

theorem laterInstant_inCalendar : Records.inCalendar ((1700000600 * 1000000 + 5) / 1000000) :=
  inCalendar_of_bounds (by norm_num) (by norm_num)

def loginInstant : Instant := ⟨1700000000 * 1000000, loginInstant_inCalendar⟩

def laterInstant : Instant := ⟨1700000600 * 1000000 + 5, laterInstant_inCalendar⟩

theorem issued_token_lives_login :
    ∃ p, signAccessToken (idText 5) ⟨some ((900 : ℤ) : ℚ), none, some "s1", true, loginInstant⟩ =
        some p ∧
      InForce exactNumbers hexOnly p 5 true laterInstant := by
  obtain ⟨p, hsigned, _, hlives, _⟩ := @issued_token_lives exactNumbers hexOnly loginInstant
    laterInstant 900 5 "s1" true (by decide) (by decide) (by decide) (by decide)
  exact ⟨p, hsigned, hlives (by decide)⟩

/-! ## A change of password -/

/-- `sign_access_token` as `handle_change_password` calls it, with the claims of
the token that it came with. -/
def resign (userId : String) (old : Payload) (now : Instant) : Option Payload :=
  signAccessToken userId
    ⟨none, old.exp, (old.text authRules.sessionIdClaim).filter (· ≠ ""), false, now⟩

/-- A token signed after a change of password says no more that the password has
to be changed, and wherever it is in force, the old one is still for as long. -/
theorem resigned_token_extends_nothing
    {J : JsNumbers} {I : IntBase16} {signed now : Instant} {ttl : ℤ} {user : ℕ} {sid : String}
    {mustChange : Bool} {issued : Instant} {old : Payload}
    (hold : signAccessToken (idText user) ⟨some ttl, none, some sid, mustChange, issued⟩ =
      some old)
    (huser : user < 2 ^ 128) (hne : sid ≠ "")
    (hissued : issued.seconds ≤ signed.seconds) (hdue : signed.seconds ≤ now.seconds) :
    ∃ p, resign (idText user) old signed = some p ∧
      (InForce J I p user false now ↔ InForce J I old user mustChange now) ∧
      (Expired J I p now → Expired J I old now) := by
  obtain ⟨exp, hexp, hclaims⟩ := Option.map_eq_some_iff.mp hold
  have hlife : issued.seconds < exp := by
    rw [expiry_ttl] at hexp
    split at hexp
    · cases hexp
      omega
    · cases hexp
  have hsid : old.text authRules.sessionIdClaim = some sid := by
    rw [← hclaims]
    exact claims_sid rfl hne
  have hoexp : old.exp = some exp := by
    rw [← hclaims]
    rfl
  have hagain : ((old.text authRules.sessionIdClaim).filter (· ≠ "")) = some sid := by
    rw [hsid, Option.filter_some, if_pos]
    exact decide_eq_true hne
  have hkept : expiry ⟨none, old.exp, (old.text authRules.sessionIdClaim).filter (· ≠ ""), false,
      signed⟩ = some exp := by
    rw [hoexp]
    rfl
  have hnew : resign (idText user) old signed =
      some (claims (idText user)
        ⟨none, old.exp, (old.text authRules.sessionIdClaim).filter (· ≠ ""), false, signed⟩
        exp) := by
    rw [resign, signAccessToken, hkept, Option.map_some]
  have holdShaped := (shaped_of_signed hold hexp rfl hne).1
  have hnewShaped := (shaped_of_signed hnew hkept hagain hne).1
  refine ⟨_, hnew, ?_, ?_⟩
  · constructor
    · intro h
      exact (verdicts_of_signed hold hexp rfl hne huser (hissued.trans hdue) hlife).1
        (h.lt hnewShaped)
    · intro h
      have hlt := h.lt holdShaped
      exact (verdicts_of_signed hnew hkept hagain hne huser hdue (hdue.trans_lt hlt)).1 hlt
  · intro h
    exact (verdicts_of_signed hold hexp rfl hne huser (hissued.trans hdue) hlife).2
      (h.le hnewShaped)

/-- A forced change ten minutes after the log-in. -/
theorem resigned_token_extends_nothing_forced :
    ∃ old p, signAccessToken (idText 5)
        ⟨some ((900 : ℤ) : ℚ), none, some "s1", true, loginInstant⟩ = some old ∧
      resign (idText 5) old laterInstant = some p ∧
      (InForce exactNumbers hexOnly p 5 false laterInstant ↔
        InForce exactNumbers hexOnly old 5 true laterInstant) := by
  have hold : signAccessToken (idText 5)
      ⟨some ((900 : ℤ) : ℚ), none, some "s1", true, loginInstant⟩ =
      some (claims (idText 5) ⟨some ((900 : ℤ) : ℚ), none, some "s1", true, loginInstant⟩
        (loginInstant.seconds + 900)) := by
    rw [signAccessToken, expiry_ttl, if_pos (by decide), Option.map_some]
  obtain ⟨p, hnew, hiff, _⟩ := @resigned_token_extends_nothing exactNumbers hexOnly laterInstant
    laterInstant 900 5 "s1" true loginInstant _ hold (by decide) (by decide) (by decide) le_rfl
  exact ⟨_, p, hold, hnew, hiff⟩

end Untangled.IssuedTokens
