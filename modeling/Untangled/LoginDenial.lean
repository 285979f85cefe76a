import Untangled.LoginPipeline

/-!
# Denied logins look alike

A login that is denied after the rate-limit check has taken one hash slot,
verified one password, recorded one failure and slept up to the same mark,
whatever the user store held: an unknown user, a wrong password, an inactive
account and both lockouts differ only in what reaches the store, the expiry
evaluator and the audit log.
-/

namespace Untangled.Auth

open RequestProgram

abbrev RequestEvent : Type := Event RequestOp RequestAns

/-! ## What an observer of the request sees -/

namespace RequestEvent

/-- The calls of the rate limiter, with their arguments. -/
def rateLimitCall : RequestEvent → Option RequestOp
  | .called (.evaluate key ip) _ => some (.evaluate key ip)
  | .called (.recordFailure key ip) _ => some (.recordFailure key ip)
  | _ => none

def isVerify : RequestEvent → Bool
  | .called (.verifyPassword _ _) _ => true
  | _ => false

def isGrant : RequestEvent → Bool
  | .acquired granted => granted
  | _ => false

def isRelease : RequestEvent → Bool
  | .released => true
  | _ => false

/-- Calls that only the store, the expiry evaluator or the audit log see. -/
def Internal (event : RequestEvent) : Prop :=
  rateLimitCall event = none ∧ isVerify event = false ∧ isGrant event = false ∧
    isRelease event = false

end RequestEvent

open RequestEvent

/-- A run that ends denied on a path behind the rate-limit check, all
dependencies succeeding, over the accounts of `store`. -/
structure DeniedBehindCheck (ctx : LoginRequestContext) (deps : LoginPipelineDeps)
    (store : String → Option UserRow) (trace : List RequestEvent) (reply : RequestReply) :
    Prop where
  run : (runLoginPipeline ctx deps).Run trace reply
  denied : reply = .login .denied
  smooth : Prog.Smooth trace
  loaded : ∀ folded user, .called (.loadByUsername folded) (some user) ∈ trace →
    user = store folded
  passed : ∀ key ip rl, .called (.evaluate key ip) (some rl) ∈ trace → rl.lockout = false

/-- The draw, the clock and the limiter come first, the wait comes last, and
the wait brings the elapsed time up to the drawn time and the delay. -/
def Padded (ctx : LoginRequestContext) (deps : LoginPipelineDeps)
    (trace : List RequestEvent) : Prop :=
  ∃ (tMs : ℤ) (startedMs : ℚ) (rl : RateLimitResult) (between : List RequestEvent)
      (nowMs waitMs : ℚ),
    trace =
      [.called (.drawT deps.settings.processTimeMinimumMs deps.settings.processTimeMaximumMs)
          (some tMs),
        .called .nowMs (some startedMs),
        .called (.evaluate ctx.usernameKey ctx.sourceIp) (some rl)] ++
      between ++
      [.called .nowMs (some nowMs), .called (.sleep waitMs) (some ())] ∧
    (nowMs - startedMs) + waitMs = max (nowMs - startedMs) (tMs + rl.delayMs)

theorem elapsed_add_remainingWaitMs
    (tMs rlDelayMs : ℤ) (elapsedMs : ℚ) :
    elapsedMs + remainingWaitMs tMs rlDelayMs elapsedMs =
      max elapsedMs (tMs + rlDelayMs) := by
  unfold remainingWaitMs
  rw [← max_add_add_left]
  congr 1 <;> ring

/-! ## The way to the landing -/

/-- The end of a denied run whose locals are `s`. -/
def Landing (ctx : LoginRequestContext) (s : LoginLocals) (trace : List RequestEvent) : Prop :=
  ∃ audit nowMs,
    trace =
      [.released, .called (.emitLogin audit) (some ()),
        .called (.recordFailure ctx.usernameKey ctx.sourceIp) (some ()),
        .called .nowMs (some nowMs),
        .called (.sleep (remainingWaitMs s.tMs s.rlDelayMs (nowMs - s.startedMs))) (some ())]

/-- What stays as it was once the slot has been acquired. -/
structure SameTimes (s s' : LoginLocals) : Prop where
  tMs : s'.tMs = s.tMs
  startedMs : s'.startedMs = s.startedMs
  rlDelayMs : s'.rlDelayMs = s.rlDelayMs
  acquired : s'.acquired = s.acquired

theorem Landing.congr
    {ctx : LoginRequestContext} {s s' : LoginLocals} {trace : List RequestEvent}
    (h : Landing ctx s' trace)
    (hsame : SameTimes s s') :
    Landing ctx s trace := by
  rcases h with ⟨audit, nowMs, htrace⟩
  refine ⟨audit, nowMs, ?_⟩
  rw [htrace, hsame.tMs, hsame.startedMs, hsame.rlDelayMs]

section Runs

variable {ctx : LoginRequestContext} {deps : LoginPipelineDeps} {s : LoginLocals}
variable {trace : List RequestEvent}

theorem loginEnd_run
    (hrun : (loginEnd ctx s).Run trace (.login .denied))
    (hsmooth : Prog.Smooth trace) :
    ∃ nowMs,
      trace =
        [.called (.recordFailure ctx.usernameKey ctx.sourceIp) (some ()),
          .called .nowMs (some nowMs),
          .called (.sleep (remainingWaitMs s.tMs s.rlDelayMs (nowMs - s.startedMs)))
            (some ())] := by
  unfold loginEnd at hrun
  split at hrun
  · rcases Prog.run_await hrun hsmooth with ⟨_, rest, rfl, hrun, hsmooth⟩
    rcases Prog.run_await hrun hsmooth with ⟨nowMs, rest, rfl, hrun, hsmooth⟩
    rcases Prog.run_await hrun hsmooth with ⟨_, rest, rfl, hrun, _⟩
    rcases Prog.run_ret.1 hrun with ⟨rfl, _⟩
    exact ⟨nowMs, rfl⟩
  · split at hrun
    · have hreply := (Prog.run_ret.1 hrun).2
      cases hreply
    · have hreply := (Prog.run_ret.1 hrun).2
      cases hreply

theorem loginRelease_run
    (hrun : (loginRelease ctx s).Run trace (.login .denied))
    (hsmooth : Prog.Smooth trace)
    (hacquired : s.acquired = true) :
    Landing ctx s trace := by
  rw [loginRelease, if_pos hacquired] at hrun
  rcases Prog.run_release.1 hrun with ⟨rest, rfl, hemit⟩
  unfold loginEmit at hemit
  rcases Prog.run_await hemit hsmooth.tail with ⟨_, rest, rfl, hend, hsmooth⟩
  rcases loginEnd_run hend hsmooth with ⟨nowMs, rfl⟩
  exact ⟨_, nowMs, rfl⟩

/-- From here on the run makes internal calls and lands. -/
def Lands (ctx : LoginRequestContext) (s : LoginLocals) (trace : List RequestEvent) : Prop :=
  ∃ between landing, trace = between ++ landing ∧ (∀ event ∈ between, Internal event) ∧
    Landing ctx s landing

theorem Landing.lands
    (h : Landing ctx s trace) :
    Lands ctx s trace :=
  ⟨[], trace, rfl, fun _ hevent => absurd hevent List.not_mem_nil, h⟩

theorem Lands.cons
    {s' : LoginLocals} {event : RequestEvent}
    (h : Lands ctx s' trace)
    (hsame : SameTimes s s')
    (hevent : Internal event) :
    Lands ctx s (event :: trace) := by
  rcases h with ⟨between, landing, rfl, hbetween, hlanding⟩
  refine ⟨event :: between, landing, rfl, ?_, hlanding.congr hsame⟩
  intro other hother
  rcases List.mem_cons.1 hother with rfl | hother
  · exact hevent
  · exact hbetween other hother

theorem Lands.congr
    {s' : LoginLocals}
    (h : Lands ctx s' trace)
    (hsame : SameTimes s s') :
    Lands ctx s trace := by
  rcases h with ⟨between, landing, htrace, hbetween, hlanding⟩
  exact ⟨between, landing, htrace, hbetween, hlanding.congr hsame⟩

theorem loginCount_run
    (hrun : (loginCount ctx s).Run trace (.login .denied))
    (hsmooth : Prog.Smooth trace)
    (hacquired : s.acquired = true) :
    Lands ctx s trace := by
  unfold loginCount at hrun
  split at hrun
  · exact (loginRelease_run hrun hsmooth hacquired).lands
  · rename_i user _
    have hsame : ∀ count, SameTimes s (s.withCount user count) :=
      fun count => ⟨rfl, rfl, rfl, rfl⟩
    split at hrun
    · rcases Prog.run_await hrun hsmooth with ⟨_, rest, rfl, hrun, hsmooth⟩
      exact (loginRelease_run hrun hsmooth hacquired).lands.cons (hsame _) ⟨rfl, rfl, rfl, rfl⟩
    · split at hrun
      · rcases Prog.run_await hrun hsmooth with ⟨_, rest, rfl, hrun, hsmooth⟩
        exact (loginRelease_run hrun hsmooth hacquired).lands.cons (hsame _) ⟨rfl, rfl, rfl, rfl⟩
      · exact (loginRelease_run hrun hsmooth hacquired).lands

theorem LoginLocals.expiry_sameTimes
    {verdict : ExpiryVerdict} :
    SameTimes s (s.expiry verdict) := by
  cases verdict <;> exact ⟨rfl, rfl, rfl, rfl⟩

theorem loginJudge_run
    (hrun : (loginJudge ctx deps s).Run trace (.login .denied))
    (hsmooth : Prog.Smooth trace)
    (hacquired : s.acquired = true) :
    Lands ctx s trace := by
  have hrefused : ∀ reason, (loginCount ctx (s.refuse reason)).Run trace (.login .denied) →
      Lands ctx s trace := fun reason hrun =>
    (loginCount_run hrun hsmooth hacquired).congr ⟨rfl, rfl, rfl, rfl⟩
  unfold loginJudge at hrun
  split at hrun
  · exact loginCount_run hrun hsmooth hacquired
  · split at hrun
    · exact hrefused _ hrun
    · split at hrun
      · exact hrefused _ hrun
      · split at hrun
        · exact hrefused _ hrun
        · split at hrun
          · exact hrefused _ hrun
          · rcases Prog.run_await hrun hsmooth with ⟨verdict, rest, rfl, hrun, hsmooth⟩
            have hsame : SameTimes s (s.expiry verdict) := LoginLocals.expiry_sameTimes
            exact (loginCount_run hrun hsmooth (hsame.acquired.trans hacquired)).cons hsame
              ⟨rfl, rfl, rfl, rfl⟩

/-- Neither the limiter nor the form of the password ends the attempt early. -/
theorem LoginLocals.checked_passed
    {tMs : ℤ} {startedMs : ℚ} {rl : RateLimitResult}
    (husername : ctx.usernameValid = true)
    (hpassword : ctx.passwordAcceptable = true)
    (hpassed : rl.lockout = false)
    (hs : ((loginLocals ctx tMs startedMs).limited rl).checked ctx = s) :
    s.skipToLanding = false ∧ s.tMs = tMs ∧ s.startedMs = startedMs ∧
      s.rlDelayMs = rl.delayMs := by
  rw [← hs]
  simp [LoginLocals.limited, LoginLocals.checked, loginLocals, husername, hpassword, hpassed]

theorem loginAcquire_run
    (hrun : (loginAcquire ctx deps s).Run trace (.login .denied))
    (hsmooth : Prog.Smooth trace)
    (hskip : s.skipToLanding = false) :
    ∃ user hash verifyOk rest,
      trace =
        .acquired true :: .called (.loadByUsername ctx.folded) (some user) ::
          .called (.verifyPassword hash ctx.password) (some verifyOk) :: rest ∧
      Lands ctx s rest := by
  rw [loginAcquire, if_neg (by simp [hskip])] at hrun
  rcases Prog.run_acquire.1 hrun with ⟨granted, rest, rfl, hnext⟩
  cases granted with
  | false =>
      rcases Prog.run_await hnext hsmooth.tail with ⟨_, rest, rfl, hend, _⟩
      have hreply := (Prog.run_ret.1 hend).2
      cases hreply
  | true =>
      rcases Prog.run_await hnext hsmooth.tail with ⟨user, rest, rfl, hverify, hsmooth⟩
      rcases Prog.run_await hverify hsmooth with ⟨verifyOk, rest, rfl, hjudge, hsmooth⟩
      rcases loginJudge_run hjudge hsmooth rfl with
        ⟨between, landing, rfl, hbetween, audit, nowMs, hlanding⟩
      exact ⟨user, _, verifyOk, _, rfl, between, landing, rfl, hbetween, audit, nowMs, hlanding⟩

/-- The whole trace of a denied run. -/
theorem DeniedBehindCheck.trace_eq
    {store : String → Option UserRow} {reply : RequestReply}
    (h : DeniedBehindCheck ctx deps store trace reply)
    (husername : ctx.usernameValid = true)
    (hpassword : ctx.passwordAcceptable = true) :
    ∃ tMs startedMs rl user hash verifyOk between landing s,
      trace =
        .called (.drawT deps.settings.processTimeMinimumMs deps.settings.processTimeMaximumMs)
            (some tMs) ::
          .called .nowMs (some startedMs) ::
          .called (.evaluate ctx.usernameKey ctx.sourceIp) (some rl) ::
          .acquired true ::
          .called (.loadByUsername ctx.folded) (some user) ::
          .called (.verifyPassword hash ctx.password) (some verifyOk) ::
          (between ++ landing) ∧
      (∀ event ∈ between, Internal event) ∧ Landing ctx s landing ∧
      s.tMs = tMs ∧ s.startedMs = startedMs ∧ s.rlDelayMs = rl.delayMs := by
  have hrun := h.run
  rw [h.denied] at hrun
  unfold runLoginPipeline at hrun
  rcases Prog.run_await hrun h.smooth with ⟨tMs, rest, rfl, hrun, hsmooth⟩
  rcases Prog.run_await hrun hsmooth with ⟨startedMs, rest, rfl, hrun, hsmooth⟩
  rcases Prog.run_await hrun hsmooth with ⟨rl, rest, rfl, hrun, hsmooth⟩
  have hpassed : rl.lockout = false := h.passed _ _ _ (by simp)
  generalize hs : ((loginLocals ctx tMs startedMs).limited rl).checked ctx = s at hrun
  rcases LoginLocals.checked_passed husername hpassword hpassed hs with
    ⟨hskip, htMs, hstarted, hdelay⟩
  rcases loginAcquire_run hrun hsmooth hskip with
    ⟨user, hash, verifyOk, _, rfl, between, landing, rfl, hbetween, hlanding⟩
  exact ⟨tMs, startedMs, rl, user, hash, verifyOk, between, landing, s, rfl, hbetween, hlanding,
    htMs, hstarted, hdelay⟩

end Runs

/-! ## Nothing to tell denied logins apart -/

theorem filterMap_rateLimitCall_internal
    {between : List RequestEvent}
    (h : ∀ event ∈ between, Internal event) :
    between.filterMap rateLimitCall = [] :=
  List.filterMap_eq_nil_iff.2 fun event hevent => (h event hevent).1

theorem countP_internal
    {between : List RequestEvent} {test : RequestEvent → Bool}
    (h : ∀ event ∈ between, Internal event)
    (htest : ∀ event, Internal event → test event = false) :
    between.countP test = 0 :=
  List.countP_eq_zero.2 fun event hevent => by simp [htest event (h event hevent)]

theorem DeniedBehindCheck.observed
    {ctx : LoginRequestContext} {deps : LoginPipelineDeps} {store : String → Option UserRow}
    {trace : List RequestEvent} {reply : RequestReply}
    (h : DeniedBehindCheck ctx deps store trace reply)
    (husername : ctx.usernameValid = true)
    (hpassword : ctx.passwordAcceptable = true) :
    trace.filterMap rateLimitCall =
        [.evaluate ctx.usernameKey ctx.sourceIp, .recordFailure ctx.usernameKey ctx.sourceIp] ∧
      trace.countP isVerify = 1 ∧ trace.countP isGrant = 1 ∧ trace.countP isRelease = 1 ∧
      Padded ctx deps trace := by
  rcases h.trace_eq husername hpassword with
    ⟨tMs, startedMs, rl, user, hash, verifyOk, between, landing, s, rfl, hbetween,
      ⟨audit, nowMs, rfl⟩, htMs, hstarted, hdelay⟩
  refine ⟨?_, ?_, ?_, ?_, ?_⟩
  · simp [List.filterMap_cons, rateLimitCall, filterMap_rateLimitCall_internal hbetween]
  · simp [List.countP_cons, isVerify, countP_internal hbetween fun event hevent => hevent.2.1]
  · simp [List.countP_cons, isGrant, countP_internal hbetween fun event hevent => hevent.2.2.1]
  · simp [List.countP_cons, isRelease, countP_internal hbetween fun event hevent => hevent.2.2.2]
  · refine ⟨tMs, startedMs, rl,
      .acquired true :: .called (.loadByUsername ctx.folded) (some user) ::
        .called (.verifyPassword hash ctx.password) (some verifyOk) ::
        (between ++ [.released, .called (.emitLogin audit) (some ()),
          .called (.recordFailure ctx.usernameKey ctx.sourceIp) (some ())]),
      nowMs, remainingWaitMs tMs rl.delayMs (nowMs - startedMs), ?_,
      elapsed_add_remainingWaitMs tMs rl.delayMs (nowMs - startedMs)⟩
    simp [htMs, hstarted, hdelay]

/-- Two logins with the same request, denied behind the rate-limit check over
any two user stores, answer alike, call the rate limiter alike, verify one
password each, take and give back one slot each, and wait up to the drawn time
and the delay of the limiter. -/
theorem deniedLogins_alike
    {ctx : LoginRequestContext} {deps : LoginPipelineDeps}
    {store₁ store₂ : String → Option UserRow} {trace₁ trace₂ : List RequestEvent}
    {reply₁ reply₂ : RequestReply}
    (husername : ctx.usernameValid = true)
    (hpassword : ctx.passwordAcceptable = true)
    (h₁ : DeniedBehindCheck ctx deps store₁ trace₁ reply₁)
    (h₂ : DeniedBehindCheck ctx deps store₂ trace₂ reply₂) :
    reply₁ = reply₂ ∧
      trace₁.filterMap rateLimitCall = trace₂.filterMap rateLimitCall ∧
      ∀ trace ∈ [trace₁, trace₂],
        trace.countP isVerify = 1 ∧ trace.countP isGrant = 1 ∧ trace.countP isRelease = 1 ∧
          Padded ctx deps trace := by
  have hseen₁ := h₁.observed husername hpassword
  have hseen₂ := h₂.observed husername hpassword
  refine ⟨h₁.denied.trans h₂.denied.symm, hseen₁.1.trans hseen₂.1.symm, ?_⟩
  intro trace htrace
  rcases List.mem_cons.1 htrace with rfl | htrace
  · exact hseen₁.2
  · rw [List.mem_singleton.1 htrace]
    exact hseen₂.2

def aliceContext : LoginRequestContext where
  providedUsername := "alice"
  password := "secret"
  sourceIp := none
  protocol := none
  host := none
  contextPath := "/api/v2/auth/login"
  userAgent := none

def aliceDeps : LoginPipelineDeps := ⟨defaultSettings.login, "dummy"⟩

def aliceRow : UserRow where
  id := 1
  username := "alice"
  passwordHash := "hash"
  displayName := "Alice"
  isActive := true
  failedLoginCount := 2
  passwordExpiresAt := 0
  updatedAt := 0
  updatedBy := 1

/-- Every dependency succeeds, the password is wrong. -/
def wrongPasswordAnswers (store : String → Option UserRow) : (op : RequestOp) → RequestAns op
  | .drawT min _ => min
  | .nowMs => (0 : ℚ)
  | .evaluate _ _ => RateLimitResult.mk 40 false
  | .loadByUsername folded => store folded
  | .verifyPassword _ _ => false
  | .classify _ _ => ExpiryVerdict.normalSuccess
  | .setFailedLoginCount _ _ => ()
  | .emitLogin _ => ()
  | .recordFailure _ _ => ()
  | .sleep _ => ()
  | .admitChangePassword => Sum.inl 403
  | .executeChangePassword => ChangePasswordExecuteResult.missingUser
  | .emitPasswordChange _ => ()
  | .signAccessToken => ()

theorem deniedBehindCheck_wrongPassword
    {store : String → Option UserRow}
    (hdenied : ((runLoginPipeline aliceContext aliceDeps).play
      (wrongPasswordAnswers store) true).2 = .login .denied) :
    DeniedBehindCheck aliceContext aliceDeps store
      ((runLoginPipeline aliceContext aliceDeps).play (wrongPasswordAnswers store) true).1
      (.login .denied) where
  run := hdenied ▸ Prog.play_run (wrongPasswordAnswers store) true _
  denied := rfl
  smooth := Prog.play_smooth _ _ _
  loaded := fun folded _ hmem =>
    Option.some.inj (Prog.play_answers (wrongPasswordAnswers store) true _
      (RequestOp.loadByUsername folded) _ hmem)
  passed := fun key ip _ hmem => by
    have hgiven := Prog.play_answers (wrongPasswordAnswers store) true _
      (RequestOp.evaluate key ip) _ hmem
    rw [Option.some.inj hgiven]
    rfl

theorem deniedLogins_unknownAndWrong :
    ∃ trace₁ trace₂,
      DeniedBehindCheck aliceContext aliceDeps (fun _ => none) trace₁ (.login .denied) ∧
      DeniedBehindCheck aliceContext aliceDeps (fun _ => some aliceRow) trace₂ (.login .denied) ∧
      trace₁.filterMap rateLimitCall = trace₂.filterMap rateLimitCall := by
  have hunknown := @deniedBehindCheck_wrongPassword (fun _ => none) (by decide +kernel)
  have hwrong := @deniedBehindCheck_wrongPassword (fun _ => some aliceRow)
    (by decide +kernel)
  exact ⟨_, _, hunknown, hwrong,
    (deniedLogins_alike (by decide +kernel) (by decide +kernel) hunknown hwrong).2.1⟩

end Untangled.Auth
