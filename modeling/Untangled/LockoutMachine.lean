import Untangled.LockoutStarts

/-!
# The lockout state machine

What callers of the in-memory limiter can rely on about lockouts, in every run
of evaluations, failures and purges on any keys.
-/

namespace Untangled.Auth

def RateLimitSettings.lockoutMs (cfg : RateLimitSettings) : ℤ := cfg.lockoutS * 1000

/-- An evaluation of the context reports a lockout, with the second delay, just
when one lasts that started at or before it. -/
def ReportsLockout (cfg : RateLimitSettings) (kind : ContextKind) (key : String)
    (before : List StoreEvent) (event : StoreEvent) : Prop :=
  ∀ nowMs reply, event.evaluation kind key = some (nowMs, reply) →
    (reply.verdict.lockout = true ↔
      ∃ t ∈ startsOf kind key (before ++ [event]), t ≤ nowMs ∧ nowMs < t + cfg.lockoutMs) ∧
    (reply.verdict.lockout = true → reply.verdict.delayMs = cfg.l2DelayMs)

/-- What holds of the store and the log of every run. -/
structure LockoutInvariant (cfg : RateLimitSettings) (audit : Bool) (s : MemoryRateLimit)
    (nowMs : ℤ) (events : List StoreEvent) : Prop where
  keyed : s.WellKeyed
  tracked : ∀ kind key, LockoutTracked (contextParams cfg kind) (startsOf kind key events) nowMs
    (s.load kind key)
  reports : ∀ kind key, Logged (ReportsLockout cfg kind key) events
  trips : ∀ kind key,
    (tripsOf kind key events).map Prod.fst = if audit then startsOf kind key events else []

section Step

variable {cfg : RateLimitSettings} {audit : Bool} {s : MemoryRateLimit} {nowMs laterMs : ℤ}
  {events : List StoreEvent}

theorem contextParams_lockoutMs
    (kind : ContextKind) :
    (contextParams cfg kind).lockoutMs = cfg.lockoutMs := by
  cases kind <;> rfl

namespace LockoutInvariant

/-- A step that evaluates nothing adds no start and no trip. -/
theorem quiet
    {event : StoreEvent} {s' : MemoryRateLimit}
    (h : LockoutInvariant cfg audit s nowMs events)
    (hkeyed : s'.WellKeyed)
    (hevent : ∀ kind key, event.evaluation kind key = none)
    (htrips : ∀ kind key, tripsOf kind key [event] = [])
    (htracked : ∀ kind key, LockoutTracked (contextParams cfg kind) (startsOf kind key events)
      laterMs (s'.load kind key)) :
    LockoutInvariant cfg audit s' laterMs (events ++ [event]) := by
  constructor
  · exact hkeyed
  · intro kind key
    rw [startsOf_snoc_of_none (hevent kind key)]
    exact htracked kind key
  · intro kind key
    apply (h.reports kind key).snoc
    intro nowMs' reply hreply
    rw [hevent kind key] at hreply
    exact absurd hreply (by simp)
  · intro kind key
    rw [startsOf_snoc_of_none (hevent kind key), tripsOf_snoc, htrips, List.append_nil]
    exact h.trips kind key

theorem afterEvaluate
    {kind : ContextKind} {key : String} {sourceIp : Option String}
    (hcfg : ∀ kind, (contextParams cfg kind).Clamped)
    (h : LockoutInvariant cfg audit s nowMs events)
    (hlater : nowMs ≤ laterMs) :
    LockoutInvariant cfg audit
      (MemoryRateLimit.evalOne cfg audit kind key sourceIp laterMs s).2 laterMs
      (events ++ [⟨.evalOne kind key sourceIp, laterMs,
        (MemoryRateLimit.evalOne cfg audit kind key sourceIp laterMs s).1⟩]) := by
  have htracked := fun kind key => (h.tracked kind key).later hlater
  have hkeyed : ((makeMemoryRateLimit cfg audit).perform (.evalOne kind key sourceIp)
      laterMs s).2.WellKeyed := h.keyed.perform
  constructor
  · exact hkeyed
  · intro kind' key'
    rw [startsOf_snoc, MemoryRateLimit.load_evalOne, evaluation_evalOne]
    by_cases hself : kind = kind' ∧ key = key'
    · rcases hself with ⟨hkind, hkey⟩
      subst hkind hkey
      rw [if_pos ⟨rfl, rfl⟩, if_pos ⟨rfl, rfl⟩]
      exact (htracked kind key).evaluate
    · rw [if_neg hself, if_neg (fun h => hself ⟨h.1.symm, h.2.symm⟩), Option.elim_none,
        List.append_nil]
      exact htracked kind' key'
  · intro kind' key'
    apply (h.reports kind' key').snoc
    intro nowMs' reply hreply
    rw [startsOf_snoc]
    rw [evaluation_evalOne] at hreply ⊢
    split at hreply
    · rename_i hself
      rcases hself with ⟨hkind, hkey⟩
      subst hkind hkey
      simp only [Option.some.injEq, Prod.mk.injEq] at hreply
      rcases hreply with ⟨hnow, hreply⟩
      subst hnow hreply
      rw [if_pos ⟨rfl, rfl⟩, Option.elim_some, ← contextParams_lockoutMs kind]
      exact ⟨(htracked kind key).lockout_iff (hcfg kind).lockoutMs_pos, fun hlockout =>
        (evaluateContext_lockout_delay hlockout).trans (contextParams_l2DelayMs cfg kind)⟩
    · exact absurd hreply (by simp)
  · intro kind' key'
    rw [tripsOf_snoc, List.map_append, h.trips, startsOf_snoc, evaluation_evalOne]
    unfold MemoryRateLimit.evalOne
    simp only
    rw [tripsOf_emitted]
    cases audit with
    | false => simp
    | true =>
        by_cases hself : kind = kind' ∧ key = key'
        · rw [if_pos hself]
          simp [hself]
        · rw [if_neg hself]
          simp [hself]

theorem afterRecord
    {kind : ContextKind} {key : String}
    (h : LockoutInvariant cfg audit s nowMs events)
    (hlater : nowMs ≤ laterMs) :
    LockoutInvariant cfg audit (MemoryRateLimit.recordOne cfg kind key laterMs s).2 laterMs
      (events ++ [⟨.recordOne kind key, laterMs,
        (MemoryRateLimit.recordOne cfg kind key laterMs s).1⟩]) := by
  have htracked := fun kind key => (h.tracked kind key).later hlater
  have hkeyed : ((makeMemoryRateLimit cfg audit).perform (.recordOne kind key)
      laterMs s).2.WellKeyed := h.keyed.perform
  simp only [makeMemoryRateLimit] at hkeyed
  apply h.quiet hkeyed
  · exact fun _ _ => rfl
  · exact fun _ _ => rfl
  · intro kind' key'
    cases hrefused : s.refuses cfg kind key with
    | true =>
        rw [MemoryRateLimit.recordOne_refused hrefused]
        exact htracked kind' key'
    | false =>
        rw [MemoryRateLimit.load_recordOne_kept hrefused]
        split
        · rename_i hself
          rw [hself.1, hself.2]
          exact (htracked kind key).record
        · exact htracked kind' key'

theorem step
    {op : StoreOp}
    (hcfg : ∀ kind, (contextParams cfg kind).Clamped)
    (h : LockoutInvariant cfg audit s nowMs events)
    (hlater : nowMs ≤ laterMs) :
    LockoutInvariant cfg audit ((makeMemoryRateLimit cfg audit).perform op laterMs s).2 laterMs
      (events ++ [⟨op, laterMs, ((makeMemoryRateLimit cfg audit).perform op laterMs s).1⟩]) := by
  have htracked := fun kind key => (h.tracked kind key).later hlater
  have hkeyed : ((makeMemoryRateLimit cfg audit).perform op laterMs s).2.WellKeyed :=
    h.keyed.perform
  cases op with
  | evalOne kind key sourceIp => exact h.afterEvaluate hcfg hlater
  | recordOne kind key => exact h.afterRecord hlater
  | maybeSchedulePurge =>
      apply h.quiet hkeyed
      · exact fun _ _ => rfl
      · exact fun _ _ => rfl
      · intro kind key
        simp only [makeMemoryRateLimit, MemoryRateLimit.load_maybeSchedulePurge]
        exact htracked kind key
  | runPurge =>
      apply h.quiet hkeyed
      · exact fun _ _ => rfl
      · exact fun _ _ => rfl
      · intro kind key
        simp only [makeMemoryRateLimit, MemoryRateLimit.load_applyPurge h.keyed]
        exact (htracked kind key).purge

end LockoutInvariant

/-- A context whose lockout or grace runs outlives every step on the store. -/
theorem load_perform_running
    {op : StoreOp} {kind : ContextKind} {key : String} {c : ContextState}
    (hkeyed : s.WellKeyed)
    (hload : s.load kind key = some c)
    (hrunning : untilRunning c.lockoutUntilMs laterMs = true ∨
      untilRunning c.graceUntilMs laterMs = true) :
    (((makeMemoryRateLimit cfg audit).perform op laterMs s).2.load kind key).isSome = true := by
  cases op with
  | evalOne kind' key' sourceIp =>
      simp only [makeMemoryRateLimit, MemoryRateLimit.load_evalOne]
      split
      · rename_i hself
        rw [evaluateContext_next_isSome, ← hself.1, ← hself.2, hload]
        rfl
      · rw [hload]
        rfl
  | recordOne kind' key' =>
      simp only [makeMemoryRateLimit]
      cases hrefused : s.refuses cfg kind' key' with
      | true =>
          rw [MemoryRateLimit.recordOne_refused hrefused, hload]
          rfl
      | false =>
          rw [MemoryRateLimit.load_recordOne_kept hrefused]
          split
          · rfl
          · rw [hload]
            rfl
  | maybeSchedulePurge =>
      simp only [makeMemoryRateLimit, MemoryRateLimit.load_maybeSchedulePurge]
      rw [hload]
      rfl
  | runPurge =>
      simp only [makeMemoryRateLimit, MemoryRateLimit.load_applyPurge hkeyed]
      rw [hload, Option.bind_some, purgeContext_running hrunning]
      rfl

end Step

/-! ## Every run -/

/-- The lockouts of one context in a run of the limiter. -/
structure LockoutExact (cfg : RateLimitSettings) (audit : Bool) (kind : ContextKind) (key : String)
    (sys : LimiterSystem MemoryRateLimit) : Prop where
  reports : Logged (ReportsLockout cfg kind key) sys.events
  apart : (startsOf kind key sys.events).Pairwise fun t t' => t + 2 * cfg.lockoutMs ≤ t'
  trips : (tripsOf kind key sys.events).map Prod.fst =
    if audit then startsOf kind key sys.events else []
  stored : ∀ t ∈ startsOf kind key sys.events, sys.nowMs < t + 2 * cfg.lockoutMs →
    ∃ c, sys.store.load kind key = some c ∧ c.lockoutUntilMs = some (t + cfg.lockoutMs) ∧
      c.graceUntilMs = some (t + 2 * cfg.lockoutMs)
  kept : ∀ label sys' c, sys.next (makeMemoryRateLimit cfg audit) label = some sys' →
    sys.store.load kind key = some c →
    untilRunning c.lockoutUntilMs sys'.nowMs = true ∨
      untilRunning c.graceUntilMs sys'.nowMs = true →
    (sys'.store.load kind key).isSome = true

theorem LockoutInvariant.exact
    {cfg : RateLimitSettings} {audit : Bool} {sys : LimiterSystem MemoryRateLimit}
    (h : LockoutInvariant cfg audit sys.store sys.nowMs sys.events)
    (kind : ContextKind) (key : String) :
    LockoutExact cfg audit kind key sys := by
  have htracked := h.tracked kind key
  constructor
  · exact h.reports kind key
  · rw [← contextParams_lockoutMs kind]
    exact htracked.apart
  · exact h.trips kind key
  · rw [← contextParams_lockoutMs kind]
    exact htracked.kept
  · intro label sys' c hnext hload hrunning
    rcases LimiterSystem.next_cases hnext with ⟨_, hstore, _, _⟩ | ⟨op, laterMs, _, _, hstore, hnow, _⟩
    · rw [hstore, hload]
      rfl
    · rw [hstore]
      rw [hnow] at hrunning
      exact load_perform_running h.keyed hload hrunning

theorem lockoutInvariant_start
    {cfg : RateLimitSettings} {audit : Bool} {nowMs : ℤ} :
    LockoutInvariant cfg audit MemoryRateLimit.start nowMs [] := by
  constructor
  · exact MemoryRateLimit.keyed_start
  · exact fun _ _ => LockoutTracked.unused
  · exact fun _ _ => logged_nil
  · intro kind key
    cases audit <;> rfl

/-- In every run with the settings fixed and a clock that never goes back, a
context is reported locked out from each start for the lockout time, counting
the starts up to the evaluation, and at no other time; starts are two lockout
times apart, each emits one trip, and no purge and no flood of other contexts
removes the context before its grace is over. -/
theorem lockouts_exact
    {raw : RateLimitSettings} {audit : Bool} {startMs : ℤ} {labels : List LimiterLabel}
    {sys : LimiterSystem MemoryRateLimit}
    (hrun : LimiterSystem.Reach (makeMemoryRateLimit (clampRateLimit raw) audit)
      (fun _ _ _ => True) (LimiterSystem.start MemoryRateLimit.start startMs) labels sys)
    (kind : ContextKind) (key : String) :
    LockoutExact (clampRateLimit raw) audit kind key sys := by
  have hinvariant : LockoutInvariant (clampRateLimit raw) audit sys.store sys.nowMs sys.events := by
    apply hrun.invariant
    · intro s nowMs events op laterMs h hlater _
      exact h.step (contextParams_clamped raw) hlater
    · exact lockoutInvariant_start
  exact hinvariant.exact kind key

/-- Three failures, an evaluation, a fourth failure and another evaluation, all
in the same millisecond; a purge and an evaluation ten seconds later. -/
def sameInstantLabels : List LimiterLabel :=
  aliceFails 0 ++ aliceFails 0 ++ aliceFails 0 ++ aliceAsks 0 ++ aliceFails 0 ++ aliceAsks 0 ++
    [.runPurge 10000] ++ aliceAsks 10000

theorem sameInstant_verdicts :
    ((LimiterSystem.start MemoryRateLimit.start 0).performAll
        (makeMemoryRateLimit (clampRateLimit strictRateLimit) true) (fun _ _ _ => true)
        sameInstantLabels).map
      (fun sys => verdictsOf .user "alice" sys.events) =
    some [(0, ⟨2000, false, false⟩), (0, ⟨2000, true, true⟩), (10000, ⟨2000, true, false⟩)] := by
  decide +kernel

theorem startsOf_verdicts
    {kind : ContextKind} {key : String} {events : List StoreEvent} :
    startsOf kind key events =
      (verdictsOf kind key events).flatMap fun entry => startedAt entry.1 entry.2 := by
  unfold startsOf verdictsOf
  rw [List.flatMap_map]

theorem lockouts_sameInstant :
    ∃ sys, (LimiterSystem.start MemoryRateLimit.start 0).performAll
        (makeMemoryRateLimit (clampRateLimit strictRateLimit) true) (fun _ _ _ => true)
        sameInstantLabels = some sys ∧
      startsOf .user "alice" sys.events = [0] ∧
      LockoutExact (clampRateLimit strictRateLimit) true .user "alice" sys := by
  rcases Option.map_eq_some_iff.mp sameInstant_verdicts with ⟨sys, hsys, hverdicts⟩
  refine ⟨sys, hsys, ?_, lockouts_exact (LimiterSystem.reach_of_performAll (fun _ _ _ _ => trivial) hsys) .user "alice"⟩
  rw [startsOf_verdicts, hverdicts]
  rfl

/-- An evaluation before the start in the same millisecond reports no lockout. -/
theorem lockouts_sameInstant_earlier :
    ¬ ∀ (raw : RateLimitSettings) (audit : Bool) (startMs : ℤ) (labels : List LimiterLabel)
        (sys : LimiterSystem MemoryRateLimit),
      LimiterSystem.Reach (makeMemoryRateLimit (clampRateLimit raw) audit) (fun _ _ _ => True)
          (LimiterSystem.start MemoryRateLimit.start startMs) labels sys →
        ∀ kind key nowMs reply, (nowMs, reply) ∈ evaluationsOf kind key sys.events →
          (reply.verdict.lockout = true ↔ ∃ t ∈ startsOf kind key sys.events,
            t ≤ nowMs ∧ nowMs < t + (clampRateLimit raw).lockoutMs) := by
  intro h
  rcases Option.map_eq_some_iff.mp sameInstant_verdicts with ⟨sys, hsys, hverdicts⟩
  have hfirst : ((0 : ℤ), (⟨2000, false, false⟩ : ContextVerdict)) ∈
      verdictsOf .user "alice" sys.events := by
    rw [hverdicts]
    exact List.mem_cons_self
  rcases List.mem_map.mp hfirst with ⟨⟨nowMs, reply⟩, hmem, hentry⟩
  simp only [Prod.mk.injEq] at hentry
  rcases hentry with ⟨hnow, hverdict⟩
  have hlockout := (h strictRateLimit true 0 sameInstantLabels sys
    (LimiterSystem.reach_of_performAll (fun _ _ _ _ => trivial) hsys) .user "alice" nowMs reply hmem).mpr
  rw [hverdict, hnow, startsOf_verdicts, hverdicts] at hlockout
  exact absurd (hlockout ⟨0, by decide, by decide, by decide⟩) Bool.false_ne_true

end Untangled.Auth
