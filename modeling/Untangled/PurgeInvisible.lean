import Untangled.MemoryRateLimit

/-!
# Pruning and purging are invisible

The limiter drops failures that no window reaches any more and contexts that
nothing is left of.  A limiter that keeps every failure and every deadline for
ever answers alike.
-/

namespace Untangled.Auth

/-- A context with its complete history. -/
structure ReferenceContext where
  lockoutUntilMs : Option ℤ
  graceUntilMs : Option ℤ
  historyMs : List ℤ

namespace ReferenceContext

def fresh : ReferenceContext where
  lockoutUntilMs := none
  graceUntilMs := none
  historyMs := []

/-- The failures of the last `k` sample periods. -/
def failuresWithin (c : ReferenceContext) (k nowMs : ℤ) (params : ContextParams) : ℤ :=
  c.historyMs.countP fun stamp => decide (nowMs - k * (params.samplePeriodS * 1000) ≤ stamp)

def evaluate (c : ReferenceContext) (nowMs : ℤ) (params : ContextParams) :
    ContextVerdict × ReferenceContext :=
  if untilRunning c.lockoutUntilMs nowMs then
    ({ delayMs := params.l2DelayMs, lockout := true, lockoutStarted := false }, c)
  else if 3 * params.threshold < c.failuresWithin 3 nowMs params &&
      !untilRunning c.graceUntilMs nowMs then
    ({ delayMs := params.l2DelayMs, lockout := true, lockoutStarted := true },
      { c with
        lockoutUntilMs := some (nowMs + params.lockoutS * 1000)
        graceUntilMs := some (nowMs + params.lockoutS * 1000 + params.lockoutS * 1000) })
  else if 2 * params.threshold < c.failuresWithin 2 nowMs params then
    ({ delayMs := params.l2DelayMs, lockout := false, lockoutStarted := false }, c)
  else if params.threshold < c.failuresWithin 1 nowMs params then
    ({ delayMs := params.l1DelayMs, lockout := false, lockoutStarted := false }, c)
  else
    ({ delayMs := 0, lockout := false, lockoutStarted := false }, c)

def record (c : ReferenceContext) (nowMs : ℤ) : ReferenceContext :=
  { c with historyMs := c.historyMs ++ [nowMs] }

end ReferenceContext

abbrev ReferenceContexts : Type := ContextKind → String → ReferenceContext

namespace ReferenceContexts

def fresh : ReferenceContexts := fun _ _ => .fresh

def set (t : ReferenceContexts) (kind : ContextKind) (key : String) (c : ReferenceContext) :
    ReferenceContexts :=
  fun kind' key' => if kind' = kind ∧ key' = key then c else t kind' key'

end ReferenceContexts

/-- The limiter that forgets nothing and refuses nothing. -/
def referenceRateLimit (cfg : RateLimitSettings) (audit : Bool) :
    RateLimitStore ReferenceContexts where
  perform op nowMs t :=
    match op with
    | .evalOne kind key sourceIp =>
        let outcome := (t kind key).evaluate nowMs (contextParams cfg kind)
        (⟨outcome.1, emittedTrips audit kind key sourceIp outcome.1⟩, t.set kind key outcome.2)
    | .recordOne kind key => (.kept, t.set kind key ((t kind key).record nowMs))
    | .maybeSchedulePurge => ((), t)
    | .runPurge => ((), t)

/-! ## What the stored context still tells of the history -/

/-- The stored context, or its absence, tells all that matters of the history
from `nowMs` on. -/
structure Remembers (params : ContextParams) (nowMs : ℤ) (state : Option ContextState)
    (c : ReferenceContext) : Prop where
  failures : pruneFailures (state.getD emptyContext).failuresMs nowMs params.samplePeriodS =
    pruneFailures c.historyMs nowMs params.samplePeriodS
  lockout : ∀ laterMs, nowMs ≤ laterMs →
    untilRunning (state.getD emptyContext).lockoutUntilMs laterMs =
      untilRunning c.lockoutUntilMs laterMs
  grace : ∀ laterMs, nowMs ≤ laterMs →
    untilRunning (state.getD emptyContext).graceUntilMs laterMs =
      untilRunning c.graceUntilMs laterMs

namespace Remembers

variable {params : ContextParams} {nowMs laterMs : ℤ} {state : Option ContextState}
  {c : ReferenceContext}

theorem fresh :
    Remembers params nowMs none .fresh := by
  constructor
  · rfl
  · exact fun _ _ => rfl
  · exact fun _ _ => rfl

theorem later
    (h : Remembers params nowMs state c)
    (hlater : nowMs ≤ laterMs) :
    Remembers params laterMs state c := by
  constructor
  · rw [← pruneFailures_pruneFailures hlater, h.failures, pruneFailures_pruneFailures hlater]
  · exact fun laterMs' hlater' => h.lockout laterMs' (hlater.trans hlater')
  · exact fun laterMs' hlater' => h.grace laterMs' (hlater.trans hlater')

/-- Dropping the failures that no window reaches is not noticed. -/
theorem prune
    {stored : ContextState}
    (h : Remembers params nowMs (some stored) c) :
    Remembers params nowMs
      (some { stored with
        failuresMs := pruneFailures stored.failuresMs nowMs params.samplePeriodS }) c := by
  constructor
  · exact (pruneFailures_pruneFailures (le_refl nowMs)).trans h.failures
  · exact h.lockout
  · exact h.grace

theorem record
    (h : Remembers params nowMs state c) :
    Remembers params nowMs (some (recordOnContext state nowMs)) (c.record nowMs) := by
  constructor
  · have hfailures := h.failures
    unfold pruneFailures at hfailures ⊢
    simp only [recordOnContext, ReferenceContext.record, Option.getD_some, List.filter_append,
      hfailures]
  · exact h.lockout
  · exact h.grace

theorem purge
    (h : Remembers params nowMs state c) :
    Remembers params nowMs (state.bind fun stored => purgeContext stored nowMs params) c := by
  cases state with
  | none => exact h
  | some stored =>
      rw [Option.bind_some]
      rcases purgeContext_cases stored nowMs params with ⟨hgone, hempty, hlockout, hgrace⟩ | hpruned
      · -- a purged context has no deadline ahead and no failure within reach
        rw [hgone]
        constructor
        · rw [← h.failures]
          exact hempty.symm
        · intro laterMs hlater
          rw [← h.lockout laterMs hlater]
          simp only [Option.getD_none, emptyContext, untilRunning_none, Option.getD_some]
          cases hrunning : untilRunning stored.lockoutUntilMs laterMs with
          | false => rfl
          | true => exact absurd (untilRunning_mono hlater hrunning) (by simp [hlockout])
        · intro laterMs hlater
          rw [← h.grace laterMs hlater]
          simp only [Option.getD_none, emptyContext, untilRunning_none, Option.getD_some]
          cases hrunning : untilRunning stored.graceUntilMs laterMs with
          | false => rfl
          | true => exact absurd (untilRunning_mono hlater hrunning) (by simp [hgrace])
      · rw [hpruned]
        exact h.prune

/-- Every window counts the same in what is stored and in the history. -/
theorem failuresWithin
    {stored : ContextState} {k : ℤ}
    (hparams : params.Clamped)
    (hk : k ≤ 3)
    (h : Remembers params nowMs (some stored) c) :
    ((pruneFailures stored.failuresMs nowMs params.samplePeriodS).countP
        (fun stamp => decide (nowMs - k * (params.samplePeriodS * 1000) ≤ stamp)) : ℤ) =
      c.failuresWithin k nowMs params := by
  have hcutoff : nowMs - 3 * params.samplePeriodS * 1000 ≤
      nowMs - k * (params.samplePeriodS * 1000) := by
    have hperiod := hparams.samplePeriodS
    nlinarith
  have hfailures := h.failures
  rw [Option.getD_some] at hfailures
  rw [hfailures, countP_pruneFailures hcutoff]
  rfl

theorem length_eq
    {stored : ContextState}
    (hparams : params.Clamped)
    (h : Remembers params nowMs (some stored) c) :
    ((pruneFailures stored.failuresMs nowMs params.samplePeriodS).length : ℤ) =
      c.failuresWithin 3 nowMs params := by
  rw [← h.failuresWithin hparams (le_refl 3)]
  congr 1
  symm
  rw [List.countP_eq_length]
  intro stamp hstamp
  have hwithin := (mem_pruneFailures.mp hstamp).2
  rw [decide_eq_true_eq]
  omega

theorem evaluate_stored
    {stored : ContextState}
    (hparams : params.Clamped)
    (h : Remembers params nowMs (some stored) c) :
    (evaluateContext (some stored) nowMs params).toContextVerdict = (c.evaluate nowMs params).1 ∧
      Remembers params nowMs (evaluateContext (some stored) nowMs params).next
        (c.evaluate nowMs params).2 := by
  have hlockout := h.lockout nowMs (le_refl nowMs)
  have hgrace := h.grace nowMs (le_refl nowMs)
  have hone := h.failuresWithin hparams (show (1 : ℤ) ≤ 3 by decide)
  have htwo := h.failuresWithin hparams (show (2 : ℤ) ≤ 3 by decide)
  have hthree := h.length_eq hparams
  rw [one_mul] at hone
  simp only [Option.getD_some] at hlockout hgrace
  simp only [evaluateContext, ReferenceContext.evaluate, hlockout, hgrace, hone, htwo, hthree]
  split
  · exact ⟨rfl, h.prune⟩
  · split
    · refine ⟨rfl, ?_, fun _ _ => rfl, fun _ _ => rfl⟩
      exact (pruneFailures_pruneFailures (le_refl nowMs)).trans h.failures
    · split
      · exact ⟨rfl, h.prune⟩
      · split
        · exact ⟨rfl, h.prune⟩
        · exact ⟨rfl, h.prune⟩

/-- A context that is not stored is judged like one without failures. -/
theorem evaluateContext_empty
    (hparams : params.Clamped) :
    (evaluateContext (some emptyContext) nowMs params).toContextVerdict =
        (evaluateContext none nowMs params).toContextVerdict ∧
      (evaluateContext (some emptyContext) nowMs params).next = some emptyContext := by
  have hthreshold := hparams.threshold
  have hthree : ¬ 3 * params.threshold < 0 := by omega
  have htwo : ¬ 2 * params.threshold < 0 := by omega
  have hone : ¬ params.threshold < 0 := by omega
  simp [evaluateContext, emptyContext, hthree, htwo, hone]

theorem evaluate
    (hparams : params.Clamped)
    (h : Remembers params nowMs state c) :
    (evaluateContext state nowMs params).toContextVerdict = (c.evaluate nowMs params).1 ∧
      Remembers params nowMs (evaluateContext state nowMs params).next
        (c.evaluate nowMs params).2 := by
  cases state with
  | some stored => exact h.evaluate_stored hparams
  | none =>
      have hempty : Remembers params nowMs (some emptyContext) c := ⟨h.failures, h.lockout, h.grace⟩
      have hfirst := @evaluateContext_empty params nowMs hparams
      rcases hfirst with ⟨hverdict, hnext⟩
      rcases hempty.evaluate_stored hparams with ⟨hsame, hstays⟩
      rw [hnext] at hstays
      exact ⟨hverdict.symm.trans hsame, hstays.failures, hstays.lockout, hstays.grace⟩

end Remembers

/-! ## Every run -/

/-- No failure is refused for want of room. -/
def KeepsFailures (cfg : RateLimitSettings) (s : MemoryRateLimit) (op : StoreOp) (_ : ℤ) : Prop :=
  ∀ kind key, op = .recordOne kind key → s.refuses cfg kind key = false

def AllRemembered (cfg : RateLimitSettings) (nowMs : ℤ) (s : MemoryRateLimit)
    (t : ReferenceContexts) : Prop :=
  s.WellKeyed ∧
    ∀ kind key, Remembers (contextParams cfg kind) nowMs (s.load kind key) (t kind key)

section Simulation

variable {cfg : RateLimitSettings} {audit : Bool} {op : StoreOp} {nowMs laterMs : ℤ}
  {s : MemoryRateLimit} {t : ReferenceContexts}

theorem AllRemembered.reply
    (hcfg : ∀ kind, (contextParams cfg kind).Clamped)
    (h : AllRemembered cfg nowMs s t)
    (hlater : nowMs ≤ laterMs)
    (hkeeps : KeepsFailures cfg s op laterMs) :
    ((makeMemoryRateLimit cfg audit).perform op laterMs s).1 =
      ((referenceRateLimit cfg audit).perform op laterMs t).1 := by
  cases op with
  | evalOne kind key sourceIp =>
      have hverdict := (((h.2 kind key).later hlater).evaluate (hcfg kind)).1
      simp only [makeMemoryRateLimit, referenceRateLimit, MemoryRateLimit.evalOne, hverdict]
  | recordOne kind key =>
      simp only [makeMemoryRateLimit, referenceRateLimit, MemoryRateLimit.recordOne,
        hkeeps kind key rfl, Bool.false_eq_true, if_false]
  | maybeSchedulePurge => rfl
  | runPurge => rfl

theorem AllRemembered.stays
    (hcfg : ∀ kind, (contextParams cfg kind).Clamped)
    (h : AllRemembered cfg nowMs s t)
    (hlater : nowMs ≤ laterMs)
    (hkeeps : KeepsFailures cfg s op laterMs) :
    AllRemembered cfg laterMs ((makeMemoryRateLimit cfg audit).perform op laterMs s).2
      ((referenceRateLimit cfg audit).perform op laterMs t).2 := by
  refine ⟨h.1.perform, ?_⟩
  intro kind key
  have hremembers := (h.2 kind key).later hlater
  cases op with
  | evalOne kind' key' sourceIp =>
      simp only [makeMemoryRateLimit, referenceRateLimit, MemoryRateLimit.load_evalOne,
        ReferenceContexts.set]
      split
      · rename_i hself
        rcases hself with ⟨hkind, hkey⟩
        subst hkind hkey
        exact (hremembers.evaluate (hcfg kind)).2
      · exact hremembers
  | recordOne kind' key' =>
      simp only [makeMemoryRateLimit, referenceRateLimit,
        MemoryRateLimit.load_recordOne_kept (hkeeps kind' key' rfl), ReferenceContexts.set]
      split
      · rename_i hself
        rcases hself with ⟨hkind, hkey⟩
        subst hkind hkey
        exact hremembers.record
      · exact hremembers
  | maybeSchedulePurge =>
      simp only [makeMemoryRateLimit, referenceRateLimit, MemoryRateLimit.load_maybeSchedulePurge]
      exact hremembers
  | runPurge =>
      simp only [makeMemoryRateLimit, referenceRateLimit, MemoryRateLimit.load_applyPurge h.1]
      exact hremembers.purge

theorem reference_simulates
    (hcfg : ∀ kind, (contextParams cfg kind).Clamped) :
    LimiterSimulation (makeMemoryRateLimit cfg audit) (referenceRateLimit cfg audit)
      (KeepsFailures cfg) (AllRemembered cfg) := by
  constructor
  · intro op nowMs laterMs s t h hlater hkeeps
    exact h.reply hcfg hlater hkeeps
  · intro op nowMs laterMs s t h hlater hkeeps
    exact h.stays hcfg hlater hkeeps

end Simulation

/-- In every run that refuses no failure, the limiter that keeps the complete
history makes the same run: each evaluation of a context returns the same delay
and lockout and starts a lockout at the same time, and each `evaluate` returns
the same. -/
theorem purges_invisible
    {raw : RateLimitSettings} {audit : Bool} {startMs : ℤ} {labels : List LimiterLabel}
    {sys : LimiterSystem MemoryRateLimit}
    (hrun : LimiterSystem.Reach (makeMemoryRateLimit (clampRateLimit raw) audit)
      (KeepsFailures (clampRateLimit raw)) (LimiterSystem.start MemoryRateLimit.start startMs)
      labels sys) :
    ∃ ref, LimiterSystem.Reach (referenceRateLimit (clampRateLimit raw) audit) (fun _ _ _ => True)
        (LimiterSystem.start ReferenceContexts.fresh startMs) labels ref ∧
      ref.events = sys.events ∧ ref.answers = sys.answers := by
  have hstart : LimiterSystem.Alike (AllRemembered (clampRateLimit raw))
      (LimiterSystem.start MemoryRateLimit.start startMs)
      (LimiterSystem.start ReferenceContexts.fresh startMs) := by
    refine ⟨⟨MemoryRateLimit.keyed_start, ?_⟩, rfl, rfl, rfl, rfl⟩
    intro kind key
    rw [show (LimiterSystem.start MemoryRateLimit.start startMs).store.load kind key = none from
      MemoryRateLimit.load_start]
    exact Remembers.fresh
  rcases hrun.simulated (reference_simulates (contextParams_clamped raw)) hstart with
    ⟨ref, hreach, halike⟩
  exact ⟨ref, hreach, halike.events, halike.answers⟩

def keepsFailures (cfg : RateLimitSettings) (s : MemoryRateLimit) (op : StoreOp) (_ : ℤ) : Bool :=
  match op with
  | .evalOne _ _ _ => true
  | .recordOne kind key => !s.refuses cfg kind key
  | .maybeSchedulePurge => true
  | .runPurge => true

/-- Two failures, a purge when they are just within reach, and one when they are
not any more. -/
def boundaryLabels : List LimiterLabel :=
  aliceFails 0 ++ aliceFails 0 ++ [.runPurge 30000] ++ aliceAsks 30000 ++ [.runPurge 30001] ++
    aliceAsks 30001

theorem keepsFailures_spec
    {cfg : RateLimitSettings} {s : MemoryRateLimit} {op : StoreOp} {nowMs : ℤ}
    (h : keepsFailures cfg s op nowMs = true) :
    KeepsFailures cfg s op nowMs := by
  intro kind key hop
  subst hop
  simpa [keepsFailures] using h

theorem purges_invisible_boundary :
    ∃ (sys : LimiterSystem MemoryRateLimit) (ref : LimiterSystem ReferenceContexts),
      (LimiterSystem.start MemoryRateLimit.start 0).performAll
          (makeMemoryRateLimit (clampRateLimit strictRateLimit) true)
          (keepsFailures (clampRateLimit strictRateLimit)) boundaryLabels = some sys ∧
        sys.store.load .user "alice" = none ∧
        LimiterSystem.Reach (referenceRateLimit (clampRateLimit strictRateLimit) true)
          (fun _ _ _ => True) (LimiterSystem.start ReferenceContexts.fresh 0) boundaryLabels ref ∧
        ref.events = sys.events ∧ ref.answers = sys.answers := by
  have hend : ((LimiterSystem.start MemoryRateLimit.start 0).performAll
      (makeMemoryRateLimit (clampRateLimit strictRateLimit) true)
      (keepsFailures (clampRateLimit strictRateLimit)) boundaryLabels).map
        (fun sys => sys.store.load .user "alice") = some none := by
    decide +kernel
  rcases Option.map_eq_some_iff.mp hend with ⟨sys, hsys, hgone⟩
  have hreach := LimiterSystem.reach_of_performAll (fun _ _ _ => keepsFailures_spec) hsys
  rcases purges_invisible hreach with ⟨ref, href⟩
  exact ⟨sys, ref, hsys, hgone, href⟩

end Untangled.Auth
