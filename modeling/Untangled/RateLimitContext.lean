import Mathlib.Algebra.BigOperators.Group.Finset.Basic
import Untangled.SystemConfig

/-!
# One context of the rate limiter

`rate_limit.ts` judges a login by two contexts, that of its username and that of
its address.  This module has what happens to one context, whichever store keeps
it: the pruning of old failures, the evaluation with its lockout and grace
period, the recording of a failure and the purge.  Instants are whole
milliseconds, as `Date.now` gives them.
-/

namespace Untangled.Auth

structure RateLimitResult where
  delayMs : ℤ
  lockout : Bool
deriving DecidableEq

inductive ContextKind
  | user
  | ip
deriving DecidableEq

structure ContextState where
  lockoutUntilMs : Option ℤ
  graceUntilMs : Option ℤ
  failuresMs : List ℤ
deriving DecidableEq

structure ContextParams where
  threshold : ℤ
  samplePeriodS : ℤ
  l1DelayMs : ℤ
  l2DelayMs : ℤ
  lockoutS : ℤ
deriving DecidableEq

def contextBaseBytes : ℤ := 256
def failureMemberBytes : ℤ := 64
def purgeTriggerRatio : ℚ := 4 / 5

def emptyContext : ContextState where
  lockoutUntilMs := none
  graceUntilMs := none
  failuresMs := []

def pruneFailures (failuresMs : List ℤ) (nowMs samplePeriodS : ℤ) : List ℤ :=
  failuresMs.filter fun stamp => decide (nowMs - 3 * samplePeriodS * 1000 ≤ stamp)

/-- `until_ms != null && now_ms < until_ms` -/
def untilRunning (untilMs : Option ℤ) (nowMs : ℤ) : Bool :=
  untilMs.any fun u => decide (nowMs < u)

def contextIsExpired (state : ContextState) (nowMs : ℤ) : Bool :=
  state.failuresMs.isEmpty && !untilRunning state.lockoutUntilMs nowMs &&
    !untilRunning state.graceUntilMs nowMs

def estimateContextBytes (state : ContextState) : ℤ :=
  contextBaseBytes + state.failuresMs.length * failureMemberBytes

/-- The bytes of a context, none when it is not stored. -/
def storedBytes (state : Option ContextState) : ℤ :=
  (state.map estimateContextBytes).getD 0

def budgetBytes (maxKib : ℤ) : ℤ := maxKib * 1024

/-- What an evaluation tells its caller. -/
structure ContextVerdict where
  delayMs : ℤ
  lockout : Bool
  lockoutStarted : Bool
deriving DecidableEq

structure EvaluateContextResult extends ContextVerdict where
  next : Option ContextState
deriving DecidableEq

def evaluateContext (state : Option ContextState) (nowMs : ℤ) (params : ContextParams) :
    EvaluateContextResult :=
  match state with
  | none => { delayMs := 0, lockout := false, next := none, lockoutStarted := false }
  | some state =>
      let failuresMs := pruneFailures state.failuresMs nowMs params.samplePeriodS
      let pruned : ContextState := { state with failuresMs := failuresMs }
      if untilRunning state.lockoutUntilMs nowMs then
        { delayMs := params.l2DelayMs, lockout := true, next := some pruned
          lockoutStarted := false }
      else
        let inGrace := untilRunning state.graceUntilMs nowMs
        let windowS := params.samplePeriodS * 1000
        let n1 : ℤ := failuresMs.countP fun stamp => decide (nowMs - windowS ≤ stamp)
        let n2 : ℤ := failuresMs.countP fun stamp => decide (nowMs - 2 * windowS ≤ stamp)
        let n3 : ℤ := failuresMs.length
        if 3 * params.threshold < n3 && !inGrace then
          let lockoutUntilMs := nowMs + params.lockoutS * 1000
          let graceUntilMs := lockoutUntilMs + params.lockoutS * 1000
          { delayMs := params.l2DelayMs, lockout := true
            next := some ⟨some lockoutUntilMs, some graceUntilMs, failuresMs⟩
            lockoutStarted := true }
        else if 2 * params.threshold < n2 then
          { delayMs := params.l2DelayMs, lockout := false, next := some pruned
            lockoutStarted := false }
        else if params.threshold < n1 then
          { delayMs := params.l1DelayMs, lockout := false, next := some pruned
            lockoutStarted := false }
        else
          { delayMs := 0, lockout := false, next := some pruned, lockoutStarted := false }

def recordOnContext (state : Option ContextState) (nowMs : ℤ) : ContextState :=
  let base := state.getD emptyContext
  { base with failuresMs := base.failuresMs ++ [nowMs] }

def userParams (settings : RateLimitSettings) : ContextParams where
  threshold := settings.perUserThreshold
  samplePeriodS := settings.perUserSamplePeriodS
  l1DelayMs := settings.l1DelayMs
  l2DelayMs := settings.l2DelayMs
  lockoutS := settings.lockoutS

def ipParams (settings : RateLimitSettings) : ContextParams where
  threshold := settings.perIpThreshold
  samplePeriodS := settings.perIpSamplePeriodS
  l1DelayMs := settings.l1DelayMs
  l2DelayMs := settings.l2DelayMs
  lockoutS := settings.lockoutS

/-- `kind === "user" ? user_params(settings) : ip_params(settings)` -/
def contextParams (settings : RateLimitSettings) : ContextKind → ContextParams
  | .user => userParams settings
  | .ip => ipParams settings

/-- A stored context after a purge: pruned, and gone if that leaves nothing. -/
def purgeContext (state : ContextState) (nowMs : ℤ) (params : ContextParams) :
    Option ContextState :=
  let pruned : ContextState :=
    { state with failuresMs := pruneFailures state.failuresMs nowMs params.samplePeriodS }
  if contextIsExpired pruned nowMs then none else some pruned

/-! ## Settings the service runs with -/

/-- What the clamps of `login_settings.ts` promise about a context. -/
structure ContextParams.Clamped (params : ContextParams) : Prop where
  threshold : 1 ≤ params.threshold
  samplePeriodS : 1 ≤ params.samplePeriodS
  lockoutS : 1 ≤ params.lockoutS

theorem contextParams_clamped
    (raw : RateLimitSettings) (kind : ContextKind) :
    (contextParams (clampRateLimit raw) kind).Clamped := by
  cases kind <;> constructor <;>
    simp [contextParams, userParams, ipParams, clampRateLimit, clampMin]

@[simp] theorem contextParams_lockoutS
    (settings : RateLimitSettings) (kind : ContextKind) :
    (contextParams settings kind).lockoutS = settings.lockoutS := by
  cases kind <;> rfl

@[simp] theorem contextParams_l2DelayMs
    (settings : RateLimitSettings) (kind : ContextKind) :
    (contextParams settings kind).l2DelayMs = settings.l2DelayMs := by
  cases kind <;> rfl

/-! ## Windows and deadlines -/

@[simp] theorem untilRunning_none
    {nowMs : ℤ} :
    untilRunning none nowMs = false := rfl

@[simp] theorem untilRunning_some
    {u nowMs : ℤ} :
    untilRunning (some u) nowMs = decide (nowMs < u) := rfl

theorem untilRunning_mono
    {untilMs : Option ℤ} {nowMs laterMs : ℤ}
    (hlater : nowMs ≤ laterMs)
    (h : untilRunning untilMs laterMs = true) :
    untilRunning untilMs nowMs = true := by
  cases untilMs with
  | none => exact h
  | some u =>
      simp only [untilRunning_some, decide_eq_true_eq] at h ⊢
      omega

@[simp] theorem pruneFailures_nil
    {nowMs samplePeriodS : ℤ} :
    pruneFailures [] nowMs samplePeriodS = [] := rfl

theorem mem_pruneFailures
    {failuresMs : List ℤ} {nowMs samplePeriodS stamp : ℤ} :
    stamp ∈ pruneFailures failuresMs nowMs samplePeriodS ↔
      stamp ∈ failuresMs ∧ nowMs - 3 * samplePeriodS * 1000 ≤ stamp := by
  simp [pruneFailures]

/-- Pruning earlier does not change what a later pruning leaves. -/
theorem pruneFailures_pruneFailures
    {failuresMs : List ℤ} {nowMs laterMs samplePeriodS : ℤ}
    (hlater : nowMs ≤ laterMs) :
    pruneFailures (pruneFailures failuresMs nowMs samplePeriodS) laterMs samplePeriodS =
      pruneFailures failuresMs laterMs samplePeriodS := by
  unfold pruneFailures
  rw [List.filter_filter]
  apply List.filter_congr
  intro stamp _
  rw [← Bool.decide_and, decide_eq_decide]
  omega

/-- A window inside the pruning window counts the same before and after. -/
theorem countP_pruneFailures
    {failuresMs : List ℤ} {nowMs samplePeriodS cutoff : ℤ}
    (hcutoff : nowMs - 3 * samplePeriodS * 1000 ≤ cutoff) :
    (pruneFailures failuresMs nowMs samplePeriodS).countP (fun stamp => decide (cutoff ≤ stamp)) =
      failuresMs.countP fun stamp => decide (cutoff ≤ stamp) := by
  unfold pruneFailures
  rw [List.countP_filter]
  apply List.countP_congr
  intro stamp _
  simp only [Bool.and_eq_true, decide_eq_true_eq]
  omega

/-! ## What an evaluation and a purge can do -/

section Cases

variable {state : Option ContextState} {c : ContextState} {nowMs : ℤ} {params : ContextParams}

/-- An evaluation finds a lockout running, starts one, or only prunes. -/
theorem evaluateContext_cases (c : ContextState) (nowMs : ℤ) (params : ContextParams) :
    (untilRunning c.lockoutUntilMs nowMs = true ∧
      evaluateContext (some c) nowMs params =
        { delayMs := params.l2DelayMs, lockout := true, lockoutStarted := false
          next := some { c with
            failuresMs := pruneFailures c.failuresMs nowMs params.samplePeriodS } }) ∨
    (untilRunning c.lockoutUntilMs nowMs = false ∧ untilRunning c.graceUntilMs nowMs = false ∧
      evaluateContext (some c) nowMs params =
        { delayMs := params.l2DelayMs, lockout := true, lockoutStarted := true
          next := some
            { lockoutUntilMs := some (nowMs + params.lockoutS * 1000)
              graceUntilMs := some (nowMs + params.lockoutS * 1000 + params.lockoutS * 1000)
              failuresMs := pruneFailures c.failuresMs nowMs params.samplePeriodS } }) ∨
    (untilRunning c.lockoutUntilMs nowMs = false ∧ ∃ delayMs,
      evaluateContext (some c) nowMs params =
        { delayMs := delayMs, lockout := false, lockoutStarted := false
          next := some { c with
            failuresMs := pruneFailures c.failuresMs nowMs params.samplePeriodS } }) := by
  cases hlockout : untilRunning c.lockoutUntilMs nowMs with
  | true => exact Or.inl ⟨rfl, by simp only [evaluateContext, hlockout, if_true]⟩
  | false =>
      right
      simp only [evaluateContext, hlockout, Bool.false_eq_true, if_false, true_and]
      split
      · rename_i hstart
        simp only [Bool.and_eq_true, Bool.not_eq_true', decide_eq_true_eq] at hstart
        exact Or.inl ⟨hstart.2, rfl⟩
      · right
        split
        · exact ⟨_, rfl⟩
        · split
          · exact ⟨_, rfl⟩
          · exact ⟨_, rfl⟩

theorem evaluateContext_next_isSome :
    (evaluateContext state nowMs params).next.isSome = state.isSome := by
  cases state with
  | none => rfl
  | some c =>
      rcases evaluateContext_cases c nowMs params with ⟨_, h⟩ | ⟨_, _, h⟩ | ⟨_, _, h⟩ <;>
        rw [h] <;> rfl

/-- A purge leaves a context alone as long as its lockout or its grace runs. -/
theorem purgeContext_running
    (h : untilRunning c.lockoutUntilMs nowMs = true ∨ untilRunning c.graceUntilMs nowMs = true) :
    purgeContext c nowMs params =
      some { c with failuresMs := pruneFailures c.failuresMs nowMs params.samplePeriodS } := by
  unfold purgeContext contextIsExpired
  rcases h with h | h <;> simp [h]

theorem purgeContext_cases (c : ContextState) (nowMs : ℤ) (params : ContextParams) :
    (purgeContext c nowMs params = none ∧
      pruneFailures c.failuresMs nowMs params.samplePeriodS = [] ∧
      untilRunning c.lockoutUntilMs nowMs = false ∧ untilRunning c.graceUntilMs nowMs = false) ∨
    purgeContext c nowMs params =
      some { c with failuresMs := pruneFailures c.failuresMs nowMs params.samplePeriodS } := by
  unfold purgeContext
  simp only
  split
  · rename_i hexpired
    simp only [contextIsExpired, Bool.and_eq_true, Bool.not_eq_true', List.isEmpty_iff] at hexpired
    exact Or.inl ⟨rfl, hexpired.1.1, hexpired.1.2, hexpired.2⟩
  · exact Or.inr rfl

theorem purgeContext_purgeContext :
    ((purgeContext c nowMs params).bind fun pruned => purgeContext pruned nowMs params) =
      purgeContext c nowMs params := by
  have hsame := @pruneFailures_pruneFailures c.failuresMs nowMs nowMs params.samplePeriodS
    (le_refl nowMs)
  unfold purgeContext
  simp only
  split
  · rfl
  · rename_i hkept
    rw [Option.bind_some]
    simp only [hsame]
    rw [if_neg hkept]

end Cases

/-! ## The contexts of a limiter -/

abbrev LimiterContexts := ContextKind → String → Option ContextState

def LimiterContexts.put (f : LimiterContexts) (kind : ContextKind) (key : String)
    (state : Option ContextState) : LimiterContexts :=
  fun kind' key' => if kind' = kind ∧ key' = key then state else f kind' key'

/-- `bytes` is what the stored contexts are taken to need. -/
def Counted (bytes : ℤ) (f : LimiterContexts) : Prop :=
  ∃ stored : Finset (ContextKind × String),
    (∀ kind key, (kind, key) ∈ stored ↔ (f kind key).isSome = true) ∧
    bytes = ∑ id ∈ stored, storedBytes (f id.1 id.2)

theorem counted_none : Counted 0 fun _ _ => none :=
  ⟨∅, by simp, by simp⟩

/-- One context changes, and the count with it. -/
theorem Counted.put
    {bytes bytes' : ℤ} {f g : LimiterContexts} {kind : ContextKind} {key : String}
    (h : Counted bytes f)
    (hothers : ∀ kind' key', ¬(kind' = kind ∧ key' = key) → g kind' key' = f kind' key')
    (hbytes : bytes' = bytes + (storedBytes (g kind key) - storedBytes (f kind key))) :
    Counted bytes' g := by
  rcases h with ⟨stored, hstored, hsum⟩
  have hsame : ∀ id ∈ stored.erase (kind, key), g id.1 id.2 = f id.1 id.2 := by
    rintro ⟨kind', key'⟩ hid
    apply hothers
    rintro ⟨rfl, rfl⟩
    exact absurd rfl (Finset.ne_of_mem_erase hid)
  have hrest : ∑ id ∈ stored.erase (kind, key), storedBytes (g id.1 id.2) =
      bytes - storedBytes (f kind key) := by
    rw [Finset.sum_congr rfl fun id hid => congrArg storedBytes (hsame id hid), hsum]
    by_cases hmem : (kind, key) ∈ stored
    · rw [← Finset.add_sum_erase stored _ hmem]
      exact (add_sub_cancel_left _ _).symm
    · have hnone : f kind key = none := by
        rw [← Option.not_isSome_iff_eq_none, ← hstored]
        exact hmem
      rw [Finset.erase_eq_of_notMem hmem, hnone]
      exact (sub_zero _).symm
  cases hnew : g kind key with
  | none =>
      refine ⟨stored.erase (kind, key), ?_, ?_⟩
      · intro kind' key'
        rw [Finset.mem_erase, ne_eq, Prod.mk.injEq]
        by_cases hself : kind' = kind ∧ key' = key
        · rw [hself.1, hself.2, hnew]
          simp
        · rw [hothers kind' key' hself, hstored]
          simp [hself]
      · rw [hrest, hbytes, hnew]
        change bytes + (0 - _) = _
        omega
  | some state =>
      refine ⟨insert (kind, key) (stored.erase (kind, key)), ?_, ?_⟩
      · intro kind' key'
        rw [Finset.mem_insert, Finset.mem_erase, ne_eq, Prod.mk.injEq]
        by_cases hself : kind' = kind ∧ key' = key
        · rw [hself.1, hself.2, hnew]
          simp
        · rw [hothers kind' key' hself, hstored]
          simp [hself]
      · rw [Finset.sum_insert (Finset.notMem_erase _ _), hrest, hbytes]
        simp only
        omega

/-- The count is that of no other contexts. -/
theorem Counted.unique
    {bytes bytes' : ℤ} {f g : LimiterContexts}
    (hf : Counted bytes f)
    (hg : Counted bytes' g)
    (hstored : ∀ kind key, (f kind key).isSome = (g kind key).isSome)
    (hbytes : ∀ kind key, storedBytes (f kind key) = storedBytes (g kind key)) :
    bytes = bytes' := by
  rcases hf with ⟨stored, hmem, hsum⟩
  rcases hg with ⟨stored', hmem', hsum'⟩
  have hsame : stored = stored' := by
    ext ⟨kind, key⟩
    rw [hmem, hmem', hstored]
  rw [hsum, hsum', hsame]
  exact Finset.sum_congr rfl fun id _ => hbytes id.1 id.2

end Untangled.Auth
