import Untangled.MemoryRateLimit

/-!
# Lockouts and their grace periods

A context is locked out for the lockout time and cannot be locked out again for
as long after that.  The log of a run tells when the lockouts started; the
stored context remembers the last start for as long as it matters, whatever
pruning, purging and refused failures do in between.
-/

namespace Untangled.Auth

def ContextParams.lockoutMs (params : ContextParams) : ℤ := params.lockoutS * 1000

theorem ContextParams.Clamped.lockoutMs_pos
    {params : ContextParams}
    (h : params.Clamped) :
    0 < params.lockoutMs := by
  have hlockoutS := h.lockoutS
  unfold ContextParams.lockoutMs
  omega

/-- `starts` are the instants at which a context was locked out, up to `nowMs`;
`state` is what is stored of it. -/
structure LockoutTracked (params : ContextParams) (starts : List ℤ) (nowMs : ℤ)
    (state : Option ContextState) : Prop where
  past : ∀ t ∈ starts, t ≤ nowMs
  apart : starts.Pairwise fun t t' => t + 2 * params.lockoutMs ≤ t'
  kept : ∀ t ∈ starts, nowMs < t + 2 * params.lockoutMs →
    ∃ c, state = some c ∧ c.lockoutUntilMs = some (t + params.lockoutMs) ∧
      c.graceUntilMs = some (t + 2 * params.lockoutMs)
  started : ∀ c u, state = some c → c.lockoutUntilMs = some u →
    ∃ t ∈ starts, u = t + params.lockoutMs
  grace : ∀ c, state = some c →
    c.graceUntilMs = c.lockoutUntilMs.map fun u => u + params.lockoutMs

namespace LockoutTracked

variable {params : ContextParams} {starts : List ℤ} {nowMs laterMs : ℤ}
  {state : Option ContextState} {c : ContextState}

theorem unused :
    LockoutTracked params [] nowMs none := by
  constructor <;> simp

theorem later
    (h : LockoutTracked params starts nowMs state)
    (hlater : nowMs ≤ laterMs) :
    LockoutTracked params starts laterMs state := by
  constructor
  · intro t ht
    exact (h.past t ht).trans hlater
  · exact h.apart
  · intro t ht hwithin
    exact h.kept t ht (by omega)
  · exact h.started
  · exact h.grace

/-- Only the failures of the context have changed. -/
theorem failures
    {failuresMs : List ℤ}
    (h : LockoutTracked params starts nowMs (some c)) :
    LockoutTracked params starts nowMs (some { c with failuresMs := failuresMs }) := by
  constructor
  · exact h.past
  · exact h.apart
  · intro t ht hwithin
    rcases h.kept t ht hwithin with ⟨c', hc', hlockout, hgrace⟩
    simp only [Option.some.injEq] at hc'
    subst hc'
    exact ⟨_, rfl, hlockout, hgrace⟩
  · intro c' u hc' hu
    simp only [Option.some.injEq] at hc'
    subst hc'
    exact h.started c u rfl hu
  · intro c' hc'
    simp only [Option.some.injEq] at hc'
    subst hc'
    exact h.grace c rfl

theorem record
    (h : LockoutTracked params starts nowMs state) :
    LockoutTracked params starts nowMs (some (recordOnContext state nowMs)) := by
  cases state with
  | some c => exact h.failures
  | none =>
      constructor
      · exact h.past
      · exact h.apart
      · intro t ht hwithin
        rcases h.kept t ht hwithin with ⟨c, hc, _⟩
        exact absurd hc (by simp)
      · intro c u hc hu
        simp only [Option.some.injEq] at hc
        subst hc
        exact absurd hu (by simp [recordOnContext, emptyContext])
      · intro c hc
        simp only [Option.some.injEq] at hc
        subst hc
        rfl

/-- Neither a lockout nor a grace period runs once every start is long past. -/
theorem of_past
    (h : LockoutTracked params starts nowMs state)
    (hpast : ∀ t ∈ starts, t + 2 * params.lockoutMs ≤ nowMs) :
    LockoutTracked params starts nowMs none := by
  constructor
  · exact h.past
  · exact h.apart
  · intro t ht hwithin
    exact absurd (hpast t ht) (by omega)
  · intro c u hc
    exact absurd hc (by simp)
  · intro c hc
    exact absurd hc (by simp)

theorem past_of_idle
    (h : LockoutTracked params starts nowMs (some c))
    (hgrace : untilRunning c.graceUntilMs nowMs = false) :
    ∀ t ∈ starts, t + 2 * params.lockoutMs ≤ nowMs := by
  intro t ht
  rcases lt_or_ge nowMs (t + 2 * params.lockoutMs) with hwithin | hdone
  · rcases h.kept t ht hwithin with ⟨c', hc', _, hgrace'⟩
    simp only [Option.some.injEq] at hc'
    subst hc'
    rw [hgrace', untilRunning_some, decide_eq_false_iff_not] at hgrace
    exact absurd hwithin hgrace
  · exact hdone

theorem purge
    (h : LockoutTracked params starts nowMs state) :
    LockoutTracked params starts nowMs (state.bind fun c => purgeContext c nowMs params) := by
  cases state with
  | none => exact h
  | some c =>
      rw [Option.bind_some]
      rcases purgeContext_cases c nowMs params with ⟨hgone, _, _, hgrace⟩ | hpruned
      · rw [hgone]
        exact h.of_past (h.past_of_idle hgrace)
      · rw [hpruned]
        exact h.failures

/-- A lockout starts only when the last one and its grace are over. -/
theorem evaluate
    (h : LockoutTracked params starts nowMs state) :
    LockoutTracked params
      (starts ++ startedAt nowMs (evaluateContext state nowMs params).toContextVerdict) nowMs
      (evaluateContext state nowMs params).next := by
  cases state with
  | none => simpa [evaluateContext, startedAt] using h
  | some c =>
      rcases evaluateContext_cases c nowMs params with ⟨_, heval⟩ | ⟨_, hgrace, heval⟩ |
        ⟨_, _, heval⟩
      · rw [heval]
        simpa [startedAt] using h.failures
      · have hpast := h.past_of_idle hgrace
        rw [heval]
        simp only [startedAt, if_true]
        constructor
        · intro t ht
          rcases List.mem_append.mp ht with hold | hnew
          · exact h.past t hold
          · rw [List.mem_singleton.mp hnew]
        · rw [List.pairwise_append]
          refine ⟨h.apart, List.pairwise_singleton _ _, ?_⟩
          intro t ht t' ht'
          rw [List.mem_singleton.mp ht']
          exact hpast t ht
        · intro t ht hwithin
          rcases List.mem_append.mp ht with hold | hnew
          · exact absurd (hpast t hold) (by omega)
          · rw [List.mem_singleton.mp hnew]
            refine ⟨_, rfl, rfl, ?_⟩
            simp only [ContextParams.lockoutMs, Option.some.injEq]
            omega
        · intro c' u hc' hu
          simp only [Option.some.injEq] at hc'
          subst hc'
          simp only [Option.some.injEq] at hu
          exact ⟨nowMs, by simp, hu.symm⟩
        · intro c' hc'
          simp only [Option.some.injEq] at hc'
          subst hc'
          rfl
      · rw [heval]
        simpa [startedAt] using h.failures

/-- An evaluation reports a lockout as long as one lasts that has started by then. -/
theorem lockout_iff
    (hlockoutMs : 0 < params.lockoutMs)
    (h : LockoutTracked params starts nowMs state) :
    (evaluateContext state nowMs params).lockout = true ↔
      ∃ t ∈ starts ++ startedAt nowMs (evaluateContext state nowMs params).toContextVerdict,
        t ≤ nowMs ∧ nowMs < t + params.lockoutMs := by
  cases state with
  | none =>
      simp only [evaluateContext, startedAt, Bool.false_eq_true, if_false, List.append_nil,
        false_iff, not_exists, not_and, not_lt]
      intro t ht _
      rcases lt_or_ge nowMs (t + params.lockoutMs) with hwithin | hdone
      · rcases h.kept t ht (by omega) with ⟨c, hc, _⟩
        exact absurd hc (by simp)
      · exact hdone
  | some c =>
      -- a start whose lockout lasts is the one that is stored
      have hrunning : (∃ t ∈ starts, t ≤ nowMs ∧ nowMs < t + params.lockoutMs) ↔
          untilRunning c.lockoutUntilMs nowMs = true := by
        constructor
        · rintro ⟨t, ht, _, hwithin⟩
          rcases h.kept t ht (by omega) with ⟨c', hc', hlockout, _⟩
          simp only [Option.some.injEq] at hc'
          subst hc'
          rw [hlockout, untilRunning_some, decide_eq_true_eq]
          exact hwithin
        · intro hrunning
          cases huntil : c.lockoutUntilMs with
          | none =>
              rw [huntil, untilRunning_none] at hrunning
              exact absurd hrunning Bool.false_ne_true
          | some u =>
              rcases h.started c u rfl huntil with ⟨t, ht, hu⟩
              rw [huntil, untilRunning_some, decide_eq_true_eq] at hrunning
              exact ⟨t, ht, h.past t ht, by omega⟩
      rcases evaluateContext_cases c nowMs params with ⟨hlockout, heval⟩ | ⟨_, _, heval⟩ |
        ⟨hlockout, _, heval⟩
      · rw [heval]
        simpa [startedAt] using hrunning.mpr hlockout
      · rw [heval]
        simp only [startedAt, if_true, true_iff]
        exact ⟨nowMs, by simp, le_refl nowMs, by omega⟩
      · rw [heval]
        simp only [startedAt, Bool.false_eq_true, if_false, List.append_nil, false_iff]
        rw [hrunning, hlockout]
        exact Bool.false_ne_true

end LockoutTracked

theorem evaluateContext_lockout_delay
    {state : Option ContextState} {nowMs : ℤ} {params : ContextParams}
    (h : (evaluateContext state nowMs params).lockout = true) :
    (evaluateContext state nowMs params).delayMs = params.l2DelayMs := by
  cases state with
  | none => exact absurd h Bool.false_ne_true
  | some c =>
      rcases evaluateContext_cases c nowMs params with ⟨_, heval⟩ | ⟨_, _, heval⟩ | ⟨_, _, heval⟩
      · rw [heval]
      · rw [heval]
      · rw [heval] at h
        exact absurd h Bool.false_ne_true

/-! ## The log of a run -/

section Log

variable {kind kind' : ContextKind} {key key' : String} {sourceIp : Option String}
  {nowMs : ℤ} {reply : EvalOneReply} {events : List StoreEvent} {event : StoreEvent}

theorem evaluation_evalOne :
    StoreEvent.evaluation kind key ⟨.evalOne kind' key' sourceIp, nowMs, reply⟩ =
      if kind' = kind ∧ key' = key then some (nowMs, reply) else none := rfl

theorem startsOf_snoc :
    startsOf kind key (events ++ [event]) =
      startsOf kind key events ++
        ((event.evaluation kind key).elim [] fun entry => startedAt entry.1 entry.2.verdict) := by
  unfold startsOf evaluationsOf
  rw [List.filterMap_append, List.flatMap_append]
  congr 1
  cases hevent : event.evaluation kind key with
  | none => simp [hevent]
  | some entry => simp [hevent]

theorem startsOf_snoc_of_none
    (h : event.evaluation kind key = none) :
    startsOf kind key (events ++ [event]) = startsOf kind key events := by
  rw [startsOf_snoc, h, Option.elim_none, List.append_nil]

theorem tripsOf_snoc :
    tripsOf kind key (events ++ [event]) =
      tripsOf kind key events ++ tripsOf kind key [event] := by
  unfold tripsOf
  rw [List.flatMap_append]

theorem tripsOf_emitted
    {audit : Bool} {verdict : ContextVerdict} :
    (tripsOf kind key [⟨.evalOne kind' key' sourceIp, nowMs,
        (⟨verdict, emittedTrips audit kind' key' sourceIp verdict⟩ : EvalOneReply)⟩]).map Prod.fst =
      if audit && decide (kind' = kind ∧ key' = key) then startedAt nowMs verdict else [] := by
  unfold tripsOf emittedTrips startedAt
  cases audit <;> cases verdict.lockoutStarted <;>
    by_cases h : kind' = kind ∧ key' = key <;> simp [h]

end Log

end Untangled.Auth
