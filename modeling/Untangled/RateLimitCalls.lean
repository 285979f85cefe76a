import Untangled.RateLimitContext

/-!
# Calls to a rate limiter

`evaluate` and `record_failure` are asynchronous: each awaits the settings and
then every step on a context, so other calls and purges may run in between.  The
steps themselves are atomic.  A limiter is given by what they do to its store;
the system below has any number of calls in flight and lets any of them go on at
any time.
-/

namespace Untangled.Auth

/-- What `emit_trip_safe` reports. -/
structure RateLimitTrip where
  kind : ContextKind
  contextKey : String
  ipAddress : Option String
deriving DecidableEq

/-- The steps that a limiter takes on its store. -/
inductive StoreOp
  | evalOne (kind : ContextKind) (key : String) (sourceIp : Option String)
  | recordOne (kind : ContextKind) (key : String)
  | maybeSchedulePurge
  | runPurge
deriving DecidableEq

structure EvalOneReply where
  verdict : ContextVerdict
  trips : List RateLimitTrip
deriving DecidableEq

/-- `record_one` returns nothing; the reply tells whether the failure was kept
or refused for want of room. -/
inductive RecordOneReply
  | kept
  | refused
deriving DecidableEq

@[reducible] def StoreReply : StoreOp → Type
  | .evalOne _ _ _ => EvalOneReply
  | .recordOne _ _ => RecordOneReply
  | .maybeSchedulePurge => Unit
  | .runPurge => Unit

/-- A limiter: each step on its store, at the clock it reads. -/
structure RateLimitStore (σ : Type) where
  perform : (op : StoreOp) → (nowMs : ℤ) → σ → StoreReply op × σ

/-- `emit_trip_safe`, called when the lockout started. -/
def emittedTrips (audit : Bool) (kind : ContextKind) (contextKey : String)
    (sourceIp : Option String) (verdict : ContextVerdict) : List RateLimitTrip :=
  if verdict.lockoutStarted then
    if audit then [⟨kind, contextKey, sourceIp⟩] else []
  else []

/-! ## Calls in flight -/

inductive LimiterCall
  | evaluate (usernameKey : String) (sourceIp : Option String)
  | evaluateIp (usernameKey : String) (sourceIp : String) (user : ContextVerdict)
  | recordFailure (usernameKey : String) (sourceIp : Option String)
  | recordIp (sourceIp : String)
  | recorded
deriving DecidableEq

/-- The step that a call takes next. -/
def LimiterCall.op : LimiterCall → StoreOp
  | .evaluate usernameKey sourceIp => .evalOne .user usernameKey sourceIp
  | .evaluateIp _ sourceIp _ => .evalOne .ip sourceIp (some sourceIp)
  | .recordFailure usernameKey _ => .recordOne .user usernameKey
  | .recordIp sourceIp => .recordOne .ip sourceIp
  | .recorded => .maybeSchedulePurge

/-- `source_ip != null && source_ip !== ""` -/
def presentIp : Option String → Option String
  | none => none
  | some sourceIp => if sourceIp = "" then none else some sourceIp

structure LimiterAnswer where
  usernameKey : String
  sourceIp : Option String
  result : RateLimitResult
deriving DecidableEq

def bothContexts (user ip : RateLimitResult) : RateLimitResult where
  delayMs := user.delayMs + ip.delayMs
  lockout := user.lockout || ip.lockout

def ContextVerdict.result (verdict : ContextVerdict) : RateLimitResult where
  delayMs := verdict.delayMs
  lockout := verdict.lockout

inductive LimiterNext
  | call (next : LimiterCall)
  | answer (answer : LimiterAnswer)
  | done
deriving DecidableEq

/-- What a call does once its step has been answered. -/
def LimiterCall.after : (c : LimiterCall) → StoreReply c.op → LimiterNext
  | .evaluate usernameKey sourceIp, reply =>
      match presentIp sourceIp with
      | none =>
          .answer ⟨usernameKey, sourceIp, bothContexts reply.verdict.result ⟨0, false⟩⟩
      | some ip => .call (.evaluateIp usernameKey ip reply.verdict)
  | .evaluateIp usernameKey sourceIp user, reply =>
      .answer ⟨usernameKey, some sourceIp, bothContexts user.result reply.verdict.result⟩
  | .recordFailure _ sourceIp, _ =>
      match presentIp sourceIp with
      | none => .call .recorded
      | some ip => .call (.recordIp ip)
  | .recordIp _, _ => .call .recorded
  | .recorded, _ => .done

/-- A step that was taken, the clock it read and its reply. -/
structure StoreEvent where
  op : StoreOp
  nowMs : ℤ
  reply : StoreReply op

/-- What the log says of an evaluation of the context. -/
def StoreEvent.evaluation (kind : ContextKind) (key : String) :
    StoreEvent → Option (ℤ × EvalOneReply)
  | ⟨.evalOne kind' key' _, nowMs, reply⟩ =>
      if kind' = kind ∧ key' = key then some (nowMs, reply) else none
  | ⟨.recordOne _ _, _, _⟩ => none
  | ⟨.maybeSchedulePurge, _, _⟩ => none
  | ⟨.runPurge, _, _⟩ => none

def evaluationsOf (kind : ContextKind) (key : String) (events : List StoreEvent) :
    List (ℤ × EvalOneReply) :=
  events.filterMap (StoreEvent.evaluation kind key)

/-- The instant of the evaluation, if it started a lockout. -/
def startedAt (nowMs : ℤ) (verdict : ContextVerdict) : List ℤ :=
  if verdict.lockoutStarted then [nowMs] else []

/-- The instants at which the context was locked out. -/
def startsOf (kind : ContextKind) (key : String) (events : List StoreEvent) : List ℤ :=
  (evaluationsOf kind key events).flatMap fun entry => startedAt entry.1 entry.2.verdict

/-- The trips that name the context, with the instants they were emitted at. -/
def tripsOf (kind : ContextKind) (key : String) (events : List StoreEvent) :
    List (ℤ × RateLimitTrip) :=
  events.flatMap fun event =>
    match event with
    | ⟨.evalOne _ _ _, nowMs, reply⟩ =>
        (reply.trips.filter fun trip => decide (trip.kind = kind ∧ trip.contextKey = key)).map
          fun trip => (nowMs, trip)
    | ⟨.recordOne _ _, _, _⟩ => []
    | ⟨.maybeSchedulePurge, _, _⟩ => []
    | ⟨.runPurge, _, _⟩ => []

/-- `P` holds of every event and of what had been logged before it. -/
def Logged (P : List StoreEvent → StoreEvent → Prop) (events : List StoreEvent) : Prop :=
  ∀ before event after, events = before ++ event :: after → P before event

theorem logged_nil
    {P : List StoreEvent → StoreEvent → Prop} :
    Logged P [] := by
  intro before event after h
  exact absurd h (by simp)

theorem Logged.snoc
    {P : List StoreEvent → StoreEvent → Prop} {events : List StoreEvent} {event : StoreEvent}
    (h : Logged P events)
    (hevent : P events event) :
    Logged P (events ++ [event]) := by
  intro before event' after hsplit
  rcases List.eq_nil_or_concat after with hafter | ⟨after', last, hafter⟩
  · subst hafter
    have hlast := List.append_inj' hsplit rfl
    rw [← hlast.1]
    simp only [List.cons.injEq, and_true] at hlast
    rw [← hlast.2]
    exact hevent
  · rw [hafter, List.concat_eq_append, ← List.cons_append, ← List.append_assoc] at hsplit
    exact h before event' after' (List.append_inj' hsplit rfl).1

structure LimiterSystem (σ : Type) where
  store : σ
  calls : List LimiterCall
  nowMs : ℤ
  events : List StoreEvent
  answers : List LimiterAnswer

inductive LimiterLabel
  | evaluate (usernameKey : String) (sourceIp : Option String)
  | recordFailure (usernameKey : String) (sourceIp : Option String)
  | resume (i : ℕ) (nowMs : ℤ)
  | runPurge (nowMs : ℤ)
deriving DecidableEq

namespace LimiterSystem

variable {σ : Type}

def start (store : σ) (nowMs : ℤ) : LimiterSystem σ where
  store := store
  calls := []
  nowMs := nowMs
  events := []
  answers := []

/-- The calls in flight after the `i`th has gone on. -/
def callsAfter (calls : List LimiterCall) (i : ℕ) : LimiterNext → List LimiterCall
  | .call next => calls.set i next
  | .answer _ => calls.eraseIdx i
  | .done => calls.eraseIdx i

def answersAfter (answers : List LimiterAnswer) : LimiterNext → List LimiterAnswer
  | .answer answer => answers ++ [answer]
  | .call _ => answers
  | .done => answers

/-- The step `op` on the store at `nowMs`. -/
def perform (impl : RateLimitStore σ) (sys : LimiterSystem σ) (op : StoreOp) (nowMs : ℤ) :
    LimiterSystem σ :=
  { sys with
    store := (impl.perform op nowMs sys.store).2
    nowMs := nowMs
    events := sys.events ++ [⟨op, nowMs, (impl.perform op nowMs sys.store).1⟩] }

/-- A call arrives, goes on, or a purge runs: `run_purge` is public, and a
scheduled purge is one too.  The clock never goes back. -/
def next (impl : RateLimitStore σ) (sys : LimiterSystem σ) :
    LimiterLabel → Option (LimiterSystem σ)
  | .evaluate usernameKey sourceIp =>
      some { sys with calls := sys.calls ++ [.evaluate usernameKey sourceIp] }
  | .recordFailure usernameKey sourceIp =>
      some { sys with calls := sys.calls ++ [.recordFailure usernameKey sourceIp] }
  | .resume i nowMs =>
      if sys.nowMs ≤ nowMs then
        sys.calls[i]?.map fun c =>
          let after := c.after (impl.perform c.op nowMs sys.store).1
          { sys.perform impl c.op nowMs with
            calls := callsAfter sys.calls i after
            answers := answersAfter sys.answers after }
      else none
  | .runPurge nowMs =>
      if sys.nowMs ≤ nowMs then some (sys.perform impl .runPurge nowMs) else none

/-- The step on the store that a label takes, and when. -/
def opOf (sys : LimiterSystem σ) : LimiterLabel → Option (StoreOp × ℤ)
  | .evaluate _ _ => none
  | .recordFailure _ _ => none
  | .resume i nowMs => sys.calls[i]?.map fun c => (c.op, nowMs)
  | .runPurge nowMs => some (.runPurge, nowMs)

/-- A run from `start` whose steps on the store all meet `Meets`. -/
inductive Reach (impl : RateLimitStore σ) (Meets : σ → StoreOp → ℤ → Prop)
    (start : LimiterSystem σ) : List LimiterLabel → LimiterSystem σ → Prop
  | start : Reach impl Meets start [] start
  | step {labels : List LimiterLabel} {sys sys' : LimiterSystem σ} {label : LimiterLabel} :
      Reach impl Meets start labels sys →
      (∀ op nowMs, sys.opOf label = some (op, nowMs) → Meets sys.store op nowMs) →
      sys.next impl label = some sys' →
      Reach impl Meets start (labels ++ [label]) sys'

/-- The run over `labels`, if every step on the store passes `check`. -/
def performAll (impl : RateLimitStore σ) (check : σ → StoreOp → ℤ → Bool) (sys : LimiterSystem σ)
    (labels : List LimiterLabel) : Option (LimiterSystem σ) :=
  labels.foldlM (fun sys label =>
    if (sys.opOf label).all fun step => check sys.store step.1 step.2 then sys.next impl label
    else none) sys

variable {impl : RateLimitStore σ} {Meets : σ → StoreOp → ℤ → Prop}
  {first sys sys' : LimiterSystem σ} {label : LimiterLabel} {labels : List LimiterLabel}

/-- A label leaves the store alone or takes one step on it. -/
theorem next_cases
    (h : sys.next impl label = some sys') :
    (sys.opOf label = none ∧ sys'.store = sys.store ∧ sys'.nowMs = sys.nowMs ∧
      sys'.events = sys.events) ∨
    ∃ op nowMs, sys.opOf label = some (op, nowMs) ∧ sys.nowMs ≤ nowMs ∧
      sys'.store = (impl.perform op nowMs sys.store).2 ∧ sys'.nowMs = nowMs ∧
      sys'.events = sys.events ++ [⟨op, nowMs, (impl.perform op nowMs sys.store).1⟩] := by
  cases label with
  | evaluate usernameKey sourceIp =>
      simp only [next, Option.some.injEq] at h
      subst h
      exact Or.inl ⟨rfl, rfl, rfl, rfl⟩
  | recordFailure usernameKey sourceIp =>
      simp only [next, Option.some.injEq] at h
      subst h
      exact Or.inl ⟨rfl, rfl, rfl, rfl⟩
  | resume i nowMs =>
      simp only [next] at h
      split at h
      · rename_i hclock
        rcases Option.map_eq_some_iff.mp h with ⟨c, hc, hsys⟩
        subst hsys
        exact Or.inr ⟨c.op, nowMs, by simp only [opOf, hc, Option.map_some], hclock, rfl, rfl, rfl⟩
      · exact absurd h (by simp)
  | runPurge nowMs =>
      simp only [next] at h
      split at h
      · rename_i hclock
        simp only [Option.some.injEq] at h
        subst h
        exact Or.inr ⟨.runPurge, nowMs, rfl, hclock, rfl, rfl, rfl⟩
      · exact absurd h (by simp)

/-- What every step on the store keeps holds in every run. -/
theorem Reach.invariant
    {Inv : σ → ℤ → List StoreEvent → Prop}
    (hstep : ∀ s nowMs events op laterMs, Inv s nowMs events → nowMs ≤ laterMs →
      Meets s op laterMs →
      Inv (impl.perform op laterMs s).2 laterMs
        (events ++ [⟨op, laterMs, (impl.perform op laterMs s).1⟩]))
    (hrun : Reach impl Meets first labels sys)
    (hfirst : Inv first.store first.nowMs first.events) :
    Inv sys.store sys.nowMs sys.events := by
  induction hrun with
  | start => exact hfirst
  | step _ hmeets hnext ih =>
      rcases next_cases hnext with ⟨_, hstore, hnow, hevents⟩ | ⟨op, laterMs, hop, hclock, hstore,
        hnow, hevents⟩
      · rw [hstore, hnow, hevents]
        exact ih
      · rw [hstore, hnow, hevents]
        exact hstep _ _ _ _ _ ih hclock (hmeets _ _ hop)

theorem reach_of_performAll
    {check : σ → StoreOp → ℤ → Bool}
    (hcheck : ∀ s op nowMs, check s op nowMs = true → Meets s op nowMs)
    (h : first.performAll impl check labels = some sys) :
    Reach impl Meets first labels sys := by
  induction labels using List.reverseRecOn generalizing sys with
  | nil =>
      simp only [performAll, List.foldlM_nil, Option.pure_def, Option.some.injEq] at h
      subst h
      exact .start
  | append_singleton labels label ih =>
      simp only [performAll, List.foldlM_append, List.foldlM_cons, List.foldlM_nil,
        Option.bind_eq_bind, Option.bind_eq_some_iff] at h
      rcases h with ⟨before, hbefore, after, hafter, hsys⟩
      simp only [Option.pure_def, Option.some.injEq] at hsys
      subst hsys
      split at hafter
      · rename_i hall
        refine .step (ih hbefore) ?_ hafter
        intro op nowMs hop
        rw [hop, Option.all_some] at hall
        exact hcheck _ _ _ hall
      · exact absurd hafter (by simp)

end LimiterSystem

/-! ## One limiter in the place of another -/

/-- `R` relates the stores of two limiters at an instant: whatever step is taken
from then on, both answer alike and stay related. -/
structure LimiterSimulation {σ τ : Type} (impl : RateLimitStore σ) (spec : RateLimitStore τ)
    (Meets : σ → StoreOp → ℤ → Prop) (R : ℤ → σ → τ → Prop) : Prop where
  reply : ∀ op nowMs laterMs s t, R nowMs s t → nowMs ≤ laterMs → Meets s op laterMs →
    (impl.perform op laterMs s).1 = (spec.perform op laterMs t).1
  stays : ∀ op nowMs laterMs s t, R nowMs s t → nowMs ≤ laterMs → Meets s op laterMs →
    R laterMs (impl.perform op laterMs s).2 (spec.perform op laterMs t).2

namespace LimiterSystem

variable {σ τ : Type} {impl : RateLimitStore σ} {spec : RateLimitStore τ}
  {Meets : σ → StoreOp → ℤ → Prop} {R : ℤ → σ → τ → Prop}

/-- Nothing that a caller of either limiter sees tells the systems apart. -/
structure Alike (R : ℤ → σ → τ → Prop) (a : LimiterSystem σ) (b : LimiterSystem τ) : Prop where
  store : R a.nowMs a.store b.store
  calls : b.calls = a.calls
  nowMs : b.nowMs = a.nowMs
  events : b.events = a.events
  answers : b.answers = a.answers

theorem Alike.perform
    {a : LimiterSystem σ} {b : LimiterSystem τ} {op : StoreOp} {nowMs : ℤ}
    (hsim : LimiterSimulation impl spec Meets R)
    (h : Alike R a b)
    (hclock : a.nowMs ≤ nowMs)
    (hmeets : Meets a.store op nowMs) :
    Alike R (a.perform impl op nowMs) (b.perform spec op nowMs) := by
  constructor
  · exact hsim.stays _ _ _ _ _ h.store hclock hmeets
  · exact h.calls
  · rfl
  · simp only [LimiterSystem.perform, h.events, hsim.reply _ _ _ _ _ h.store hclock hmeets]
  · exact h.answers

/-- Alike systems make the same next move. -/
theorem Alike.next
    {a a' : LimiterSystem σ} {b : LimiterSystem τ} {label : LimiterLabel}
    (hsim : LimiterSimulation impl spec Meets R)
    (h : Alike R a b)
    (hmeets : ∀ op nowMs, a.opOf label = some (op, nowMs) → Meets a.store op nowMs)
    (hnext : a.next impl label = some a') :
    ∃ b', b.next spec label = some b' ∧ Alike R a' b' := by
  cases label with
  | evaluate usernameKey sourceIp =>
      simp only [LimiterSystem.next, Option.some.injEq] at hnext ⊢
      subst hnext
      exact ⟨_, rfl, h.store, by rw [h.calls], h.nowMs, h.events, h.answers⟩
  | recordFailure usernameKey sourceIp =>
      simp only [LimiterSystem.next, Option.some.injEq] at hnext ⊢
      subst hnext
      exact ⟨_, rfl, h.store, by rw [h.calls], h.nowMs, h.events, h.answers⟩
  | resume i nowMs =>
      simp only [LimiterSystem.next] at hnext ⊢
      rw [h.nowMs, h.calls]
      split at hnext
      · rename_i hclock
        rw [if_pos hclock]
        rcases Option.map_eq_some_iff.mp hnext with ⟨c, hc, ha'⟩
        have hmeetsOp : Meets a.store c.op nowMs :=
          hmeets _ _ (by simp only [opOf, hc, Option.map_some])
        have hreply := hsim.reply _ _ _ _ _ h.store hclock hmeetsOp
        have hperform := h.perform hsim hclock hmeetsOp
        subst ha'
        rw [hc, Option.map_some]
        refine ⟨_, rfl, hperform.store, ?_, rfl, hperform.events, ?_⟩
        · simp only [hreply]
        · simp only [hreply, h.answers]
      · exact absurd hnext (by simp)
  | runPurge nowMs =>
      simp only [LimiterSystem.next] at hnext ⊢
      rw [h.nowMs]
      split at hnext
      · rename_i hclock
        rw [if_pos hclock]
        simp only [Option.some.injEq] at hnext
        subst hnext
        exact ⟨_, rfl, h.perform hsim hclock (hmeets _ _ rfl)⟩
      · exact absurd hnext (by simp)

/-- A run of one limiter is a run of the other, with the same replies and answers. -/
theorem Reach.simulated
    {a a' : LimiterSystem σ} {b : LimiterSystem τ} {labels : List LimiterLabel}
    (hsim : LimiterSimulation impl spec Meets R)
    (hrun : Reach impl Meets a labels a')
    (h : Alike R a b) :
    ∃ b', Reach spec (fun _ _ _ => True) b labels b' ∧ Alike R a' b' := by
  induction hrun with
  | start => exact ⟨b, .start, h⟩
  | step _ hmeets hnext ih =>
      rcases ih with ⟨b', hreach, halike⟩
      rcases halike.next hsim hmeets hnext with ⟨b'', hnext', halike'⟩
      exact ⟨b'', .step hreach (fun _ _ _ => trivial) hnext', halike'⟩

end LimiterSystem

/-! ## A sample setting -/

/-- One failure is enough for a delay, four for a lockout of 20 seconds. -/
def strictRateLimit : RateLimitSettings where
  perUserThreshold := 1
  perUserSamplePeriodS := 10
  perIpThreshold := 1
  perIpSamplePeriodS := 10
  l1DelayMs := 500
  l2DelayMs := 2000
  lockoutS := 20
  maxKib := 8192

/-- A failure of `alice` at `nowMs`, with no other call in flight. -/
def aliceFails (nowMs : ℤ) : List LimiterLabel :=
  [.recordFailure "alice" none, .resume 0 nowMs, .resume 0 nowMs]

def aliceAsks (nowMs : ℤ) : List LimiterLabel :=
  [.evaluate "alice" none, .resume 0 nowMs]

def verdictsOf (kind : ContextKind) (key : String) (events : List StoreEvent) :
    List (ℤ × ContextVerdict) :=
  (evaluationsOf kind key events).map fun entry => (entry.1, entry.2.verdict)

end Untangled.Auth
