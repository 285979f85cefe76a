import Mathlib.Tactic

/-!
# Programs over a transaction

A program sends statements over one connection.  A statement reads and changes
what the transaction sees; `commit` makes that the content of the database and
`rollback` gives it up.  Every statement may fail.  `Ends` says how a program
ends, normally or by an error, and each construct has a rule for it.
-/

namespace TransactionPrograms

structure Session (D : Type) where
  committed : D
  /-- What the open transaction sees. -/
  working : D
  /-- The number of statements sent so far. -/
  sent : ℕ

/-- The error with which a statement fails, by the number of the statement. -/
abbrev Faults (ε : Type) := ℕ → Option ε

def Action (D ε α : Type) := Faults ε → Session D → Except ε α × Session D

variable {D ε α β σ : Type}

namespace Action

/-- Go on by the outcome. -/
def branch {γ : Type} (onOk : α → Session D → γ) (onError : ε → Session D → γ) :
    Except ε α × Session D → γ
  | (.ok a, s) => onOk a s
  | (.error e, s) => onError e s

instance : Monad (Action D ε) where
  pure a := fun _ s => (.ok a, s)
  bind m k := fun faults s =>
    branch (fun a s' => k a faults s') (fun e s' => (.error e, s')) (m faults s)

def raise (e : ε) : Action D ε α := fun _ s => (.error e, s)

/-- A computation without the database. -/
def lift (x : Except ε α) : Action D ε α := fun _ s => (x, s)

/-- Send a statement; one that fails changes nothing. -/
def send (f : Session D → Except ε (α × Session D)) : Action D ε α :=
  fun faults s =>
    let after := { s with sent := s.sent + 1 }
    match faults s.sent with
    | some e => (.error e, after)
    | none =>
        match f after with
        | .error e => (.error e, after)
        | .ok r => (.ok r.1, r.2)

def statement (f : D → Except ε (α × D)) : Action D ε α :=
  send fun s => (f s.working).map fun r => (r.1, { s with working := r.2 })

def query (f : D → Except ε α) : Action D ε α :=
  statement fun d => (f d).map fun a => (a, d)

def commit : Action D ε Unit :=
  send fun s => .ok ((), { s with committed := s.working })

def rollback : Action D ε Unit :=
  send fun s => .ok ((), { s with working := s.committed })

/-- Run `cleanup` on an error of `m`, and raise the error again. -/
def onError (m : Action D ε α) (cleanup : Action D ε Unit) : Action D ε α :=
  fun faults s =>
    branch (fun a s' => (.ok a, s'))
      (fun e s' => (cleanup >>= fun _ => raise e) faults s') (m faults s)

/-- The body for each item, from the left. -/
def forEach (body : σ → β → Action D ε σ) : σ → List β → Action D ε σ
  | state, [] => pure state
  | state, b :: rest => body state b >>= fun state' => forEach body state' rest

/-- `m` ends in a result and session as `Q` wants them, or in an error and a
session as `E` does. -/
structure Ends (m : Action D ε α) (faults : Faults ε) (s : Session D)
    (Q : α → Session D → Prop) (E : Session D → Prop) : Prop where
  result : ∀ a s', m faults s = (.ok a, s') → Q a s'
  error : ∀ e s', m faults s = (.error e, s') → E s'

variable {faults : Faults ε} {s s' : Session D} {E E' : Session D → Prop}

theorem Ends.imp {m : Action D ε α} {Q Q' : α → Session D → Prop}
    (h : m.Ends faults s Q E) (hQ : ∀ a s', Q a s' → Q' a s')
    (hE : ∀ s', E s' → E' s') : m.Ends faults s Q' E' where
  result a s' hrun := hQ a s' (h.result a s' hrun)
  error e s' hrun := hE s' (h.error e s' hrun)

theorem Ends.of_ok {m : Action D ε α} {Q : α → Session D → Prop} {a : α}
    (hrun : m faults s = (.ok a, s')) (h : Q a s') : m.Ends faults s Q E where
  result a' s'' hrun' := by
    rw [hrun] at hrun'
    cases hrun'
    exact h
  error e s'' hrun' := by
    rw [hrun] at hrun'
    cases hrun'

theorem Ends.of_error {m : Action D ε α} {Q : α → Session D → Prop} {e : ε}
    (hrun : m faults s = (.error e, s')) (h : E s') : m.Ends faults s Q E where
  result a s'' hrun' := by
    rw [hrun] at hrun'
    cases hrun'
  error e' s'' hrun' := by
    rw [hrun] at hrun'
    cases hrun'
    exact h

section Rules

variable {Q : α → Session D → Prop}

theorem ends_pure {a : α} (h : Q a s) : (pure a : Action D ε α).Ends faults s Q E :=
  .of_ok rfl h

/-- A run that is one of `m` from `s` on ends like it. -/
theorem Ends.of_eq {m m' : Action D ε α} {s₀ : Session D} (h : m.Ends faults s Q E)
    (hrun : m' faults s₀ = m faults s) : m'.Ends faults s₀ Q E where
  result a s' ha := h.result a s' (hrun ▸ ha)
  error e s' he := h.error e s' (hrun ▸ he)

theorem ends_bind {m : Action D ε β} {k : β → Action D ε α}
    (h : m.Ends faults s (fun b s' => (k b).Ends faults s' Q E) E) :
    (m >>= k).Ends faults s Q E := by
  rcases hrun : m faults s with ⟨outcome, s'⟩
  cases outcome with
  | ok b => exact (h.result b s' hrun).of_eq (congrArg (branch _ _) hrun)
  | error e => exact .of_error (congrArg (branch _ _) hrun) (h.error e s' hrun)

theorem ends_raise {e : ε} (h : E s) : (raise e : Action D ε α).Ends faults s Q E :=
  .of_error rfl h

theorem ends_lift {x : Except ε α} (hok : ∀ a, x = .ok a → Q a s) (herror : E s) :
    (lift x : Action D ε α).Ends faults s Q E := by
  cases x with
  | ok a => exact .of_ok rfl (hok a rfl)
  | error e => exact .of_error rfl herror

theorem ends_send {f : Session D → Except ε (α × Session D)}
    (hok : ∀ a s', f { s with sent := s.sent + 1 } = .ok (a, s') → Q a s')
    (herror : E { s with sent := s.sent + 1 }) : (send f).Ends faults s Q E := by
  cases hfault : faults s.sent with
  | some e => exact .of_error (by simp only [send, hfault]; rfl) herror
  | none =>
      cases hf : f { s with sent := s.sent + 1 } with
      | error e => exact .of_error (by simp only [send, hfault, hf]; rfl) herror
      | ok r => exact .of_ok (by simp only [send, hfault, hf]) (hok r.1 r.2 hf)

theorem ends_statement {f : D → Except ε (α × D)}
    (hok : ∀ a d, f s.working = .ok (a, d) →
      Q a { s with working := d, sent := s.sent + 1 })
    (herror : E { s with sent := s.sent + 1 }) : (statement f).Ends faults s Q E := by
  apply ends_send _ herror
  intro a s' h
  cases hf : f s.working with
  | error e =>
      simp only [hf] at h
      cases h
  | ok r =>
      simp only [hf] at h
      cases h
      exact hok r.1 r.2 hf

theorem ends_query {f : D → Except ε α}
    (hok : ∀ a, f s.working = .ok a → Q a { s with sent := s.sent + 1 })
    (herror : E { s with sent := s.sent + 1 }) : (query f).Ends faults s Q E := by
  apply ends_statement _ herror
  intro a d h
  cases hf : f s.working with
  | error e =>
      rw [hf] at h
      cases h
  | ok found =>
      rw [hf] at h
      cases h
      exact hok a hf

theorem ends_commit {Q : Unit → Session D → Prop}
    (hok : Q () ⟨s.working, s.working, s.sent + 1⟩)
    (herror : E { s with sent := s.sent + 1 }) :
    (commit : Action D ε Unit).Ends faults s Q E := by
  apply ends_send _ herror
  intro a s' h
  cases h
  exact hok

theorem ends_rollback {Q : Unit → Session D → Prop}
    (hok : Q () ⟨s.committed, s.committed, s.sent + 1⟩)
    (herror : E { s with sent := s.sent + 1 }) :
    (rollback : Action D ε Unit).Ends faults s Q E := by
  apply ends_send _ herror
  intro a s' h
  cases h
  exact hok

theorem ends_onError {m : Action D ε α} {cleanup : Action D ε Unit}
    (h : m.Ends faults s Q fun s' => cleanup.Ends faults s' (fun _ => E) E) :
    (m.onError cleanup).Ends faults s Q E := by
  rcases hrun : m faults s with ⟨outcome, s'⟩
  cases outcome with
  | ok a => exact .of_ok (congrArg (branch _ _) hrun) (h.result a s' hrun)
  | error e =>
      have hcleanup : (cleanup >>= fun _ => raise (D := D) (α := α) e).Ends faults s' Q E :=
        ends_bind ((h.error e s' hrun).imp (fun _ _ hE => ends_raise hE) fun _ hE => hE)
      exact hcleanup.of_eq (congrArg (branch _ _) hrun)

/-- What holds at first and is kept by the body holds after the last item; `I`
speaks of the items that are left. -/
theorem ends_forEach {body : σ → β → Action D ε σ} {I : σ → List β → Session D → Prop}
    {state : σ} {items : List β} (hstart : I state items s)
    (hbody : ∀ state b rest s, I state (b :: rest) s →
      (body state b).Ends faults s (fun state' s' => I state' rest s') E) :
    (forEach body state items).Ends faults s (fun state' s' => I state' [] s') E := by
  induction items generalizing state s with
  | nil => exact ends_pure hstart
  | cons b rest ih =>
      apply ends_bind
      exact (hbody state b rest s hstart).imp (fun _ _ hrest => ih hrest) fun _ hE => hE

end Rules

end Action

end TransactionPrograms
