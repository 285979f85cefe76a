import Untangled.ReadCommitted

/-!
# Runs with the states they went through

Where a result is about the committed states between two points of a run, the
run is given with all of its states.
-/

namespace ReadCommitted.System

variable {Db Key Write Stmt : Type} {Res : Stmt → Type} {τ α : Type} [DecidableEq Key]

/-- A run from `first`: the states it left behind, in order, and the last one. -/
inductive Trace (S : Schema Db Key Write Stmt Res) (start : τ → Prog Stmt Res α)
    (ok : System Db Key Write Stmt Res τ α → Label τ → Prop)
    (first : System Db Key Write Stmt Res τ α) :
    List (System Db Key Write Stmt Res τ α) → System Db Key Write Stmt Res τ α → Prop
  | start : Trace S start ok first [] first
  | step {states : List (System Db Key Write Stmt Res τ α)}
      {sys sys' : System Db Key Write Stmt Res τ α} {label : Label τ} :
      Trace S start ok first states sys →
      ok sys label →
      Step S start sys label sys' →
      Trace S start ok first (states ++ [sys]) sys'

/-- Follow a schedule whose every step satisfies `ok`, from a run so far. -/
def traceAll (S : Schema Db Key Write Stmt Res) (start : τ → Prog Stmt Res α)
    (ok : System Db Key Write Stmt Res τ α → Label τ → Prop)
    [∀ sys label, Decidable (ok sys label)] :
    List (Label τ) → List (System Db Key Write Stmt Res τ α) →
      System Db Key Write Stmt Res τ α →
      Option (List (System Db Key Write Stmt Res τ α) × System Db Key Write Stmt Res τ α)
  | [], states, sys => some (states, sys)
  | label :: rest, states, sys =>
      if ok sys label then
        (sys.perform S start label).bind (traceAll S start ok rest (states ++ [sys]))
      else none

variable {S : Schema Db Key Write Stmt Res} {start : τ → Prog Stmt Res α}
  {ok ok' : System Db Key Write Stmt Res τ α → Label τ → Prop}
  {first sys sys' : System Db Key Write Stmt Res τ α}
  {states states' : List (System Db Key Write Stmt Res τ α)}

theorem Trace.invariant
    {Inv : List (System Db Key Write Stmt Res τ α) → System Db Key Write Stmt Res τ α → Prop}
    (hstep : ∀ states sys sys' label, Inv states sys → ok sys label →
      Step S start sys label sys' → Inv (states ++ [sys]) sys')
    (hrun : Trace S start ok first states sys)
    (hfirst : Inv [] first) :
    Inv states sys := by
  induction hrun with
  | start => exact hfirst
  | step _ hok hlast ih => exact hstep _ _ _ _ ih hok hlast

theorem traceAll_trace
    [∀ sys label, Decidable (ok sys label)] {labels : List (Label τ)}
    (hok : ∀ s label, ok s label → ok' s label)
    (hrun : Trace S start ok' first states sys)
    (hall : traceAll S start ok labels states sys = some (states', sys')) :
    Trace S start ok' first states' sys' := by
  induction labels generalizing states sys with
  | nil =>
      simp only [traceAll, Option.some.injEq, Prod.mk.injEq] at hall
      rw [← hall.1, ← hall.2]
      exact hrun
  | cons label rest ih =>
      simp only [traceAll, Option.ite_none_right_eq_some, Option.bind_eq_some_iff] at hall
      rcases hall with ⟨hlabel, next, hnext, hrest⟩
      exact ih (.step hrun (hok _ _ hlabel) (perform_step hnext)) hrest

/-- Where a call comes from that is there after a step. -/
theorem Step.proc_cases
    {label : Label τ} {j : ℕ} {q : Proc Db Key Write Stmt Res τ α}
    (hstep : Step S start sys label sys')
    (hj : sys'.procs[j]? = some q) :
    (j = sys.procs.length ∧ ∃ call, q = .fresh call (start call)) ∨
    ∃ p, sys.procs[j]? = some p ∧ (q = p ∨ (∃ fault, q = p.fail fault) ∨
      label = .advance j ∧ p.Move S sys.db (sys.heldByOthers j) sys'.db q) := by
  cases hstep with
  | spawn call =>
      rcases getElem?_append_eq hj with ⟨hlast, hq⟩ | hold
      · exact Or.inl ⟨hlast, call, hq⟩
      · exact Or.inr ⟨q, hold, Or.inl rfl⟩
  | advance hi hadvance =>
      rcases getElem?_set_eq hi hj with ⟨hself, hq⟩ | ⟨_, hold⟩
      · subst hself hq
        exact Or.inr ⟨_, hi, Or.inr (Or.inr ⟨rfl, Proc.advance_move hadvance⟩)⟩
      · exact Or.inr ⟨q, hold, Or.inl rfl⟩
  | interrupt hi hrunning =>
      rcases getElem?_set_eq hi hj with ⟨hself, hq⟩ | ⟨_, hold⟩
      · subst hself
        exact Or.inr ⟨_, hi, Or.inr (Or.inl ⟨_, hq⟩)⟩
      · exact Or.inr ⟨q, hold, Or.inl rfl⟩
  | deadlock hi hcycle =>
      rcases getElem?_set_eq hi hj with ⟨hself, hq⟩ | ⟨_, hold⟩
      · subst hself
        exact Or.inr ⟨_, hi, Or.inr (Or.inl ⟨_, hq⟩)⟩
      · exact Or.inr ⟨q, hold, Or.inl rfl⟩

/-- Only a call's move changes the database. -/
theorem Step.db_cases
    {label : Label τ}
    (hstep : Step S start sys label sys') :
    sys'.db = sys.db ∨ ∃ i p q, label = .advance i ∧ sys.procs[i]? = some p ∧
      p.Move S sys.db (sys.heldByOthers i) sys'.db q := by
  cases hstep with
  | spawn call => exact Or.inl rfl
  | advance hi hadvance => exact Or.inr ⟨_, _, _, rfl, hi, Proc.advance_move hadvance⟩
  | interrupt hi hrunning => exact Or.inl rfl
  | deadlock hi hcycle => exact Or.inl rfl

end ReadCommitted.System
