import Mathlib.Data.List.Basic
import Mathlib.Data.List.Count
import Mathlib.Tactic

/-!
# Requests that share a pool of slots

A request calls operations of its surroundings, each of which answers or
throws, and may hold a slot of a bounded pool while it does.  Programs are
trees: what a request does next is a function of the answers it has got.

A disciplined program takes a slot only when it holds none, gives back only
what it holds and holds none when it ends, whatever is answered.  In a pool
where each slot is granted below the limit of the moment, the holders stand in
the order of their grants, each with a limit above the number of holders up to
it.
-/

namespace RequestProgram

/-- A program.  A call goes on with the answer, or with `none` when the
operation throws. -/
inductive Prog (Op : Type) (Ans : Op → Type) (β : Type) : Type
  | ret (result : β)
  | acquire (next : Bool → Prog Op Ans β)
  | release (next : Prog Op Ans β)
  | call (op : Op) (next : Option (Ans op) → Prog Op Ans β)

inductive Event (Op : Type) (Ans : Op → Type) : Type
  | acquired (granted : Bool)
  | released
  | called (op : Op) (answer : Option (Ans op))

variable {Op : Type} {Ans : Op → Type} {β : Type}

namespace Prog

/-- A call whose exceptions are caught by `caught`. -/
def await (op : Op) (caught : Prog Op Ans β) (next : Ans op → Prog Op Ans β) :
    Prog Op Ans β :=
  .call op fun answer =>
    match answer with
    | none => caught
    | some value => next value

inductive Move : Prog Op Ans β → Event Op Ans → Prog Op Ans β → Prop
  | acquire {next} (granted : Bool) : Move (.acquire next) (.acquired granted) (next granted)
  | release {next} : Move (.release next) .released next
  | call {op next} (answer : Option (Ans op)) :
      Move (.call op next) (.called op answer) (next answer)

/-- A whole run, with what it called and was answered. -/
inductive Run : Prog Op Ans β → List (Event Op Ans) → β → Prop
  | ret (result : β) : Run (.ret result) [] result
  | move {program event rest trace result} :
      Move program event rest → Run rest trace result → Run program (event :: trace) result

def Disciplined : Bool → Prog Op Ans β → Prop
  | held, .ret _ => held = false
  | held, .acquire next =>
      held = false ∧ Disciplined true (next true) ∧ Disciplined false (next false)
  | held, .release next => held = true ∧ Disciplined false next
  | held, .call _ next => ∀ answer, Disciplined held (next answer)

theorem disciplined_ret
    {result : β} :
    (ret result : Prog Op Ans β).Disciplined false :=
  rfl

theorem disciplined_release
    {next : Prog Op Ans β}
    (h : next.Disciplined false) :
    (Prog.release next).Disciplined true :=
  ⟨rfl, h⟩

theorem disciplined_await
    {held : Bool} {op : Op} {caught : Prog Op Ans β} {next : Ans op → Prog Op Ans β}
    (hcaught : caught.Disciplined held)
    (hnext : ∀ value, (next value).Disciplined held) :
    (await op caught next).Disciplined held := by
  intro answer
  cases answer with
  | none => exact hcaught
  | some value => exact hnext value

/-! ### Inversion of runs, one program at a time -/

theorem run_ret
    {result result' : β} {trace : List (Event Op Ans)} :
    Run (.ret result) trace result' ↔ trace = [] ∧ result' = result := by
  constructor
  · intro h
    cases h with
    | ret => exact ⟨rfl, rfl⟩
    | move hmove => cases hmove
  · rintro ⟨rfl, rfl⟩
    exact .ret _

theorem run_acquire
    {next : Bool → Prog Op Ans β} {trace : List (Event Op Ans)} {result : β} :
    Run (.acquire next) trace result ↔
      ∃ granted rest, trace = .acquired granted :: rest ∧ Run (next granted) rest result := by
  constructor
  · intro h
    cases h with
    | move hmove hrest =>
        cases hmove with
        | acquire granted => exact ⟨granted, _, rfl, hrest⟩
  · rintro ⟨granted, rest, rfl, hrest⟩
    exact .move (.acquire granted) hrest

theorem run_release
    {next : Prog Op Ans β} {trace : List (Event Op Ans)} {result : β} :
    Run (.release next) trace result ↔
      ∃ rest, trace = .released :: rest ∧ Run next rest result := by
  constructor
  · intro h
    cases h with
    | move hmove hrest =>
        cases hmove with
        | release => exact ⟨_, rfl, hrest⟩
  · rintro ⟨rest, rfl, hrest⟩
    exact .move .release hrest

theorem run_call
    {op : Op} {next : Option (Ans op) → Prog Op Ans β} {trace : List (Event Op Ans)}
    {result : β} :
    Run (.call op next) trace result ↔
      ∃ answer rest, trace = .called op answer :: rest ∧ Run (next answer) rest result := by
  constructor
  · intro h
    cases h with
    | move hmove hrest =>
        cases hmove with
        | call answer => exact ⟨answer, _, rfl, hrest⟩
  · rintro ⟨answer, rest, rfl, hrest⟩
    exact .move (.call answer) hrest

/-- Nothing that was called threw. -/
def Smooth (trace : List (Event Op Ans)) : Prop := ∀ op, .called op none ∉ trace

theorem Smooth.tail
    {event : Event Op Ans} {trace : List (Event Op Ans)}
    (h : Smooth (event :: trace)) :
    Smooth trace :=
  fun op hop => h op (List.mem_cons_of_mem event hop)

theorem run_await
    {op : Op} {caught : Prog Op Ans β} {next : Ans op → Prog Op Ans β}
    {trace : List (Event Op Ans)} {result : β}
    (hrun : Run (await op caught next) trace result)
    (hsmooth : Smooth trace) :
    ∃ value rest, trace = .called op (some value) :: rest ∧ Run (next value) rest result ∧
      Smooth rest := by
  rcases run_call.1 hrun with ⟨answer, rest, rfl, hrest⟩
  cases answer with
  | none => exact absurd List.mem_cons_self (hsmooth op)
  | some value => exact ⟨value, rest, rfl, hrest, hsmooth.tail⟩

/-- The run in which every call succeeds with the answer that `answer` has for it. -/
def play (answer : (op : Op) → Ans op) (granted : Bool) :
    Prog Op Ans β → List (Event Op Ans) × β
  | .ret result => ([], result)
  | .acquire next =>
      let played := play answer granted (next granted)
      (.acquired granted :: played.1, played.2)
  | .release next =>
      let played := play answer granted next
      (.released :: played.1, played.2)
  | .call op next =>
      let played := play answer granted (next (some (answer op)))
      (.called op (some (answer op)) :: played.1, played.2)

section Play

variable (answer : (op : Op) → Ans op) (granted : Bool)

theorem play_run
    (program : Prog Op Ans β) :
    Run program (program.play answer granted).1 (program.play answer granted).2 := by
  induction program with
  | ret result => exact .ret result
  | acquire next ih => exact .move (.acquire granted) (ih granted)
  | release next ih => exact .move .release ih
  | call op next ih => exact .move (.call (some (answer op))) (ih (some (answer op)))

theorem play_answers
    (program : Prog Op Ans β) (op : Op) (given : Option (Ans op))
    (hmem : .called op given ∈ (program.play answer granted).1) :
    given = some (answer op) := by
  induction program with
  | ret result => cases hmem
  | acquire next ih =>
      rcases List.mem_cons.1 hmem with heq | hmem
      · cases heq
      · exact ih granted hmem
  | release next ih =>
      rcases List.mem_cons.1 hmem with heq | hmem
      · cases heq
      · exact ih hmem
  | call other next ih =>
      rcases List.mem_cons.1 hmem with heq | hmem
      · cases heq
        rfl
      · exact ih (some (answer other)) hmem

theorem play_smooth
    (program : Prog Op Ans β) :
    Smooth (program.play answer granted).1 := by
  intro op hmem
  have hgiven := play_answers answer granted program op none hmem
  cases hgiven

end Play

end Prog

/-! ## The order of the grants -/

/-- Limits of the holders, the last grant first: each was above the number of
slots then in use. -/
def Stacked : List ℤ → Prop
  | [] => True
  | limit :: older => (older.length : ℤ) < limit ∧ Stacked older

theorem Stacked.sublist
    {limits kept : List ℤ}
    (h : Stacked limits)
    (hkept : kept.Sublist limits) :
    Stacked kept := by
  induction hkept with
  | slnil => trivial
  | cons _ _ ih => exact ih h.2
  | cons_cons limit hsub ih =>
      have hlength := hsub.length_le
      exact ⟨by have := h.1; omega, ih h.2⟩

/-- The last grant bounds the number of holders. -/
theorem Stacked.exists_bound
    {limits : List ℤ}
    (h : Stacked limits)
    (hne : limits ≠ []) :
    ∃ limit ∈ limits, (limits.length : ℤ) ≤ limit := by
  cases limits with
  | nil => exact absurd rfl hne
  | cons limit older =>
      refine ⟨limit, List.mem_cons_self, ?_⟩
      have := h.1
      rw [List.length_cons]
      omega

end RequestProgram
