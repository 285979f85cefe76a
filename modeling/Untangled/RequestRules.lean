import Untangled.RequestProgram

/-!
# What every run of a request does

A postcondition speaks of what a run called and was answered, and of its result.
The rules push it through a program, one for each form; a program without slots
that calls only harmless operations needs no more than the last ones.
-/

namespace RequestProgram.Prog

variable {Op : Type} {Ans : Op → Type} {β : Type}

/-- Every run of the program satisfies the postcondition. -/
def Always (program : Prog Op Ans β) (post : List (Event Op Ans) → β → Prop) : Prop :=
  ∀ trace result, Run program trace result → post trace result

section Rules

variable {post weaker : List (Event Op Ans) → β → Prop}

theorem always_ret
    {result : β} :
    Always (.ret result : Prog Op Ans β) post ↔ post [] result := by
  constructor
  · intro h
    exact h [] result (.ret result)
  · intro h trace other hrun
    obtain ⟨htrace, hresult⟩ := run_ret.mp hrun
    rw [htrace, hresult]
    exact h

theorem always_call
    {op : Op} {next : Option (Ans op) → Prog Op Ans β} :
    Always (.call op next) post ↔
      ∀ answer, Always (next answer) fun trace result =>
        post (.called op answer :: trace) result := by
  constructor
  · intro h answer trace result hrun
    exact h _ result (.move (.call answer) hrun)
  · intro h trace result hrun
    obtain ⟨answer, rest, htrace, hrest⟩ := run_call.mp hrun
    rw [htrace]
    exact h answer rest result hrest

theorem always_await
    {op : Op} {caught : Prog Op Ans β} {next : Ans op → Prog Op Ans β} :
    Always (.await op caught next) post ↔
      Always caught (fun trace result => post (.called op none :: trace) result) ∧
        ∀ value, Always (next value) fun trace result =>
          post (.called op (some value) :: trace) result := by
  unfold await
  rw [always_call]
  constructor
  · intro h
    exact ⟨h none, fun value => h (some value)⟩
  · intro h answer
    cases answer with
    | none => exact h.1
    | some value => exact h.2 value

theorem always_acquire
    {next : Bool → Prog Op Ans β} :
    Always (.acquire next) post ↔
      ∀ granted, Always (next granted) fun trace result =>
        post (.acquired granted :: trace) result := by
  constructor
  · intro h granted trace result hrun
    exact h _ result (.move (.acquire granted) hrun)
  · intro h trace result hrun
    obtain ⟨granted, rest, htrace, hrest⟩ := run_acquire.mp hrun
    rw [htrace]
    exact h granted rest result hrest

theorem always_release
    {next : Prog Op Ans β} :
    Always (.release next) post ↔
      Always next fun trace result => post (.released :: trace) result := by
  constructor
  · intro h trace result hrun
    exact h _ result (.move .release hrun)
  · intro h trace result hrun
    obtain ⟨rest, htrace, hrest⟩ := run_release.mp hrun
    rw [htrace]
    exact h rest result hrest

theorem Always.mono
    {program : Prog Op Ans β}
    (h : Always program post)
    (himp : ∀ trace result, post trace result → weaker trace result) :
    Always program weaker :=
  fun trace result hrun => himp trace result (h trace result hrun)

end Rules

end RequestProgram.Prog
