import Mathlib.Order.Basic
import Mathlib.Data.List.Pairwise

/-!
# Caches that are validated by a version tag

A store goes through a history of states.  Each state has a tag, and a content
that answers are computed from.  Readers that remember an answer together with
the tag they had read before computing it rely on two properties of the history:
the tag never goes back, and as long as it stays the same the content does too.
-/

namespace VersionedCache

variable {σ τ β : Type*} [PartialOrder τ]

/-- `b` may come after `a`. -/
structure Later (tag : σ → τ) (content : σ → β) (a b : σ) : Prop where
  le : tag a ≤ tag b
  same : tag a = tag b → content a = content b

namespace Later

variable {tag : σ → τ} {content : σ → β} {a b c : σ}

theorem refl : Later tag content a a :=
  ⟨le_refl _, fun _ => rfl⟩

theorem trans
    (hab : Later tag content a b)
    (hbc : Later tag content b c) :
    Later tag content a c := by
  refine ⟨hab.le.trans hbc.le, ?_⟩
  intro hac
  have htag : tag a = tag b := le_antisymm hab.le (hac ▸ hbc.le)
  rw [hab.same htag]
  exact hbc.same (htag ▸ hac)

theorem of_same
    (htag : tag a = tag b)
    (hcontent : content a = content b) :
    Later tag content a b :=
  ⟨le_of_eq htag, fun _ => hcontent⟩

end Later

/-- The states of a history, in order. -/
def Orderly (tag : σ → τ) (content : σ → β) (states : List σ) : Prop :=
  states.Pairwise (Later tag content)

/-- An answer may be stored under the tag `v`: it was computed from a state of
the history that is no older than the tag. -/
def Marked (tag : σ → τ) (content : σ → β) (states : List σ) (v : τ) (Answers : β → Prop) :
    Prop :=
  ∃ s ∈ states, v ≤ tag s ∧ Answers (content s)

section History

variable {tag : σ → τ} {content : σ → β} {states before after : List σ} {read s : σ} {v : τ}
  {Answers : β → Prop}

theorem Orderly.snoc
    (h : Orderly tag content (states ++ [s]))
    {next : σ}
    (hnext : Later tag content s next) :
    Orderly tag content (states ++ [s] ++ [next]) := by
  unfold Orderly at h ⊢
  rw [List.pairwise_append] at h ⊢
  refine ⟨List.pairwise_append.mpr h, List.pairwise_singleton _ _, ?_⟩
  intro a ha b hb
  rw [List.mem_singleton] at hb
  subst hb
  rcases List.mem_append.mp ha with ha | ha
  · exact (h.2.2 a ha s List.mem_cons_self).trans hnext
  · rw [List.mem_singleton] at ha
    subst ha
    exact hnext

theorem Orderly.last
    (h : Orderly tag content (states ++ [s])) :
    ∀ a ∈ states ++ [s], Later tag content a s := by
  intro a ha
  rcases List.mem_append.mp ha with ha | ha
  · exact (List.pairwise_append.mp h).2.2 a ha s List.mem_cons_self
  · rw [List.mem_singleton] at ha
    subst ha
    exact .refl

theorem Marked.mono
    {more : List σ}
    (h : Marked tag content states v Answers) :
    Marked tag content (states ++ more) v Answers := by
  rcases h with ⟨s, hs, hle, hanswers⟩
  exact ⟨s, List.mem_append_left more hs, hle, hanswers⟩

/-- An answer stored under the tag that was just read is the answer of that
state or of a later one: an earlier state that the tag admits has its content. -/
theorem Marked.fresh
    (horderly : Orderly tag content (before ++ read :: after))
    (h : Marked tag content (before ++ read :: after) (tag read) Answers) :
    ∃ s ∈ read :: after, Answers (content s) := by
  rcases h with ⟨s, hs, hle, hanswers⟩
  rcases List.mem_append.mp hs with hbefore | hafter
  · have hlater := (List.pairwise_append.mp horderly).2.2 s hbefore read List.mem_cons_self
    refine ⟨read, List.mem_cons_self, ?_⟩
    rw [← hlater.same (le_antisymm hlater.le hle)]
    exact hanswers
  · exact ⟨s, hafter, hanswers⟩

end History

end VersionedCache
