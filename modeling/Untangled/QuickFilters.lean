import Untangled.SearchMeaning

/-!
# Stacked quick filters

The list page narrows its filter by adding conditions with `and`.  Calls that add
to a filter flatten an `and` on the left, so however the additions are grouped
into calls the filter is their conjunction, one level deeper at most.
-/

namespace Untangled.Search

open Mapping Records SqlExpressions

/-! ## Adding conditions to a filter -/

/-- What a filter contributes to an `and` on its left; null adds no condition. -/
def leftParts : Json → List Json
  | .null => []
  | .obj members =>
      match member members "op", member members "predicates" with
      | some (.str "and"), some (.arr predicates) => predicates
      | _, _ => [.obj members]
  | left => [left]

def andPredicates (left : Json) (additions : List Json) : Json :=
  match leftParts left ++ additions with
  | [] => .null
  | [part] => part
  | parts => .obj [("op", .str "and"), ("predicates", .arr parts)]

/-- The filter after calls that each add some predicates. -/
def stacked (start : Json) (calls : List (List Json)) : Json :=
  calls.foldl andPredicates start

/-! ## The tree of a conjunction -/

namespace Pred

/-- The conjuncts that an `and` on top has, or else the tree itself. -/
def conjuncts : Pred → List Pred
  | .connective .and ps => ps
  | p => [p]

/-- No tree, the only one, or an `and` of them. -/
def conj : List Pred → Option Pred
  | [] => none
  | [p] => some p
  | ps => some (.connective .and ps)

def andAll (left : Option Pred) (additions : List Pred) : Option Pred :=
  conj (left.elim [] conjuncts ++ additions)

/-- No connective is without children. -/
def noEmpty : Pred → Prop :=
  fold (fun _ => True) id fun _ parts => parts ≠ [] ∧ ∀ part ∈ parts, part

theorem noEmpty_connective (c : Connective) (ps : List Pred) :
    (Pred.connective c ps).noEmpty ↔ ps ≠ [] ∧ ∀ p ∈ ps, p.noEmpty := by
  rw [noEmpty, fold, foldAll_eq_map, List.forall_mem_map, Ne, List.map_eq_nil_iff]

section Outcome

variable (D : Postgres) (row : RowData)

/-- The outcome of a filter, where no filter keeps every row. -/
def outcomeOf (filter : Option Pred) : SqlExpressions.Outcome :=
  filter.elim ⟨false, some true⟩ fun p => p.outcome D row

/-- The outcome of a conjunction. -/
def outcomeAll (ps : List Pred) : SqlExpressions.Outcome where
  fails := ps.any fun p => p.fails D row
  truth := Truth.all (ps.map fun p => p.truth D row)

theorem outcomeAll_append {ps ps' qs : List Pred}
    (h : outcomeAll D row ps = outcomeAll D row ps') :
    outcomeAll D row (ps ++ qs) = outcomeAll D row (ps' ++ qs) := by
  simp only [outcomeAll, SqlExpressions.Outcome.mk.injEq] at h ⊢
  rw [List.any_append, List.any_append, List.map_append, List.map_append, Truth.all_append,
    Truth.all_append, h.1, h.2]
  exact ⟨rfl, rfl⟩

theorem outcomeAll_singleton (p : Pred) : outcomeAll D row [p] = p.outcome D row := by
  simp [outcomeAll, outcome, Truth.all, Truth.and_true]

theorem outcome_conjuncts (p : Pred) :
    outcomeAll D row p.conjuncts = p.outcome D row := by
  cases p with
  | leaf l => exact outcomeAll_singleton D row _
  | not p => exact outcomeAll_singleton D row _
  | connective c ps =>
      cases c with
      | or => exact outcomeAll_singleton D row _
      | and =>
          rw [conjuncts, outcomeAll, outcome, fails_connective, truth_connective]
          rfl

theorem outcomeOf_conj (ps : List Pred) : outcomeOf D row (conj ps) = outcomeAll D row ps := by
  match ps with
  | [] => rfl
  | [p] => exact (outcomeAll_singleton D row p).symm
  | p :: q :: ps => exact (outcome_conjuncts D row (.connective .and (p :: q :: ps))).symm

theorem outcomeAll_elim (filter : Option Pred) :
    outcomeAll D row (filter.elim [] conjuncts) = outcomeAll D row filter.toList := by
  cases filter with
  | none => rfl
  | some p => exact (outcome_conjuncts D row p).trans (outcomeAll_singleton D row p).symm

/-- The step: the filter grows by its additions. -/
theorem outcomeOf_andAll (left : Option Pred) (additions : List Pred) :
    outcomeOf D row (andAll left additions) =
      outcomeAll D row (left.toList ++ additions) := by
  rw [andAll, outcomeOf_conj]
  exact outcomeAll_append D row (outcomeAll_elim D row left)

theorem outcomeOf_eq (filter : Option Pred) :
    outcomeOf D row filter = outcomeAll D row filter.toList := by
  cases filter with
  | none => rfl
  | some p => exact (outcomeAll_singleton D row p).symm

/-- The run: the filter is the conjunction of all that was added. -/
theorem outcomeOf_foldl (start : Option Pred) (calls : List (List Pred)) :
    outcomeOf D row (calls.foldl andAll start) =
      outcomeAll D row (start.toList ++ calls.flatten) := by
  induction calls generalizing start with
  | nil => simpa using outcomeOf_eq D row start
  | cons additions calls ih =>
      have hstep : outcomeAll D row (andAll start additions).toList =
          outcomeAll D row (start.toList ++ additions) := by
        rw [← outcomeOf_eq, outcomeOf_andAll]
      rw [List.foldl_cons, ih, outcomeAll_append D row hstep, List.flatten_cons,
        List.append_assoc]

end Outcome

/-- A filter of trees that are no deeper than `levels`: one of them, or an `and` of them. -/
def Shallow (levels : ℕ) (filter : Option Pred) : Prop :=
  ∀ p, filter = some p → p.depth ≤ levels ∨ ∀ q ∈ p.conjuncts, q.depth ≤ levels

theorem depth_le_of_mem_conjuncts {p q : Pred} (h : q ∈ p.conjuncts) : q.depth ≤ p.depth := by
  cases p with
  | leaf l => rw [List.mem_singleton.mp h]
  | not p => rw [List.mem_singleton.mp h]
  | connective c ps =>
      cases c with
      | or => rw [List.mem_singleton.mp h]
      | and =>
          have hbound := depth_connective_le.mp (le_of_eq (depth_connective .and ps)) q h
          rw [depth_connective]
          omega

theorem Shallow.conjuncts {levels : ℕ} {filter : Option Pred} (h : Shallow levels filter) :
    ∀ q ∈ filter.elim [] Pred.conjuncts, q.depth ≤ levels := by
  cases filter with
  | none => simp
  | some p =>
      intro q hq
      rcases h p rfl with hdepth | hconjuncts
      · exact le_trans (depth_le_of_mem_conjuncts hq) hdepth
      · exact hconjuncts q hq

theorem shallow_conj {levels : ℕ} {ps : List Pred} (h : ∀ q ∈ ps, q.depth ≤ levels) :
    Shallow levels (conj ps) := by
  match ps with
  | [] => exact fun p hp => absurd hp (by simp [conj])
  | [p] =>
      intro q hq
      cases hq
      exact Or.inl (h p (List.mem_singleton_self p))
  | p :: q :: ps =>
      intro r hr
      cases hr
      exact Or.inr h

theorem Shallow.andAll {levels : ℕ} {left : Option Pred} (h : Shallow levels left)
    {additions : List Pred} (hadditions : ∀ q ∈ additions, q.depth ≤ levels) :
    Shallow levels (andAll left additions) := by
  refine shallow_conj fun q hq => ?_
  rcases List.mem_append.mp hq with hq | hq
  · exact h.conjuncts q hq
  · exact hadditions q hq

theorem Shallow.depth_le {levels : ℕ} {p : Pred} (h : Shallow levels (some p)) :
    p.depth ≤ levels + 1 := by
  rcases h p rfl with hdepth | hconjuncts
  · omega
  · cases p with
    | leaf l => exact le_trans (hconjuncts _ (List.mem_singleton_self _)) (Nat.le_succ _)
    | not p => exact le_trans (hconjuncts _ (List.mem_singleton_self _)) (Nat.le_succ _)
    | connective c ps =>
        cases c with
        | or => exact le_trans (hconjuncts _ (List.mem_singleton_self _)) (Nat.le_succ _)
        | and => exact depth_connective_le.mpr hconjuncts

theorem Shallow.foldl {levels : ℕ} {start : Option Pred} (h : Shallow levels start)
    {calls : List (List Pred)} (hcalls : ∀ q ∈ calls.flatten, q.depth ≤ levels) :
    Shallow levels (calls.foldl Pred.andAll start) := by
  induction calls generalizing start with
  | nil => exact h
  | cons additions calls ih =>
      refine ih (h.andAll fun q hq => hcalls q ?_) fun q hq => hcalls q ?_
      · exact List.mem_append_left _ hq
      · exact List.mem_append_right _ hq

end Pred

/-! ## Filters that denote a tree -/

/-- The context with room for children lists of this length. -/
def CompileContext.allowing (cx : CompileContext) (length : ℕ) : CompileContext :=
  { cx with limits := { cx.limits with maxLength := length } }

/-- Null, or a value that denotes the tree. -/
def Reads (cx : CompileContext) : Option Pred → Json → Prop
  | none, node => node = .null
  | some p, node => Denotes cx p node

section Reads

variable {cx : CompileContext}

theorem Denotes.allowing {p : Pred} {node : Json} (h : Denotes cx p node) {length : ℕ}
    (hlength : cx.limits.maxLength ≤ length) : Denotes (cx.allowing length) p node := by
  induction p using Pred.induction generalizing node with
  | leaf l => exact h
  | not p ih =>
      rcases h with ⟨inner, hnode, hinner⟩
      exact ⟨inner, hnode, ih hinner⟩
  | connective c ps ih =>
      rcases (denotes_connective cx).mp h with
        ⟨items, ⟨members, hnode, hop, hkeys, hmember, hne, hle⟩, hps⟩
      have hitems : List.Forall₂ (Denotes (cx.allowing length)) ps items := by
        refine List.forall₂_iff_get.mpr ⟨hps.length_eq, fun i hi hi' => ?_⟩
        exact ih _ (List.get_mem ps ⟨i, hi⟩) ((List.forall₂_iff_get.mp hps).2 i hi hi')
      exact (denotes_connective _).mpr
        ⟨items, ⟨members, hnode, hop, hkeys, hmember, hne, le_trans hle hlength⟩, hitems⟩

theorem Reads.allowing {filter : Option Pred} {node : Json} (h : Reads cx filter node)
    {length : ℕ} (hlength : cx.limits.maxLength ≤ length) :
    Reads (cx.allowing length) filter node := by
  cases filter with
  | none => exact h
  | some p => exact Denotes.allowing h hlength

theorem Denotes.noEmpty {p : Pred} {node : Json} (h : Denotes cx p node) : p.noEmpty := by
  induction p using Pred.induction generalizing node with
  | leaf l => trivial
  | not p ih =>
      rcases h with ⟨inner, _, hinner⟩
      exact ih hinner
  | connective c ps ih =>
      rcases (denotes_connective cx).mp h with ⟨items, hnode, hps⟩
      rcases ne_nil_of_listOf hnode hps with ⟨first, rest, hcons⟩
      rw [Pred.noEmpty_connective]
      refine ⟨by rw [hcons]; exact List.cons_ne_nil _ _, fun p hp => ?_⟩
      rcases exists_denotes_of_mem hps hp with ⟨item, hitem⟩
      exact ih p hp hitem

theorem eq_and_of_lookup {name : String}
    (h : implementedOps.lookup name = some (.connective .and)) : name = "and" := by
  rcases List.lookup_eq_some_iff.mp h with ⟨before, after, hsplit, _⟩
  have hmem : (name, Op.connective .and) ∈ implementedOps := by
    rw [hsplit]
    exact List.mem_append_right before (List.mem_cons_self ..)
  simpa [implementedOps] using hmem

/-- Only an `and` contributes more than itself. -/
theorem leftParts_of_not_and {members : List (String × Json)} {op : Op} (h : HasOp members op)
    (hop : op ≠ .connective .and) : leftParts (.obj members) = [.obj members] := by
  rcases h with ⟨name, hname, hlookup⟩
  have hne : name ≠ "and" := by
    rintro rfl
    exact hop (Option.some.inj (hlookup.symm.trans rfl))
  rw [leftParts, hname]
  split
  · rename_i hand _
    cases hand
    exact absurd rfl hne
  · rfl

theorem Denotes.parts {p : Pred} {node : Json} (h : Denotes cx p node) :
    List.Forall₂ (Denotes cx) p.conjuncts (leftParts node) := by
  cases p with
  | leaf l =>
      have hself := h
      rcases h with ⟨members, rfl, hop, _⟩
      rw [leftParts_of_not_and hop (by simp)]
      exact .cons hself .nil
  | not p =>
      have hself := h
      rcases h with ⟨inner, ⟨members, rfl, hop, _⟩, _⟩
      rw [leftParts_of_not_and hop (by simp)]
      exact .cons hself .nil
  | connective c ps =>
      have hself := h
      rcases (denotes_connective cx).mp h with ⟨items, ⟨members, rfl, hop, _, hmember, _⟩, hps⟩
      cases c with
      | or =>
          rw [leftParts_of_not_and hop (by simp)]
          exact .cons hself .nil
      | and =>
          have hparts : leftParts (.obj members) = items := by
            rcases hop with ⟨name, hname, hlookup⟩
            have hand : name = "and" := eq_and_of_lookup hlookup
            simp [leftParts, hname, hmember, hand]
          rw [hparts]
          exact hps

theorem Reads.parts {filter : Option Pred} {node : Json} (h : Reads cx filter node) :
    List.Forall₂ (Denotes cx) (filter.elim [] Pred.conjuncts) (leftParts node) := by
  cases filter with
  | none =>
      have hnull : node = .null := h
      rw [hnull]
      exact .nil
  | some p => exact Denotes.parts h

/-- The step: adding predicates to a filter gives the tree of the conjunction. -/
theorem Reads.andPredicates {left : Option Pred} {node : Json} (h : Reads cx left node)
    {additions : List Pred} {nodes : List Json}
    (hnodes : List.Forall₂ (Denotes cx) additions nodes)
    (hlength : (leftParts node ++ nodes).length ≤ cx.limits.maxLength) :
    Reads cx (Pred.andAll left additions) (andPredicates node nodes) := by
  have hparts : List.Forall₂ (Denotes cx) (left.elim [] Pred.conjuncts ++ additions)
      (leftParts node ++ nodes) := List.rel_append h.parts hnodes
  rw [Pred.andAll, Search.andPredicates]
  generalize leftParts node ++ nodes = parts at hparts hlength ⊢
  generalize left.elim [] Pred.conjuncts ++ additions = ps at hparts ⊢
  cases hparts with
  | nil => rfl
  | cons hfirst hrest =>
      cases hrest with
      | nil => exact hfirst
      | cons hsecond hrest =>
          refine (denotes_connective cx).mpr ⟨_, ⟨_, rfl, ⟨"and", rfl, rfl⟩, ?_, rfl, ?_, hlength⟩,
            .cons hfirst (.cons hsecond hrest)⟩
          · intro member hmember
            simp only [List.mem_cons, List.not_mem_nil, or_false] at hmember
            rcases hmember with rfl | rfl <;> simp
          · exact List.cons_ne_nil _ _

/-- The run: the filter after all calls denotes the tree of the conjunctions, once there is
room for the children. -/
theorem Reads.stacked {start : Option Pred} {node : Json} {calls : List (List Pred)}
    {nodes : List (List Json)} {length : ℕ} (hlength : cx.limits.maxLength ≤ length)
    (h : Reads (cx.allowing length) start node)
    (hnodes : List.Forall₂ (List.Forall₂ (Denotes cx)) calls nodes) :
    ∃ length', cx.limits.maxLength ≤ length' ∧
      Reads (cx.allowing length') (calls.foldl Pred.andAll start) (stacked node nodes) := by
  induction hnodes generalizing start node length with
  | nil => exact ⟨length, hlength, h⟩
  | @cons additions added calls rest hfirst hrest ih =>
      let room := max length (leftParts node ++ added).length
      have hroom : length ≤ room := le_max_left _ _
      have hstart : Reads (cx.allowing room) start node := Reads.allowing h hroom
      have hadded : List.Forall₂ (Denotes (cx.allowing room)) additions added :=
        hfirst.imp fun _ _ hitem => hitem.allowing (le_trans hlength hroom)
      exact ih (le_trans hlength hroom) (hstart.andPredicates hadded (le_max_right _ _))

/-- Trees read one by one can be grouped as the values are. -/
theorem exists_groups {α β : Type} {R : α → β → Prop} {groups : List (List β)} {xs : List α}
    (h : List.Forall₂ R xs groups.flatten) :
    ∃ parts : List (List α), parts.flatten = xs ∧ List.Forall₂ (List.Forall₂ R) parts groups := by
  induction groups generalizing xs with
  | nil =>
      cases h
      exact ⟨[], rfl, .nil⟩
  | cons group groups ih =>
      rw [List.flatten_cons] at h
      rcases ih (List.forall₂_drop_append xs group groups.flatten h) with ⟨parts, hparts, hgroups⟩
      refine ⟨xs.take group.length :: parts, ?_, .cons ?_ hgroups⟩
      · rw [List.flatten_cons, hparts, List.take_append_drop]
      · exact List.forall₂_take_append xs group groups.flatten h

/-- The API's compiler takes the value. -/
def CompilerAccepts (cx : CompileContext) (predicate : Json) : Prop :=
  ∃ compiled, compilePredicateRoot cx true predicate = .ok compiled

theorem CompilerAccepts.reads {predicate : Json} (h : CompilerAccepts cx predicate) :
    ∃ filter, Reads cx filter predicate := by
  rcases compilePredicateRoot_accepts.mp h with hnull | ⟨p, hp, _⟩
  · exact ⟨none, hnull⟩
  · exact ⟨some p, hp⟩

theorem CompilerAccepts.denotes {predicate : Json} (h : CompilerAccepts cx predicate)
    (hne : predicate ≠ .null) :
    ∃ p, Denotes cx p predicate := by
  rcases compilePredicateRoot_accepts.mp h with hnull | ⟨p, hp, _⟩
  · exact absurd hnull hne
  · exact ⟨p, hp⟩

theorem exists_forall₂_denotes {nodes : List Json} (h : ∀ node ∈ nodes, ∃ p, Denotes cx p node) :
    ∃ ps, List.Forall₂ (Denotes cx) ps nodes := by
  induction nodes with
  | nil => exact ⟨[], .nil⟩
  | cons node nodes ih =>
      rcases h node (List.mem_cons_self ..) with ⟨p, hp⟩
      rcases ih fun other hother => h other (List.mem_cons_of_mem _ hother) with ⟨ps, hps⟩
      exact ⟨p :: ps, .cons hp hps⟩

/-- A filter that the compiler takes has the meaning of the tree that it denotes. -/
theorem Reads.hasMeaning (D : Postgres) {filter : Option Pred} {node : Json} {length : ℕ}
    (hlength : cx.limits.maxLength ≤ length) (h : Reads (cx.allowing length) filter node)
    {q : Bool} {compiled : Fragment × List Value}
    (hcompiled : compilePredicateRoot cx q node = .ok compiled) :
    HasMeaning D q compiled fun row => Pred.outcomeOf D row filter := by
  refine compiled_hasMeaning hcompiled ?_
  rcases compilePredicateRoot_eq_ok.mp hcompiled with ⟨hnull, _⟩ | ⟨p, hp, _⟩
  · cases filter with
    | none => exact Or.inl ⟨hnull, rfl⟩
    | some p =>
        rcases denotes_obj h with ⟨members, hobj⟩
        rw [hnull] at hobj
        cases hobj
  · cases filter with
    | none =>
        rcases denotes_obj hp with ⟨members, hobj⟩
        have hnull : node = .null := h
        rw [hnull] at hobj
        cases hobj
    | some p' =>
        have hsame : p' = p := Denotes.unique h (hp.allowing hlength)
        exact Or.inr ⟨p, hp, by rw [hsame]; rfl⟩

/-- However accepted predicates are added to an accepted filter, the filter is the conjunction
of all of them, has no empty connective and is at most one level deeper than they are. -/
theorem stacked_conjunction (D : Postgres) {start : Json} {nodes : List Json}
    (hstart : CompilerAccepts cx start)
    (hnodes : ∀ node ∈ nodes, CompilerAccepts cx node ∧ node ≠ .null) :
    ∃ filter added, Reads cx filter start ∧ List.Forall₂ (Denotes cx) added nodes ∧
      ∀ calls : List (List Json), calls.flatten = nodes →
        ∃ result length, Reads (cx.allowing length) result (stacked start calls) ∧
          (∀ row, Pred.outcomeOf D row result =
            Pred.outcomeAll D row (filter.toList ++ added)) ∧
          (∀ q compiled, compilePredicateRoot cx q (stacked start calls) = .ok compiled →
            HasMeaning D q compiled fun row => Pred.outcomeAll D row (filter.toList ++ added)) ∧
          ∀ p, result = some p → p.noEmpty ∧
            p.depth ≤ ((filter.toList ++ added).map Pred.depth).foldr max 0 + 1 := by
  rcases hstart.reads with ⟨filter, hfilter⟩
  have htrees : ∀ node ∈ nodes, ∃ p, Denotes cx p node := by
    intro node hnode
    rcases hnodes node hnode with ⟨haccepted, hne⟩
    exact haccepted.denotes hne
  rcases exists_forall₂_denotes htrees with ⟨added, hadded⟩
  refine ⟨filter, added, hfilter, hadded, fun calls hcalls => ?_⟩
  rw [← hcalls] at hadded
  rcases exists_groups hadded with ⟨groups, hflatten, hgroups⟩
  have hself : Reads (cx.allowing cx.limits.maxLength) filter start := hfilter
  rcases hself.stacked (le_refl _) hgroups with ⟨length, hlength, hresult⟩
  have houtcome : ∀ row, Pred.outcomeOf D row (groups.foldl Pred.andAll filter) =
      Pred.outcomeAll D row (filter.toList ++ added) := by
    intro row
    rw [Pred.outcomeOf_foldl, hflatten]
  have hlevels : ∀ p ∈ filter.toList ++ added,
      p.depth ≤ ((filter.toList ++ added).map Pred.depth).foldr max 0 :=
    fun p hp => Pred.depth_connective_le.mp (le_of_eq (Pred.depth_connective .and _)) p hp
  refine ⟨_, length, hresult, houtcome, ?_, ?_⟩
  · intro q compiled hcompiled
    have hmeaning := hresult.hasMeaning D hlength hcompiled
    rwa [funext houtcome] at hmeaning
  · intro p hp
    rw [hp] at hresult
    have hshallow :
        Pred.Shallow (((filter.toList ++ added).map Pred.depth).foldr max 0) filter := by
      rintro p' rfl
      exact Or.inl (hlevels p' (List.mem_cons_self ..))
    have hadditions : ∀ p' ∈ groups.flatten,
        p'.depth ≤ ((filter.toList ++ added).map Pred.depth).foldr max 0 := by
      intro p' hp'
      rw [hflatten] at hp'
      exact hlevels p' (List.mem_append_right _ hp')
    have hstacked := hshallow.foldl hadditions
    rw [hp] at hstacked
    exact ⟨Denotes.noEmpty hresult, hstacked.depth_le⟩

end Reads

theorem titles_stacked :
    ∃ result length, Reads (titleContext.allowing length) result
      (stacked titlePredicate [[titlePredicate], [], [titlePredicate]]) ∧
        ∀ p, result = some p → p.noEmpty := by
  have haccepted : CompilerAccepts titleContext titlePredicate := ⟨_, titlePredicate_compiled⟩
  have hnodes : ∀ node ∈ [titlePredicate, titlePredicate],
      CompilerAccepts titleContext node ∧ node ≠ .null := by
    intro node hnode
    simp only [List.mem_cons, List.not_mem_nil, or_false, or_self] at hnode
    rw [hnode]
    exact ⟨haccepted, by simp [titlePredicate]⟩
  rcases stacked_conjunction plainPostgres haccepted hnodes with ⟨_, _, _, _, hcalls⟩
  rcases hcalls [[titlePredicate], [], [titlePredicate]] rfl with
    ⟨result, length, hreads, _, _, hresult⟩
  exact ⟨result, length, hreads, fun p hp => (hresult p hp).1⟩

end Untangled.Search
