import Untangled.SearchCompiler

/-!
# Errors of the predicate compiler

An aware datetime whose nearest second in UTC is out of the calendar makes
`require_utc_seconds` raise `OverflowError`, which the compiler lets through.  It
does when that value is the first defect of the predicate in reading order.
-/

namespace Untangled.Search

open Mapping Records SqlExpressions

/-- A datetime that `require_utc_seconds` cannot convert. -/
def Overflows (cx : CompileContext) (attr : SearchableAttribute) (raw : Json) : Prop :=
  attr.typeName = "datetime" ∧ ∃ parsed, cx.adapters.datetime raw = some parsed ∧
    parsed.aware = true ∧ requireUtcSeconds parsed.micros = none

/-- A comparison with nothing else wrong in it. -/
def LeafOverflows (cx : CompileContext) (op : LeafOp) (node : List (String × Json)) : Prop :=
  (∃ c, op = .compare c) ∧ KeysWithin node ["op", "attribute", "value"] ∧
    ∃ attr raw, NamesAttribute cx node attr ∧ HasValue node raw ∧ Overflows cx attr raw

/-- Reading the node from this state meets an overflow before any other defect: what
stands to the left of it denotes trees within the budgets. -/
inductive OverflowsFirst (cx : CompileContext) : ℕ → CompileState → Json → Prop
  | leaf {levels : ℕ} {st : CompileState} {op : LeafOp} {node : List (String × Json)}
      (hop : HasOp node (.leaf op)) (hwithin : (st.counted (.leaf op)).Within cx.limits)
      (hover : LeafOverflows cx op node) :
      OverflowsFirst cx (levels + 1) st (.obj node)
  | not {levels : ℕ} {st : CompileState} {node inner : Json} (hnode : NotOf inner node)
      (hwithin : (st.counted .not).Within cx.limits)
      (hinner : OverflowsFirst cx levels (st.counted .not) inner) :
      OverflowsFirst cx (levels + 1) st node
  | connective {levels : ℕ} {st : CompileState} {c : Connective} {node child : Json}
      {before after : List Json} {ps : List Pred}
      (hnode : ListOf cx c (before ++ child :: after) node)
      (hbefore : List.Forall₂ (Denotes cx) ps before) (hdepths : ∀ p ∈ ps, p.depth ≤ levels)
      (hwithin : ((st.counted (.connective c)).afterAll ps).Within cx.limits)
      (hchild : OverflowsFirst cx levels ((st.counted (.connective c)).afterAll ps) child) :
      OverflowsFirst cx (levels + 1) st node

/-! ## Checks -/

theorem bind_eq_error {ε α β : Type} {x : Except ε α} {f : α → Except ε β} {e : ε} :
    x >>= f = .error e ↔ x = .error e ∨ ∃ a, x = .ok a ∧ f a = .error e := by
  cases x with
  | error e' =>
      constructor
      · intro h
        cases h
        exact Or.inl rfl
      · rintro (h | ⟨a, ha, _⟩)
        · cases h
          rfl
        · cases ha
  | ok a =>
      constructor
      · intro h
        exact Or.inr ⟨a, rfl, h⟩
      · rintro (h | ⟨a', ha, h⟩)
        · cases h
        · cases ha
          exact h

theorem ensure_ne_overflow {p : Prop} [Decidable p] {failure : SearchFailure}
    (hfailure : failure ≠ .overflow) : ensure p failure ≠ .error .overflow := by
  unfold ensure
  split
  · simp [pure, Except.pure]
  · simpa [throw, throwThe, MonadExceptOf.throw] using hfailure

section Checks

variable {cx : CompileContext} {node : List (String × Json)}

theorem asObject_ne_overflow {message : String} {j : Json} :
    asObject message j ≠ .error .overflow := by
  cases j <;> simp [asObject, pure, Except.pure, throw, throwThe, MonadExceptOf.throw]

theorem readOp_ne_overflow : readOp node ≠ .error .overflow := by
  unfold readOp
  split
  · simp [throw, throwThe, MonadExceptOf.throw]
  · split <;> simp [pure, Except.pure, throw, throwThe, MonadExceptOf.throw]
  · simp [throw, throwThe, MonadExceptOf.throw]

theorem unexpectedKeys_ne_overflow {allowed : List String} :
    unexpectedKeys node allowed ≠ .error .overflow :=
  ensure_ne_overflow (by simp)

theorem requireAttribute_ne_overflow : requireAttribute cx node ≠ .error .overflow := by
  unfold requireAttribute
  split
  · simp [throw, throwThe, MonadExceptOf.throw]
  · split
    · simp [throw, throwThe, MonadExceptOf.throw]
    · split <;> simp [pure, Except.pure, throw, throwThe, MonadExceptOf.throw]
  · simp [throw, throwThe, MonadExceptOf.throw]

theorem requireValue_ne_overflow : requireValue node ≠ .error .overflow := by
  unfold requireValue
  split <;> simp [pure, Except.pure, throw, throwThe, MonadExceptOf.throw]

theorem requireType_ne_overflow {attr : SearchableAttribute} {types : List String}
    {message : String} : requireType attr types message ≠ .error .overflow :=
  ensure_ne_overflow (by simp)

theorem coerceDatetime_overflow_iff {raw : Json} :
    coerceDatetime cx raw = .error .overflow ↔
      ∃ parsed, cx.adapters.datetime raw = some parsed ∧ parsed.aware = true ∧
        requireUtcSeconds parsed.micros = none := by
  unfold coerceDatetime
  cases hparsed : cx.adapters.datetime raw with
  | none => simp [throw, throwThe, MonadExceptOf.throw]
  | some parsed =>
      by_cases haware : parsed.aware = true
      · cases hutc : requireUtcSeconds parsed.micros with
        | none => simp [haware, hutc, throw, throwThe, MonadExceptOf.throw]
        | some micros => simp [haware, hutc, pure, Except.pure]
      · simp [haware, throw, throwThe, MonadExceptOf.throw]

theorem coerceValue_overflow_iff {attr : SearchableAttribute} {raw : Json} :
    coerceValue cx attr raw = .error .overflow ↔ Overflows cx attr raw := by
  unfold coerceValue Overflows
  by_cases htype : attr.typeName ∈ adapterTypes
  · by_cases hdatetime : attr.typeName = "datetime"
    · rw [if_neg (not_not_intro htype), if_pos hdatetime, coerceDatetime_overflow_iff]
      simp [hdatetime]
    · rw [if_neg (not_not_intro htype), if_neg hdatetime]
      cases hvalue : cx.adapters.validate attr.typeName raw with
      | none => simp [hdatetime, throw, throwThe, MonadExceptOf.throw]
      | some v => simp [hdatetime, pure, Except.pure]
  · have hdatetime : attr.typeName ≠ "datetime" := by
      intro h
      exact htype (by rw [h]; decide)
    simp [htype, hdatetime, throw, throwThe, MonadExceptOf.throw]

theorem countNode_ne_overflow {limits : SearchNestingLimits} {op : Op} {st : CompileState} :
    countNode limits op st ≠ .error .overflow := by
  unfold countNode
  intro h
  rcases bind_eq_error.mp h with h | ⟨_, _, h⟩
  · exact ensure_ne_overflow (by simp) h
  · split at h
    · rcases bind_eq_error.mp h with h | ⟨_, _, h⟩
      · exact ensure_ne_overflow (by simp) h
      · cases h
    · cases h

end Checks

/-! ## Leaves -/

section Leaves

variable {cx : CompileContext} {q : Bool} {node : List (String × Json)}

theorem compileComparison_overflow_iff {c : Comparison} :
    compileComparison cx q c node = .error .overflow ↔
      LeafOverflows cx (.compare c) node := by
  simp only [compileComparison, bind_eq_error, unexpectedKeys_ne_overflow,
    requireAttribute_ne_overflow, requireValue_ne_overflow, coerceValue_overflow_iff,
    unexpectedKeys_eq_ok, requireAttribute_eq_ok, requireValue_eq_ok, false_or]
  constructor
  · rintro ⟨_, hkeys, attr, hattr, raw, hraw, hover | ⟨v, _, h⟩⟩
    · exact ⟨⟨c, rfl⟩, hkeys, attr, raw, hattr, hraw, hover⟩
    · cases h
  · rintro ⟨_, hkeys, attr, raw, hattr, hraw, hover⟩
    exact ⟨(), hkeys, attr, hattr, raw, hraw, Or.inl hover⟩

theorem compileOrderedComparison_overflow_iff {c : Comparison} :
    compileOrderedComparison cx q c node = .error .overflow ↔
      LeafOverflows cx (.compare c) node := by
  simp only [compileOrderedComparison, bind_eq_error, unexpectedKeys_ne_overflow,
    requireAttribute_ne_overflow, requireType_ne_overflow, requireValue_ne_overflow,
    coerceValue_overflow_iff, unexpectedKeys_eq_ok, requireAttribute_eq_ok,
    requireType_eq_ok, requireValue_eq_ok, false_or]
  constructor
  · rintro ⟨_, hkeys, attr, hattr, _, _, raw, hraw, hover | ⟨v, _, h⟩⟩
    · exact ⟨⟨c, rfl⟩, hkeys, attr, raw, hattr, hraw, hover⟩
    · cases h
  · rintro ⟨_, hkeys, attr, raw, hattr, hraw, hover⟩
    have htype : attr.typeName ∈ orderedTypes := by
      rw [hover.1]
      decide
    exact ⟨(), hkeys, attr, hattr, (), htype, raw, hraw, Or.inl hover⟩

theorem compileNullCheck_ne_overflow {empty : Bool} :
    compileNullCheck cx q empty node ≠ .error .overflow := by
  intro h
  simp only [compileNullCheck, bind_eq_error, unexpectedKeys_ne_overflow,
    requireAttribute_ne_overflow, false_or] at h
  rcases h with ⟨_, _, attr, _, h⟩
  cases empty <;> cases h

theorem compileTextPattern_ne_overflow {op : Option LikeOp} :
    compileTextPattern cx q op node ≠ .error .overflow := by
  intro h
  simp only [compileTextPattern, bind_eq_error, unexpectedKeys_ne_overflow,
    requireAttribute_ne_overflow, requireType_ne_overflow, requireValue_ne_overflow,
    coerceValue_overflow_iff, requireType_eq_ok, false_or] at h
  rcases h with ⟨_, _, attr, _, _, htype, raw, _, hover | ⟨v, _, h⟩⟩
  · rw [hover.1] at htype
    exact absurd htype (by decide)
  · cases v with
    | text s => cases op <;> cases h
    | _ => cases h

theorem compileLeaf_overflow_iff {op : LeafOp} :
    compileLeaf cx q op node = .error .overflow ↔ LeafOverflows cx op node := by
  cases op with
  | compare c =>
      rw [compileLeaf]
      split
      · exact compileComparison_overflow_iff
      · exact compileOrderedComparison_overflow_iff
  | nullCheck empty =>
      simp [compileLeaf, compileNullCheck_ne_overflow, LeafOverflows]
  | like op => simp [compileLeaf, compileTextPattern_ne_overflow, LeafOverflows]
  | regexp => simp [compileLeaf, compileTextPattern_ne_overflow, LeafOverflows]

end Leaves

/-! ## Trees -/

/-- A child compiler lets exactly the overflows through that come first. -/
def ChildOverflows (cx : CompileContext) (levels : ℕ) (child : ChildCompiler) : Prop :=
  ∀ (node : Json) (st : CompileState), st.Within cx.limits →
    (child node st = .error .overflow ↔ OverflowsFirst cx levels st node)

section Trees

variable {cx : CompileContext} {q : Bool} {levels : ℕ} {child : ChildCompiler}

/-- Some child overflows after children that denote trees. -/
def ChildrenOverflow (cx : CompileContext) (levels : ℕ) (items : List Json)
    (st : CompileState) : Prop :=
  ∃ before node after ps, items = before ++ node :: after ∧
    List.Forall₂ (Denotes cx) ps before ∧ (∀ p ∈ ps, p.depth ≤ levels) ∧
    (st.afterAll ps).Within cx.limits ∧ OverflowsFirst cx levels (st.afterAll ps) node

theorem compileChildren_overflow_iff (hexact : ChildExact cx q levels child)
    (hover : ChildOverflows cx levels child) {items : List Json} {st : CompileState}
    (hst : st.Within cx.limits) :
    compileChildren child items st = .error .overflow ↔
      ChildrenOverflow cx levels items st := by
  have hnil : ∀ st : CompileState, st.afterAll [] = st := by simp [CompileState.afterAll]
  induction items generalizing st with
  | nil =>
      constructor
      · intro h
        cases h
      · rintro ⟨before, node, after, ps, h, _⟩
        cases before <;> cases h
  | cons node items ih =>
      simp only [compileChildren, bind_eq_error]
      constructor
      · rintro (hfirst | ⟨⟨part, st'⟩, hfirst, hrest | ⟨_, _, h⟩⟩)
        · refine ⟨[], node, items, [], rfl, .nil, by simp, ?_, ?_⟩
          · rwa [hnil]
          · rw [hnil]
            exact (hover node st hst).mp hfirst
        · rcases (hexact node st _ hst).mp hfirst with ⟨p, hp, hdepth, hwithin, heq⟩
          cases heq
          rcases (ih hwithin).mp hrest with
            ⟨before, node', after, ps, rfl, hps, hdepths, hwithins, hnode⟩
          rw [← CompileState.afterAll_cons] at hwithins hnode
          exact ⟨node :: before, node', after, p :: ps, rfl, .cons hp hps,
            List.forall_mem_cons.mpr ⟨hdepth, hdepths⟩, hwithins, hnode⟩
        · cases h
      · rintro ⟨before, node', after, ps, hitems, hps, hdepths, hwithin, hnode⟩
        cases hps with
        | nil =>
            cases hitems
            rw [hnil] at hnode
            exact Or.inl ((hover node st hst).mpr hnode)
        | cons hp hps =>
            rename_i p node ps before
            cases hitems
            rw [CompileState.afterAll_cons] at hwithin hnode
            have hafter := CompileState.within_of_afterAll hwithin
            have hdepth := List.forall_mem_cons.mp hdepths
            exact Or.inr ⟨_, (hexact node st _ hst).mpr ⟨p, hp, hdepth.1, hafter, rfl⟩,
              Or.inl ((ih hafter).mpr
                ⟨before, node', after, ps, rfl, hps, hdepth.2, hwithin, hnode⟩)⟩

theorem compileLogicalList_overflow_iff (hexact : ChildExact cx q levels child)
    (hover : ChildOverflows cx levels child) {c : Connective} {node : List (String × Json)}
    {st : CompileState} (hst : st.Within cx.limits) :
    compileLogicalList cx c node st child = .error .overflow ↔
      ∃ items, KeysWithin node ["op", "predicates"] ∧
        member node "predicates" = some (.arr items) ∧ items ≠ [] ∧
        items.length ≤ cx.limits.maxLength ∧ ChildrenOverflow cx levels items st := by
  simp only [compileLogicalList, bind_eq_error, unexpectedKeys_ne_overflow,
    unexpectedKeys_eq_ok, false_or]
  constructor
  · rintro ⟨_, hkeys, h⟩
    cases hmember : member node "predicates" with
    | none => simp [hmember, throw, throwThe, MonadExceptOf.throw] at h
    | some j =>
        cases j with
        | arr items =>
            simp only [hmember, bind_eq_error, ensure_eq_ok] at h
            rcases h with h | ⟨_, hne, h | ⟨_, hlength, h | ⟨_, _, h⟩⟩⟩
            · exact absurd h (ensure_ne_overflow (by simp))
            · exact absurd h (ensure_ne_overflow (by simp))
            · exact ⟨items, hkeys, rfl, hne, hlength,
                (compileChildren_overflow_iff hexact hover hst).mp h⟩
            · cases h
        | _ => simp [hmember, throw, throwThe, MonadExceptOf.throw] at h
  · rintro ⟨items, hkeys, hmember, hne, hlength, hchildren⟩
    refine ⟨(), hkeys, ?_⟩
    simp only [hmember, bind_eq_error, ensure_eq_ok]
    exact Or.inr ⟨(), hne, Or.inr ⟨(), hlength,
      Or.inl ((compileChildren_overflow_iff hexact hover hst).mpr hchildren)⟩⟩

theorem compileNot_overflow_iff (hover : ChildOverflows cx levels child)
    {node : List (String × Json)} {st : CompileState} (hst : st.Within cx.limits) :
    compileNot node st child = .error .overflow ↔
      ∃ inner, KeysWithin node ["op", "predicate"] ∧
        member node "predicate" = some inner ∧ OverflowsFirst cx levels st inner := by
  simp only [compileNot, bind_eq_error, unexpectedKeys_ne_overflow, unexpectedKeys_eq_ok,
    false_or]
  constructor
  · rintro ⟨_, hkeys, h⟩
    cases hmember : member node "predicate" with
    | none => simp [hmember, throw, throwThe, MonadExceptOf.throw] at h
    | some inner =>
        simp only [hmember, bind_eq_error] at h
        rcases h with h | ⟨_, _, h⟩
        · exact ⟨inner, hkeys, rfl, (hover inner st hst).mp h⟩
        · cases h
  · rintro ⟨inner, hkeys, hmember, hinner⟩
    refine ⟨(), hkeys, ?_⟩
    simp only [hmember, bind_eq_error]
    exact Or.inl ((hover inner st hst).mpr hinner)

theorem compilePredicate_overflow_iff (cx : CompileContext) (q : Bool) (levels : ℕ) :
    ChildOverflows cx levels (compilePredicate cx q levels) := by
  induction levels with
  | zero =>
      intro node st _
      simp only [compilePredicate, throw, throwThe, MonadExceptOf.throw]
      constructor
      · intro h
        cases h
      · intro h
        cases h
  | succ levels ih =>
      intro node st hst
      have hexact := compilePredicate_exact cx q levels
      simp only [compilePredicate, bind_eq_error, asObject_ne_overflow, readOp_ne_overflow,
        countNode_ne_overflow, asObject_eq_ok, readOp_eq_ok, countNode_eq_ok hst, false_or]
      constructor
      · rintro ⟨members, rfl, op, hop, st', ⟨hwithin, rfl⟩, h⟩
        cases op with
        | connective c =>
            rcases (compileLogicalList_overflow_iff hexact ih hwithin).mp h with
              ⟨items, hkeys, hmember, hne, hlength, before, child, after, ps, rfl, hps,
                hdepths, hafter, hchild⟩
            exact .connective ⟨members, rfl, hop, hkeys, hmember, hne, hlength⟩ hps hdepths
              hafter hchild
        | not =>
            rcases (compileNot_overflow_iff ih hwithin).mp h with
              ⟨inner, hkeys, hmember, hinner⟩
            exact .not ⟨members, rfl, hop, hkeys, hmember⟩ hwithin hinner
        | leaf op =>
            simp only [bind_eq_error] at h
            rcases h with h | ⟨_, _, h⟩
            · exact .leaf hop hwithin (compileLeaf_overflow_iff.mp h)
            · cases h
      · intro h
        cases h with
        | leaf hop hwithin hleaf =>
            refine ⟨_, rfl, _, hop, _, ⟨hwithin, rfl⟩, ?_⟩
            simp only [bind_eq_error]
            exact Or.inl (compileLeaf_overflow_iff.mpr hleaf)
        | not hnode hwithin hinner =>
            rcases hnode with ⟨members, rfl, hop, hkeys, hmember⟩
            exact ⟨members, rfl, _, hop, _, ⟨hwithin, rfl⟩,
              (compileNot_overflow_iff ih hwithin).mpr ⟨_, hkeys, hmember, hinner⟩⟩
        | connective hnode hbefore hdepths hafter hchild =>
            rcases hnode with ⟨members, rfl, hop, hkeys, hmember, hne, hlength⟩
            have hwithin := CompileState.within_of_afterAll hafter
            exact ⟨members, rfl, _, hop, _, ⟨hwithin, rfl⟩,
              (compileLogicalList_overflow_iff hexact ih hwithin).mpr
                ⟨_, hkeys, hmember, hne, hlength, _, _, _, _, rfl, hbefore, hdepths, hafter,
                  hchild⟩⟩

end Trees

/-! ## Whole predicates -/

section Root

variable {cx : CompileContext} {q : Bool} {predicate : Json}

/-- The first defect of the predicate is a datetime out of the calendar. -/
def OverflowsAtRoot (cx : CompileContext) (predicate : Json) : Prop :=
  OverflowsFirst cx cx.limits.maxDepth .initial predicate

theorem overflowsFirst_obj {levels : ℕ} {st : CompileState} {node : Json}
    (h : OverflowsFirst cx levels st node) : ∃ members, node = .obj members := by
  cases h with
  | leaf => exact ⟨_, rfl⟩
  | not hnode =>
      rcases hnode with ⟨members, rfl, _⟩
      exact ⟨members, rfl⟩
  | connective hnode =>
      rcases hnode with ⟨members, rfl, _⟩
      exact ⟨members, rfl⟩

theorem compilePredicateRoot_overflow_iff :
    compilePredicateRoot cx q predicate = .error .overflow ↔ OverflowsAtRoot cx predicate := by
  unfold compilePredicateRoot OverflowsAtRoot
  cases predicate with
  | obj members =>
      simp only [bind_eq_error]
      rw [compilePredicate_overflow_iff cx q _ _ _ (CompileState.initial_within _)]
      constructor
      · rintro (h | ⟨_, _, h⟩)
        · exact h
        · cases h
      · exact Or.inl
  | _ =>
      constructor
      · intro h
        cases h
      · intro h
        rcases overflowsFirst_obj h with ⟨members, h⟩
        cases h

/-- `SearchStructuralError` or `SearchSemanticError`. -/
def SearchFailure.IsValidation : SearchFailure → Prop
  | .structural _ | .semantic _ => True
  | .overflow => False

theorem SearchFailure.isValidation_iff {failure : SearchFailure} :
    failure.IsValidation ↔ failure ≠ .overflow := by
  cases failure <;> simp [IsValidation]

/-- The condition that the predicate stands for, with the values in their places. -/
def BoundCondition (cx : CompileContext) (q : Bool) (predicate : Json)
    (condition : Fragment) : Prop :=
  (predicate = .null ∧ condition = [.true]) ∨
    ∃ p, Denotes cx p predicate ∧ condition = p.bound q

/-- The compiler accepts the grammar, refuses the rest with validation errors, and
gives every placeholder its parameter. -/
structure CompilesAsGrammar (cx : CompileContext) (q : Bool) (predicate : Json) : Prop where
  accepts : (∃ result, compilePredicateRoot cx q predicate = .ok result) ↔
    WellFormed cx predicate
  refuses : ∀ failure, compilePredicateRoot cx q predicate = .error failure →
    failure.IsValidation
  placeholders : ∀ fragment params,
    compilePredicateRoot cx q predicate = .ok (fragment, params) →
      fragment.countP isPlaceholder = params.length
  aligned : ∀ fragment params,
    compilePredicateRoot cx q predicate = .ok (fragment, params) →
      ∃ condition, bindParams fragment params = some condition ∧
        BoundCondition cx q predicate condition

theorem compilePredicateRoot_accepts :
    (∃ result, compilePredicateRoot cx q predicate = .ok result) ↔
      WellFormed cx predicate := by
  simp only [compilePredicateRoot_eq_ok, WellFormed]
  constructor
  · rintro ⟨result, ⟨hnull, _⟩ | ⟨p, hp, hbudgets, _⟩⟩
    · exact Or.inl hnull
    · exact Or.inr ⟨p, hp, hbudgets⟩
  · rintro (hnull | ⟨p, hp, hbudgets⟩)
    · exact ⟨_, Or.inl ⟨hnull, rfl⟩⟩
    · exact ⟨_, Or.inr ⟨p, hp, hbudgets, rfl⟩⟩

theorem compilePredicateRoot_bindParams {fragment : Fragment} {params : List Value}
    (h : compilePredicateRoot cx q predicate = .ok (fragment, params)) :
    ∃ condition, bindParams fragment params = some condition ∧
      BoundCondition cx q predicate condition := by
  rcases compilePredicateRoot_eq_ok.mp h with ⟨hnull, heq⟩ | ⟨p, hp, _, heq⟩
  · cases heq
    exact ⟨[.true], rfl, Or.inl ⟨hnull, rfl⟩⟩
  · cases heq
    exact ⟨p.bound q, p.bindParams_fragment q, Or.inr ⟨p, hp, rfl⟩⟩

/-- The compiler is exact unless a datetime out of the calendar is the first defect. -/
theorem compilesAsGrammar_iff (cx : CompileContext) (q : Bool) (predicate : Json) :
    CompilesAsGrammar cx q predicate ↔ ¬ OverflowsAtRoot cx predicate := by
  constructor
  · intro h hover
    exact h.refuses .overflow (compilePredicateRoot_overflow_iff.mpr hover)
  · intro hover
    have hrefuses : ∀ failure, compilePredicateRoot cx q predicate = .error failure →
        failure.IsValidation := by
      intro failure hfailure
      rw [SearchFailure.isValidation_iff]
      rintro rfl
      exact hover (compilePredicateRoot_overflow_iff.mp hfailure)
    refine ⟨compilePredicateRoot_accepts, hrefuses, ?_, fun _ _ =>
      compilePredicateRoot_bindParams⟩
    intro fragment params h
    rcases compilePredicateRoot_bindParams h with ⟨condition, hbind, _⟩
    exact countP_isPlaceholder hbind

end Root

/-! ## The last half second of the calendar -/

/-- Adapters that take one text, half a second before the year 10000. -/
def lastHalfSecond : TypeAdapters where
  validate _ _ := none
  validate_typed h := by cases h
  datetime
    | .str s => if s = "9999-12-31T23:59:59.5Z" then some ⟨true, 253402300799500000⟩ else none
    | _ => none

def lastHalfSecondContext : CompileContext where
  adapters := lastHalfSecond
  attrs := [⟨"created_at", "datetime"⟩]
  limits := ⟨3, 20, 50, 3⟩

def lastHalfSecondPredicate : Json :=
  .obj [("op", .str "eq"), ("attribute", .str "created_at"),
    ("value", .str "9999-12-31T23:59:59.5Z")]

theorem lastHalfSecond_overflows :
    ¬ CompilesAsGrammar lastHalfSecondContext false lastHalfSecondPredicate := by
  intro h
  exact h.refuses .overflow (by decide +kernel)

end Untangled.Search
