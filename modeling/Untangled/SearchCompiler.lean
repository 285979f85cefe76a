import Untangled.SearchGrammar

/-!
# What the compiler accepts

Every check of the compiler against the clause of the grammar that it stands for,
and from these the compiler against the grammar.
-/

namespace Untangled.Search

open Mapping Records SqlExpressions

@[simp] theorem ensure_eq_ok {p : Prop} [Decidable p] {failure : SearchFailure} {u : Unit} :
    ensure p failure = .ok u ↔ p := by
  unfold ensure
  split
  · simp_all [pure, Except.pure]
  · simp_all [throw, throwThe, MonadExceptOf.throw]

/-! ## Single checks -/

section Checks

variable {cx : CompileContext} {node : List (String × Json)}

theorem asObject_eq_ok {message : String} {j : Json} :
    asObject message j = .ok node ↔ j = .obj node := by
  cases j <;> simp [asObject, pure, Except.pure, throw, throwThe, MonadExceptOf.throw]

theorem readOp_eq_ok {op : Op} : readOp node = .ok op ↔ HasOp node op := by
  unfold readOp HasOp
  cases hmember : member node "op" with
  | none => simp [throw, throwThe, MonadExceptOf.throw]
  | some j =>
      cases j with
      | str name =>
          cases hlookup : implementedOps.lookup name with
          | none => simp [hlookup, throw, throwThe, MonadExceptOf.throw]
          | some op' => simp [hlookup, pure, Except.pure]
      | _ => simp [throw, throwThe, MonadExceptOf.throw]

theorem unexpectedKeys_eq_ok {allowed : List String} {u : Unit} :
    unexpectedKeys node allowed = .ok u ↔ KeysWithin node allowed := by
  simp [unexpectedKeys, KeysWithin]

theorem requireAttribute_eq_ok {attr : SearchableAttribute} :
    requireAttribute cx node = .ok attr ↔ NamesAttribute cx node attr := by
  unfold requireAttribute NamesAttribute
  cases hmember : member node "attribute" with
  | none => simp [throw, throwThe, MonadExceptOf.throw]
  | some j =>
      cases j with
      | str name =>
          by_cases hname : name = ""
          · simp [hname, throw, throwThe, MonadExceptOf.throw]
          · cases hget : cx.attrs.get name with
            | none => simp [hname, hget, throw, throwThe, MonadExceptOf.throw]
            | some attr' => simp [hname, hget, pure, Except.pure]
      | _ => simp [throw, throwThe, MonadExceptOf.throw]

theorem requireValue_eq_ok {raw : Json} :
    requireValue node = .ok raw ↔ HasValue node raw := by
  unfold requireValue HasValue
  cases hmember : member node "value" with
  | none => simp [throw, throwThe, MonadExceptOf.throw]
  | some j =>
      cases j with
      | null =>
          simp only [throw, throwThe, MonadExceptOf.throw, Option.some.injEq]
          constructor
          · intro h
            cases h
          · rintro ⟨rfl, h⟩
            cases h
      | _ =>
          simp only [pure, Except.pure, Except.ok.injEq, Option.some.injEq]
          constructor
          · rintro rfl
            exact ⟨rfl, rfl⟩
          · exact And.left

theorem requireType_eq_ok {attr : SearchableAttribute} {types : List String} {message : String}
    {u : Unit} : requireType attr types message = .ok u ↔ attr.typeName ∈ types := by
  simp [requireType]

theorem coerceDatetime_eq_ok {raw : Json} {v : Value} :
    coerceDatetime cx raw = .ok v ↔
      ∃ parsed micros, cx.adapters.datetime raw = some parsed ∧ parsed.aware = true ∧
        requireUtcSeconds parsed.micros = some micros ∧ v = .datetime micros := by
  unfold coerceDatetime
  cases hparsed : cx.adapters.datetime raw with
  | none => simp [throw, throwThe, MonadExceptOf.throw]
  | some parsed =>
      by_cases haware : parsed.aware = true
      · cases hutc : requireUtcSeconds parsed.micros with
        | none => simp [haware, hutc, throw, throwThe, MonadExceptOf.throw]
        | some micros =>
            simp only [haware, hutc, if_pos, pure, Except.pure, Except.ok.injEq,
              Option.some.injEq]
            constructor
            · rintro rfl
              exact ⟨parsed, micros, rfl, haware, hutc, rfl⟩
            · rintro ⟨parsed', micros', rfl, _, hutc', rfl⟩
              rw [hutc] at hutc'
              cases hutc'
              rfl
      · simp [haware, throw, throwThe, MonadExceptOf.throw]

theorem coerceValue_eq_ok {attr : SearchableAttribute} {raw : Json} {v : Value} :
    coerceValue cx attr raw = .ok v ↔ Coerces cx attr raw v := by
  unfold coerceValue Coerces
  by_cases htype : attr.typeName ∈ adapterTypes
  · by_cases hdatetime : attr.typeName = "datetime"
    · rw [if_neg (not_not_intro htype), if_pos hdatetime, coerceDatetime_eq_ok,
        if_pos hdatetime]
      simp [htype]
    · rw [if_neg (not_not_intro htype), if_neg hdatetime, if_neg hdatetime]
      cases hvalue : cx.adapters.validate attr.typeName raw with
      | none => simp [throw, throwThe, MonadExceptOf.throw]
      | some w => simp [htype, pure, Except.pure]
  · simp [htype, throw, throwThe, MonadExceptOf.throw]

end Checks

/-! ## Leaves -/

section Leaves

variable {cx : CompileContext} {q : Bool} {node : List (String × Json)}
  {result : Fragment × List Value}

/-- What the compiler makes of a leaf. -/
def Leaf.compiled (q : Bool) (l : Leaf) : Fragment × List Value := (l.fragment q, l.params)

theorem carriesValue_iff {attr : SearchableAttribute} {v : Value} :
    CarriesValue cx node attr v ↔
      unexpectedKeys node ["op", "attribute", "value"] = .ok () ∧
        requireAttribute cx node = .ok attr ∧
        ∃ raw, requireValue node = .ok raw ∧ coerceValue cx attr raw = .ok v := by
  rw [CarriesValue, unexpectedKeys_eq_ok, requireAttribute_eq_ok]
  simp only [requireValue_eq_ok, coerceValue_eq_ok]

theorem compileComparison_eq_ok {c : Comparison} (hvalue : isValueOp c = true) :
    compileComparison cx q c node = .ok result ↔
      ∃ attr v, CarriesValue cx node attr v ∧ result = (Leaf.compare c attr v).compiled q := by
  simp only [compileComparison, bind_eq_ok, carriesValue_iff]
  constructor
  · rintro ⟨u, hkeys, attr, hattr, raw, hraw, v, hv, h⟩
    cases h
    refine ⟨attr, v, ⟨hkeys, hattr, raw, hraw, hv⟩, ?_⟩
    simp [Leaf.compiled, Leaf.fragment, Leaf.params, hvalue]
  · rintro ⟨attr, v, ⟨hkeys, hattr, raw, hraw, hv⟩, rfl⟩
    refine ⟨(), hkeys, attr, hattr, raw, hraw, v, hv, ?_⟩
    simp [Leaf.compiled, Leaf.fragment, Leaf.params, hvalue, pure, Except.pure]

theorem compileOrderedComparison_eq_ok {c : Comparison} (hordered : isValueOp c = false) :
    compileOrderedComparison cx q c node = .ok result ↔
      ∃ attr v, (CarriesValue cx node attr v ∧ attr.typeName ∈ orderedTypes) ∧
        result = (Leaf.compare c attr v).compiled q := by
  simp only [compileOrderedComparison, bind_eq_ok, carriesValue_iff, requireType_eq_ok]
  constructor
  · rintro ⟨u, hkeys, attr, hattr, _, htype, raw, hraw, v, hv, h⟩
    cases h
    refine ⟨attr, v, ⟨⟨hkeys, hattr, raw, hraw, hv⟩, htype⟩, ?_⟩
    by_cases htext : attr.typeName ∈ textOrderedTypes <;>
      simp [Leaf.compiled, Leaf.fragment, Leaf.params, hordered, htext]
  · rintro ⟨attr, v, ⟨⟨hkeys, hattr, raw, hraw, hv⟩, htype⟩, rfl⟩
    refine ⟨(), hkeys, attr, hattr, (), htype, raw, hraw, v, hv, ?_⟩
    by_cases htext : attr.typeName ∈ textOrderedTypes <;>
      simp [Leaf.compiled, Leaf.fragment, Leaf.params, hordered, htext, pure, Except.pure]

theorem compileNullCheck_eq_ok {empty : Bool} :
    compileNullCheck cx q empty node = .ok result ↔
      ∃ attr, (KeysWithin node ["op", "attribute"] ∧ NamesAttribute cx node attr) ∧
        result = (Leaf.nullCheck empty attr).compiled q := by
  simp only [compileNullCheck, bind_eq_ok, unexpectedKeys_eq_ok, requireAttribute_eq_ok]
  constructor
  · rintro ⟨u, hkeys, attr, hattr, h⟩
    refine ⟨attr, ⟨hkeys, hattr⟩, ?_⟩
    cases empty <;> cases h <;> rfl
  · rintro ⟨attr, ⟨hkeys, hattr⟩, rfl⟩
    refine ⟨(), hkeys, attr, hattr, ?_⟩
    cases empty <;> rfl

/-- The leaf of a text operator. -/
def patternLeaf : Option LikeOp → SearchableAttribute → String → Leaf
  | none, attr, text => .regexp attr text
  | some op, attr, text => .like op attr text

theorem compileTextPattern_eq_ok {op : Option LikeOp} :
    compileTextPattern cx q op node = .ok result ↔
      ∃ attr text, (CarriesValue cx node attr (.text text) ∧
        attr.typeName ∈ textPatternTypes) ∧
        result = (patternLeaf op attr text).compiled q := by
  simp only [compileTextPattern, bind_eq_ok, carriesValue_iff, requireType_eq_ok]
  constructor
  · rintro ⟨u, hkeys, attr, hattr, _, htype, raw, hraw, v, hv, h⟩
    cases v with
    | text s =>
        refine ⟨attr, s, ⟨⟨hkeys, hattr, raw, hraw, hv⟩, htype⟩, ?_⟩
        cases op <;> cases h <;> rfl
    | _ => cases h
  · rintro ⟨attr, s, ⟨⟨hkeys, hattr, raw, hraw, hv⟩, htype⟩, rfl⟩
    refine ⟨(), hkeys, attr, hattr, (), htype, raw, hraw, .text s, hv, ?_⟩
    cases op <;> rfl

theorem compileLeaf_eq_ok {op : LeafOp} :
    compileLeaf cx q op node = .ok result ↔
      ∃ l : Leaf, l.op = op ∧ l.ReadFrom cx node ∧ result = l.compiled q := by
  cases op with
  | compare c =>
      rw [compileLeaf]
      by_cases hvalue : isValueOp c = true
      · rw [if_pos hvalue, compileComparison_eq_ok hvalue]
        constructor
        · rintro ⟨attr, v, hcarries, rfl⟩
          exact ⟨.compare c attr v, rfl, ⟨hcarries, by simp [hvalue]⟩, rfl⟩
        · rintro ⟨l, hop, hread, rfl⟩
          cases l <;> cases hop
          exact ⟨_, _, hread.1, rfl⟩
      · rw [if_neg hvalue, compileOrderedComparison_eq_ok (by simpa using hvalue)]
        constructor
        · rintro ⟨attr, v, hcarries, rfl⟩
          exact ⟨.compare c attr v, rfl, ⟨hcarries.1, fun _ => hcarries.2⟩, rfl⟩
        · rintro ⟨l, hop, hread, rfl⟩
          cases l <;> cases hop
          exact ⟨_, _, ⟨hread.1, hread.2 (by simpa using hvalue)⟩, rfl⟩
  | nullCheck empty =>
      rw [compileLeaf, compileNullCheck_eq_ok]
      constructor
      · rintro ⟨attr, hread, rfl⟩
        exact ⟨.nullCheck empty attr, rfl, hread, rfl⟩
      · rintro ⟨l, hop, hread, rfl⟩
        cases l <;> cases hop
        exact ⟨_, hread, rfl⟩
  | like op =>
      rw [compileLeaf, compileTextPattern_eq_ok]
      constructor
      · rintro ⟨attr, text, hread, rfl⟩
        exact ⟨.like op attr text, rfl, hread, rfl⟩
      · rintro ⟨l, hop, hread, rfl⟩
        cases l <;> cases hop
        exact ⟨_, _, hread, rfl⟩
  | regexp =>
      rw [compileLeaf, compileTextPattern_eq_ok]
      constructor
      · rintro ⟨attr, text, hread, rfl⟩
        exact ⟨.regexp attr text, rfl, hread, rfl⟩
      · rintro ⟨l, hop, hread, rfl⟩
        cases l <;> cases hop
        exact ⟨_, _, hread, rfl⟩

end Leaves

/-! ## Counters -/

/-- What compiling a tree leaves behind. -/
def CompileState.after (st : CompileState) (p : Pred) : CompileState where
  params := st.params ++ p.params
  totalPredicates := st.totalPredicates + p.nodes
  totalRegexp := st.totalRegexp + p.regexps

def CompileState.afterAll (st : CompileState) (ps : List Pred) : CompileState where
  params := st.params ++ (ps.map Pred.params).flatten
  totalPredicates := st.totalPredicates + (ps.map Pred.nodes).sum
  totalRegexp := st.totalRegexp + (ps.map Pred.regexps).sum

theorem CompileState.afterAll_cons (st : CompileState) (p : Pred) (ps : List Pred) :
    st.afterAll (p :: ps) = (st.after p).afterAll ps := by
  simp [afterAll, after, Nat.add_assoc]

/-- No budget is exceeded yet. -/
structure CompileState.Within (limits : SearchNestingLimits) (st : CompileState) : Prop where
  predicates : st.totalPredicates ≤ limits.maxTotalPredicates
  regexp : st.totalRegexp ≤ limits.maxTotalRegexp

theorem CompileState.initial_within (limits : SearchNestingLimits) :
    CompileState.initial.Within limits :=
  ⟨Nat.zero_le _, Nat.zero_le _⟩

theorem CompileState.within_of_afterAll {limits : SearchNestingLimits} {st : CompileState}
    {ps : List Pred} (h : (st.afterAll ps).Within limits) : st.Within limits :=
  ⟨le_trans (Nat.le_add_right _ _) h.predicates, le_trans (Nat.le_add_right _ _) h.regexp⟩

/-- The state after the node itself is counted. -/
def CompileState.counted (st : CompileState) (op : Op) : CompileState :=
  { st with
    totalPredicates := st.totalPredicates + 1
    totalRegexp := st.totalRegexp + if op = .leaf .regexp then 1 else 0 }

theorem countNode_eq_ok {limits : SearchNestingLimits} {op : Op} {st st' : CompileState}
    (hst : st.Within limits) :
    countNode limits op st = .ok st' ↔ (st.counted op).Within limits ∧ st' = st.counted op := by
  unfold countNode
  by_cases hop : op = .leaf .regexp
  · simp only [bind_eq_ok, ensure_eq_ok, if_pos hop, pure, Except.pure, Except.ok.injEq]
    constructor
    · rintro ⟨_, hpredicates, _, hregexp, rfl⟩
      refine ⟨⟨hpredicates, ?_⟩, ?_⟩
      · simpa [CompileState.counted, hop] using hregexp
      · simp [CompileState.counted, hop]
    · rintro ⟨hwithin, rfl⟩
      refine ⟨(), hwithin.predicates, (), ?_, ?_⟩
      · simpa [CompileState.counted, hop] using hwithin.regexp
      · simp [CompileState.counted, hop]
  · simp only [bind_eq_ok, ensure_eq_ok, if_neg hop, pure, Except.pure, Except.ok.injEq]
    constructor
    · rintro ⟨_, hpredicates, rfl⟩
      refine ⟨⟨hpredicates, ?_⟩, ?_⟩
      · simpa [CompileState.counted, hop] using hst.regexp
      · simp [CompileState.counted, hop]
    · rintro ⟨hwithin, rfl⟩
      refine ⟨(), hwithin.predicates, ?_⟩
      simp [CompileState.counted, hop]

/-! ## Trees -/

/-- A child compiler gives the condition of the tree that a value denotes, if that has
few enough levels and fits in the budgets. -/
def ChildExact (cx : CompileContext) (q : Bool) (levels : ℕ) (child : ChildCompiler) : Prop :=
  ∀ (node : Json) (st : CompileState) (result : Fragment × CompileState),
    st.Within cx.limits →
    (child node st = .ok result ↔
      ∃ p, Denotes cx p node ∧ p.depth ≤ levels ∧ (st.after p).Within cx.limits ∧
        result = (p.fragment q, st.after p))

section Trees

variable {cx : CompileContext} {q : Bool} {levels : ℕ} {child : ChildCompiler}

theorem compileChildren_eq_ok (hchild : ChildExact cx q levels child) {items : List Json}
    {st : CompileState} {result : List Fragment × CompileState} (hst : st.Within cx.limits) :
    compileChildren child items st = .ok result ↔
      ∃ ps, List.Forall₂ (Denotes cx) ps items ∧ (∀ p ∈ ps, p.depth ≤ levels) ∧
        (st.afterAll ps).Within cx.limits ∧
        result = (ps.map (Pred.fragment q), st.afterAll ps) := by
  induction items generalizing st result with
  | nil =>
      simp only [compileChildren, pure, Except.pure, Except.ok.injEq]
      have hafter : st.afterAll [] = st := by simp [CompileState.afterAll]
      constructor
      · rintro rfl
        exact ⟨[], .nil, by simp, by rwa [hafter], by rw [hafter]; rfl⟩
      · rintro ⟨ps, hforall, _, _, rfl⟩
        cases hforall
        rw [hafter]
        rfl
  | cons node items ih =>
      simp only [compileChildren, bind_eq_ok]
      constructor
      · rintro ⟨⟨part, st'⟩, hfirst, ⟨parts, st''⟩, hrest, h⟩
        rcases (hchild node st _ hst).mp hfirst with ⟨p, hp, hdepth, hwithin, heq⟩
        cases heq
        rcases (ih hwithin).mp hrest with ⟨ps, hps, hdepths, hwithins, heq⟩
        cases heq
        cases h
        refine ⟨p :: ps, .cons hp hps, ?_, ?_, ?_⟩
        · simpa using ⟨hdepth, hdepths⟩
        · rwa [CompileState.afterAll_cons]
        · rw [CompileState.afterAll_cons]
          rfl
      · rintro ⟨ps, hforall, hdepths, hwithin, rfl⟩
        cases hforall with
        | cons hp hps =>
            rename_i p ps
            rw [CompileState.afterAll_cons] at hwithin ⊢
            have hafter := CompileState.within_of_afterAll hwithin
            have hdepth := List.forall_mem_cons.mp hdepths
            refine ⟨_, (hchild node st _ hst).mpr ⟨p, hp, hdepth.1, hafter, rfl⟩, _,
              (ih hafter).mpr ⟨ps, hps, hdepth.2, hwithin, rfl⟩, rfl⟩

theorem compileLogicalList_eq_ok (hchild : ChildExact cx q levels child) {c : Connective}
    {node : List (String × Json)} {st : CompileState} {result : Fragment × CompileState}
    (hst : st.Within cx.limits) :
    compileLogicalList cx c node st child = .ok result ↔
      ∃ items ps, KeysWithin node ["op", "predicates"] ∧
        member node "predicates" = some (.arr items) ∧ items ≠ [] ∧
        items.length ≤ cx.limits.maxLength ∧ List.Forall₂ (Denotes cx) ps items ∧
        (∀ p ∈ ps, p.depth ≤ levels) ∧ (st.afterAll ps).Within cx.limits ∧
        result = ((Pred.connective c ps).fragment q, st.afterAll ps) := by
  simp only [compileLogicalList, bind_eq_ok, unexpectedKeys_eq_ok]
  constructor
  · rintro ⟨_, hkeys, h⟩
    cases hmember : member node "predicates" with
    | none => simp [hmember, throw, throwThe, MonadExceptOf.throw] at h
    | some j =>
        cases j with
        | arr items =>
            simp only [hmember, bind_eq_ok, ensure_eq_ok] at h
            rcases h with ⟨_, hne, _, hlength, ⟨parts, st'⟩, hparts, h⟩
            rcases (compileChildren_eq_ok hchild hst).mp hparts with
              ⟨ps, hps, hdepths, hwithin, heq⟩
            cases heq
            cases h
            exact ⟨items, ps, hkeys, rfl, hne, hlength, hps, hdepths, hwithin,
              by rw [Pred.fragment_connective]⟩
        | _ => simp [hmember, throw, throwThe, MonadExceptOf.throw] at h
  · rintro ⟨items, ps, hkeys, hmember, hne, hlength, hps, hdepths, hwithin, rfl⟩
    refine ⟨(), hkeys, ?_⟩
    simp only [hmember, bind_eq_ok, ensure_eq_ok]
    refine ⟨(), hne, (), hlength, _,
      (compileChildren_eq_ok hchild hst).mpr ⟨ps, hps, hdepths, hwithin, rfl⟩, ?_⟩
    rw [Pred.fragment_connective]
    rfl

theorem compileNot_eq_ok (hchild : ChildExact cx q levels child)
    {node : List (String × Json)} {st : CompileState} {result : Fragment × CompileState}
    (hst : st.Within cx.limits) :
    compileNot node st child = .ok result ↔
      ∃ inner p, KeysWithin node ["op", "predicate"] ∧ member node "predicate" = some inner ∧
        Denotes cx p inner ∧ p.depth ≤ levels ∧ (st.after p).Within cx.limits ∧
        result = ((Pred.not p).fragment q, st.after p) := by
  simp only [compileNot, bind_eq_ok, unexpectedKeys_eq_ok]
  constructor
  · rintro ⟨_, hkeys, h⟩
    cases hmember : member node "predicate" with
    | none => simp [hmember, throw, throwThe, MonadExceptOf.throw] at h
    | some inner =>
        simp only [hmember, bind_eq_ok] at h
        rcases h with ⟨⟨fragment, st'⟩, hinner, h⟩
        rcases (hchild inner st _ hst).mp hinner with ⟨p, hp, hdepth, hwithin, heq⟩
        cases heq
        cases h
        exact ⟨inner, p, hkeys, rfl, hp, hdepth, hwithin, rfl⟩
  · rintro ⟨inner, p, hkeys, hmember, hp, hdepth, hwithin, rfl⟩
    refine ⟨(), hkeys, ?_⟩
    simp only [hmember, bind_eq_ok]
    exact ⟨_, (hchild inner st _ hst).mpr ⟨p, hp, hdepth, hwithin, rfl⟩, rfl⟩

theorem counted_after_leaf (st : CompileState) (l : Leaf) :
    { st.counted (.leaf l.op) with params := (st.counted (.leaf l.op)).params ++ l.params } =
      st.after (.leaf l) := by
  simp [CompileState.counted, CompileState.after]

theorem counted_after_not (st : CompileState) (p : Pred) :
    (st.counted .not).after p = st.after (.not p) := by
  simp [CompileState.counted, CompileState.after]
  omega

theorem counted_afterAll (st : CompileState) (c : Connective) (ps : List Pred) :
    (st.counted (.connective c)).afterAll ps = st.after (.connective c ps) := by
  simp [CompileState.counted, CompileState.after, CompileState.afterAll]
  omega

/-- The compiler gives the conditions of the trees that its levels and budgets
allow. -/
theorem compilePredicate_exact (cx : CompileContext) (q : Bool) (levels : ℕ) :
    ChildExact cx q levels (compilePredicate cx q levels) := by
  induction levels with
  | zero =>
      intro node st result hst
      simp only [compilePredicate, throw, throwThe, MonadExceptOf.throw, reduceCtorEq,
        false_iff]
      rintro ⟨p, _, hdepth, _⟩
      cases p using Pred.induction <;> simp at hdepth
  | succ levels ih =>
      intro node st result hst
      simp only [compilePredicate, bind_eq_ok, asObject_eq_ok, readOp_eq_ok,
        countNode_eq_ok hst]
      constructor
      · rintro ⟨members, rfl, op, hop, st', ⟨hwithin, rfl⟩, h⟩
        cases op with
        | connective c =>
            rcases (compileLogicalList_eq_ok ih hwithin).mp h with
              ⟨items, ps, hkeys, hmember, hne, hlength, hps, hdepths, hafter, rfl⟩
            rw [counted_afterAll] at hafter ⊢
            refine ⟨.connective c ps, ?_, Pred.depth_connective_le.mpr hdepths, hafter, rfl⟩
            rw [denotes_connective]
            exact ⟨items, ⟨members, rfl, hop, hkeys, hmember, hne, hlength⟩, hps⟩
        | not =>
            rcases (compileNot_eq_ok ih hwithin).mp h with
              ⟨inner, p, hkeys, hmember, hp, hdepth, hafter, rfl⟩
            rw [counted_after_not] at hafter ⊢
            exact ⟨.not p, ⟨inner, ⟨members, rfl, hop, hkeys, hmember⟩, hp⟩,
              by simpa using hdepth, hafter, rfl⟩
        | leaf op =>
            simp only [bind_eq_ok] at h
            rcases h with ⟨⟨fragment, added⟩, hleaf, h⟩
            rcases compileLeaf_eq_ok.mp hleaf with ⟨l, rfl, hread, heq⟩
            cases heq
            cases h
            refine ⟨.leaf l, ⟨members, rfl, hop, hread⟩, by simp, ?_, ?_⟩
            · rw [← counted_after_leaf]
              exact ⟨hwithin.predicates, hwithin.regexp⟩
            · rw [← counted_after_leaf]
              rfl
      · rintro ⟨p, hp, hdepth, hafter, rfl⟩
        cases p with
        | connective c ps =>
            rcases (denotes_connective cx).mp hp with
              ⟨items, ⟨members, rfl, hop, hkeys, hmember, hne, hlength⟩, hps⟩
            rw [← counted_afterAll] at hafter ⊢
            have hwithin := CompileState.within_of_afterAll hafter
            refine ⟨members, rfl, _, hop, _, ⟨hwithin, rfl⟩, ?_⟩
            exact (compileLogicalList_eq_ok ih hwithin).mpr
              ⟨items, ps, hkeys, hmember, hne, hlength, hps,
                Pred.depth_connective_le.mp hdepth, hafter, rfl⟩
        | not p =>
            rcases hp with ⟨inner, ⟨members, rfl, hop, hkeys, hmember⟩, hp⟩
            rw [← counted_after_not] at hafter ⊢
            have hwithin : (st.counted .not).Within cx.limits :=
              ⟨le_trans (Nat.le_add_right _ _) hafter.predicates,
                le_trans (Nat.le_add_right _ _) hafter.regexp⟩
            refine ⟨members, rfl, _, hop, _, ⟨hwithin, rfl⟩, ?_⟩
            exact (compileNot_eq_ok ih hwithin).mpr
              ⟨inner, p, hkeys, hmember, hp, by simpa using hdepth, hafter, rfl⟩
        | leaf l =>
            rcases hp with ⟨members, rfl, hop, hread⟩
            rw [← counted_after_leaf] at hafter ⊢
            have hwithin : (st.counted (.leaf l.op)).Within cx.limits :=
              ⟨hafter.predicates, hafter.regexp⟩
            refine ⟨members, rfl, _, hop, _, ⟨hwithin, rfl⟩, ?_⟩
            simp only [bind_eq_ok]
            exact ⟨_, compileLeaf_eq_ok.mpr ⟨l, rfl, hread, rfl⟩, rfl⟩

end Trees

/-! ## Whole predicates -/

section Root

variable {cx : CompileContext} {q : Bool}

theorem within_after_initial_iff {limits : SearchNestingLimits} {p : Pred} :
    p.depth ≤ limits.maxDepth ∧ (CompileState.initial.after p).Within limits ↔
      WithinBudgets limits p := by
  constructor
  · rintro ⟨hdepth, hnodes, hregexps⟩
    exact ⟨hdepth, by simpa [CompileState.after, CompileState.initial] using hnodes,
      by simpa [CompileState.after, CompileState.initial] using hregexps⟩
  · rintro ⟨hdepth, hnodes, hregexps⟩
    exact ⟨hdepth, by simpa [CompileState.after, CompileState.initial] using hnodes,
      by simpa [CompileState.after, CompileState.initial] using hregexps⟩

theorem denotes_obj {p : Pred} {node : Json} (h : Denotes cx p node) :
    ∃ members, node = .obj members := by
  cases p with
  | leaf l =>
      rcases h with ⟨members, rfl, _⟩
      exact ⟨members, rfl⟩
  | not p =>
      rcases h with ⟨_, ⟨members, rfl, _⟩, _⟩
      exact ⟨members, rfl⟩
  | connective c ps =>
      rcases (denotes_connective cx).mp h with ⟨_, ⟨members, rfl, _⟩, _⟩
      exact ⟨members, rfl⟩

/-- A compiled predicate is the condition of the tree that the value denotes. -/
theorem compilePredicateRoot_eq_ok {predicate : Json} {result : Fragment × List Value} :
    compilePredicateRoot cx q predicate = .ok result ↔
      (predicate = .null ∧ result = ([.true], [])) ∨
        ∃ p, Denotes cx p predicate ∧ WithinBudgets cx.limits p ∧
          result = (p.fragment q, p.params) := by
  unfold compilePredicateRoot
  cases predicate with
  | null =>
      simp only [pure, Except.pure, Except.ok.injEq, true_and]
      constructor
      · rintro rfl
        exact Or.inl rfl
      · rintro (rfl | ⟨p, hp, _⟩)
        · rfl
        · rcases denotes_obj hp with ⟨members, h⟩
          cases h
  | obj members =>
      simp only [bind_eq_ok, reduceCtorEq, false_and, false_or]
      constructor
      · rintro ⟨⟨compiled, st⟩, hcompiled, h⟩
        rcases (compilePredicate_exact cx q _ _ _ _ (CompileState.initial_within _)).mp
          hcompiled with ⟨p, hp, hdepth, hwithin, heq⟩
        cases heq
        cases h
        exact ⟨p, hp, within_after_initial_iff.mp ⟨hdepth, hwithin⟩, rfl⟩
      · rintro ⟨p, hp, hbudgets, rfl⟩
        rcases within_after_initial_iff.mpr hbudgets with ⟨hdepth, hwithin⟩
        exact ⟨_, (compilePredicate_exact cx q _ _ _ _ (CompileState.initial_within _)).mpr
          ⟨p, hp, hdepth, hwithin, rfl⟩, rfl⟩
  | _ =>
      simp only [throw, throwThe, MonadExceptOf.throw, reduceCtorEq, false_and, false_or,
        false_iff]
      rintro ⟨p, hp, _⟩
      rcases denotes_obj hp with ⟨members, h⟩
      cases h

end Root

end Untangled.Search
