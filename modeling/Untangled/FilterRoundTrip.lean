import Mathlib.Data.List.Forall2
import Untangled.FilterEditor
import Untangled.SearchMeaning

/-!
# Loading a filter into the editor and back

A predicate without `not` is loaded into editor rows and committed from them.
What the API's compiler takes comes back as it was, the order of an object's
members apart, unless a condition has the empty text as its value: the editor
takes that for a value that is still missing.
-/

namespace Untangled.FilterEditor

open Search

/-! ## Loading -/

theorem sizeOf_lt_of_member {members : List (String × Json)} {key : String} {j : Json}
    (h : member members key = some j) : sizeOf j < sizeOf (Json.obj members) := by
  rcases List.lookup_eq_some_iff.mp h with ⟨before, after, rfl, _⟩
  have hmem : (key, j) ∈ before ++ (key, j) :: after :=
    List.mem_append_right before (List.mem_cons_self ..)
  have hlt := List.sizeOf_lt_of_mem hmem
  simp only [Prod.mk.sizeOf_spec, Json.obj.sizeOf_spec] at hlt ⊢
  omega

theorem sizeOf_lt_of_item {members : List (String × Json)} {key : String} {items : List Json}
    (h : member members key = some (.arr items)) {item : Json} (hitem : item ∈ items) :
    sizeOf item < sizeOf (Json.obj members) := by
  have harr := sizeOf_lt_of_member h
  have hlt := List.sizeOf_lt_of_mem hitem
  simp only [Json.arr.sizeOf_spec] at harr
  omega

def opOf (members : List (String × Json)) : Option String :=
  (member members "op").bind Json.asString

def predicateContainsNot : Json → Bool
  | .obj members =>
      if opOf members = some "not" then true
      else
        match _hlist : member members "predicates" with
        | some (.arr children) =>
            children.attach.any fun child => predicateContainsNot child.1
        | _ =>
            match _hchild : member members "predicate" with
            | some child => predicateContainsNot child
            | none => false
  | _ => false
termination_by predicate => sizeOf predicate
decreasing_by
  · exact sizeOf_lt_of_item ‹_› child.2
  · exact sizeOf_lt_of_member ‹_›

/-- The children one after the other, with the counter handed on. -/
def loadAll {α : Type} (load : α → ℕ → EditorNode × ℕ) : List α → ℕ → List EditorNode × ℕ
  | [], counter => ([], counter)
  | item :: items, counter =>
      let (node, counter) := load item counter
      let (nodes, counter) := loadAll load items counter
      (node :: nodes, counter)

def predicateToEditorNode : Json → ℕ → EditorNode × ℕ
  | .obj members, counter =>
      match (opOf members).bind connectiveOf with
      | some op =>
          let (children, counter) :=
            match _hlist : member members "predicates" with
            | some (.arr predicates) =>
                loadAll (fun child : { child // child ∈ predicates } =>
                  predicateToEditorNode child.1) predicates.attach counter
            | _ => ([], counter)
          let (id, counter) := newEditorId counter
          (.group id op children, counter)
      | none =>
          let (id, counter) := newEditorId counter
          (.leaf id ((member members "attribute").bind Json.asString) (opOf members)
            (member members "value"), counter)
  | _, counter =>
      let (id, counter) := newEditorId counter
      (.leaf id none none none, counter)
termination_by predicate => sizeOf predicate
decreasing_by exact sizeOf_lt_of_item ‹_› child.2

/-- None is `{ ok: false, reason: "not" }`. -/
def loadEditorFromPredicate (predicate : Json) (counter : ℕ) :
    Option (Option EditorNode × ℕ) :=
  match predicate with
  | .null => some (none, counter)
  | predicate =>
      if predicateContainsNot predicate then none
      else
        let (root, counter) := predicateToEditorNode predicate counter
        some (some root, counter)

/-! ## Committing -/

mutual

def commitNode : EditorNode → Except String Json
  | .group _ op children =>
      if children.length = 0 then throw "Every And/Or group must have at least one condition."
      else do
        let predicates ← commitAll children
        pure (.obj [("op", .str (connectiveName op)), ("predicates", .arr predicates)])
  | .leaf _ attr op value =>
      match attr with
      | none => throw "Every condition needs a field."
      | some attr =>
          if attr = "" then throw "Every condition needs a field."
          else
            match op with
            | none => throw "Every condition needs an operator."
            | some op =>
                if op = "" then throw "Every condition needs an operator."
                else if op = "and" ∨ op = "or" ∨ op = "not" then
                  throw "Invalid operator on a field condition."
                else if !opRequiresValue (some op) then
                  pure (.obj [("op", .str op), ("attribute", .str attr)])
                else
                  match value with
                  | none => throw "Every condition needs a value."
                  | some (.str "") => throw "Every condition needs a value."
                  | some value =>
                      pure (.obj [("op", .str op), ("attribute", .str attr), ("value", value)])

def commitAll : List EditorNode → Except String (List Json)
  | [] => pure []
  | child :: children => do
      let predicate ← commitNode child
      let predicates ← commitAll children
      pure (predicate :: predicates)

end

def commitEditorRoot : Option EditorNode → Except String Json
  | none => pure .null
  | some root => commitNode root

/-! ## Predicates and their parts -/

/-- Equal JSON values; an object is its members in any order. -/
inductive Same : Json → Json → Prop
  | refl (j : Json) : Same j j
  | obj {ms ms' : List (String × Json)}
      (h : ∀ key, Option.Rel Same (member ms key) (member ms' key)) : Same (.obj ms) (.obj ms')
  | arr {xs ys : List Json} (h : List.Forall₂ Same xs ys) : Same (.arr xs) (.arr ys)

/-- A node of the predicate tree, at any depth. -/
inductive Subpredicate : Json → Json → Prop
  | refl (j : Json) : Subpredicate j j
  | ofList {members : List (String × Json)} {items : List Json} {child j : Json}
      (hlist : member members "predicates" = some (.arr items)) (hchild : child ∈ items)
      (h : Subpredicate child j) : Subpredicate (.obj members) j
  | ofChild {members : List (String × Json)} {child j : Json}
      (hchild : member members "predicate" = some child)
      (h : Subpredicate child j) : Subpredicate (.obj members) j

def ContainsNot (predicate : Json) : Prop :=
  ∃ members, Subpredicate predicate (.obj members) ∧ member members "op" = some (.str "not")

/-- A condition asks for the empty text. -/
def HasEmptyValue (predicate : Json) : Prop :=
  ∃ members, Subpredicate predicate (.obj members) ∧ member members "value" = some (.str "")

/-! ## Nodes of each kind -/

theorem loadAll_map {α β : Type} (load : β → ℕ → EditorNode × ℕ) (g : α → β) (items : List α)
    (counter : ℕ) :
    loadAll (fun item => load (g item)) items counter = loadAll load (items.map g) counter := by
  induction items generalizing counter with
  | nil => rfl
  | cons item items ih =>
      rw [loadAll, List.map_cons, loadAll]
      dsimp only
      rw [ih]

theorem loadAll_attach (load : Json → ℕ → EditorNode × ℕ) (items : List Json) (counter : ℕ) :
    loadAll (fun child : { child // child ∈ items } => load child.1) items.attach counter =
      loadAll load items counter := by
  rw [loadAll_map load Subtype.val, List.attach_map_subtype_val]

section Nodes

variable {members : List (String × Json)} {items : List Json}

theorem predicateContainsNot_not (hop : opOf members = some "not") :
    predicateContainsNot (.obj members) = true := by
  rw [predicateContainsNot, if_pos hop]

theorem predicateContainsNot_list (hop : opOf members ≠ some "not")
    (hlist : member members "predicates" = some (.arr items)) :
    predicateContainsNot (.obj members) = items.any predicateContainsNot := by
  rw [predicateContainsNot, if_neg hop]
  split
  · rename_i children hchildren
    rw [hlist] at hchildren
    cases hchildren
    simp
  · rename_i hnone
    exact absurd hlist (hnone items)

theorem predicateContainsNot_leaf (hop : opOf members ≠ some "not")
    (hlist : member members "predicates" = none) (hchild : member members "predicate" = none) :
    predicateContainsNot (.obj members) = false := by
  rw [predicateContainsNot, if_neg hop]
  split
  · rename_i children hchildren
    rw [hlist] at hchildren
    cases hchildren
  · split
    · rename_i child hsome
      rw [hchild] at hsome
      cases hsome
    · rfl

theorem predicateToEditorNode_list {c : Connective} (hop : opOf members = some (connectiveName c))
    (hlist : member members "predicates" = some (.arr items)) (counter : ℕ) :
    predicateToEditorNode (.obj members) counter =
      (.group (editorId ((loadAll predicateToEditorNode items counter).2 + 1)) c
        (loadAll predicateToEditorNode items counter).1,
        (loadAll predicateToEditorNode items counter).2 + 1) := by
  have hconnective : (opOf members).bind connectiveOf = some c := by
    rw [hop]
    cases c <;> rfl
  rw [predicateToEditorNode, hconnective]
  dsimp only
  split
  · rename_i children hchildren
    rw [hlist] at hchildren
    cases hchildren
    rw [loadAll_attach]
    rfl
  · rename_i hnone
    exact absurd hlist (hnone items)

theorem predicateToEditorNode_leaf (hop : (opOf members).bind connectiveOf = none) (counter : ℕ) :
    predicateToEditorNode (.obj members) counter =
      (.leaf (editorId (counter + 1)) ((member members "attribute").bind Json.asString)
        (opOf members) (member members "value"), counter + 1) := by
  rw [predicateToEditorNode, hop]
  rfl

end Nodes

/-! ## What the compiler takes -/

section Accepted

variable {cx : CompileContext} {members : List (String × Json)} {items : List Json}

theorem member_eq_none {allowed : List String} (h : KeysWithin members allowed) {key : String}
    (hkey : key ∉ allowed) : member members key = none := by
  rw [member, List.lookup_eq_none_iff]
  intro m hm
  have hmem := h m hm
  simp only [bne_iff_ne]
  rintro rfl
  exact hkey hmem

theorem opOf_of_member {name : String} (h : member members "op" = some (.str name)) :
    opOf members = some name := by
  rw [opOf, h]
  rfl

theorem mem_of_lookup {name : String} {op : Op} (h : implementedOps.lookup name = some op) :
    (name, op) ∈ implementedOps := by
  rcases List.lookup_eq_some_iff.mp h with ⟨before, after, hsplit, _⟩
  rw [hsplit]
  exact List.mem_append_right before (List.mem_cons_self ..)

theorem opOf_connective {c : Connective} (h : HasOp members (.connective c)) :
    opOf members = some (connectiveName c) := by
  rcases h with ⟨name, hname, hlookup⟩
  have hmem := mem_of_lookup hlookup
  rw [opOf_of_member hname]
  cases c <;> simpa [implementedOps, connectiveName] using hmem

theorem opOf_not (h : HasOp members .not) : opOf members = some "not" := by
  rcases h with ⟨name, hname, hlookup⟩
  have hmem := mem_of_lookup hlookup
  rw [opOf_of_member hname]
  simpa [implementedOps] using hmem

def isNullCheck : LeafOp → Bool
  | .nullCheck _ => true
  | _ => false

/-- The name of a leaf's operator is none of the logical ones, and needs a value unless it is
a null check. -/
structure LeafName (name : String) (op : LeafOp) : Prop where
  ne_empty : name ≠ ""
  ne_and : name ≠ "and"
  ne_or : name ≠ "or"
  ne_not : name ≠ "not"
  requires : opRequiresValue (some name) = !isNullCheck op

theorem leafName_of_lookup {name : String} {op : LeafOp}
    (h : implementedOps.lookup name = some (.leaf op)) : LeafName name op := by
  have hmem := mem_of_lookup h
  simp only [implementedOps, List.mem_cons, Prod.mk.injEq, Op.leaf.injEq, reduceCtorEq, and_false,
    List.not_mem_nil, or_false, false_or] at hmem
  rcases hmem with ⟨rfl, rfl⟩ | ⟨rfl, rfl⟩ | ⟨rfl, rfl⟩ | ⟨rfl, rfl⟩ | ⟨rfl, rfl⟩ | ⟨rfl, rfl⟩ |
    ⟨rfl, rfl⟩ | ⟨rfl, rfl⟩ | ⟨rfl, rfl⟩ | ⟨rfl, rfl⟩ | ⟨rfl, rfl⟩ | ⟨rfl, rfl⟩ <;>
    exact ⟨by decide, by decide, by decide, by decide, by decide⟩

theorem connectiveOf_of_leafName {name : String} {op : LeafOp} (h : LeafName name op) :
    connectiveOf name = none := by
  rw [connectiveOf, if_neg h.ne_and, if_neg h.ne_or]

/-- The members of an accepted condition. -/
structure LeafMembers (members : List (String × Json)) (opName attrName : String)
    (leafOp : LeafOp) : Prop where
  op : member members "op" = some (.str opName)
  name : LeafName opName leafOp
  attr : member members "attribute" = some (.str attrName)
  attr_ne : attrName ≠ ""
  keys : KeysWithin members ["op", "attribute", "value"]
  value : if isNullCheck leafOp then member members "value" = none
    else (member members "value").isSome = true

theorem leafMembers_of_leafOf {l : Leaf} (h : LeafOf cx l (.obj members)) :
    ∃ op attr, LeafMembers members op attr l.op := by
  rcases h with ⟨_, ⟨⟩, ⟨op, hop, hlookup⟩, hread⟩
  have hname := leafName_of_lookup hlookup
  have hcarries : ∀ {attr : SearchableAttribute} {v : Records.Value},
      CarriesValue cx members attr v → isNullCheck l.op = false →
        ∃ op attr, LeafMembers members op attr l.op := by
    rintro attr v ⟨hkeys, ⟨attrName, hattr, hne, _⟩, raw, ⟨hvalue, _⟩, _⟩ hnull
    exact ⟨op, attrName, hop, hname, hattr, hne, hkeys, by rw [hnull, hvalue]; rfl⟩
  cases l with
  | compare c attr v => exact hcarries hread.1 rfl
  | like likeOp attr text => exact hcarries hread.1 rfl
  | regexp attr text => exact hcarries hread.1 rfl
  | nullCheck empty attr =>
      rcases hread with ⟨hkeys, attrName, hattr, hne, _⟩
      refine ⟨op, attrName, hop, hname, hattr, hne, ?_, ?_⟩
      · intro m hm
        have hmem := hkeys m hm
        simp only [List.mem_cons, List.not_mem_nil, or_false] at hmem ⊢
        rcases hmem with hmem | hmem <;> simp [hmem]
      · exact member_eq_none hkeys (by simp)

theorem LeafMembers.subpredicate {op attr : String} {leafOp : LeafOp}
    (h : LeafMembers members op attr leafOp) {j : Json} (hj : Subpredicate (.obj members) j) :
    j = .obj members := by
  cases hj with
  | refl => rfl
  | ofList hlist _ _ =>
      rw [member_eq_none h.keys (by simp)] at hlist
      cases hlist
  | ofChild hchild _ =>
      rw [member_eq_none h.keys (by simp)] at hchild
      cases hchild

theorem subpredicate_list (hkeys : KeysWithin members ["op", "predicates"])
    (hlist : member members "predicates" = some (.arr items)) {j : Json}
    (hj : Subpredicate (.obj members) j) :
    j = .obj members ∨ ∃ item ∈ items, Subpredicate item j := by
  cases hj with
  | refl => exact Or.inl rfl
  | ofList hlist' hchild h =>
      rw [hlist] at hlist'
      cases hlist'
      exact Or.inr ⟨_, hchild, h⟩
  | ofChild hchild _ =>
      rw [member_eq_none hkeys (by simp)] at hchild
      cases hchild

theorem exists_pred_of_mem {ps : List Pred} (hps : List.Forall₂ (Denotes cx) ps items)
    {item : Json} (hitem : item ∈ items) : ∃ p ∈ ps, Denotes cx p item := by
  induction hps with
  | nil => cases hitem
  | cons hfirst _ ih =>
      rcases List.mem_cons.mp hitem with rfl | hitem
      · exact ⟨_, List.mem_cons_self .., hfirst⟩
      · rcases ih hitem with ⟨p, hp, hdenotes⟩
        exact ⟨p, List.mem_cons_of_mem _ hp, hdenotes⟩

/-- A property of some node of a list is one of the list's node or of a node of an item. -/
theorem exists_subpredicate_list (hkeys : KeysWithin members ["op", "predicates"])
    (hlist : member members "predicates" = some (.arr items))
    {P : List (String × Json) → Prop} (hself : ¬ P members) :
    (∃ ms, Subpredicate (.obj members) (.obj ms) ∧ P ms) ↔
      ∃ item ∈ items, ∃ ms, Subpredicate item (.obj ms) ∧ P ms := by
  constructor
  · rintro ⟨ms, hsub, hms⟩
    rcases subpredicate_list hkeys hlist hsub with hms' | ⟨item, hitem, hsub⟩
    · cases hms'
      exact absurd hms hself
    · exact ⟨item, hitem, ms, hsub, hms⟩
  · rintro ⟨item, hitem, ms, hsub, hms⟩
    exact ⟨ms, .ofList hlist hitem hsub, hms⟩

/-- The loader finds a `not` exactly if there is one. -/
theorem predicateContainsNot_iff {p : Pred} {node : Json} (h : Denotes cx p node) :
    predicateContainsNot node = true ↔ ContainsNot node := by
  induction p using Pred.induction generalizing node with
  | leaf l =>
      have hleaf := h
      rcases h with ⟨members, rfl, _, _⟩
      rcases leafMembers_of_leafOf hleaf with ⟨op, attr, hmembers⟩
      have hop : opOf members ≠ some "not" := by
        rw [opOf_of_member hmembers.op]
        exact fun heq => hmembers.name.ne_not (Option.some.inj heq)
      rw [predicateContainsNot_leaf hop (member_eq_none hmembers.keys (by simp))
        (member_eq_none hmembers.keys (by simp))]
      refine ⟨fun hfalse => (Bool.false_ne_true hfalse).elim, ?_⟩
      rintro ⟨ms, hsub, hnot⟩
      cases hmembers.subpredicate hsub
      exact absurd (opOf_of_member hnot) hop
  | not p ih =>
      rcases h with ⟨inner, ⟨members, rfl, hop, _⟩, _⟩
      rw [predicateContainsNot_not (opOf_not hop)]
      refine ⟨fun _ => ⟨members, .refl _, ?_⟩, fun _ => rfl⟩
      rcases hop with ⟨name, hname, hlookup⟩
      have hnot := opOf_not ⟨name, hname, hlookup⟩
      rw [opOf_of_member hname, Option.some.injEq] at hnot
      rw [hname, hnot]
  | connective c ps ih =>
      rcases (denotes_connective cx).mp h with
        ⟨items, ⟨members, rfl, hop, hkeys, hlist, _, _⟩, hps⟩
      have hopOf := opOf_connective hop
      have hnot : opOf members ≠ some "not" := by
        rw [hopOf]
        cases c <;> simp [connectiveName]
      have hself : ¬ member members "op" = some (.str "not") :=
        fun hnot' => hnot (opOf_of_member hnot')
      rw [predicateContainsNot_list hnot hlist, List.any_eq_true, ContainsNot,
        exists_subpredicate_list hkeys hlist hself]
      refine exists_congr fun item => and_congr_right fun hitem => ?_
      rcases exists_pred_of_mem hps hitem with ⟨p, hp, hdenotes⟩
      exact ih p hp hdenotes

/-! ## Committing what was loaded -/

section Conditions

variable {id attrName opName : String} {leafOp : LeafOp} (hattr : attrName ≠ "")
  (hname : LeafName opName leafOp)

include hattr hname

theorem commitNode_nullCheck (hnull : isNullCheck leafOp = true) (value : Option Json) :
    commitNode (.leaf id (some attrName) (some opName) value) =
      .ok (.obj [("op", .str opName), ("attribute", .str attrName)]) := by
  have hrequires := hname.requires
  rw [hnull] at hrequires
  simp [commitNode, hattr, hname.ne_empty, hname.ne_and, hname.ne_or, hname.ne_not, hrequires,
    pure, Except.pure]

theorem commitNode_emptyValue (hnull : isNullCheck leafOp = false) :
    commitNode (.leaf id (some attrName) (some opName) (some (.str ""))) =
      .error "Every condition needs a value." := by
  have hrequires := hname.requires
  rw [hnull] at hrequires
  simp [commitNode, hattr, hname.ne_empty, hname.ne_and, hname.ne_or, hname.ne_not, hrequires,
    throw, throwThe, MonadExceptOf.throw]

theorem commitNode_value (hnull : isNullCheck leafOp = false) {value : Json}
    (hvalue : value ≠ .str "") :
    commitNode (.leaf id (some attrName) (some opName) (some value)) =
      .ok (.obj [("op", .str opName), ("attribute", .str attrName), ("value", value)]) := by
  have hrequires := hname.requires
  rw [hnull] at hrequires
  simp only [commitNode, hattr, hname.ne_empty, hname.ne_and, hname.ne_or, hname.ne_not,
    hrequires, or_self, if_false, Bool.not_false, Bool.not_true, Bool.false_eq_true]
  rfl

end Conditions

/-- The loaded rows are refused for an empty value, or commit to the predicate. -/
def CommitsBack (predicate : Json) : Prop :=
  ∀ counter,
    (HasEmptyValue predicate ∧
      ∃ message, commitNode (predicateToEditorNode predicate counter).1 = .error message) ∨
    (¬ HasEmptyValue predicate ∧
      ∃ committed, commitNode (predicateToEditorNode predicate counter).1 = .ok committed ∧
        Same predicate committed)

theorem rel_same_of_eq {x y : Option Json} (h : x = y) : Option.Rel Same x y := by
  subst h
  cases x with
  | none => exact .none
  | some j => exact .some (.refl j)

theorem LeafMembers.hasEmptyValue_iff {opName attrName : String} {leafOp : LeafOp}
    (h : LeafMembers members opName attrName leafOp) :
    HasEmptyValue (.obj members) ↔ member members "value" = some (.str "") := by
  constructor
  · rintro ⟨ms, hsub, hvalue⟩
    cases h.subpredicate hsub
    exact hvalue
  · exact fun hvalue => ⟨members, .refl _, hvalue⟩

/-- The row of an accepted condition. -/
theorem LeafMembers.predicateToEditorNode {opName attrName : String} {leafOp : LeafOp}
    (h : LeafMembers members opName attrName leafOp) (counter : ℕ) :
    (predicateToEditorNode (.obj members) counter).1 =
      .leaf (editorId (counter + 1)) (some attrName) (some opName) (member members "value") := by
  have hop := opOf_of_member h.op
  have hconnective : (opOf members).bind connectiveOf = none := by
    rw [hop]
    exact connectiveOf_of_leafName h.name
  rw [predicateToEditorNode_leaf hconnective, hop, h.attr]
  rfl

/-- A complete condition has the members that the compiler asks for. -/
theorem LeafMembers.same {opName attrName : String} {leafOp : LeafOp}
    (h : LeafMembers members opName attrName leafOp) {rest : List (String × Json)}
    (hrest : ∀ key, key ≠ "op" → key ≠ "attribute" → member members key = member rest key) :
    Same (.obj members) (.obj (("op", .str opName) :: ("attribute", .str attrName) :: rest)) := by
  refine .obj fun key => rel_same_of_eq ?_
  by_cases hop : key = "op"
  · rw [hop, h.op]
    rfl
  · by_cases hattr : key = "attribute"
    · rw [hattr, h.attr]
      rfl
    · rw [hrest key hop hattr, member, member, List.lookup_cons, List.lookup_cons,
        beq_eq_false_iff_ne.mpr hop, beq_eq_false_iff_ne.mpr hattr]

theorem LeafMembers.member_eq {opName attrName : String} {leafOp : LeafOp}
    (h : LeafMembers members opName attrName leafOp) {key : String} (hop : key ≠ "op")
    (hattr : key ≠ "attribute") (hvalue : key ≠ "value") : member members key = none :=
  member_eq_none h.keys (by simp [hop, hattr, hvalue])

theorem LeafMembers.commitsBack {opName attrName : String} {leafOp : LeafOp}
    (h : LeafMembers members opName attrName leafOp) : CommitsBack (.obj members) := by
  intro counter
  have hvalue := h.value
  rw [h.hasEmptyValue_iff, h.predicateToEditorNode]
  cases hnull : isNullCheck leafOp with
  | true =>
      rw [hnull, if_pos rfl] at hvalue
      refine Or.inr ⟨by simp [hvalue], _, commitNode_nullCheck h.attr_ne h.name hnull _,
        h.same fun key hop hattr => ?_⟩
      by_cases hkey : key = "value"
      · rw [hkey, hvalue]
        rfl
      · exact h.member_eq hop hattr hkey
  | false =>
      rw [hnull, if_neg Bool.false_ne_true, Option.isSome_iff_exists] at hvalue
      rcases hvalue with ⟨value, hvalue⟩
      rw [hvalue]
      by_cases hempty : value = .str ""
      · subst hempty
        exact Or.inl ⟨rfl, _, commitNode_emptyValue h.attr_ne h.name hnull⟩
      · refine Or.inr ⟨fun heq => hempty (Option.some.inj heq), _,
          commitNode_value h.attr_ne h.name hnull hempty, h.same fun key hop hattr => ?_⟩
        by_cases hkey : key = "value"
        · rw [hkey, hvalue]
          rfl
        · rw [h.member_eq hop hattr hkey, member, List.lookup_cons,
            beq_eq_false_iff_ne.mpr hkey]
          rfl

theorem commitAll_loadAll (h : ∀ item ∈ items, CommitsBack item) (counter : ℕ) :
    ((∃ item ∈ items, HasEmptyValue item) ∧
      ∃ message, commitAll (loadAll predicateToEditorNode items counter).1 = .error message) ∨
    ((∀ item ∈ items, ¬ HasEmptyValue item) ∧
      ∃ committed, commitAll (loadAll predicateToEditorNode items counter).1 = .ok committed ∧
        List.Forall₂ Same items committed) := by
  induction items generalizing counter with
  | nil => exact Or.inr ⟨by simp, [], rfl, .nil⟩
  | cons item items ih =>
      rw [loadAll]
      dsimp only
      rw [commitAll]
      rcases h item (List.mem_cons_self ..) counter with
        ⟨hempty, message, hcommit⟩ | ⟨hvalue, committed, hcommit, hsame⟩
      · rw [hcommit]
        exact Or.inl ⟨⟨item, List.mem_cons_self .., hempty⟩, message, rfl⟩
      · rw [hcommit]
        rcases ih (fun other hother => h other (List.mem_cons_of_mem _ hother))
            (predicateToEditorNode item counter).2 with
          ⟨⟨other, hother, hempty⟩, message, hrest⟩ | ⟨hvalues, rest, hrest, hsames⟩
        · refine Or.inl ⟨⟨other, List.mem_cons_of_mem _ hother, hempty⟩, message, ?_⟩
          simp only [hrest]
          rfl
        · refine Or.inr ⟨List.forall_mem_cons.mpr ⟨hvalue, hvalues⟩, committed :: rest, ?_,
            .cons hsame hsames⟩
          simp only [hrest]
          rfl

theorem length_loadAll {α : Type} (load : α → ℕ → EditorNode × ℕ) (xs : List α) (counter : ℕ) :
    (loadAll load xs counter).1.length = xs.length := by
  induction xs generalizing counter with
  | nil => rfl
  | cons x xs ih =>
      rw [loadAll]
      exact congrArg Nat.succ (ih _)

theorem commitsBack_list {c : Connective} (hnode : ListOf cx c items (.obj members))
    (h : ∀ item ∈ items, CommitsBack item) : CommitsBack (.obj members) := by
  rcases hnode with ⟨_, ⟨⟩, hop, hkeys, hlist, hne, _⟩
  intro counter
  have hself : ¬ member members "value" = some (.str "") := by
    rw [member_eq_none hkeys (by simp)]
    simp
  have hlength : (loadAll predicateToEditorNode items counter).1.length ≠ 0 := by
    rw [length_loadAll]
    exact fun hzero => hne (List.length_eq_zero_iff.mp hzero)
  rw [HasEmptyValue, exists_subpredicate_list hkeys hlist hself,
    predicateToEditorNode_list (opOf_connective hop) hlist, commitNode, if_neg hlength]
  rcases commitAll_loadAll h counter with
    ⟨hempty, message, hcommit⟩ | ⟨hvalues, committed, hcommit, hsames⟩
  · exact Or.inl ⟨hempty, message, by rw [hcommit]; rfl⟩
  · refine Or.inr ⟨?_, _, by rw [hcommit]; rfl, .obj fun key => ?_⟩
    · rintro ⟨item, hitem, hempty⟩
      exact hvalues item hitem hempty
    · by_cases hopKey : key = "op"
      · have hname : member members "op" = some (.str (connectiveName c)) := by
          rcases hop with ⟨name, hname, hlookup⟩
          have hconnective := opOf_connective ⟨name, hname, hlookup⟩
          rw [opOf_of_member hname, Option.some.injEq] at hconnective
          rw [hname, hconnective]
        rw [hopKey, hname]
        exact .some (.refl _)
      · by_cases hlistKey : key = "predicates"
        · rw [hlistKey, hlist]
          exact .some (.arr hsames)
        · rw [member_eq_none hkeys (by simp [hopKey, hlistKey]), member, List.lookup_cons,
            beq_eq_false_iff_ne.mpr hopKey, List.lookup_cons, beq_eq_false_iff_ne.mpr hlistKey]
          exact .none

theorem Denotes.commitsBack {p : Pred} {node : Json} (h : Denotes cx p node)
    (hnot : predicateContainsNot node = false) : CommitsBack node := by
  induction p using Pred.induction generalizing node with
  | leaf l =>
      have hleaf := h
      rcases h with ⟨members, rfl, _, _⟩
      rcases leafMembers_of_leafOf hleaf with ⟨op, attr, hmembers⟩
      exact hmembers.commitsBack
  | not p ih =>
      rcases h with ⟨inner, ⟨members, rfl, hop, _⟩, _⟩
      rw [predicateContainsNot_not (opOf_not hop)] at hnot
      cases hnot
  | connective c ps ih =>
      rcases (denotes_connective cx).mp h with ⟨items, hlist, hps⟩
      have hlistOf := hlist
      rcases hlist with ⟨members, rfl, hop, hkeys, hmember, _, _⟩
      have hop' : opOf members ≠ some "not" := by
        rw [opOf_connective hop]
        cases c <;> simp [connectiveName]
      rw [predicateContainsNot_list hop' hmember, List.any_eq_false] at hnot
      refine commitsBack_list hlistOf fun item hitem => ?_
      rcases exists_pred_of_mem hps hitem with ⟨p, hp, hdenotes⟩
      exact ih p hp hdenotes (by simpa using hnot item hitem)

/-! ## The round trip -/

theorem not_containsNot_null : ¬ ContainsNot .null := by
  rintro ⟨_, hsub, _⟩
  cases hsub

theorem loadEditorFromPredicate_of_denotes {p : Pred} {node : Json} (h : Denotes cx p node)
    (counter : ℕ) :
    loadEditorFromPredicate node counter =
      if predicateContainsNot node then none
      else some (some (predicateToEditorNode node counter).1,
        (predicateToEditorNode node counter).2) := by
  rcases denotes_obj h with ⟨members, rfl⟩
  rfl

/-- A filter that the compiler takes is refused exactly if it has a `not`; otherwise its rows
commit unless a value is the empty text, and then to the same predicate. -/
theorem editor_roundTrip {q : Bool} {predicate : Json} {compiled : Fragment × List Records.Value}
    (h : compilePredicateRoot cx q predicate = .ok compiled) (counter : ℕ) :
    (loadEditorFromPredicate predicate counter = none ↔ ContainsNot predicate) ∧
      ∀ root counter', loadEditorFromPredicate predicate counter = some (root, counter') →
        ((∃ committed, commitEditorRoot root = .ok committed) ↔ ¬ HasEmptyValue predicate) ∧
          ∀ committed, commitEditorRoot root = .ok committed → Same predicate committed := by
  rcases compilePredicateRoot_eq_ok.mp h with ⟨rfl, _⟩ | ⟨p, hp, _⟩
  · have hvalue : ¬ HasEmptyValue .null := by
      rintro ⟨_, hsub, _⟩
      cases hsub
    refine ⟨⟨fun hnone => ?_, fun hnot => (not_containsNot_null hnot).elim⟩, ?_⟩
    · cases hnone
    · rintro root counter' ⟨⟩
      refine ⟨⟨fun _ => hvalue, fun _ => ⟨.null, rfl⟩⟩, ?_⟩
      rintro committed ⟨⟩
      exact .refl _
  · rw [loadEditorFromPredicate_of_denotes hp, ← predicateContainsNot_iff hp]
    by_cases hnot : predicateContainsNot predicate = true
    · rw [if_pos hnot]
      exact ⟨⟨fun _ => hnot, fun _ => rfl⟩, fun root counter' hsome => by cases hsome⟩
    · rw [if_neg hnot]
      refine ⟨⟨fun hnone => ?_, fun h => absurd h hnot⟩, ?_⟩
      · cases hnone
      · rintro root counter' ⟨⟩
        rw [commitEditorRoot]
        rcases Denotes.commitsBack hp (by simpa using hnot) counter with
          ⟨hempty, message, hcommit⟩ | ⟨hvalue, committed, hcommit, hsame⟩
        · rw [hcommit]
          refine ⟨⟨?_, fun hno => absurd hempty hno⟩, ?_⟩
          · rintro ⟨_, ⟨⟩⟩
          · rintro _ ⟨⟩
        · rw [hcommit]
          refine ⟨⟨fun _ => hvalue, fun _ => ⟨committed, rfl⟩⟩, ?_⟩
          rintro _ ⟨⟩
          exact hsame

end Accepted

/-- Titles before `m`, or after `x` and there. -/
def nestedTitles : Json :=
  .obj [("op", .str "or"), ("predicates", .arr [
    .obj [("op", .str "lt"), ("attribute", .str "title"), ("value", .str "m")],
    .obj [("op", .str "and"), ("predicates", .arr [
      .obj [("op", .str "gt"), ("attribute", .str "title"), ("value", .str "x")],
      .obj [("op", .str "not_empty"), ("attribute", .str "title")]])]])]

theorem nestedTitles_compiled :
    ∃ compiled, compilePredicateRoot titleContext true nestedTitles = .ok compiled := by
  have hok : (compilePredicateRoot titleContext true nestedTitles).toBool = true := by
    decide +kernel
  cases hcompiled : compilePredicateRoot titleContext true nestedTitles with
  | ok compiled => exact ⟨compiled, rfl⟩
  | error failure =>
      rw [hcompiled] at hok
      cases hok

/-- Rows for one filter, and none for the other, which negates a condition. -/
theorem titles_roundTrip :
    loadEditorFromPredicate titlePredicate 1 = none ∧
      ∃ root counter committed,
        loadEditorFromPredicate nestedTitles 1 = some (root, counter) ∧
          commitEditorRoot root = .ok committed ∧ Same nestedTitles committed := by
  refine ⟨(editor_roundTrip titlePredicate_compiled 1).1.mpr ⟨_,
    .ofList rfl (List.mem_cons_of_mem _ (List.mem_cons_self ..)) (.refl _), rfl⟩, ?_⟩
  rcases nestedTitles_compiled with ⟨compiled, hcompiled⟩
  have hrows : ((loadEditorFromPredicate nestedTitles 1).any fun rows =>
      (commitEditorRoot rows.1).toBool) = true := by
    decide +kernel
  cases hload : loadEditorFromPredicate nestedTitles 1 with
  | none =>
      rw [hload] at hrows
      cases hrows
  | some rows =>
      rcases rows with ⟨root, counter⟩
      rw [hload, Option.any_some] at hrows
      cases hcommit : commitEditorRoot root with
      | ok committed =>
          exact ⟨root, counter, committed, rfl, hcommit,
            ((editor_roundTrip hcompiled 1).2 root counter hload).2 committed hcommit⟩
      | error message =>
          rw [hcommit] at hrows
          cases hrows

/-- Titles that are the empty text. -/
def blankTitle : Json :=
  .obj [("op", .str "eq"), ("attribute", .str "title"), ("value", .str "")]

theorem blankTitle_not_committed :
    (∃ compiled, compilePredicateRoot titleContext true blankTitle = .ok compiled) ∧
      ¬ ContainsNot blankTitle ∧
      ∃ root counter, loadEditorFromPredicate blankTitle 1 = some (root, counter) ∧
        commitEditorRoot root = .error "Every condition needs a value." := by
  have haccepted : ∃ compiled, compilePredicateRoot titleContext true blankTitle = .ok compiled :=
    ⟨([.ident "src", .dot, .ident "title", .compare .eq, .placeholder], [.text ""]),
      by decide +kernel⟩
  have hcontains : predicateContainsNot blankTitle = false :=
    predicateContainsNot_leaf (by decide) rfl rfl
  have hload : loadEditorFromPredicate blankTitle 1 =
      some (some (.leaf (editorId 2) (some "title") (some "eq") (some (.str ""))), 2) := by
    have hnode := predicateToEditorNode_leaf
      (show (opOf [("op", .str "eq"), ("attribute", .str "title"), ("value", .str "")]).bind
        connectiveOf = none by decide) 1
    change (if predicateContainsNot blankTitle then none
      else some (some (predicateToEditorNode blankTitle 1).1,
        (predicateToEditorNode blankTitle 1).2)) = _
    rw [hcontains, if_neg Bool.false_ne_true, blankTitle, hnode]
    rfl
  refine ⟨haccepted, ?_, _, _, hload, rfl⟩
  rcases haccepted with ⟨compiled, hcompiled⟩
  rcases compilePredicateRoot_eq_ok.mp hcompiled with ⟨hnull, _⟩ | ⟨p, hp, _⟩
  · cases hnull
  · rw [← predicateContainsNot_iff hp, hcontains]
    exact Bool.false_ne_true

end Untangled.FilterEditor
