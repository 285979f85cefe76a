import Untangled.SearchPredicates

/-!
# The filter editor

The editor keeps a filter as a tree of rows: a leaf is a condition, perhaps not
complete yet, and a group joins its children with `and` or `or`.  Rows are
addressed by ids that a counter hands out.  A row is found at a place in the
tree, and the functions that look for an id change nothing but that place.
-/

namespace Untangled.FilterEditor

open Search (Connective)

/-! ## Rows -/

/-- `value` is none where JavaScript has `undefined`. -/
inductive EditorNode
  | leaf (id : String) (attr op : Option String) (value : Option Json)
  | group (id : String) (op : Connective) (children : List EditorNode)

namespace EditorNode

def id : EditorNode → String
  | .leaf id .. => id
  | .group id .. => id

/-- Induction over trees: a group may assume its children. -/
@[elab_as_elim]
theorem induction {motive : EditorNode → Prop}
    (leaf : ∀ id attr op value, motive (.leaf id attr op value))
    (group : ∀ id op children, (∀ child ∈ children, motive child) → motive (.group id op children))
    (node : EditorNode) : motive node :=
  @EditorNode.rec motive (fun nodes => ∀ node ∈ nodes, motive node) leaf group
    (fun _ hmem => absurd hmem List.not_mem_nil)
    (fun node nodes hnode hnodes other hother => by
      rcases List.mem_cons.mp hother with rfl | hother
      · exact hnode
      · exact hnodes other hother) node

mutual

def ids : EditorNode → List String
  | .leaf id .. => [id]
  | .group id _ children => id :: idsAll children

def idsAll : List EditorNode → List String
  | [] => []
  | child :: children => child.ids ++ idsAll children

end

theorem id_mem_ids (node : EditorNode) : node.id ∈ node.ids := by
  cases node <;> simp [id, ids]

@[simp] theorem idsAll_append (xs ys : List EditorNode) :
    idsAll (xs ++ ys) = idsAll xs ++ idsAll ys := by
  induction xs with
  | nil => rfl
  | cons x xs ih => rw [List.cons_append, idsAll, idsAll, ih, List.append_assoc]

theorem ids_subset_idsAll {node : EditorNode} {nodes : List EditorNode} (h : node ∈ nodes) :
    node.ids ⊆ idsAll nodes := by
  rcases List.append_of_mem h with ⟨before, after, rfl⟩
  rw [idsAll_append, idsAll]
  intro id hid
  exact List.mem_append_right _ (List.mem_append_left _ hid)

end EditorNode

/-- `new_editor_id()`, where the counter is at `n` after it. -/
def editorId (n : ℕ) : String := "fe-" ++ numberText n

def newEditorId (counter : ℕ) : String × ℕ := (editorId (counter + 1), counter + 1)

def emptyLeaf (counter : ℕ) : EditorNode × ℕ :=
  let (id, counter) := newEditorId counter
  (.leaf id none none none, counter)

/-! ## Operators of a row -/

def connectiveName : Connective → String
  | .and => "and"
  | .or => "or"

def connectiveOf (op : String) : Option Connective :=
  if op = "and" then some .and else if op = "or" then some .or else none

def operatorDisplayNames : List (String × String) :=
  [("and", "And"), ("or", "Or"), ("eq", "Equals"), ("ne", "Not equals"), ("gt", "Greater than"),
    ("gte", "Greater than or equal"), ("lt", "Less than"), ("lte", "Less than or equal"),
    ("contains", "Contains"), ("starts_with", "Starts with"), ("ends_with", "Ends with"),
    ("regexp", "Matches regexp"), ("empty", "Is empty"), ("not_empty", "Is not empty")]

def operatorDisplayName (op : String) : String := (operatorDisplayNames.lookup op).getD op

def textFamily : List String :=
  ["string", "compact_text", "choice", "status", "text", "multiline_text"]

def orderedTypes : List String :=
  textFamily ++ ["integer", "float", "decimal", "datetime", "friendly_id"]

def textPatternTypes : List String := textFamily ++ ["friendly_id"]

def noValueOps : List String := ["empty", "not_empty"]

def opRequiresValue (op : Option String) : Bool :=
  match op with
  | none => true
  | some op => if op = "" then true else !noValueOps.contains op

section Eligible

-- `left.localeCompare(right, undefined, { sensitivity: "base" })`
variable (localeCompare : String → String → Ordering)

def sortedByDisplayName (ops : List String) : List String :=
  ops.mergeSort fun a b =>
    localeCompare (operatorDisplayName a) (operatorDisplayName b) != .gt

theorem mem_sortedByDisplayName {ops : List String} {op : String} :
    op ∈ sortedByDisplayName localeCompare ops ↔ op ∈ ops :=
  List.mem_mergeSort

def leafOpsForType (typeName : String) : List String :=
  let ops := ["eq", "ne", "empty", "not_empty"]
  let ops := if orderedTypes.contains typeName then ops ++ ["gt", "gte", "lt", "lte"] else ops
  let ops :=
    if textPatternTypes.contains typeName then
      ops ++ ["contains", "starts_with", "ends_with", "regexp"]
    else ops
  sortedByDisplayName localeCompare ops

def eligibleOpsForEmptyOrLeaf (parentOp : Option Connective) (attributeType : Option String) :
    List String :=
  let ops :=
    match attributeType with
    | some typeName => leafOpsForType localeCompare typeName
    | none =>
        ["eq", "ne", "empty", "not_empty", "gt", "gte", "lt", "lte", "contains", "starts_with",
          "ends_with", "regexp"]
  let ops := if parentOp ≠ some .and then ops ++ ["and"] else ops
  let ops := if parentOp ≠ some .or then ops ++ ["or"] else ops
  sortedByDisplayName localeCompare ops

def EditorNode.isGroupOf (op : Connective) : EditorNode → Bool
  | .leaf .. => false
  | .group _ op' _ => op' == op

def wouldCreateSameOpNesting (parentOp : Connective) (children : List EditorNode) : Bool :=
  children.any (EditorNode.isGroupOf parentOp)

def eligibleOpsForRow (node : EditorNode) (parentOp : Option Connective)
    (attributeType : Option String) : List String :=
  match node with
  | .leaf .. => eligibleOpsForEmptyOrLeaf localeCompare parentOp attributeType
  | .group _ op children =>
      if children.length > 0 then
        let allowed := [Connective.and, .or].filter fun candidate =>
          !wouldCreateSameOpNesting candidate children
        -- The current operator stays selectable.
        let allowed := if allowed.contains op then allowed else allowed ++ [op]
        sortedByDisplayName localeCompare (allowed.map connectiveName)
      else eligibleOpsForEmptyOrLeaf localeCompare parentOp attributeType

end Eligible

/-! ## Changing rows -/

def wrapLeafAsGroup (attr leafOp : Option String) (value : Option Json) (op : Connective)
    (counter : ℕ) : EditorNode × ℕ :=
  let (groupId, counter) := newEditorId counter
  let (leafId, counter) := newEditorId counter
  (.group groupId op [.leaf leafId attr leafOp value], counter)

def applyOperatorChange (node : EditorNode) (nextOp : String) (counter : ℕ) : EditorNode × ℕ :=
  match connectiveOf nextOp, node with
  | some op, .leaf _ attr leafOp value => wrapLeafAsGroup attr leafOp value op counter
  | some op, .group id _ children => (.group id op children, counter)
  | none, .group id op children =>
      if children.length > 0 then (.group id op children, counter)
      else (.leaf id none (some nextOp) none, counter)
  | none, .leaf id attr op value =>
      let cleared :=
        if opRequiresValue (some nextOp) && !opRequiresValue op then none
        else if !opRequiresValue (some nextOp) then none
        else value
      (.leaf id attr (some nextOp) cleared, counter)

mutual

/-- Removing the root leaves null. -/
def removeEditorNode (target : String) : EditorNode → Option EditorNode
  | .leaf id attr op value =>
      if id = target then none else some (.leaf id attr op value)
  | .group id op children =>
      if id = target then none else some (.group id op (removeFromAll target children))

def removeFromAll (target : String) : List EditorNode → List EditorNode
  | [] => []
  | child :: children => (removeEditorNode target child).toList ++ removeFromAll target children

end

mutual

def appendGroupChild (groupId : String) : EditorNode → ℕ → EditorNode × ℕ
  | .leaf id attr op value, counter => (.leaf id attr op value, counter)
  | .group id op children, counter =>
      if id = groupId then
        let (leaf, counter) := emptyLeaf counter
        (.group id op (children ++ [leaf]), counter)
      else
        let (children, counter) := appendInAll groupId children counter
        (.group id op children, counter)

def appendInAll (groupId : String) : List EditorNode → ℕ → List EditorNode × ℕ
  | [], counter => ([], counter)
  | child :: children, counter =>
      let (child, counter) := appendGroupChild groupId child counter
      let (children, counter) := appendInAll groupId children counter
      (child :: children, counter)

end

mutual

def updateEditorNode (target : String) (updater : EditorNode → EditorNode) :
    EditorNode → EditorNode
  | .leaf id attr op value =>
      if id = target then updater (.leaf id attr op value) else .leaf id attr op value
  | .group id op children =>
      if id = target then updater (.group id op children)
      else .group id op (updateInAll target updater children)

def updateInAll (target : String) (updater : EditorNode → EditorNode) :
    List EditorNode → List EditorNode
  | [] => []
  | child :: children =>
      updateEditorNode target updater child :: updateInAll target updater children

end

mutual

def findEditorNode (target : String) : EditorNode → Option EditorNode
  | .leaf id attr op value =>
      if id = target then some (.leaf id attr op value) else none
  | .group id op children =>
      if id = target then some (.group id op children) else findInAll target children

def findInAll (target : String) : List EditorNode → Option EditorNode
  | [] => none
  | child :: children =>
      match findEditorNode target child with
      | some found => some found
      | none => findInAll target children

end

mutual

def parentOpOfWalk (target : String) : EditorNode → Option Connective → Option Connective
  | .leaf id .., parentOp => if id = target then parentOp else none
  | .group id op children, parentOp =>
      if id = target then parentOp else parentOpOfWalkAll target op children

/-- The loop over the children of a group with the operator `op`. -/
def parentOpOfWalkAll (target : String) (op : Connective) :
    List EditorNode → Option Connective
  | [] => none
  | child :: children =>
      let found := parentOpOfWalk target child (some op)
      if found.isSome ∨ child.id = target then
        if child.id = target then some op else found
      else parentOpOfWalkAll target op children

end

def parentOpOf (root : EditorNode) (target : String) : Option Connective :=
  parentOpOfWalk target root none

/-! ## Looking for an id that is not there -/

section Absent

variable {target : String}

theorem not_mem_children {id : String} {op : Connective} {children : List EditorNode}
    (h : target ∉ (EditorNode.group id op children).ids) :
    id ≠ target ∧ target ∉ EditorNode.idsAll children := by
  rw [EditorNode.ids, List.mem_cons, not_or] at h
  exact ⟨fun heq => h.1 heq.symm, h.2⟩

theorem not_mem_of_mem {child : EditorNode} {children : List EditorNode}
    (h : target ∉ EditorNode.idsAll children) (hchild : child ∈ children) : target ∉ child.ids :=
  fun hmem => h (EditorNode.ids_subset_idsAll hchild hmem)

theorem removeFromAll_of_forall {children : List EditorNode}
    (h : ∀ child ∈ children, removeEditorNode target child = some child) :
    removeFromAll target children = children := by
  induction children with
  | nil => rfl
  | cons child children ih =>
      rw [removeFromAll, h child (List.mem_cons_self ..),
        ih fun other hother => h other (List.mem_cons_of_mem _ hother)]
      rfl

theorem removeEditorNode_of_not_mem {node : EditorNode} (h : target ∉ node.ids) :
    removeEditorNode target node = some node := by
  induction node using EditorNode.induction with
  | leaf id attr op value =>
      rw [EditorNode.ids, List.mem_singleton] at h
      rw [removeEditorNode, if_neg fun heq => h heq.symm]
  | group id op children ih =>
      rcases not_mem_children h with ⟨hid, hchildren⟩
      rw [removeEditorNode, if_neg hid, removeFromAll_of_forall fun child hchild =>
        ih child hchild (not_mem_of_mem hchildren hchild)]

theorem removeFromAll_of_not_mem {children : List EditorNode}
    (h : target ∉ EditorNode.idsAll children) : removeFromAll target children = children :=
  removeFromAll_of_forall fun _ hchild => removeEditorNode_of_not_mem (not_mem_of_mem h hchild)

theorem appendInAll_of_forall {children : List EditorNode}
    (h : ∀ child ∈ children, ∀ counter,
      appendGroupChild target child counter = (child, counter)) (counter : ℕ) :
    appendInAll target children counter = (children, counter) := by
  induction children with
  | nil => rfl
  | cons child children ih =>
      rw [appendInAll, h child (List.mem_cons_self ..)]
      dsimp only
      rw [ih fun other hother => h other (List.mem_cons_of_mem _ hother)]

theorem appendGroupChild_of_not_mem {node : EditorNode} (h : target ∉ node.ids) (counter : ℕ) :
    appendGroupChild target node counter = (node, counter) := by
  induction node using EditorNode.induction generalizing counter with
  | leaf id attr op value => rfl
  | group id op children ih =>
      rcases not_mem_children h with ⟨hid, hchildren⟩
      rw [appendGroupChild, if_neg hid, appendInAll_of_forall fun child hchild counter =>
        ih child hchild (not_mem_of_mem hchildren hchild) counter]

theorem appendInAll_of_not_mem {children : List EditorNode}
    (h : target ∉ EditorNode.idsAll children) (counter : ℕ) :
    appendInAll target children counter = (children, counter) :=
  appendInAll_of_forall
    (fun _ hchild counter => appendGroupChild_of_not_mem (not_mem_of_mem h hchild) counter) counter

variable {updater : EditorNode → EditorNode}

theorem updateInAll_of_forall {children : List EditorNode}
    (h : ∀ child ∈ children, updateEditorNode target updater child = child) :
    updateInAll target updater children = children := by
  induction children with
  | nil => rfl
  | cons child children ih =>
      rw [updateInAll, h child (List.mem_cons_self ..),
        ih fun other hother => h other (List.mem_cons_of_mem _ hother)]

theorem updateEditorNode_of_not_mem {node : EditorNode} (h : target ∉ node.ids) :
    updateEditorNode target updater node = node := by
  induction node using EditorNode.induction with
  | leaf id attr op value =>
      rw [EditorNode.ids, List.mem_singleton] at h
      rw [updateEditorNode, if_neg fun heq => h heq.symm]
  | group id op children ih =>
      rcases not_mem_children h with ⟨hid, hchildren⟩
      rw [updateEditorNode, if_neg hid, updateInAll_of_forall fun child hchild =>
        ih child hchild (not_mem_of_mem hchildren hchild)]

theorem updateInAll_of_not_mem {children : List EditorNode}
    (h : target ∉ EditorNode.idsAll children) :
    updateInAll target updater children = children :=
  updateInAll_of_forall fun _ hchild => updateEditorNode_of_not_mem (not_mem_of_mem h hchild)

theorem findInAll_of_forall {children : List EditorNode}
    (h : ∀ child ∈ children, findEditorNode target child = none) :
    findInAll target children = none := by
  induction children with
  | nil => rfl
  | cons child children ih =>
      rw [findInAll, h child (List.mem_cons_self ..),
        ih fun other hother => h other (List.mem_cons_of_mem _ hother)]

theorem findEditorNode_of_not_mem {node : EditorNode} (h : target ∉ node.ids) :
    findEditorNode target node = none := by
  induction node using EditorNode.induction with
  | leaf id attr op value =>
      rw [EditorNode.ids, List.mem_singleton] at h
      rw [findEditorNode, if_neg fun heq => h heq.symm]
  | group id op children ih =>
      rcases not_mem_children h with ⟨hid, hchildren⟩
      rw [findEditorNode, if_neg hid, findInAll_of_forall fun child hchild =>
        ih child hchild (not_mem_of_mem hchildren hchild)]

theorem findInAll_of_not_mem {children : List EditorNode}
    (h : target ∉ EditorNode.idsAll children) : findInAll target children = none :=
  findInAll_of_forall fun _ hchild => findEditorNode_of_not_mem (not_mem_of_mem h hchild)

theorem id_ne_of_not_mem {node : EditorNode} (h : target ∉ node.ids) : node.id ≠ target :=
  fun heq => h (heq ▸ node.id_mem_ids)

theorem parentOpOfWalkAll_of_forall {op : Connective} {children : List EditorNode}
    (h : ∀ child ∈ children, child.id ≠ target ∧ parentOpOfWalk target child (some op) = none) :
    parentOpOfWalkAll target op children = none := by
  induction children with
  | nil => rfl
  | cons child children ih =>
      rcases h child (List.mem_cons_self ..) with ⟨hid, hwalk⟩
      rw [parentOpOfWalkAll, hwalk]
      simp only [Option.isSome_none, Bool.false_eq_true, hid, or_self, if_false]
      exact ih fun other hother => h other (List.mem_cons_of_mem _ hother)

theorem parentOpOfWalk_of_not_mem {node : EditorNode} (h : target ∉ node.ids)
    (parentOp : Option Connective) : parentOpOfWalk target node parentOp = none := by
  induction node using EditorNode.induction generalizing parentOp with
  | leaf id attr op value =>
      rw [EditorNode.ids, List.mem_singleton] at h
      rw [parentOpOfWalk, if_neg fun heq => h heq.symm]
  | group id op children ih =>
      rcases not_mem_children h with ⟨hid, hchildren⟩
      rw [parentOpOfWalk, if_neg hid, parentOpOfWalkAll_of_forall fun child hchild =>
        ⟨id_ne_of_not_mem (not_mem_of_mem hchildren hchild),
          ih child hchild (not_mem_of_mem hchildren hchild) _⟩]

theorem parentOpOfWalkAll_of_not_mem {op : Connective} {children : List EditorNode}
    (h : target ∉ EditorNode.idsAll children) : parentOpOfWalkAll target op children = none :=
  parentOpOfWalkAll_of_forall fun _ hchild =>
    ⟨id_ne_of_not_mem (not_mem_of_mem h hchild),
      parentOpOfWalk_of_not_mem (not_mem_of_mem h hchild) _⟩

end Absent

end Untangled.FilterEditor
