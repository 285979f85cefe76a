import Mathlib.Data.List.Perm.Basic
import Mathlib.Data.List.Nodup
import Untangled.FilterEditor

/-!
# Editing a filter

A row stands at a place: the groups around it, each with its other children.
The edits of the page change one place of the tree.  They keep the ids apart and
nest no group in a group of its own operator, except that a group with children
may be switched to the operator of the group around it.
-/

namespace Untangled.FilterEditor

open Search (Connective)

/-! ## Places -/

/-- A group around a place, with the children before and after it. -/
structure Frame where
  id : String
  op : Connective
  before : List EditorNode
  after : List EditorNode

/-- The groups around a place, the innermost first. -/
abbrev Place := List Frame

namespace Frame

def group (f : Frame) (nodes : List EditorNode) : EditorNode :=
  .group f.id f.op (f.before ++ nodes ++ f.after)

def ids (f : Frame) : List String :=
  f.id :: (EditorNode.idsAll f.before ++ EditorNode.idsAll f.after)

theorem ids_group (f : Frame) (nodes : List EditorNode) :
    (f.group nodes).ids.Perm (f.ids ++ EditorNode.idsAll nodes) := by
  rw [group, EditorNode.ids, EditorNode.idsAll_append, EditorNode.idsAll_append, ids,
    List.cons_append, List.append_assoc, List.append_assoc]
  exact (List.Perm.append_left _ List.perm_append_comm).cons _

end Frame

namespace Place

/-- The tree with the row at the place. -/
def plug : Place → EditorNode → EditorNode
  | [], node => node
  | f :: C, node => plug C (f.group [node])

/-- The tree without a row at the place. -/
def emptied : Place → Option EditorNode
  | [] => none
  | f :: C => some (plug C (f.group []))

def parentOp : Place → Option Connective
  | [] => none
  | f :: _ => some f.op

def ids (C : Place) : List String := C.flatMap Frame.ids

theorem ids_cons (f : Frame) (C : Place) : ids (f :: C) = f.ids ++ ids C := List.flatMap_cons ..

theorem ids_plug (C : Place) (node : EditorNode) :
    (C.plug node).ids.Perm (C.ids ++ node.ids) := by
  induction C generalizing node with
  | nil => exact List.Perm.refl _
  | cons f C ih =>
      have hgroup : (f.group [node]).ids.Perm (f.ids ++ node.ids) := by
        simpa [EditorNode.idsAll] using f.ids_group [node]
      rw [plug, ids_cons, List.append_assoc]
      refine (ih _).trans ((hgroup.append_left _).trans ?_)
      rw [← List.append_assoc, ← List.append_assoc]
      exact List.perm_append_comm.append_right _

/-- Every row of a tree stands at a place. -/
theorem exists_plug {root : EditorNode} {target : String} (h : target ∈ root.ids) :
    ∃ (C : Place) (node : EditorNode), root = C.plug node ∧ node.id = target := by
  have hinner : ∀ D : Place, ∃ (C : Place) (node : EditorNode),
      D.plug root = C.plug node ∧ node.id = target := by
    induction root using EditorNode.induction with
    | leaf id attr op value =>
        rw [EditorNode.ids, List.mem_singleton] at h
        exact fun D => ⟨D, _, rfl, h.symm⟩
    | group id op children ih =>
        intro D
        rw [EditorNode.ids, List.mem_cons] at h
        rcases h with rfl | h
        · exact ⟨D, _, rfl, rfl⟩
        · have hchild : ∃ child ∈ children, target ∈ child.ids := by
            clear ih
            induction children with
            | nil => cases h
            | cons child children ihc =>
                rw [EditorNode.idsAll, List.mem_append] at h
                rcases h with h | h
                · exact ⟨child, List.mem_cons_self .., h⟩
                · rcases ihc h with ⟨other, hother, htarget⟩
                  exact ⟨other, List.mem_cons_of_mem _ hother, htarget⟩
          rcases hchild with ⟨child, hmem, htarget⟩
          rcases List.append_of_mem hmem with ⟨before, after, rfl⟩
          rcases ih child hmem htarget (⟨id, op, before, after⟩ :: D) with ⟨C, node, hplug, hid⟩
          refine ⟨C, node, ?_, hid⟩
          rw [← hplug, plug, Frame.group, List.append_assoc, List.singleton_append]
  exact hinner []

end Place

/-! ## What the editor's functions do at a place -/

section AtPlace

variable {target : String}

theorem not_mem_frame {f : Frame} (h : target ∉ f.ids) :
    f.id ≠ target ∧ target ∉ EditorNode.idsAll f.before ∧
      target ∉ EditorNode.idsAll f.after := by
  rw [Frame.ids, List.mem_cons, List.mem_append, not_or, not_or] at h
  exact ⟨fun heq => h.1 heq.symm, h.2⟩

theorem not_mem_place {f : Frame} {C : Place} (h : target ∉ Place.ids (f :: C)) :
    target ∉ f.ids ∧ target ∉ C.ids := by
  rwa [Place.ids_cons, List.mem_append, not_or] at h

section Update

variable {updater : EditorNode → EditorNode}

theorem updateInAll_append (xs ys : List EditorNode) :
    updateInAll target updater (xs ++ ys) =
      updateInAll target updater xs ++ updateInAll target updater ys := by
  induction xs with
  | nil => rfl
  | cons x xs ih => rw [List.cons_append, updateInAll, updateInAll, ih, List.cons_append]

theorem updateEditorNode_group {f : Frame} (h : target ∉ f.ids) (node : EditorNode) :
    updateEditorNode target updater (f.group [node]) =
      f.group [updateEditorNode target updater node] := by
  rcases not_mem_frame h with ⟨hid, hbefore, hafter⟩
  rw [Frame.group, updateEditorNode, if_neg hid, updateInAll_append, updateInAll_append,
    updateInAll_of_not_mem hbefore, updateInAll_of_not_mem hafter]
  rfl

theorem updateEditorNode_plug {C : Place} (h : target ∉ C.ids) (node : EditorNode) :
    updateEditorNode target updater (C.plug node) =
      C.plug (updateEditorNode target updater node) := by
  induction C generalizing node with
  | nil => rfl
  | cons f C ih =>
      rcases not_mem_place h with ⟨hframe, hplace⟩
      rw [Place.plug, ih hplace, updateEditorNode_group hframe]
      rfl

theorem updateEditorNode_self (node : EditorNode) :
    updateEditorNode node.id updater node = updater node := by
  cases node with
  | leaf id attr op value => rw [EditorNode.id, updateEditorNode, if_pos rfl]
  | group id op children => rw [EditorNode.id, updateEditorNode, if_pos rfl]

end Update

section Find

theorem findInAll_append_of_not_mem {xs ys : List EditorNode}
    (h : target ∉ EditorNode.idsAll xs) :
    findInAll target (xs ++ ys) = findInAll target ys := by
  induction xs with
  | nil => rfl
  | cons x xs ih =>
      rw [EditorNode.idsAll, List.mem_append, not_or] at h
      rw [List.cons_append, findInAll, findEditorNode_of_not_mem h.1]
      exact ih h.2

theorem findEditorNode_group {f : Frame} (h : target ∉ f.ids) (node : EditorNode) :
    findEditorNode target (f.group [node]) = findEditorNode target node := by
  rcases not_mem_frame h with ⟨hid, hbefore, hafter⟩
  rw [Frame.group, findEditorNode, if_neg hid, List.append_assoc,
    findInAll_append_of_not_mem hbefore, List.singleton_append, findInAll,
    findInAll_of_not_mem hafter]
  cases findEditorNode target node <;> rfl

theorem findEditorNode_plug {C : Place} (h : target ∉ C.ids) (node : EditorNode) :
    findEditorNode target (C.plug node) = findEditorNode target node := by
  induction C generalizing node with
  | nil => rfl
  | cons f C ih =>
      rcases not_mem_place h with ⟨hframe, hplace⟩
      rw [Place.plug, ih hplace, findEditorNode_group hframe]

theorem findEditorNode_self (node : EditorNode) :
    findEditorNode node.id node = some node := by
  cases node with
  | leaf id attr op value => rw [EditorNode.id, findEditorNode, if_pos rfl]
  | group id op children => rw [EditorNode.id, findEditorNode, if_pos rfl]

end Find

section Remove

theorem removeFromAll_append (xs ys : List EditorNode) :
    removeFromAll target (xs ++ ys) = removeFromAll target xs ++ removeFromAll target ys := by
  induction xs with
  | nil => rfl
  | cons x xs ih => rw [List.cons_append, removeFromAll, removeFromAll, ih, List.append_assoc]

theorem removeEditorNode_group {f : Frame} (h : target ∉ f.ids) (node : EditorNode) :
    removeEditorNode target (f.group [node]) =
      some (f.group (removeEditorNode target node).toList) := by
  rcases not_mem_frame h with ⟨hid, hbefore, hafter⟩
  rw [Frame.group, removeEditorNode, if_neg hid, removeFromAll_append, removeFromAll_append,
    removeFromAll_of_not_mem hbefore, removeFromAll_of_not_mem hafter, removeFromAll,
    removeFromAll, List.append_nil]
  rfl

theorem removeEditorNode_plug_of_some {C : Place} (h : target ∉ C.ids) {node node' : EditorNode}
    (hnode : removeEditorNode target node = some node') :
    removeEditorNode target (C.plug node) = some (C.plug node') := by
  induction C generalizing node node' with
  | nil => exact hnode
  | cons f C ih =>
      rcases not_mem_place h with ⟨hframe, hplace⟩
      refine ih hplace ?_
      rw [removeEditorNode_group hframe, hnode]
      rfl

theorem removeEditorNode_self (node : EditorNode) : removeEditorNode node.id node = none := by
  cases node with
  | leaf id attr op value => rw [EditorNode.id, removeEditorNode, if_pos rfl]
  | group id op children => rw [EditorNode.id, removeEditorNode, if_pos rfl]

/-- Removing takes the row out of its place. -/
theorem removeEditorNode_plug {C : Place} {node : EditorNode} (h : node.id ∉ C.ids) :
    removeEditorNode node.id (C.plug node) = C.emptied := by
  cases C with
  | nil => exact removeEditorNode_self node
  | cons f C =>
      rcases not_mem_place h with ⟨hframe, hplace⟩
      refine removeEditorNode_plug_of_some hplace ?_
      rw [removeEditorNode_group hframe, removeEditorNode_self]
      rfl

end Remove

section Append

theorem appendInAll_append_of_not_mem {xs ys : List EditorNode}
    (h : target ∉ EditorNode.idsAll xs) (counter : ℕ) :
    appendInAll target (xs ++ ys) counter =
      (xs ++ (appendInAll target ys counter).1, (appendInAll target ys counter).2) := by
  induction xs with
  | nil => rfl
  | cons x xs ih =>
      rw [EditorNode.idsAll, List.mem_append, not_or] at h
      rw [List.cons_append, appendInAll, appendGroupChild_of_not_mem h.1]
      dsimp only
      rw [ih h.2]
      rfl

theorem appendGroupChild_group {f : Frame} (h : target ∉ f.ids) (node : EditorNode)
    (counter : ℕ) :
    appendGroupChild target (f.group [node]) counter =
      (f.group [(appendGroupChild target node counter).1],
        (appendGroupChild target node counter).2) := by
  rcases not_mem_frame h with ⟨hid, hbefore, hafter⟩
  rw [Frame.group, appendGroupChild, if_neg hid, List.append_assoc,
    appendInAll_append_of_not_mem hbefore, List.singleton_append, appendInAll]
  dsimp only
  rw [appendInAll_of_not_mem hafter, Frame.group, List.append_assoc, List.singleton_append]

theorem appendGroupChild_plug {C : Place} (h : target ∉ C.ids) (node : EditorNode)
    (counter : ℕ) :
    appendGroupChild target (C.plug node) counter =
      (C.plug (appendGroupChild target node counter).1,
        (appendGroupChild target node counter).2) := by
  induction C generalizing node with
  | nil => rfl
  | cons f C ih =>
      rcases not_mem_place h with ⟨hframe, hplace⟩
      rw [Place.plug, ih hplace, appendGroupChild_group hframe]
      rfl

end Append

section ParentOp

theorem parentOpOfWalkAll_append_of_not_mem {op : Connective} {xs ys : List EditorNode}
    (h : target ∉ EditorNode.idsAll xs) :
    parentOpOfWalkAll target op (xs ++ ys) = parentOpOfWalkAll target op ys := by
  induction xs with
  | nil => rfl
  | cons x xs ih =>
      rw [EditorNode.idsAll, List.mem_append, not_or] at h
      rw [List.cons_append, parentOpOfWalkAll, parentOpOfWalk_of_not_mem h.1]
      simp only [Option.isSome_none, Bool.false_eq_true, id_ne_of_not_mem h.1, or_self, if_false]
      exact ih h.2

theorem parentOpOfWalk_self (node : EditorNode) (parentOp : Option Connective) :
    parentOpOfWalk node.id node parentOp = parentOp := by
  cases node with
  | leaf id attr op value => rw [EditorNode.id, parentOpOfWalk, if_pos rfl]
  | group id op children => rw [EditorNode.id, parentOpOfWalk, if_pos rfl]

theorem parentOpOfWalk_group {f : Frame} (h : target ∉ f.ids) (node : EditorNode)
    (parentOp : Option Connective) :
    parentOpOfWalk target (f.group [node]) parentOp =
      parentOpOfWalk target node (some f.op) := by
  rcases not_mem_frame h with ⟨hid, hbefore, hafter⟩
  rw [Frame.group, parentOpOfWalk, if_neg hid, List.append_assoc,
    parentOpOfWalkAll_append_of_not_mem hbefore, List.singleton_append, parentOpOfWalkAll,
    parentOpOfWalkAll_of_not_mem hafter]
  by_cases hnode : node.id = target
  · rw [← hnode, parentOpOfWalk_self]
    simp
  · cases hwalk : parentOpOfWalk target node (some f.op) <;> simp [hnode]

theorem parentOpOfWalk_plug {C : Place} (h : target ∉ C.ids) (node : EditorNode) :
    parentOpOfWalk target (C.plug node) none = parentOpOfWalk target node C.parentOp := by
  induction C generalizing node with
  | nil => rfl
  | cons f C ih =>
      rcases not_mem_place h with ⟨hframe, hplace⟩
      rw [Place.plug, ih hplace, parentOpOfWalk_group hframe]
      rfl

/-- The operator found for a row is that of the group around it. -/
theorem parentOpOf_plug {C : Place} {node : EditorNode} (h : node.id ∉ C.ids) :
    parentOpOf (C.plug node) node.id = C.parentOp := by
  rw [parentOpOf, parentOpOfWalk_plug h, parentOpOfWalk_self]

end ParentOp

end AtPlace

end Untangled.FilterEditor
