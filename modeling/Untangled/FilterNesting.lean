import Untangled.FilterEditing

/-!
# Operators of nested groups

Runs of the filter editor.  The row that an edit leaves at its place fits the
group around it, so the tree keeps alternating; fresh ids keep the rows apart.
The operators offered for a group with children are checked against its children
only: switched to the operator of the group around it, it nests.
-/

namespace Untangled.FilterEditor

open Search (Connective)

/-! ## Alternating trees -/

namespace EditorNode

mutual

/-- No group is a child of a group of its own operator; the row itself is a child of
`parent`. -/
def alternates (parent : Option Connective) : EditorNode → Bool
  | .leaf .. => true
  | .group _ op children => parent != some op && alternatesAll (some op) children

def alternatesAll (parent : Option Connective) : List EditorNode → Bool
  | [] => true
  | child :: children => child.alternates parent && alternatesAll parent children

end

@[simp] theorem alternates_leaf (parent : Option Connective) (id : String)
    (attr op : Option String) (value : Option Json) :
    (EditorNode.leaf id attr op value).alternates parent = true := by
  rw [alternates]

theorem alternatesAll_iff {parent : Option Connective} {nodes : List EditorNode} :
    alternatesAll parent nodes = true ↔ ∀ node ∈ nodes, node.alternates parent = true := by
  induction nodes with
  | nil => simp [alternatesAll]
  | cons node nodes ih =>
      rw [alternatesAll, Bool.and_eq_true, ih, List.forall_mem_cons]

theorem alternates_group_iff {parent : Option Connective} {id : String} {op : Connective}
    {children : List EditorNode} :
    (EditorNode.group id op children).alternates parent = true ↔
      parent ≠ some op ∧ ∀ child ∈ children, child.alternates (some op) = true := by
  rw [alternates, Bool.and_eq_true, alternatesAll_iff, bne_iff_ne]

/-- A row that is a child of no group of `op`, and not itself one, fits under `op`. -/
theorem alternates_of_not_isGroupOf {node : EditorNode} {parent : Option Connective}
    {op : Connective} (h : node.alternates parent = true) (hop : node.isGroupOf op = false) :
    node.alternates (some op) = true := by
  cases node with
  | leaf id attr leafOp value => rw [alternates_leaf]
  | group id groupOp children =>
      rw [alternates_group_iff] at h ⊢
      refine ⟨fun heq => ?_, h.2⟩
      cases heq
      simp [isGroupOf] at hop

end EditorNode

namespace Place

/-- The groups around the place alternate, and so do their other children. -/
def Alternates : Place → Prop
  | [] => True
  | f :: C =>
      parentOp C ≠ some f.op ∧
        (∀ node ∈ f.before ++ f.after, node.alternates (some f.op) = true) ∧ Alternates C

theorem alternates_plug {C : Place} {node : EditorNode} :
    (C.plug node).alternates none = true ↔
      C.Alternates ∧ node.alternates C.parentOp = true := by
  induction C generalizing node with
  | nil => simp [plug, Alternates, parentOp]
  | cons f C ih =>
      rw [plug, ih, Frame.group, EditorNode.alternates_group_iff, Alternates, parentOp]
      simp only [List.mem_append, List.mem_singleton]
      constructor
      · rintro ⟨hC, hop, hall⟩
        exact ⟨⟨hop, fun other hother => hall other (hother.elim (fun h => .inl (.inl h)) .inr),
          hC⟩, hall node (.inl (.inr rfl))⟩
      · rintro ⟨⟨hop, hothers, hC⟩, hnode⟩
        refine ⟨hC, hop, fun other hother => ?_⟩
        rcases hother with (hother | rfl) | hother
        · exact hothers other (.inl hother)
        · exact hnode
        · exact hothers other (.inr hother)

theorem alternates_emptied {C : Place} {node root : EditorNode}
    (h : (C.plug node).alternates none = true) (hroot : C.emptied = some root) :
    root.alternates none = true := by
  cases C with
  | nil => cases hroot
  | cons f C =>
      cases hroot
      rw [alternates_plug, Alternates] at h
      rw [alternates_plug, Frame.group, EditorNode.alternates_group_iff, List.append_nil]
      exact ⟨h.1.2.2, h.1.1, h.1.2.1⟩

end Place

/-! ## Eligible operators -/

theorem connectiveOf_connectiveName (op : Connective) :
    connectiveOf (connectiveName op) = some op := by
  cases op <;> rfl

section Eligible

variable {localeCompare : String → String → Ordering}

/-- Where the parent is checked, its own operator is not offered. -/
theorem connectiveOf_ne_of_eligible {parentOp : Option Connective} {attributeType : Option String}
    {op : String} {c : Connective}
    (h : op ∈ eligibleOpsForEmptyOrLeaf localeCompare parentOp attributeType)
    (hc : connectiveOf op = some c) : parentOp ≠ some c := by
  have hname : op = connectiveName c := by
    rw [connectiveOf] at hc
    by_cases hand : op = "and"
    · rw [if_pos hand] at hc
      cases hc
      exact hand
    · rw [if_neg hand] at hc
      by_cases hor : op = "or"
      · rw [if_pos hor] at hc
        cases hc
        exact hor
      · rw [if_neg hor] at hc
        cases hc
  have hleaf : ∀ typeName, connectiveName c ∉ leafOpsForType localeCompare typeName := by
    intro typeName hmem
    rw [leafOpsForType, mem_sortedByDisplayName] at hmem
    cases c <;> revert hmem <;> split_ifs <;> simp [connectiveName]
  rintro rfl
  rw [hname] at h
  cases attributeType with
  | none =>
      rw [eligibleOpsForEmptyOrLeaf, mem_sortedByDisplayName] at h
      cases c <;> simp [connectiveName] at h
  | some typeName =>
      have hnot := hleaf typeName
      rw [eligibleOpsForEmptyOrLeaf, mem_sortedByDisplayName] at h
      cases c <;> rw [connectiveName] at h hnot <;> simp [hnot] at h

/-- For a group with children its own operator is offered, and one that no child has. -/
theorem eligible_of_children {id : String} {groupOp : Connective} {children : List EditorNode}
    {parentOp : Option Connective} {attributeType : Option String} {op : String}
    (hchildren : 0 < children.length)
    (h : op ∈ eligibleOpsForRow localeCompare (.group id groupOp children) parentOp attributeType) :
    ∃ c, op = connectiveName c ∧
      (c = groupOp ∨ wouldCreateSameOpNesting c children = false) := by
  rw [eligibleOpsForRow, if_pos hchildren] at h
  dsimp only at h
  rw [mem_sortedByDisplayName, List.mem_map] at h
  rcases h with ⟨c, hc, rfl⟩
  refine ⟨c, rfl, ?_⟩
  have hfilter : ∀ c, c ∈ [Connective.and, .or].filter
      (fun candidate => !wouldCreateSameOpNesting candidate children) →
        wouldCreateSameOpNesting c children = false := by
    intro c hmem
    simpa using List.of_mem_filter hmem
  split_ifs at hc with hcontains
  · exact Or.inr (hfilter c hc)
  · rw [List.mem_append, List.mem_singleton] at hc
    rcases hc with hc | hc
    · exact Or.inr (hfilter c hc)
    · exact Or.inl hc

end Eligible

/-! ## The row that a change leaves -/

/-- A group with children that is switched to the operator of the group around it. -/
def SwitchesToParent (node : EditorNode) (parentOp : Option Connective) (op : String) : Prop :=
  match node with
  | .leaf .. => False
  | .group _ _ children => children ≠ [] ∧ ∃ c, connectiveOf op = some c ∧ parentOp = some c

instance (node : EditorNode) (parentOp : Option Connective) (op : String) :
    Decidable (SwitchesToParent node parentOp op) :=
  match node with
  | .leaf .. => inferInstanceAs (Decidable False)
  | .group _ _ children =>
      decidable_of_iff (¬ children.isEmpty = true ∧
        (connectiveOf op).any (fun c => decide (parentOp = some c)) = true) (by
          rw [SwitchesToParent, List.isEmpty_iff, Option.any_eq_true]
          simp)

section Change

variable {localeCompare : String → String → Ordering}

section Cases

variable {op : String} {c : Connective} (id : String) (attr leafOp : Option String)
  (value : Option Json) (groupOp : Connective) (children : List EditorNode) (counter : ℕ)

theorem applyOperatorChange_wrap (hc : connectiveOf op = some c) :
    applyOperatorChange (.leaf id attr leafOp value) op counter =
      wrapLeafAsGroup attr leafOp value c counter := by
  simp [applyOperatorChange, hc]

theorem applyOperatorChange_condition (hc : connectiveOf op = none) :
    ∃ value', applyOperatorChange (.leaf id attr leafOp value) op counter =
      (.leaf id attr (some op) value', counter) := by
  simp [applyOperatorChange, hc]

theorem applyOperatorChange_switch (hc : connectiveOf op = some c) :
    applyOperatorChange (.group id groupOp children) op counter =
      (.group id c children, counter) := by
  simp [applyOperatorChange, hc]

theorem applyOperatorChange_kept (hc : connectiveOf op = none) (hchildren : 0 < children.length) :
    applyOperatorChange (.group id groupOp children) op counter =
      (.group id groupOp children, counter) := by
  simp [applyOperatorChange, hc, hchildren]

theorem applyOperatorChange_unwrap (hc : connectiveOf op = none)
    (hchildren : ¬ 0 < children.length) :
    applyOperatorChange (.group id groupOp children) op counter =
      (.leaf id none (some op) none, counter) := by
  simp [applyOperatorChange, hc, hchildren]

end Cases

/-- The changed row fits under its parent, and only then, if it was eligible and does not
switch to the parent's operator. -/
theorem alternates_applyOperatorChange {node : EditorNode} {parentOp : Option Connective}
    {attributeType : Option String} {op : String} {counter : ℕ}
    (halternates : node.alternates parentOp = true)
    (heligible : op ∈ eligibleOpsForRow localeCompare node parentOp attributeType)
    (hswitch : ¬ SwitchesToParent node parentOp op) :
    (applyOperatorChange node op counter).1.alternates parentOp = true := by
  cases node with
  | leaf id attr leafOp value =>
      cases hc : connectiveOf op with
      | none =>
          rcases applyOperatorChange_condition id attr leafOp value counter hc with
            ⟨value', hchange⟩
          rw [hchange, EditorNode.alternates_leaf]
      | some c =>
          have hparent := connectiveOf_ne_of_eligible heligible hc
          rw [applyOperatorChange_wrap id attr leafOp value counter hc]
          exact EditorNode.alternates_group_iff.mpr ⟨hparent, by simp⟩
  | group id groupOp children =>
      rw [EditorNode.alternates_group_iff] at halternates
      by_cases hchildren : 0 < children.length
      · rcases eligible_of_children hchildren heligible with ⟨c, rfl, hfits⟩
        have hne : children ≠ [] := List.length_pos_iff.mp hchildren
        rw [applyOperatorChange_switch id groupOp children counter (connectiveOf_connectiveName c)]
        refine EditorNode.alternates_group_iff.mpr ⟨fun hparent => ?_, fun child hchild => ?_⟩
        · exact hswitch ⟨hne, c, connectiveOf_connectiveName c, hparent⟩
        · rcases hfits with rfl | hfits
          · exact halternates.2 child hchild
          · rw [wouldCreateSameOpNesting, List.any_eq_false] at hfits
            exact EditorNode.alternates_of_not_isGroupOf (halternates.2 child hchild)
              (by simpa using hfits child hchild)
      · rw [eligibleOpsForRow, if_neg hchildren] at heligible
        cases hc : connectiveOf op with
        | none =>
            rw [applyOperatorChange_unwrap id groupOp children counter hc hchildren,
              EditorNode.alternates_leaf]
        | some c =>
            rw [applyOperatorChange_switch id groupOp children counter hc]
            exact EditorNode.alternates_group_iff.mpr
              ⟨connectiveOf_ne_of_eligible heligible hc, fun child hchild =>
                absurd (List.length_pos_of_mem hchild) hchildren⟩

/-- Such a switch does nest the group. -/
theorem SwitchesToParent.nests {C : Place} {node : EditorNode} {op : String}
    (h : SwitchesToParent node C.parentOp op) (counter : ℕ) :
    (C.plug (applyOperatorChange node op counter).1).alternates none = false := by
  cases node with
  | leaf id attr leafOp value => exact h.elim
  | group id groupOp children =>
      rcases h with ⟨_, c, hc, hparent⟩
      rw [applyOperatorChange_switch id groupOp children counter hc, Bool.eq_false_iff, Ne,
        Place.alternates_plug, EditorNode.alternates_group_iff]
      exact fun halternates => halternates.2.1 hparent

/-- What a change does to ids: it keeps them, or takes fresh ones. -/
structure IdsFrom (old : List String) (counter : ℕ) (new : List String) (counter' : ℕ) : Prop where
  le : counter ≤ counter'
  nodup : old.Nodup → new.Nodup
  origin : ∀ id ∈ new, id ∈ old ∨ ∃ n, counter < n ∧ n ≤ counter' ∧ id = editorId n

theorem IdsFrom.refl (ids : List String) (counter : ℕ) : IdsFrom ids counter ids counter :=
  ⟨le_refl _, id, fun _ h => Or.inl h⟩

theorem editorId_injective : Function.Injective editorId := by
  intro m n h
  rw [editorId, editorId, String.append_right_inj] at h
  exact Nat.cast_injective (numberText_inj h)

theorem idsFrom_applyOperatorChange (node : EditorNode) (op : String) (counter : ℕ) :
    IdsFrom node.ids counter (applyOperatorChange node op counter).1.ids
      (applyOperatorChange node op counter).2 := by
  cases node with
  | leaf id attr leafOp value =>
      cases hc : connectiveOf op with
      | none =>
          rcases applyOperatorChange_condition id attr leafOp value counter hc with
            ⟨value', hchange⟩
          rw [hchange]
          exact IdsFrom.refl [id] counter
      | some c =>
          rw [applyOperatorChange_wrap id attr leafOp value counter hc]
          have hne : editorId (counter + 1) ≠ editorId (counter + 1 + 1) :=
            fun h => absurd (editorId_injective h) (by omega)
          have hle : counter ≤ counter + 1 + 1 := by omega
          refine ⟨hle, fun _ => ?_, fun other hother => ?_⟩
          · simp [wrapLeafAsGroup, newEditorId, EditorNode.ids, EditorNode.idsAll, hne]
          · simp only [wrapLeafAsGroup, newEditorId, EditorNode.ids, EditorNode.idsAll,
              List.append_nil, List.mem_cons, List.not_mem_nil, or_false] at hother ⊢
            rcases hother with rfl | rfl
            · exact Or.inr ⟨counter + 1, by omega, by omega, rfl⟩
            · exact Or.inr ⟨counter + 1 + 1, by omega, by omega, rfl⟩
  | group id groupOp children =>
      cases hc : connectiveOf op with
      | some c =>
          rw [applyOperatorChange_switch id groupOp children counter hc]
          exact IdsFrom.refl (id :: EditorNode.idsAll children) counter
      | none =>
          by_cases hchildren : 0 < children.length
          · rw [applyOperatorChange_kept id groupOp children counter hc hchildren]
            exact IdsFrom.refl _ counter
          · rw [applyOperatorChange_unwrap id groupOp children counter hc hchildren]
            refine ⟨le_refl _, fun _ => by simp [EditorNode.ids], fun other hother => Or.inl ?_⟩
            rw [EditorNode.ids, List.mem_singleton] at hother
            rw [hother, EditorNode.ids]
            exact List.mem_cons_self ..

end Change

/-! ## Runs -/

structure EditorState where
  root : Option EditorNode
  counter : ℕ

inductive Edit
  | change (target : String) (op : String) (attributeType : Option String)
  | append (group : String)
  | remove (target : String)

section Runs

variable (localeCompare : String → String → Ordering)

/-- The page offers the eligible operators of a row, and puts the changed row in its place. -/
def changeOperator (root : EditorNode) (target op : String) (attributeType : Option String)
    (counter : ℕ) : EditorNode × ℕ :=
  match findEditorNode target root with
  | none => (root, counter)
  | some node =>
      if op ∈ eligibleOpsForRow localeCompare node (parentOpOf root target) attributeType then
        let (next, counter) := applyOperatorChange node op counter
        (updateEditorNode target (fun _ => next) root, counter)
      else (root, counter)

def Edit.apply (s : EditorState) (edit : Edit) : EditorState :=
  match s.root with
  | none => s
  | some root =>
      match edit with
      | .change target op attributeType =>
          let (root, counter) := changeOperator localeCompare root target op attributeType s.counter
          ⟨some root, counter⟩
      | .append group =>
          let (root, counter) := appendGroupChild group root s.counter
          ⟨some root, counter⟩
      | .remove target => ⟨removeEditorNode target root, s.counter⟩

def run (edits : List Edit) (s : EditorState) : EditorState :=
  edits.foldl (Edit.apply localeCompare) s

/-- The edit switches no group with children to the operator of the group around it. -/
def Edit.Guarded (s : EditorState) : Edit → Prop
  | .change target op _ => ∀ root node, s.root = some root →
      findEditorNode target root = some node →
        ¬ SwitchesToParent node (parentOpOf root target) op
  | .append _ => True
  | .remove _ => True

def Guarded : List Edit → EditorState → Prop
  | [], _ => True
  | edit :: edits, s => edit.Guarded s ∧ Guarded edits (edit.apply localeCompare s)

end Runs

/-- Distinct ids, none of which the counter still has to hand out. -/
structure DistinctIds (root : EditorNode) (counter : ℕ) : Prop where
  nodup : root.ids.Nodup
  fresh : ∀ n, counter < n → editorId n ∉ root.ids

/-- What the edits keep. -/
structure Sound (s : EditorState) : Prop where
  ids : ∀ root, s.root = some root → DistinctIds root s.counter
  alternates : ∀ root, s.root = some root → root.alternates none = true

theorem DistinctIds.plug {C : Place} {node node' : EditorNode} {counter counter' : ℕ}
    (h : DistinctIds (C.plug node) counter) (hids : IdsFrom node.ids counter node'.ids counter') :
    DistinctIds (C.plug node') counter' := by
  have hnodup := (C.ids_plug node).nodup_iff.mp h.nodup
  rw [List.nodup_append] at hnodup
  have hmem : ∀ id, id ∈ (C.plug node).ids ↔ id ∈ C.ids ∨ id ∈ node.ids := fun id => by
    rw [(C.ids_plug node).mem_iff, List.mem_append]
  have hmem' : ∀ id, id ∈ (C.plug node').ids ↔ id ∈ C.ids ∨ id ∈ node'.ids := fun id => by
    rw [(C.ids_plug node').mem_iff, List.mem_append]
  constructor
  · rw [(C.ids_plug node').nodup_iff, List.nodup_append]
    refine ⟨hnodup.1, hids.nodup hnodup.2.1, fun id hid id' hid' => ?_⟩
    rcases hids.origin id' hid' with hold | ⟨n, hlt, _, rfl⟩
    · exact hnodup.2.2 id hid id' hold
    · rintro rfl
      exact h.fresh n hlt ((hmem _).mpr (Or.inl hid))
  · intro n hn hid
    rcases (hmem' _).mp hid with hid | hid
    · exact h.fresh n (lt_of_le_of_lt hids.le hn) ((hmem _).mpr (Or.inl hid))
    · rcases hids.origin _ hid with hold | ⟨m, _, hle, heq⟩
      · exact h.fresh n (lt_of_le_of_lt hids.le hn) ((hmem _).mpr (Or.inr hold))
      · have := editorId_injective heq
        omega

theorem DistinctIds.id_not_mem {C : Place} {node : EditorNode} {counter : ℕ}
    (h : DistinctIds (C.plug node) counter) : node.id ∉ C.ids := by
  have hnodup := (C.ids_plug node).nodup_iff.mp h.nodup
  rw [List.nodup_append] at hnodup
  exact fun hid => hnodup.2.2 _ hid _ node.id_mem_ids rfl

theorem DistinctIds.emptied {C : Place} {node root : EditorNode} {counter : ℕ}
    (h : DistinctIds (C.plug node) counter) (hroot : C.emptied = some root) :
    DistinctIds root counter := by
  cases C with
  | nil => cases hroot
  | cons f C =>
      cases hroot
      have hsub : (f.group []).ids.Sublist (f.group [node]).ids := by
        simp only [Frame.group, EditorNode.ids, EditorNode.idsAll_append, List.append_nil]
        exact ((List.sublist_append_left _ _).append_right _).cons_cons _
      have hids : IdsFrom (f.group [node]).ids counter (f.group []).ids counter :=
        ⟨le_refl _, fun hnodup => hnodup.sublist hsub, fun id hid => Or.inl (hsub.subset hid)⟩
      have hplug : DistinctIds (Place.plug C (f.group [node])) counter := h
      exact hplug.plug hids

theorem exists_place {root : EditorNode} {counter : ℕ} (h : DistinctIds root counter)
    {target : String} (htarget : target ∈ root.ids) :
    ∃ (C : Place) (node : EditorNode), root = C.plug node ∧ node.id = target ∧
      node.id ∉ C.ids := by
  rcases Place.exists_plug htarget with ⟨C, node, rfl, hid⟩
  exact ⟨C, node, rfl, hid, h.id_not_mem⟩

section Steps

variable {localeCompare : String → String → Ordering}

/-! ## One edit -/

/-- A change leaves the changed row, if its operator was offered, at the place of the row. -/
theorem changeOperator_plug {C : Place} {node : EditorNode} (hid : node.id ∉ C.ids) (op : String)
    (attributeType : Option String) (counter : ℕ) :
    changeOperator localeCompare (C.plug node) node.id op attributeType counter =
      if op ∈ eligibleOpsForRow localeCompare node C.parentOp attributeType then
        (C.plug (applyOperatorChange node op counter).1, (applyOperatorChange node op counter).2)
      else (C.plug node, counter) := by
  have hfind : findEditorNode node.id (C.plug node) = some node := by
    rw [findEditorNode_plug hid, findEditorNode_self]
  rw [changeOperator, hfind]
  dsimp only
  rw [parentOpOf_plug hid, updateEditorNode_plug hid, updateEditorNode_self]

theorem changeOperator_of_not_mem {root : EditorNode} {target : String} (h : target ∉ root.ids)
    (op : String) (attributeType : Option String) (counter : ℕ) :
    changeOperator localeCompare root target op attributeType counter = (root, counter) := by
  rw [changeOperator, findEditorNode_of_not_mem h]

/-- A new condition goes last among the children of its group. -/
theorem appendGroupChild_self (node : EditorNode) (counter : ℕ) :
    appendGroupChild node.id node counter = (node, counter) ∨
      ∃ id op children, node = .group id op children ∧
        appendGroupChild node.id node counter =
          (.group id op (children ++ [.leaf (editorId (counter + 1)) none none none]),
            counter + 1) := by
  cases node with
  | leaf id attr op value => exact Or.inl rfl
  | group id op children =>
      refine Or.inr ⟨id, op, children, rfl, ?_⟩
      rw [EditorNode.id, appendGroupChild, if_pos rfl]
      rfl

theorem idsFrom_appendGroupChild {node : EditorNode} {counter : ℕ}
    (hfresh : ∀ n, counter < n → editorId n ∉ node.ids) :
    IdsFrom node.ids counter (appendGroupChild node.id node counter).1.ids
      (appendGroupChild node.id node counter).2 := by
  rcases appendGroupChild_self node counter with hsame | ⟨id, op, children, rfl, happend⟩
  · rw [hsame]
    exact IdsFrom.refl _ counter
  · have hids : (EditorNode.group id op
        (children ++ [.leaf (editorId (counter + 1)) none none none])).ids =
          (EditorNode.group id op children).ids ++ [editorId (counter + 1)] := by
      simp [EditorNode.ids, EditorNode.idsAll]
    rw [happend, hids]
    refine ⟨Nat.le_succ _, fun hnodup => ?_, fun other hother => ?_⟩
    · rw [List.nodup_append]
      refine ⟨hnodup, List.nodup_singleton _, fun other hother new hnew => ?_⟩
      rw [List.mem_singleton] at hnew
      rintro rfl
      rw [hnew] at hother
      exact hfresh _ (Nat.lt_succ_self _) hother
    · rcases List.mem_append.mp hother with hother | hother
      · exact Or.inl hother
      · rw [List.mem_singleton] at hother
        exact Or.inr ⟨counter + 1, Nat.lt_succ_self _, le_refl _, hother⟩

theorem alternates_appendGroupChild {node : EditorNode} {parent : Option Connective}
    (h : node.alternates parent = true) (counter : ℕ) :
    (appendGroupChild node.id node counter).1.alternates parent = true := by
  rcases appendGroupChild_self node counter with hsame | ⟨id, op, children, rfl, happend⟩
  · rwa [hsame]
  · rw [EditorNode.alternates_group_iff] at h
    rw [happend, EditorNode.alternates_group_iff]
    refine ⟨h.1, fun child hchild => ?_⟩
    rcases List.mem_append.mp hchild with hchild | hchild
    · exact h.2 child hchild
    · rw [List.mem_singleton.mp hchild, EditorNode.alternates_leaf]

theorem DistinctIds.fresh_at {C : Place} {node : EditorNode} {counter : ℕ}
    (h : DistinctIds (C.plug node) counter) : ∀ n, counter < n → editorId n ∉ node.ids :=
  fun n hn hid => h.fresh n hn ((C.ids_plug node).mem_iff.mpr (List.mem_append_right _ hid))

/-- A sound state with this tree and counter. -/
theorem Sound.of_root {root : EditorNode} {counter : ℕ} (hids : DistinctIds root counter)
    (halternates : root.alternates none = true) : Sound ⟨some root, counter⟩ := by
  constructor
  · rintro _ ⟨⟩
    exact hids
  · rintro _ ⟨⟩
    exact halternates

/-- The step: an edit that is no such switch keeps ids distinct and groups alternating. -/
theorem Sound.apply {s : EditorState} (hs : Sound s) {edit : Edit} (hedit : edit.Guarded s) :
    Sound (edit.apply localeCompare s) := by
  rcases s with ⟨_ | root, counter⟩
  · exact hs
  have hids := hs.ids root rfl
  have halternates := hs.alternates root rfl
  cases edit with
  | change target op attributeType =>
      by_cases htarget : target ∈ root.ids
      · rcases exists_place hids htarget with ⟨C, node, rfl, rfl, hid⟩
        rw [Place.alternates_plug] at halternates
        rw [Edit.apply]
        dsimp only
        rw [changeOperator_plug hid]
        split_ifs with heligible
        · have hswitch : ¬ SwitchesToParent node C.parentOp op := by
            rw [← parentOpOf_plug hid]
            refine hedit _ node rfl ?_
            rw [findEditorNode_plug hid, findEditorNode_self]
          refine Sound.of_root (hids.plug (idsFrom_applyOperatorChange node op counter)) ?_
          rw [Place.alternates_plug]
          exact ⟨halternates.1,
            alternates_applyOperatorChange halternates.2 heligible hswitch⟩
        · exact hs
      · rw [Edit.apply]
        dsimp only
        rw [changeOperator_of_not_mem htarget]
        exact hs
  | append group =>
      by_cases htarget : group ∈ root.ids
      · rcases exists_place hids htarget with ⟨C, node, rfl, rfl, hid⟩
        rw [Place.alternates_plug] at halternates
        rw [Edit.apply]
        dsimp only
        rw [appendGroupChild_plug hid]
        refine Sound.of_root (hids.plug (idsFrom_appendGroupChild hids.fresh_at)) ?_
        rw [Place.alternates_plug]
        exact ⟨halternates.1, alternates_appendGroupChild halternates.2 counter⟩
      · rw [Edit.apply]
        dsimp only
        rw [appendGroupChild_of_not_mem htarget]
        exact hs
  | remove target =>
      by_cases htarget : target ∈ root.ids
      · rcases exists_place hids htarget with ⟨C, node, rfl, rfl, hid⟩
        rw [Edit.apply]
        dsimp only
        rw [removeEditorNode_plug hid]
        exact ⟨fun root hroot => hids.emptied hroot,
          fun root hroot => Place.alternates_emptied halternates hroot⟩
      · rw [Edit.apply]
        dsimp only
        rw [removeEditorNode_of_not_mem htarget]
        exact hs

theorem Sound.run {edits : List Edit} {s : EditorState} (hs : Sound s)
    (hedits : Guarded localeCompare edits s) : Sound (run localeCompare edits s) := by
  induction edits generalizing s with
  | nil => exact hs
  | cons edit edits ih => exact ih (hs.apply hedits.1) hedits.2

/-- In every state of a run without such a switch the ids are distinct and the groups alternate;
the parent operator of a row is that of the group around it, and a change or a removal touches
the place of its row only. -/
theorem run_alternates {edits : List Edit} {s : EditorState} (hs : Sound s)
    (hedits : Guarded localeCompare edits s) :
    Sound (FilterEditor.run localeCompare edits s) ∧
      ∀ root counter, FilterEditor.run localeCompare edits s = ⟨some root, counter⟩ →
        ∀ target ∈ root.ids, ∃ (C : Place) (node : EditorNode),
          root = C.plug node ∧ node.id = target ∧ target ∉ C.ids ∧
            parentOpOf root target = C.parentOp ∧
            removeEditorNode target root = C.emptied ∧
            ∀ op attributeType,
              changeOperator localeCompare root target op attributeType counter =
                if op ∈ eligibleOpsForRow localeCompare node C.parentOp attributeType then
                  (C.plug (applyOperatorChange node op counter).1,
                    (applyOperatorChange node op counter).2)
                else (root, counter) := by
  have hsound := hs.run hedits
  refine ⟨hsound, fun root counter hrun target htarget => ?_⟩
  rw [hrun] at hsound
  rcases exists_place (hsound.ids root rfl) htarget with ⟨C, node, rfl, rfl, hid⟩
  exact ⟨C, node, rfl, rfl, hid, parentOpOf_plug hid, removeEditorNode_plug hid,
    fun op attributeType => changeOperator_plug hid op attributeType counter⟩

end Steps

/-! ## A filter of one condition -/

/-- `and` around `or` around a condition. -/
def nestedGroups : EditorNode :=
  .group (editorId 2) .and
    [.group (editorId 3) .or [.leaf (editorId 4) (some "status") (some "eq") (some (.str "new"))]]

theorem nestedGroups_sound : Sound ⟨some nestedGroups, 4⟩ := by
  have hids : nestedGroups.ids = [editorId 2, editorId 3, editorId 4] := rfl
  refine Sound.of_root ⟨?_, fun n hn hid => ?_⟩ (by decide)
  · rw [hids]
    simp [editorId_injective.eq_iff]
  · rw [hids] at hid
    simp only [List.mem_cons, editorId_injective.eq_iff, List.not_mem_nil, or_false] at hid
    omega

theorem nestedGroups_edited :
    Sound (run compare [.change (editorId 4) "and" none, .append (editorId 3)]
      ⟨some nestedGroups, 4⟩) := by
  have hguarded : Guarded compare [.change (editorId 4) "and" none, .append (editorId 3)]
      ⟨some nestedGroups, 4⟩ := by
    refine ⟨?_, trivial, trivial⟩
    rintro _ node ⟨⟩ hfind
    have hleaf : findEditorNode (editorId 4) nestedGroups =
        some (.leaf (editorId 4) (some "status") (some "eq") (some (.str "new"))) := by
      simp [nestedGroups, findEditorNode, findInAll, editorId_injective.eq_iff]
    rw [hleaf] at hfind
    cases hfind
    exact id
  exact (run_alternates nestedGroups_sound hguarded).1

/-- The inner group has no group among its children, so `and` is offered for it. -/
theorem nestedGroups_switched :
    Sound ⟨some nestedGroups, 4⟩ ∧
      ∃ inner, findEditorNode (editorId 3) nestedGroups = some inner ∧
        "and" ∈ eligibleOpsForRow compare inner (parentOpOf nestedGroups (editorId 3)) none ∧
        ∃ root, (run compare [.change (editorId 3) "and" none] ⟨some nestedGroups, 4⟩).root =
          some root ∧ root.alternates none = false := by
  let leaf : EditorNode :=
    .leaf (editorId 4) (some "status") (some "eq") (some (.str "new"))
  let C : Place := [⟨editorId 2, .and, [], []⟩]
  have hplug : nestedGroups = C.plug (.group (editorId 3) .or [leaf]) := rfl
  have hid : (EditorNode.group (editorId 3) .or [leaf]).id ∉ C.ids := by
    simp [C, Place.ids, Frame.ids, EditorNode.id, EditorNode.idsAll, editorId_injective.eq_iff]
  have heligible : "and" ∈ eligibleOpsForRow compare (.group (editorId 3) .or [leaf])
      C.parentOp none := by
    rw [eligibleOpsForRow, if_pos (by simp)]
    dsimp only
    rw [mem_sortedByDisplayName]
    decide
  have hchanged : changeOperator compare nestedGroups (editorId 3) "and" none 4 =
      (C.plug (.group (editorId 3) .and [leaf]), 4) :=
    (changeOperator_plug hid "and" none 4).trans (if_pos heligible)
  have hrun : (run compare [.change (editorId 3) "and" none] ⟨some nestedGroups, 4⟩).root =
      some (C.plug (.group (editorId 3) .and [leaf])) := by
    rw [run, List.foldl_cons, List.foldl_nil, Edit.apply]
    dsimp only
    rw [hchanged]
  refine ⟨nestedGroups_sound, .group (editorId 3) .or [leaf], ?_, ?_, _, hrun, by decide⟩
  · rw [hplug]
    exact (findEditorNode_plug hid _).trans (findEditorNode_self _)
  · rw [hplug]
    exact (parentOpOf_plug hid).symm ▸ heligible

end Untangled.FilterEditor
