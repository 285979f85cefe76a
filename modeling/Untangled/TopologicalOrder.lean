import Mathlib.Data.List.Nodup
import Mathlib.Tactic

/-!
# Ordering vertices by their dependencies

Kahn's algorithm over a list of vertices.  `deps` lists what a vertex waits for;
a vertex becomes ready when nothing it waits for is left.  The vertices that are
reached come out once each, so an order that reaches all of them is a
permutation of the vertices.
-/

namespace TopologicalOrder

variable {ν : Type} [DecidableEq ν] (deps : ν → List ν)

/-- `other` is told that `node` is done. -/
def tell (node : ν) (state : (ν → ℕ) × List ν) (other : ν) : (ν → ℕ) × List ν :=
  if node ∈ deps other then
    let left := state.1 other - 1
    (Function.update state.1 other left,
      if left = 0 then state.2 ++ [other] else state.2)
  else state

/-- The loop: `queue` holds the ready vertices, `indegree` counts what a vertex
still waits for. -/
def kahn (vertices : List ν) : ℕ → (ν → ℕ) → List ν → List ν → List ν
  | 0, _, _, ordered => ordered
  | _ + 1, _, [], ordered => ordered
  | fuel + 1, indegree, node :: queue, ordered =>
      let told := vertices.foldl (tell deps node) (indegree, queue)
      kahn vertices fuel told.1 told.2 (ordered ++ [node])

/-- The vertices that can be ordered, dependencies first. -/
def order (vertices : List ν) : List ν :=
  let indegree := fun v => (deps v).length
  kahn deps vertices vertices.length indegree
    (vertices.filter fun v => indegree v = 0) []

/-! ## One vertex is done -/

section Tell

variable {deps} {node : ν} {state : (ν → ℕ) × List ν} {vertices : List ν}

theorem foldl_tell_indegree (hnodup : vertices.Nodup) (v : ν) :
    (vertices.foldl (tell deps node) state).1 v =
      if v ∈ vertices ∧ node ∈ deps v then state.1 v - 1 else state.1 v := by
  induction vertices generalizing state with
  | nil => simp
  | cons w vertices ih =>
      have htail := (List.nodup_cons.mp hnodup).2
      rw [List.foldl_cons, ih htail]
      by_cases hv : v = w
      · subst v
        have hnotin := (List.nodup_cons.mp hnodup).1
        by_cases hnode : node ∈ deps w <;> simp [tell, hnotin, hnode]
      · by_cases hnode : node ∈ deps w <;> simp [tell, hv, hnode]

theorem foldl_tell_queue (hnodup : vertices.Nodup) :
    (vertices.foldl (tell deps node) state).2 =
      state.2 ++ vertices.filter fun v => node ∈ deps v ∧ state.1 v - 1 = 0 := by
  induction vertices generalizing state with
  | nil => simp
  | cons w vertices ih =>
      have htail := (List.nodup_cons.mp hnodup).2
      have hnotin := (List.nodup_cons.mp hnodup).1
      -- the later vertices still have their old indegree
      have hlater : ∀ v ∈ vertices,
          (tell deps node state w).1 v = state.1 v := by
        intro v hv
        have hne : v ≠ w := fun h => hnotin (h ▸ hv)
        by_cases hnode : node ∈ deps w
        · simp [tell, hnode, Function.update_of_ne hne]
        · simp [tell, hnode]
      have hfilter :
          (vertices.filter fun v =>
            node ∈ deps v ∧ (tell deps node state w).1 v - 1 = 0) =
          vertices.filter fun v => node ∈ deps v ∧ state.1 v - 1 = 0 := by
        apply List.filter_congr
        intro v hv
        rw [hlater v hv]
      rw [List.foldl_cons, ih htail, hfilter]
      by_cases hnode : node ∈ deps w
      · by_cases hzero : state.1 w - 1 = 0
        · simp [tell, hnode, hzero]
        · simp [tell, hnode, hzero]
      · simp [tell, hnode]

end Tell

/-! ## The loop -/

/-- What holds between two rounds: who is done or ready is listed once, and the
others know how much they still wait for. -/
structure Underway (vertices : List ν) (indegree : ν → ℕ)
    (queue ordered : List ν) : Prop where
  nodup : (ordered ++ queue).Nodup
  subset : ∀ v ∈ ordered ++ queue, v ∈ vertices
  waiting : ∀ v ∈ vertices,
    indegree v = ((deps v).filter fun w => w ∉ ordered).length
  ready : ∀ v ∈ vertices, indegree v = 0 ↔ v ∈ ordered ++ queue

section Loop

variable {deps} {vertices : List ν} {indegree : ν → ℕ} {node : ν}
  {queue ordered : List ν}

/-- A dependency that is done is no longer waited for. -/
theorem length_filter_snoc {waits : List ν} (hnodup : waits.Nodup)
    (hnode : node ∉ ordered) :
    (waits.filter fun w => w ∉ ordered ++ [node]).length =
      if node ∈ waits then (waits.filter fun w => w ∉ ordered).length - 1
      else (waits.filter fun w => w ∉ ordered).length := by
  have hsplit : (waits.filter fun w => w ∉ ordered ++ [node]) =
      (waits.filter fun w => w ∉ ordered).erase node := by
    rw [(hnodup.filter _).erase_eq_filter, List.filter_filter]
    apply List.filter_congr
    intro w _
    by_cases hw : w = node <;> simp [hw]
  rw [hsplit]
  by_cases hin : node ∈ waits
  · have hmem : node ∈ waits.filter fun w => w ∉ ordered := by
      simp [hin, hnode]
    rw [if_pos hin, List.length_erase_of_mem hmem]
  · have hmem : node ∉ waits.filter fun w => w ∉ ordered := by
      simp [hin]
    rw [if_neg hin, List.erase_of_not_mem hmem]

theorem Underway.start (hvertices : vertices.Nodup) :
    Underway deps vertices (fun v => (deps v).length)
      (vertices.filter fun v => (deps v).length = 0) [] where
  nodup := by simpa using hvertices.filter _
  subset := by
    intro v hv
    simp only [List.nil_append, List.mem_filter] at hv
    exact hv.1
  waiting := by simp
  ready := by
    intro v hv
    simp [hv]

theorem Underway.round (hvertices : vertices.Nodup)
    (hdeps : ∀ v ∈ vertices, (deps v).Nodup)
    (h : Underway deps vertices indegree (node :: queue) ordered) :
    Underway deps vertices
      (vertices.foldl (tell deps node) (indegree, queue)).1
      (vertices.foldl (tell deps node) (indegree, queue)).2
      (ordered ++ [node]) := by
  have hnode : node ∉ ordered := by
    intro hin
    exact (List.nodup_append.mp h.nodup).2.2 node hin node (.head _) rfl
  have hwaiting : ∀ v ∈ vertices,
      (vertices.foldl (tell deps node) (indegree, queue)).1 v =
        ((deps v).filter fun w => w ∉ ordered ++ [node]).length := by
    intro v hv
    rw [foldl_tell_indegree hvertices, length_filter_snoc (hdeps v hv) hnode]
    simp [hv, h.waiting v hv]
  -- a vertex that waits for `node` is not yet ready
  have hpositive : ∀ v ∈ vertices, node ∈ deps v → indegree v ≠ 0 := by
    intro v hv hin
    rw [h.waiting v hv, ← Nat.pos_iff_ne_zero, List.length_pos_iff_exists_mem]
    exact ⟨node, by simp [hin, hnode]⟩
  have hqueue := @foldl_tell_queue ν _ deps node (indegree, queue) vertices hvertices
  have hassoc : ∀ rest : List ν,
      (ordered ++ [node]) ++ (queue ++ rest) = (ordered ++ node :: queue) ++ rest := by
    intro rest
    simp
  refine ⟨?_, ?_, hwaiting, ?_⟩
  · rw [hqueue, hassoc]
    apply List.Nodup.append h.nodup (hvertices.filter _)
    intro v hold hnew
    rcases List.mem_filter.mp hnew with ⟨hv, hcond⟩
    have hzero := (h.ready v hv).mpr hold
    simp only [decide_eq_true_eq] at hcond
    exact hpositive v hv hcond.1 hzero
  · intro v hv
    rw [hqueue, hassoc] at hv
    rcases List.mem_append.mp hv with hold | hnew
    · exact h.subset v hold
    · exact (List.mem_filter.mp hnew).1
  · intro v hv
    rw [hqueue, hassoc, List.mem_append, ← h.ready v hv,
      foldl_tell_indegree hvertices]
    by_cases hin : node ∈ deps v
    · have hpos := hpositive v hv hin
      simp [hv, hin, hpos]
    · simp [hv, hin]

theorem kahn_underway (hvertices : vertices.Nodup)
    (hdeps : ∀ v ∈ vertices, (deps v).Nodup) (fuel : ℕ)
    (h : Underway deps vertices indegree queue ordered) :
    (kahn deps vertices fuel indegree queue ordered).Nodup ∧
      ∀ v ∈ kahn deps vertices fuel indegree queue ordered, v ∈ vertices := by
  have hdone : ordered.Nodup ∧ ∀ v ∈ ordered, v ∈ vertices :=
    ⟨(List.nodup_append.mp h.nodup).1,
      fun v hv => h.subset v (List.mem_append_left _ hv)⟩
  induction fuel generalizing indegree queue ordered with
  | zero => exact hdone
  | succ fuel ih =>
      cases queue with
      | nil => exact hdone
      | cons node queue =>
          have hnext := h.round hvertices hdeps
          exact ih hnext ⟨(List.nodup_append.mp hnext.nodup).1,
            fun v hv => hnext.subset v (List.mem_append_left _ hv)⟩

/-- One round for each vertex is enough: more fuel changes nothing. -/
theorem kahn_fuel (hvertices : vertices.Nodup)
    (hdeps : ∀ v ∈ vertices, (deps v).Nodup) (fuel extra : ℕ)
    (h : Underway deps vertices indegree queue ordered)
    (henough : vertices.length ≤ ordered.length + fuel) :
    kahn deps vertices (fuel + extra) indegree queue ordered =
      kahn deps vertices fuel indegree queue ordered := by
  have hlength : (ordered ++ queue).length ≤ vertices.length :=
    (h.nodup.subperm fun v hv => h.subset v hv).length_le
  induction fuel generalizing indegree queue ordered with
  | zero =>
      have hempty : queue = [] := by
        rw [List.length_append] at hlength
        exact List.length_eq_zero_iff.mp (by omega)
      cases extra <;> simp [hempty, kahn]
  | succ fuel ih =>
      rw [Nat.add_right_comm]
      cases queue with
      | nil => rfl
      | cons node queue =>
          have hnext := h.round hvertices hdeps
          have hbound :
              vertices.length ≤ (ordered ++ [node]).length + fuel := by
            simp only [List.length_append, List.length_singleton]
            omega
          exact ih hnext hbound
            (hnext.nodup.subperm fun v hv => hnext.subset v hv).length_le

end Loop

theorem order_perm {vertices : List ν} (hvertices : vertices.Nodup)
    (hdeps : ∀ v ∈ vertices, (deps v).Nodup)
    (hall : (order deps vertices).length = vertices.length) :
    (order deps vertices).Perm vertices := by
  have hresult := kahn_underway hvertices hdeps vertices.length (.start hvertices)
  have hsubperm := hresult.1.subperm hresult.2
  exact hsubperm.perm_of_length_le hall.ge

/-! ## Dependencies first -/

/-- Whatever a listed vertex waits for stands in front of it. -/
def DepsFirst (l : List ν) : Prop :=
  ∀ before v after, l = before ++ v :: after → ∀ w ∈ deps v, w ∈ before

section DepsFirst

variable {deps} {vertices : List ν} {indegree : ν → ℕ} {node : ν}
  {queue ordered : List ν}

omit [DecidableEq ν] in
theorem DepsFirst.snoc
    (h : DepsFirst deps ordered) (hnode : ∀ w ∈ deps node, w ∈ ordered) :
    DepsFirst deps (ordered ++ [node]) := by
  intro before v after hsplit w hw
  rcases List.eq_nil_or_concat after with hnil | ⟨rest, last, hlast⟩
  · rw [hnil] at hsplit
    have hparts := List.append_inj' hsplit rfl
    have hv : node = v := by simpa using hparts.2
    rw [← hparts.1]
    exact hnode w (hv ▸ hw)
  · have hassoc : before ++ v :: after = (before ++ v :: rest) ++ [last] := by
      rw [hlast]
      simp
    rw [hassoc] at hsplit
    exact h before v rest (List.append_inj' hsplit rfl).1 w hw

/-- Nothing that a ready vertex waits for is left. -/
theorem Underway.deps_done
    (h : Underway deps vertices indegree queue ordered)
    {v : ν} (hv : v ∈ ordered ++ queue) :
    ∀ w ∈ deps v, w ∈ ordered := by
  have hmem := h.subset v hv
  have hwaiting := h.waiting v hmem
  rw [(h.ready v hmem).mpr hv, eq_comm, List.length_eq_zero_iff, List.filter_eq_nil_iff]
    at hwaiting
  intro w hw
  simpa using hwaiting w hw

theorem kahn_depsFirst (hvertices : vertices.Nodup)
    (hdeps : ∀ v ∈ vertices, (deps v).Nodup) (fuel : ℕ)
    (h : Underway deps vertices indegree queue ordered) (hfirst : DepsFirst deps ordered) :
    DepsFirst deps (kahn deps vertices fuel indegree queue ordered) := by
  induction fuel generalizing indegree queue ordered with
  | zero => exact hfirst
  | succ fuel ih =>
      cases queue with
      | nil => exact hfirst
      | cons node queue =>
          exact ih (h.round hvertices hdeps) (hfirst.snoc (h.deps_done (by simp)))

/-- A vertex is left out only if something it waits for is. -/
theorem kahn_closed (hvertices : vertices.Nodup)
    (hdeps : ∀ v ∈ vertices, (deps v).Nodup) (fuel : ℕ)
    (h : Underway deps vertices indegree queue ordered)
    (henough : vertices.length ≤ ordered.length + fuel)
    {v : ν} (hv : v ∈ vertices)
    (hwaits : ∀ w ∈ deps v, w ∈ kahn deps vertices fuel indegree queue ordered) :
    v ∈ kahn deps vertices fuel indegree queue ordered := by
  have hended : ∀ {indegree : ν → ℕ} {ordered : List ν},
      Underway deps vertices indegree [] ordered → (∀ w ∈ deps v, w ∈ ordered) →
      v ∈ ordered := by
    intro indegree ordered h hdone
    have hready := (h.ready v hv).mp
    rw [h.waiting v hv, List.append_nil] at hready
    apply hready
    rw [List.length_eq_zero_iff, List.filter_eq_nil_iff]
    intro w hw
    simpa using hdone w hw
  induction fuel generalizing indegree queue ordered with
  | zero =>
      have hlength : (ordered ++ queue).length ≤ vertices.length :=
        (h.nodup.subperm fun v hv => h.subset v hv).length_le
      have hempty : queue = [] := by
        rw [List.length_append] at hlength
        exact List.length_eq_zero_iff.mp (by omega)
      rw [hempty] at h
      exact hended h hwaits
  | succ fuel ih =>
      cases queue with
      | nil => exact hended h hwaits
      | cons node queue =>
          have hnext := h.round hvertices hdeps
          have hbound : vertices.length ≤ (ordered ++ [node]).length + fuel := by
            simp only [List.length_append, List.length_singleton]
            omega
          exact ih hnext hbound hwaits

end DepsFirst

/-- Among the vertices nothing waits for itself, however far around. -/
def Acyclic (vertices : List ν) : Prop :=
  ∀ v, ¬Relation.TransGen (fun v w => v ∈ vertices ∧ w ∈ deps v) v v

section Complete

variable {deps} {vertices : List ν}

theorem order_depsFirst (hvertices : vertices.Nodup)
    (hdeps : ∀ v ∈ vertices, (deps v).Nodup) :
    DepsFirst deps (order deps vertices) := by
  apply kahn_depsFirst hvertices hdeps _ (.start hvertices)
  intro before v after hsplit
  cases before <;> cases hsplit

omit [DecidableEq ν] in
theorem DepsFirst.sublist
    {l : List ν} {v w : ν}
    (h : DepsFirst deps l) (hv : v ∈ l) (hw : w ∈ deps v) :
    [w, v].Sublist l := by
  rcases List.append_of_mem hv with ⟨before, after, hsplit⟩
  have hbefore := h before v after hsplit w hw
  have hpair : ([w] ++ [v]).Sublist (before ++ v :: after) :=
    (List.singleton_sublist.mpr hbefore).append
      (List.singleton_sublist.mpr (List.mem_cons_self ..))
  rw [hsplit]
  exact hpair

theorem DepsFirst.idxOf_lt
    {l : List ν} {v w : ν}
    (h : DepsFirst deps l) (hv : v ∈ l) (hw : w ∈ deps v) :
    w ∈ l ∧ l.idxOf w < l.idxOf v := by
  have hsplit := List.take_append_drop (l.idxOf v) l
  have hlt := List.idxOf_lt_length_iff.mpr hv
  rw [List.drop_eq_getElem_cons hlt, List.getElem_idxOf hlt] at hsplit
  have hbefore := h _ v _ hsplit.symm w hw
  rcases List.mem_take_iff_idxOf_lt (List.mem_of_mem_take hbefore) |>.mp hbefore with hidx
  exact ⟨List.mem_of_mem_take hbefore, hidx⟩

/-- Along dependencies one goes back in the list. -/
theorem DepsFirst.acyclic
    {l : List ν}
    (h : DepsFirst deps l) (hl : ∀ v, v ∈ l ↔ v ∈ vertices) :
    Acyclic deps vertices := by
  have hback : ∀ v w, Relation.TransGen (fun v w => v ∈ vertices ∧ w ∈ deps v) v w →
      w ∈ l ∧ l.idxOf w < l.idxOf v := by
    intro v w hpath
    induction hpath with
    | single hedge => exact h.idxOf_lt ((hl _).mpr hedge.1) hedge.2
    | tail _ hedge ih =>
        have hlast := h.idxOf_lt ((hl _).mpr hedge.1) hedge.2
        exact ⟨hlast.1, hlast.2.trans ih.2⟩
  intro v hcycle
  exact (hback v v hcycle).2.false

theorem wellFounded_of_acyclic (hacyclic : Acyclic deps vertices) :
    WellFounded fun w v => v ∈ vertices ∧ w ∈ deps v := by
  let waits : ν → ν → Prop := fun v w => v ∈ vertices ∧ w ∈ deps v
  have htrans : IsTrans { v // v ∈ vertices }
      (fun w v => Relation.TransGen waits v.1 w.1) :=
    ⟨fun _ _ _ h h' => h'.trans h⟩
  have hirrefl : Std.Irrefl (fun (w v : { v // v ∈ vertices }) =>
      Relation.TransGen waits v.1 w.1) :=
    ⟨fun v => hacyclic v.1⟩
  have hfinite := Finite.wellFounded_of_trans_of_irrefl
    fun (w v : { v // v ∈ vertices }) => Relation.TransGen waits v.1 w.1
  have houtside : ∀ v, v ∉ vertices → Acc (fun w v => waits v w) v :=
    fun v hv => ⟨v, fun w hw => absurd hw.1 hv⟩
  have hinside : ∀ v : { v // v ∈ vertices }, Acc (fun w v => waits v w) v.1 := by
    intro v
    induction v using hfinite.induction with
    | _ v ih =>
        constructor
        intro w hw
        by_cases hmem : w ∈ vertices
        · exact ih ⟨w, hmem⟩ (.single hw)
        · exact houtside w hmem
  constructor
  intro v
  by_cases hv : v ∈ vertices
  · exact hinside ⟨v, hv⟩
  · exact houtside v hv

/-- Every vertex is ordered exactly if the dependencies have no cycle. -/
theorem order_complete_iff (hvertices : vertices.Nodup)
    (hdeps : ∀ v ∈ vertices, (deps v).Nodup) (hsubset : ∀ v, ∀ w ∈ deps v, w ∈ vertices) :
    (order deps vertices).length = vertices.length ↔ Acyclic deps vertices := by
  constructor
  · intro hlength
    have hperm := order_perm deps hvertices hdeps hlength
    exact (order_depsFirst hvertices hdeps).acyclic fun v => hperm.mem_iff
  · intro hacyclic
    have hresult := kahn_underway hvertices hdeps vertices.length (.start hvertices)
    have hclosed : ∀ v ∈ vertices, (∀ w ∈ deps v, w ∈ order deps vertices) →
        v ∈ order deps vertices := fun v hv hwaits =>
      kahn_closed hvertices hdeps vertices.length (.start hvertices) (by simp) hv hwaits
    have hwell := wellFounded_of_acyclic hacyclic
    have hall : ∀ v ∈ vertices, v ∈ order deps vertices := by
      intro v
      induction v using hwell.induction with
      | _ v ih =>
          intro hv
          apply hclosed v hv
          intro w hw
          exact ih w ⟨hv, hw⟩ (hsubset v w hw)
    have hge := (hvertices.subperm hall).length_le
    have hle := (hresult.1.subperm hresult.2).length_le
    exact Nat.le_antisymm hle hge

end Complete

end TopologicalOrder
