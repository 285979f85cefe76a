import Mathlib.Tactic

/-!
# Rows edited by a script

An operation drops some rows, rewrites the others and adds new ones.  `run`
performs a list of operations; the lemmas say which rows are there afterwards in
terms of the operations of the list.
-/

/-- What operations do to rows. -/
structure Editing (ω ρ : Type) where
  drops : ω → ρ → Bool
  alters : ω → ρ → ρ
  adds : ω → List ρ

namespace Editing

variable {ω ρ : Type}

/-- An editing that never rewrites a row. -/
def plain (drops : ω → ρ → Bool) (adds : ω → List ρ) : Editing ω ρ :=
  ⟨drops, fun _ r => r, adds⟩

variable (E : Editing ω ρ)

def step (rows : List ρ) (op : ω) : List ρ :=
  (rows.filter fun r => !E.drops op r).map (E.alters op) ++ E.adds op

def run (ops : List ω) (rows : List ρ) : List ρ :=
  ops.foldl E.step rows

@[simp] theorem run_nil (rows : List ρ) : E.run [] rows = rows := rfl

@[simp] theorem run_cons (op : ω) (ops : List ω) (rows : List ρ) :
    E.run (op :: ops) rows = E.run ops (E.step rows op) := rfl

theorem run_append (ops ops' : List ω) (rows : List ρ) :
    E.run (ops ++ ops') rows = E.run ops' (E.run ops rows) := by
  simp [run, List.foldl_append]

/-- The operation leaves every row alone. -/
structure Idle (op : ω) : Prop where
  drops : ∀ r, E.drops op r = false
  alters : ∀ r, E.alters op r = r
  adds : E.adds op = []

variable {E} {ops : List ω} {rows : List ρ} {r : ρ}

theorem mem_step {op : ω} :
    r ∈ E.step rows op ↔
      (∃ old ∈ rows, E.drops op old = false ∧ E.alters op old = r) ∨
        r ∈ E.adds op := by
  simp [step, and_assoc]

theorem run_idle (hidle : ∀ op ∈ ops, E.Idle op) : E.run ops rows = rows := by
  induction ops with
  | nil => rfl
  | cons op ops ih =>
      have hop := hidle op (.head _)
      have halters : E.alters op = id := funext hop.alters
      have hstep : E.step rows op = rows := by
        simp [step, hop.drops, hop.adds, halters]
      rw [run_cons, hstep, ih fun op' hop' => hidle op' (.tail _ hop')]

section Plain

variable (halters : ∀ op ∈ ops, ∀ r, E.alters op r = r)
include halters

theorem mem_run_origin (hr : r ∈ E.run ops rows) :
    (r ∈ rows ∧ ∀ op ∈ ops, E.drops op r = false) ∨ ∃ op ∈ ops, r ∈ E.adds op := by
  induction ops generalizing rows with
  | nil => exact Or.inl ⟨hr, by simp⟩
  | cons op ops ih =>
      have hrest := ih (fun op' hop' => halters op' (.tail _ hop')) hr
      rcases hrest with ⟨hmem, hkept⟩ | ⟨op', hop', hadds⟩
      · rcases mem_step.mp hmem with ⟨old, hold, hdrops, heq⟩ | hadds
        · rw [halters op (.head _)] at heq
          subst old
          exact Or.inl ⟨hold, by simpa [hdrops] using hkept⟩
        · exact Or.inr ⟨op, .head _, hadds⟩
      · exact Or.inr ⟨op', .tail _ hop', hadds⟩

theorem mem_run_kept (hr : r ∈ rows) (hkept : ∀ op ∈ ops, E.drops op r = false) :
    r ∈ E.run ops rows := by
  induction ops generalizing rows with
  | nil => exact hr
  | cons op ops ih =>
      have hstep : r ∈ E.step rows op :=
        mem_step.mpr (Or.inl ⟨r, hr, hkept op (.head _), halters op (.head _) r⟩)
      exact ih (fun op' hop' => halters op' (.tail _ hop')) hstep
        fun op' hop' => hkept op' (.tail _ hop')

theorem mem_run_added {op : ω} (hop : op ∈ ops) (hadds : r ∈ E.adds op)
    (hkept : ∀ op ∈ ops, E.drops op r = false) : r ∈ E.run ops rows := by
  induction ops generalizing rows with
  | nil => cases hop
  | cons first ops ih =>
      have htail : ∀ op' ∈ ops, ∀ r, E.alters op' r = r :=
        fun op' hop' => halters op' (.tail _ hop')
      have hrest : ∀ op' ∈ ops, E.drops op' r = false :=
        fun op' hop' => hkept op' (.tail _ hop')
      rcases List.mem_cons.mp hop with rfl | hop
      · have hstep : r ∈ E.step rows op := mem_step.mpr (Or.inr hadds)
        rw [run_cons]
        exact mem_run_kept htail hstep hrest
      · exact ih htail hop hrest

end Plain

/-! ## Rewritten rows -/

/-- A row of the script's result, traced from the row it was. -/
theorem mem_run_rewritten (hadds : ∀ op ∈ ops, E.adds op = [])
    (hr : r ∈ E.run ops rows) :
    ∃ old ∈ rows, r = ops.foldl (fun row op => E.alters op row) old ∧
      ∀ pre op post, ops = pre ++ op :: post →
        E.drops op (pre.foldl (fun row op => E.alters op row) old) = false := by
  induction ops generalizing rows with
  | nil => exact ⟨r, hr, rfl, by simp⟩
  | cons op ops ih =>
      rcases ih (fun op' hop' => hadds op' (.tail _ hop')) hr with
        ⟨mid, hmid, heq, hkept⟩
      rw [mem_step, hadds op (.head _)] at hmid
      rcases hmid with ⟨old, hold, hdrops, rfl⟩ | hnone
      · refine ⟨old, hold, heq, ?_⟩
        intro pre op' post hsplit
        cases pre with
        | nil =>
            rcases List.cons.inj hsplit with ⟨rfl, _⟩
            exact hdrops
        | cons first pre =>
            rcases List.cons.inj hsplit with ⟨rfl, hrest⟩
            exact hkept pre op' post hrest
      · cases hnone

theorem mem_run_follow (hr : r ∈ rows)
    (hkept : ∀ pre op post, ops = pre ++ op :: post →
      E.drops op (pre.foldl (fun row op => E.alters op row) r) = false) :
    ops.foldl (fun row op => E.alters op row) r ∈ E.run ops rows := by
  induction ops generalizing rows r with
  | nil => exact hr
  | cons op ops ih =>
      have hfirst := hkept [] op ops rfl
      refine ih (mem_step.mpr (Or.inl ⟨r, hr, hfirst, rfl⟩)) ?_
      intro pre op' post hsplit
      exact hkept (op :: pre) op' post (by rw [hsplit]; rfl)

/-- A field settles at `v` when every operation leaves it alone or sets it to
`v`, and it is `v` at first or some operation sets it. -/
theorem foldl_settles {β : Type} {Q : ρ → Prop} {field : ρ → β} {v : β}
    (hQ : ∀ op ∈ ops, ∀ r, Q r → Q (E.alters op r))
    (hops : ∀ op ∈ ops, (∀ r, Q r → field (E.alters op r) = field r) ∨
      ∀ r, Q r → field (E.alters op r) = v)
    (hr : Q r)
    (hsets : field r = v ∨ ∃ op ∈ ops, ∀ r, Q r → field (E.alters op r) = v) :
    field (ops.foldl (fun row op => E.alters op row) r) = v := by
  induction ops generalizing r with
  | nil => simpa using hsets
  | cons op ops ih =>
      refine ih (fun op' hop' => hQ op' (.tail _ hop'))
        (fun op' hop' => hops op' (.tail _ hop')) (hQ op (.head _) r hr) ?_
      rcases hops op (.head _) with hleaves | hset
      · rw [hleaves r hr]
        rcases hsets with hv | ⟨op', hop', hset⟩
        · exact Or.inl hv
        · rcases List.mem_cons.mp hop' with rfl | hop'
          · exact Or.inl ((hleaves r hr).symm.trans (hset r hr))
          · exact Or.inr ⟨op', hop', hset⟩
      · exact Or.inl (hset r hr)

/-! ## Rows seen through a key -/

/-- Where dropping depends on a key and rewriting keeps it, the keys are edited
too. -/
theorem map_run {κ : Type} {key : ρ → κ} {K : Editing ω κ}
    (hdrops : ∀ op r, E.drops op r = K.drops op (key r))
    (halters : ∀ op r, key (E.alters op r) = key r)
    (hplain : ∀ op k, K.alters op k = k)
    (hadds : ∀ op, (E.adds op).map key = K.adds op) :
    (E.run ops rows).map key = K.run ops (rows.map key) := by
  induction ops generalizing rows with
  | nil => rfl
  | cons op ops ih =>
      have hstep : (E.step rows op).map key = K.step (rows.map key) op := by
        have hid : K.alters op = id := funext (hplain op)
        simp only [step, List.map_append, List.map_map, hadds, hid,
          List.filter_map]
        congr 1
        rw [show (fun r => !E.drops op r) = (fun k => !K.drops op k) ∘ key from
          funext fun r => by simp [hdrops]]
        exact List.map_congr_left fun r _ => halters op r
      rw [run_cons, run_cons, ih, hstep]

/-- Keys stay distinct when what is added is new. -/
theorem nodup_step {κ : Type} {key : ρ → κ} {op : ω}
    (halters : ∀ r, key (E.alters op r) = key r)
    (hrows : (rows.map key).Nodup) (hadds : ((E.adds op).map key).Nodup)
    (hnew : ∀ a ∈ E.adds op, ∀ r ∈ rows, key r ≠ key a) :
    ((E.step rows op).map key).Nodup := by
  have hkept : ((rows.filter fun r => !E.drops op r).map (E.alters op)).map key =
      (rows.filter fun r => !E.drops op r).map key := by
    rw [List.map_map]
    exact List.map_congr_left fun r _ => halters r
  rw [step, List.map_append, hkept]
  refine List.Nodup.append (hrows.sublist ?_) hadds ?_
  · exact List.Sublist.map _ List.filter_sublist
  · intro k hold hadded
    rcases List.mem_map.mp hold with ⟨r, hr, rfl⟩
    rcases List.mem_map.mp hadded with ⟨a, ha, heq⟩
    exact hnew a ha r (List.mem_filter.mp hr).1 heq.symm

end Editing
