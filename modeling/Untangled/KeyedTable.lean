import Mathlib.Data.List.Nodup
import Mathlib.Tactic

/-!
# Tables with a primary key

A table is the list of its rows together with the proof that no two rows share
a primary key, so a table that violates its key constraint cannot be built.
The two row-level writes are `put`, which replaces the row of the same key or
appends a new one, and `erase`.  Everything a statement does to a table is a
sequence of these, and the membership lemmas below are all that is ever used
about them.
-/

namespace ReadCommitted

/-- A row type with its primary key. -/
class Keyed (ρ : Type) (ι : outParam Type) where
  key : ρ → ι

export Keyed (key)

structure Table (ρ : Type) {ι : Type} [Keyed ρ ι] where
  rows : List ρ
  nodup : (rows.map key).Nodup

namespace Table

variable {ρ ι : Type} [Keyed ρ ι]

instance : Membership ρ (Table ρ) where
  mem t r := r ∈ t.rows

theorem mem_def {t : Table ρ} {r : ρ} : r ∈ t ↔ r ∈ t.rows := Iff.rfl

@[ext] theorem ext {t u : Table ρ} (hrows : t.rows = u.rows) : t = u := by
  cases t
  cases u
  simpa using hrows

def empty : Table ρ where
  rows := []
  nodup := by simp

@[simp] theorem not_mem_empty (r : ρ) : r ∉ (empty : Table ρ) := by
  simp [mem_def, empty]

/-- Two rows of one table with the same key are the same row. -/
theorem eq_of_key_eq
    {t : Table ρ} {r r' : ρ} (hr : r ∈ t) (hr' : r' ∈ t)
    (hkey : key r = key r') :
    r = r' :=
  List.inj_on_of_nodup_map t.nodup hr hr' hkey

section Writes

variable [DecidableEq ι]

/-- The rows after replacing the row that has the key of `r`. -/
def replaceRows (rows : List ρ) (r : ρ) : List ρ :=
  rows.map fun x => if key x = key r then r else x

theorem map_key_replaceRows (rows : List ρ) (r : ρ) :
    (replaceRows rows r).map key = rows.map key := by
  unfold replaceRows
  rw [List.map_map]
  apply List.map_congr_left
  intro x _
  by_cases hx : key x = key r
  · simp [hx]
  · simp [hx]

/-- Write one row: replace the row of the same key, or append a new row. -/
def put (t : Table ρ) (r : ρ) : Table ρ where
  rows :=
    if key r ∈ t.rows.map key then replaceRows t.rows r else t.rows ++ [r]
  nodup := by
    by_cases hkey : key r ∈ t.rows.map key
    · rw [if_pos hkey, map_key_replaceRows]
      exact t.nodup
    · rw [if_neg hkey, List.map_append, List.map_singleton,
        List.nodup_append]
      refine ⟨t.nodup, by simp, ?_⟩
      intro a ha b hb heq
      rw [List.mem_singleton] at hb
      exact hkey (hb ▸ heq ▸ ha)

/-- Remove the row with the given key. -/
def erase (t : Table ρ) (k : ι) : Table ρ where
  rows := t.rows.filter fun x => key x ≠ k
  nodup := t.nodup.sublist (List.filter_sublist.map key)

theorem mem_put {t : Table ρ} {r x : ρ} :
    x ∈ t.put r ↔ x = r ∨ (x ∈ t ∧ key x ≠ key r) := by
  unfold put
  simp only [mem_def]
  by_cases hkey : key r ∈ t.rows.map key
  · rw [if_pos hkey]
    unfold replaceRows
    rw [List.mem_map]
    constructor
    · rintro ⟨y, hy, hyx⟩
      by_cases hyr : key y = key r
      · rw [if_pos hyr] at hyx
        exact Or.inl hyx.symm
      · rw [if_neg hyr] at hyx
        subst x
        exact Or.inr ⟨hy, hyr⟩
    · rintro (rfl | ⟨hx, hne⟩)
      · obtain ⟨y, hy, hyx⟩ := List.mem_map.mp hkey
        exact ⟨y, hy, by rw [if_pos hyx]⟩
      · exact ⟨x, hx, by rw [if_neg hne]⟩
  · rw [if_neg hkey, List.mem_append, List.mem_singleton]
    constructor
    · rintro (hx | rfl)
      · refine Or.inr ⟨hx, ?_⟩
        intro heq
        exact hkey (List.mem_map.mpr ⟨x, hx, heq⟩)
      · exact Or.inl rfl
    · rintro (rfl | ⟨hx, _⟩)
      · exact Or.inr rfl
      · exact Or.inl hx

theorem mem_erase {t : Table ρ} {k : ι} {x : ρ} :
    x ∈ t.erase k ↔ x ∈ t ∧ key x ≠ k := by
  simp [mem_def, erase]

/-- Writing over an existing row leaves the order of the rows alone. -/
theorem rows_put_of_mem {t : Table ρ} {r x : ρ}
    (hx : x ∈ t) (hkey : key x = key r) :
    (t.put r).rows = replaceRows t.rows r :=
  if_pos (List.mem_map.mpr ⟨x, hx, hkey⟩)

theorem rows_put_of_fresh {t : Table ρ} {r : ρ}
    (hfresh : ∀ x ∈ t, key x ≠ key r) :
    (t.put r).rows = t.rows ++ [r] := by
  apply if_neg
  intro hmem
  obtain ⟨x, hx, hkey⟩ := List.mem_map.mp hmem
  exact hfresh x hx hkey

/-- A row that is there is written over itself. -/
theorem put_of_mem {t : Table ρ} {r : ρ} (hr : r ∈ t) : t.put r = t := by
  apply Table.ext
  rw [rows_put_of_mem hr rfl]
  unfold replaceRows
  calc t.rows.map (fun x => if key x = key r then r else x)
      = t.rows.map id := by
        apply List.map_congr_left
        intro x hx
        by_cases hkey : key x = key r
        · rw [if_pos hkey, id, eq_of_key_eq hx hr hkey]
        · rw [if_neg hkey, id]
    _ = t.rows := List.map_id _

end Writes

/-- The rows that satisfy `q`. -/
def filter (q : ρ → Bool) (t : Table ρ) : Table ρ where
  rows := t.rows.filter q
  nodup := t.nodup.sublist (List.filter_sublist.map key)

@[simp] theorem mem_filter {q : ρ → Bool} {t : Table ρ} {r : ρ} :
    r ∈ t.filter q ↔ r ∈ t ∧ q r = true := by
  simp [mem_def, filter]

section Lookup

variable [DecidableEq ι]

/-- The row with the key `k`. -/
def find (t : Table ρ) (k : ι) : Option ρ :=
  t.rows.find? fun r => decide (key r = k)

theorem find_eq_some {t : Table ρ} {k : ι} {r : ρ} :
    t.find k = some r ↔ r ∈ t ∧ key r = k := by
  constructor
  · intro hfind
    exact ⟨List.mem_of_find?_eq_some hfind, by simpa using List.find?_some hfind⟩
  · intro h
    cases hfind : t.find k with
    | none => exact absurd (decide_eq_true h.2) (List.find?_eq_none.mp hfind r h.1)
    | some r' =>
        have hkey : key r' = k := by simpa using List.find?_some hfind
        rw [t.eq_of_key_eq (List.mem_of_find?_eq_some hfind) h.1 (hkey.trans h.2.symm)]

@[simp] theorem find_empty {k : ι} :
    (empty : Table ρ).find k = none := rfl

theorem find_put {t : Table ρ} {r : ρ} {k : ι} :
    (t.put r).find k = if k = key r then some r else t.find k := by
  apply Option.ext
  intro x
  rw [find_eq_some, mem_put]
  split
  · rename_i hk
    subst hk
    simp only [Option.some.injEq]
    constructor
    · rintro ⟨hx | ⟨_, hne⟩, hkey⟩
      · exact hx.symm
      · exact absurd hkey hne
    · intro hx
      subst hx
      exact ⟨Or.inl rfl, rfl⟩
  · rename_i hk
    rw [find_eq_some]
    constructor
    · rintro ⟨hx | ⟨hold, _⟩, hkey⟩
      · subst hx
        exact absurd hkey.symm hk
      · exact ⟨hold, hkey⟩
    · rintro ⟨hold, hkey⟩
      exact ⟨Or.inr ⟨hold, fun hr => hk (hkey.symm.trans hr)⟩, hkey⟩

theorem find_erase {t : Table ρ} {k k' : ι} :
    (t.erase k').find k = if k = k' then none else t.find k := by
  apply Option.ext
  intro x
  rw [find_eq_some, mem_erase]
  split
  · rename_i hk
    subst hk
    simp only [reduceCtorEq, iff_false]
    rintro ⟨⟨_, hne⟩, hkey⟩
    exact hne hkey
  · rename_i hk
    rw [find_eq_some]
    constructor
    · rintro ⟨⟨hold, _⟩, hkey⟩
      exact ⟨hold, hkey⟩
    · rintro ⟨hold, hkey⟩
      exact ⟨⟨hold, fun hk' => hk (hkey.symm.trans hk')⟩, hkey⟩

end Lookup

section Deletion

variable [DecidableEq ι]

theorem rows_foldl_erase (ks : List ι) (t : Table ρ) :
    (ks.foldl erase t).rows = t.rows.filter fun x => key x ∉ ks := by
  induction ks generalizing t with
  | nil => simp
  | cons k ks ih =>
      rw [List.foldl_cons, ih]
      simp only [erase, List.filter_filter]
      apply List.filter_congr
      intro x _
      by_cases hxk : key x = k
      · simp [hxk]
      · simp [hxk]

/-- Erasing the keys of the rows that satisfy `p` one by one is the deletion
`DELETE ... WHERE p`. -/
theorem foldl_erase (p : ρ → Bool) (t : Table ρ) :
    ((t.rows.filter p).map key).foldl erase t = t.filter fun x => !p x := by
  apply Table.ext
  rw [rows_foldl_erase]
  apply List.filter_congr
  intro x hx
  by_cases hp : p x = true
  · have hmem : key x ∈ (t.rows.filter p).map key :=
      List.mem_map.mpr ⟨x, List.mem_filter.mpr ⟨hx, hp⟩, rfl⟩
    simp [hp, hmem]
  · have hmem : key x ∉ (t.rows.filter p).map key := by
      intro hmem
      obtain ⟨y, hy, hyx⟩ := List.mem_map.mp hmem
      have hparts := List.mem_filter.mp hy
      have heq : y = x := eq_of_key_eq hparts.1 hx hyx
      exact hp (heq ▸ hparts.2)
    simp [hp, hmem]

end Deletion

/-- The keys of the rows a statement has to lock before it acts. -/
def candidates (p : ρ → Bool) (snap : Table ρ) : List ι :=
  (snap.rows.filter p).map key

section Recheck

variable [DecidableEq ι]

/-- The rows a locking statement acts on: rows of its snapshot that satisfy
the condition, re-checked on their newest version. -/
def recheck (p : ρ → Bool) (snap cur : Table ρ) : List ρ :=
  cur.rows.filter fun r =>
    p r && snap.rows.any fun old => decide (key old = key r) && p old

theorem mem_recheck {p : ρ → Bool} {snap cur : Table ρ} {r : ρ} :
    r ∈ recheck p snap cur ↔
      r ∈ cur ∧ p r = true ∧ ∃ old ∈ snap, key old = key r ∧ p old = true := by
  simp [recheck, mem_def]

/-- Nothing changed since the snapshot: the plain `WHERE`. -/
theorem recheck_self (p : ρ → Bool) (t : Table ρ) :
    recheck p t t = t.rows.filter p := by
  unfold recheck
  apply List.filter_congr
  intro r hr
  by_cases hp : p r = true
  · have hany : (t.rows.any fun old => decide (key old = key r) && p old) = true :=
      List.any_eq_true.mpr ⟨r, hr, by simp [hp]⟩
    rw [hany, Bool.and_true]
  · simp [hp]

theorem key_mem_candidates {p : ρ → Bool} {snap cur : Table ρ} {r : ρ}
    (hr : r ∈ recheck p snap cur) : key r ∈ candidates p snap := by
  obtain ⟨_, _, old, hold, hkey, hp⟩ := mem_recheck.mp hr
  exact List.mem_map.mpr ⟨old, List.mem_filter.mpr ⟨hold, hp⟩, hkey⟩

end Recheck

section Map

variable {σ : Type} [Keyed σ ι] (f : ρ → σ) (hf : ∀ r, key (f r) = key r)

/-- The table with some of its columns, the key among them. -/
def map (t : Table ρ) : Table σ where
  rows := t.rows.map f
  nodup := by
    rw [List.map_map, show key ∘ f = (key : ρ → ι) from funext hf]
    exact t.nodup

theorem map_filter {p : ρ → Bool} {q : σ → Bool} (hpq : ∀ r, q (f r) = p r) (t : Table ρ) :
    (t.filter p).map f hf = (t.map f hf).filter q := by
  apply Table.ext
  simp only [map, filter, List.filter_map]
  rw [show q ∘ f = p from funext hpq]

variable [DecidableEq ι]

theorem map_put (t : Table ρ) (r : ρ) :
    (t.put r).map f hf = (t.map f hf).put (f r) := by
  have hkeys : (t.rows.map f).map key = t.rows.map (key : ρ → ι) := by
    rw [List.map_map, show key ∘ f = (key : ρ → ι) from funext hf]
  apply Table.ext
  simp only [map, put, hkeys, hf]
  split
  · simp only [replaceRows, List.map_map]
    apply List.map_congr_left
    intro x _
    simp only [Function.comp_apply, hf]
    split <;> rfl
  · rw [List.map_append, List.map_singleton]

end Map

end Table

end ReadCommitted
