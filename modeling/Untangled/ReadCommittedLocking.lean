import Untangled.ReadCommitted

/-!
# What row locks guarantee

In every reachable system the locks of two different calls never exclude each
other, and every pending write of a call is covered by a lock it holds.  Hence
no call can publish a write to a row that another call has locked for writing:
what a transaction learned about a row it locked stays true until it ends.
-/

namespace ReadCommitted

variable {Db Key Write Stmt : Type} {Res : Stmt → Type} {τ α : Type}

/-- The locking discipline of a system. -/
structure System.WellLocked (S : Schema Db Key Write Stmt Res)
    (sys : System Db Key Write Stmt Res τ α) : Prop where
  exclusive :
    ∀ {i j : ℕ} {p q : Proc Db Key Write Stmt Res τ α} {k : Key}
      {m m' : LockMode}, i ≠ j → sys.procs[i]? = some p →
      sys.procs[j]? = some q → (k, m) ∈ p.locks → (k, m') ∈ q.locks →
        m.conflicts m' = false
  covered :
    ∀ {i : ℕ} {p : Proc Db Key Write Stmt Res τ α} {w : Write},
      sys.procs[i]? = some p → w ∈ p.writes →
      ∃ m, (S.target w, m) ∈ p.locks ∧ m.isWrite = true
  idle :
    ∀ {i : ℕ} {p : Proc Db Key Write Stmt Res τ α},
      sys.procs[i]? = some p → p.inTx = false →
        p.writes = [] ∧ p.locks = []

namespace System.WellLocked

variable {S : Schema Db Key Write Stmt Res}
  {sys sys' : System Db Key Write Stmt Res τ α}

/-- A pending write never targets a row another call has locked to write. -/
theorem target_ne (hlocked : sys.WellLocked S) {i j : ℕ}
    {p q : Proc Db Key Write Stmt Res τ α} {w : Write} {k : Key} {m : LockMode}
    (hij : i ≠ j) (hi : sys.procs[i]? = some p) (hj : sys.procs[j]? = some q)
    (hw : w ∈ p.writes) (hk : (k, m) ∈ q.locks) (hm : m.isWrite = true) :
    S.target w ≠ k := by
  intro htarget
  obtain ⟨m', hm', hwrite⟩ := hlocked.covered hi hw
  have hfalse := hlocked.exclusive hij hi hj hm' (htarget ▸ hk)
  rw [LockMode.conflicts_of_isWrite hwrite hm] at hfalse
  contradiction

/-- The same for the writes of a statement that is about to finish. -/
theorem exec_target_ne [DecidableEq Key] {i j : ℕ}
    {q : Proc Db Key Write Stmt Res τ α} {w : Write} {k : Key} {m : LockMode}
    {stmt : Stmt} {snap cur : Db} {result : Res stmt} {ws : List Write}
    (hji : j ≠ i) (hj : sys.procs[j]? = some q)
    (hfree : blocked (S.lockSet stmt snap cur) (sys.heldByOthers i) = false)
    (hexec : S.exec stmt snap cur = .ok (result, ws))
    (hw : w ∈ ws) (hk : (k, m) ∈ q.locks) (hm : m.isWrite = true) :
    S.target w ≠ k := by
  intro htarget
  obtain ⟨m', hm', hwrite⟩ := S.exec_locked hexec w hw
  have hheld : (k, m) ∈ sys.heldByOthers i :=
    System.mem_heldByOthers.mpr ⟨j, q, hji, hj, hk⟩
  have hfalse := blocked_eq_false_iff.mp hfree k m' m (htarget ▸ hm') hheld
  rw [LockMode.conflicts_of_isWrite hwrite hm] at hfalse
  contradiction

/-- Outside a transaction a call sees the committed database. -/
theorem view_idle (hlocked : sys.WellLocked S) {i : ℕ}
    {p : Proc Db Key Write Stmt Res τ α} (hi : sys.procs[i]? = some p)
    (hinTx : p.inTx = false) : p.view S sys.db = sys.db := by
  unfold Proc.view
  rw [(hlocked.idle hi hinTx).1, Schema.applyAll_nil]

theorem of_forall_idle
    (hidle : ∀ p ∈ sys.procs, p.writes = [] ∧ p.locks = []) :
    sys.WellLocked S where
  exclusive := by
    intro i j p q k m m' _ hi _ hm _
    rw [(hidle p (List.mem_of_getElem? hi)).2] at hm
    simp at hm
  covered := by
    intro i p w hi hw
    rw [(hidle p (List.mem_of_getElem? hi)).1] at hw
    simp at hw
  idle := by
    intro i p hi _
    exact hidle p (List.mem_of_getElem? hi)

theorem spawn (hlocked : sys.WellLocked S) (call : τ)
    (prog : Prog Stmt Res α) :
    System.WellLocked S
      (⟨sys.db, sys.procs ++ [.fresh call prog]⟩ :
        System Db Key Write Stmt Res τ α) where
  exclusive := by
    intro i j p q k m m' hij hi hj hm hm'
    obtain ⟨_, rfl⟩ | hi := System.getElem?_append_eq hi
    · simp [Proc.fresh] at hm
    · obtain ⟨_, rfl⟩ | hj := System.getElem?_append_eq hj
      · simp [Proc.fresh] at hm'
      · exact hlocked.exclusive hij hi hj hm hm'
  covered := by
    intro i p w hi hw
    obtain ⟨_, rfl⟩ | hi := System.getElem?_append_eq hi
    · simp [Proc.fresh] at hw
    · exact hlocked.covered hi hw
  idle := by
    intro i p hi hinTx
    obtain ⟨_, rfl⟩ | hi := System.getElem?_append_eq hi
    · exact ⟨rfl, rfl⟩
    · exact hlocked.idle hi hinTx

/-- Replacing one call keeps the discipline if the new state of that call
excludes nobody and covers its own writes. -/
theorem set (hlocked : sys.WellLocked S) {i : ℕ}
    {p p' : Proc Db Key Write Stmt Res τ α} {db' : Db}
    (hi : sys.procs[i]? = some p)
    (hexclusive : ∀ {j : ℕ} {q : Proc Db Key Write Stmt Res τ α} {k : Key}
      {m m' : LockMode}, j ≠ i → sys.procs[j]? = some q →
      (k, m) ∈ p'.locks → (k, m') ∈ q.locks → m.conflicts m' = false)
    (hcovered : ∀ w ∈ p'.writes,
      ∃ m, (S.target w, m) ∈ p'.locks ∧ m.isWrite = true)
    (hidle : p'.inTx = false → p'.writes = [] ∧ p'.locks = []) :
    System.WellLocked S
      (⟨db', sys.procs.set i p'⟩ : System Db Key Write Stmt Res τ α) where
  exclusive := by
    intro a b q r k m m' hab ha hb hm hm'
    obtain ⟨hai, rfl⟩ | ⟨hai, hold⟩ := System.getElem?_set_eq hi ha
    · obtain ⟨hbi, _⟩ | ⟨hbi, hold⟩ := System.getElem?_set_eq hi hb
      · exact absurd (hai.trans hbi.symm) hab
      · exact hexclusive hbi hold hm hm'
    · obtain ⟨_, rfl⟩ | ⟨_, hold'⟩ := System.getElem?_set_eq hi hb
      · rw [LockMode.conflicts_comm]
        exact hexclusive hai hold hm' hm
      · exact hlocked.exclusive hab hold hold' hm hm'
  covered := by
    intro a q w ha hw
    obtain ⟨_, rfl⟩ | ⟨_, ha⟩ := System.getElem?_set_eq hi ha
    · exact hcovered w hw
    · exact hlocked.covered ha hw
  idle := by
    intro a q ha hinTx
    obtain ⟨_, rfl⟩ | ⟨_, ha⟩ := System.getElem?_set_eq hi ha
    · exact hidle hinTx
    · exact hlocked.idle ha hinTx

/-- A call that ends or leaves its transaction holds nothing. -/
theorem set_fresh (hlocked : sys.WellLocked S) {i : ℕ}
    {p : Proc Db Key Write Stmt Res τ α} {db' : Db} (call : τ)
    (prog : Prog Stmt Res α) (hi : sys.procs[i]? = some p) :
    System.WellLocked S
      (⟨db', sys.procs.set i (.fresh call prog)⟩ :
        System Db Key Write Stmt Res τ α) := by
  apply hlocked.set hi
  · intro j q k m m' _ _ hm
    simp [Proc.fresh] at hm
  · intro w hw
    simp [Proc.fresh] at hw
  · intro _
    exact ⟨rfl, rfl⟩

theorem change [DecidableEq Key] (hlocked : sys.WellLocked S) {i : ℕ}
    {p p' : Proc Db Key Write Stmt Res τ α} {db' : Db}
    (hi : sys.procs[i]? = some p)
    (hchange : System.Change S sys i p db' p') :
    System.WellLocked S
      (⟨db', sys.procs.set i p'⟩ : System Db Key Write Stmt Res τ α) := by
  cases hchange with
  | fail fault hrunning => exact hlocked.set_fresh _ _ hi
  | move hmove =>
      cases hmove with
      | beginTx hprog =>
          apply hlocked.set hi
          · intro j q k m m' hji hj hm hm'
            exact hlocked.exclusive (Ne.symm hji) hi hj hm hm'
          · intro w hw
            exact hlocked.covered (p := p) hi hw
          · intro hinTx
            simp at hinTx
      | takeSnapshot hprog hsnap =>
          apply hlocked.set hi
          · intro j q k m m' hji hj hm hm'
            exact hlocked.exclusive (Ne.symm hji) hi hj hm hm'
          · intro w hw
            exact hlocked.covered (p := p) hi hw
          · intro hinTx
            exact hlocked.idle (p := p) hi hinTx
      | error hprog hsnap hexec => exact hlocked.set_fresh _ _ hi
      | finish hprog hsnap hinTx hfree hexec =>
          apply hlocked.set hi
          · intro j q k m m' hji hj hm hm'
            obtain hm | hm := List.mem_append.mp hm
            · exact hlocked.exclusive (Ne.symm hji) hi hj hm hm'
            · exact blocked_eq_false_iff.mp hfree k m m' hm
                (System.mem_heldByOthers.mpr ⟨j, q, hji, hj, hm'⟩)
          · intro w hw
            obtain hw | hw := List.mem_append.mp hw
            · obtain ⟨m, hm, hwrite⟩ := hlocked.covered hi hw
              exact ⟨m, List.mem_append_left _ hm, hwrite⟩
            · obtain ⟨m, hm, hwrite⟩ := S.exec_locked hexec w hw
              exact ⟨m, List.mem_append_right _ hm, hwrite⟩
          · intro hfalse
            simp [hinTx] at hfalse
      | auto hprog hsnap hinTx hfree hexec => exact hlocked.set_fresh _ _ hi
      | commit hprog => exact hlocked.set_fresh _ _ hi
      | rollback hprog => exact hlocked.set_fresh _ _ hi

theorem step [DecidableEq Key] {start : τ → Prog Stmt Res α}
    {label : Label τ} (hlocked : sys.WellLocked S)
    (hstep : System.Step S start sys label sys') :
    sys'.WellLocked S := by
  obtain ⟨call, _, rfl⟩ | ⟨i, p, db', p', hi, hchange, rfl⟩ :=
    hstep.spawn_or_change
  · exact hlocked.spawn call (start call)
  · exact hlocked.change hi hchange

end System.WellLocked

/-- The writes a move publishes and the locks under which it does so. -/
theorem Proc.Move.published [DecidableEq Key] {S : Schema Db Key Write Stmt Res}
    {sys : System Db Key Write Stmt Res τ α} {i : ℕ}
    {p p' : Proc Db Key Write Stmt Res τ α} {db' : Db}
    (hlocked : sys.WellLocked S) (hi : sys.procs[i]? = some p)
    (hmove : p.Move S sys.db (sys.heldByOthers i) db' p') :
    db' = sys.db ∨
      ∃ ws, db' = S.applyAll ws sys.db ∧
        ∀ (j : ℕ) (q : Proc Db Key Write Stmt Res τ α) (k : Key)
          (m : LockMode), j ≠ i → sys.procs[j]? = some q → (k, m) ∈ q.locks →
          m.isWrite = true → ∀ w ∈ ws, S.target w ≠ k := by
  cases hmove with
  | beginTx hprog => exact Or.inl rfl
  | takeSnapshot hprog hsnap => exact Or.inl rfl
  | error hprog hsnap hexec => exact Or.inl rfl
  | finish hprog hsnap hinTx hfree hexec => exact Or.inl rfl
  | rollback hprog => exact Or.inl rfl
  | auto hprog hsnap hinTx hfree hexec =>
      refine Or.inr ⟨_, congrArg _ (hlocked.view_idle hi hinTx), ?_⟩
      intro j q k m hji hj hk hm w hw
      exact System.WellLocked.exec_target_ne hji hj hfree hexec hw hk hm
  | commit hprog =>
      refine Or.inr ⟨p.writes, rfl, ?_⟩
      intro j q k m hji hj hk hm w hw
      exact hlocked.target_ne (Ne.symm hji) hi hj hw hk hm

end ReadCommitted
