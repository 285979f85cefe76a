import Untangled.ReadCommittedLocking

/-!
# Serial runs

`Prog.run` executes one program alone, with an arbitrary pattern of steps at
which an exception is thrown.  A program that is one transaction leaves the
database alone whenever it does not return, and a serial run without thrown
exceptions is one of the interleavings of the concurrent system: the system in
which only that call moves.
-/

namespace ReadCommitted

variable {Db Key Write Stmt : Type} {Res : Stmt → Type} {τ α : Type}

/-- Run a program alone.  `work` is the working copy of an open transaction
and `fails n` says that the `n`-th step throws instead of taking effect. -/
def Prog.run (S : Schema Db Key Write Stmt Res) (fails : ℕ → Bool) :
    Prog Stmt Res α → ℕ → Option Db → Db → Except Fault α × Db
  | .ret reply, _, _, db => (.ok reply, db)
  | .throw fault, _, _, db => (.error fault, db)
  | .beginTx next, n, work, db =>
      if fails n then (.error .interrupted, db)
      else next.run S fails (n + 1) (some (work.getD db)) db
  | .query stmt next, n, work, db =>
      if fails n then (.error .interrupted, db)
      else
        match S.exec stmt (work.getD db) (work.getD db) with
        | .error fault => (.error fault, db)
        | .ok (result, ws) =>
            match work with
            | some view =>
                (next result).run S fails (n + 1) (some (S.applyAll ws view)) db
            | none => (next result).run S fails (n + 1) none (S.applyAll ws db)
  | .commit next, n, work, db =>
      if fails n then (.error .interrupted, db)
      else next.run S fails (n + 1) none (work.getD db)
  | .rollback next, n, _, db =>
      if fails n then (.error .interrupted, db)
      else next.run S fails (n + 1) none db

/-- The run in which no step throws. -/
def Prog.runSerial (S : Schema Db Key Write Stmt Res)
    (prog : Prog Stmt Res α) (db : Db) : Except Fault α × Db :=
  prog.run S (fun _ => false) 0 none db

/-- One statement when nothing runs beside it: its snapshot is the newest
state. -/
def Schema.alone (S : Schema Db Key Write Stmt Res) (stmt : Stmt) (db : Db) :
    Except Fault (Res stmt × Db) :=
  match S.exec stmt db db with
  | .error fault => .error fault
  | .ok (result, ws) => .ok (result, S.applyAll ws db)

section Undisturbed

variable {S : Schema Db Key Write Stmt Res} {n : ℕ} {work : Option Db}
  {view view' db db' : Db} {next : Prog Stmt Res α}

theorem Schema.alone_of_exec {stmt : Stmt} {result : Res stmt}
    {ws : List Write} (hexec : S.exec stmt db db = .ok (result, ws))
    (hws : S.applyAll ws db = db') : S.alone stmt db = .ok (result, db') := by
  simp [Schema.alone, hexec, hws]

theorem Schema.alone_of_error {stmt : Stmt} {fault : Fault}
    (hexec : S.exec stmt db db = .error fault) :
    S.alone stmt db = .error fault := by
  simp [Schema.alone, hexec]

@[simp] theorem Prog.run_ret (reply : α) :
    (Prog.ret reply : Prog Stmt Res α).run S (fun _ => false) n work db =
      (.ok reply, db) := rfl

@[simp] theorem Prog.run_throw (fault : Fault) :
    (Prog.throw fault : Prog Stmt Res α).run S (fun _ => false) n work db =
      (.error fault, db) := rfl

@[simp] theorem Prog.run_beginTx :
    (Prog.beginTx next).run S (fun _ => false) n work db =
      next.run S (fun _ => false) (n + 1) (some (work.getD db)) db := by
  simp [Prog.run]

@[simp] theorem Prog.run_commit :
    (Prog.commit next).run S (fun _ => false) n work db =
      next.run S (fun _ => false) (n + 1) none (work.getD db) := by
  simp [Prog.run]

@[simp] theorem Prog.run_rollback :
    (Prog.rollback next).run S (fun _ => false) n work db =
      next.run S (fun _ => false) (n + 1) none db := by
  simp [Prog.run]

theorem Prog.run_query_some {stmt : Stmt} {next : Res stmt → Prog Stmt Res α}
    {result : Res stmt} (halone : S.alone stmt view = .ok (result, view')) :
    (Prog.query stmt next).run S (fun _ => false) n (some view) db =
      (next result).run S (fun _ => false) (n + 1) (some view') db := by
  unfold Schema.alone at halone
  cases hexec : S.exec stmt view view with
  | error fault => simp [hexec] at halone
  | ok outcome =>
      simp only [hexec, Except.ok.injEq, Prod.mk.injEq] at halone
      obtain ⟨rfl, rfl⟩ := halone
      simp [Prog.run, hexec]

theorem Prog.run_query_none {stmt : Stmt} {next : Res stmt → Prog Stmt Res α}
    {result : Res stmt} (halone : S.alone stmt db = .ok (result, db')) :
    (Prog.query stmt next).run S (fun _ => false) n none db =
      (next result).run S (fun _ => false) (n + 1) none db' := by
  unfold Schema.alone at halone
  cases hexec : S.exec stmt db db with
  | error fault => simp [hexec] at halone
  | ok outcome =>
      simp only [hexec, Except.ok.injEq, Prod.mk.injEq] at halone
      obtain ⟨rfl, rfl⟩ := halone
      simp [Prog.run, hexec]

theorem Prog.run_query_error {stmt : Stmt} {next : Res stmt → Prog Stmt Res α}
    {fault : Fault} (halone : S.alone stmt (work.getD db) = .error fault) :
    (Prog.query stmt next).run S (fun _ => false) n work db =
      (.error fault, db) := by
  unfold Schema.alone at halone
  cases hexec : S.exec stmt (work.getD db) (work.getD db) with
  | error f =>
      simp only [hexec, Except.error.injEq] at halone
      simp [Prog.run, hexec, halone]
  | ok outcome => simp [hexec] at halone

theorem Prog.run_query_some_error {stmt : Stmt}
    {next : Res stmt → Prog Stmt Res α} {fault : Fault}
    (halone : S.alone stmt view = .error fault) :
    (Prog.query stmt next).run S (fun _ => false) n (some view) db =
      (.error fault, db) :=
  Prog.run_query_error halone

end Undisturbed

/-- The rest of a transaction: statements, then one `COMMIT` or `ROLLBACK`
that is the last step before the call ends. -/
def Prog.Closing : Prog Stmt Res α → Prop
  | .ret _ => False
  | .throw _ => False
  | .beginTx _ => False
  | .query _ next => ∀ result, (next result).Closing
  | .commit next => ∃ reply, next = .ret reply
  | .rollback next =>
      (∃ reply, next = .ret reply) ∨ ∃ fault, next = .throw fault

/-- A call that is exactly one transaction. -/
def Prog.Atomic (prog : Prog Stmt Res α) : Prop :=
  ∃ body, prog = .beginTx body ∧ body.Closing

theorem Prog.Closing.db_eq_of_error
    {S : Schema Db Key Write Stmt Res} {fails : ℕ → Bool}
    {prog : Prog Stmt Res α} (hclosing : prog.Closing)
    {n : ℕ} {view db db' : Db} {fault : Fault}
    (hrun : prog.run S fails n (some view) db = (.error fault, db')) :
    db' = db := by
  induction prog generalizing n view with
  | ret reply => exact absurd hclosing id
  | throw f => exact absurd hclosing id
  | beginTx next ih => exact absurd hclosing id
  | query stmt next ih =>
      simp only [Prog.run, Option.getD_some] at hrun
      split at hrun
      · exact (Prod.mk.inj hrun).2.symm
      · cases hexec : S.exec stmt view view with
        | error f =>
            simp only [hexec, Prod.mk.injEq] at hrun
            exact hrun.2.symm
        | ok outcome =>
            simp only [hexec] at hrun
            exact ih outcome.1 (hclosing outcome.1) hrun
  | commit next ih =>
      obtain ⟨reply, rfl⟩ := hclosing
      simp only [Prog.run] at hrun
      split at hrun
      · exact (Prod.mk.inj hrun).2.symm
      · simp at hrun
  | rollback next ih =>
      obtain ⟨reply, rfl⟩ | ⟨f, rfl⟩ := hclosing
      · simp only [Prog.run] at hrun
        split at hrun
        · exact (Prod.mk.inj hrun).2.symm
        · simp at hrun
      · simp only [Prog.run] at hrun
        split at hrun
        · exact (Prod.mk.inj hrun).2.symm
        · exact (Prod.mk.inj hrun).2.symm

/-- Whatever step throws, a transaction that does not return has changed
nothing. -/
theorem Prog.Atomic.db_eq_of_error
    {S : Schema Db Key Write Stmt Res} {fails : ℕ → Bool}
    {prog : Prog Stmt Res α} (hatomic : prog.Atomic)
    {n : ℕ} {db db' : Db} {fault : Fault}
    (hrun : prog.run S fails n none db = (.error fault, db')) :
    db' = db := by
  obtain ⟨body, rfl, hclosing⟩ := hatomic
  simp only [Prog.run] at hrun
  split at hrun
  · exact (Prod.mk.inj hrun).2.symm
  · exact hclosing.db_eq_of_error hrun

/-- No call ends while its transaction is open; the flag says whether one
is. -/
def Prog.Balanced : Bool → Prog Stmt Res α → Prop
  | tx, .ret _ => tx = false
  | tx, .throw _ => tx = false
  | _, .beginTx next => next.Balanced true
  | tx, .query _ next => ∀ result, (next result).Balanced tx
  | _, .commit next => next.Balanced false
  | _, .rollback next => next.Balanced false

theorem Prog.Closing.balanced {prog : Prog Stmt Res α}
    (hclosing : prog.Closing) {tx : Bool} : prog.Balanced tx := by
  induction prog with
  | ret reply => exact absurd hclosing id
  | throw f => exact absurd hclosing id
  | beginTx next ih => exact absurd hclosing id
  | query stmt next ih => exact fun result => ih result (hclosing result)
  | commit next ih =>
      obtain ⟨reply, rfl⟩ := hclosing
      rfl
  | rollback next ih =>
      obtain ⟨reply, rfl⟩ | ⟨f, rfl⟩ := hclosing
      · rfl
      · rfl

theorem Prog.Atomic.balanced {prog : Prog Stmt Res α}
    (hatomic : prog.Atomic) {tx : Bool} : prog.Balanced tx := by
  obtain ⟨body, rfl, hclosing⟩ := hatomic
  exact hclosing.balanced

/-- If a call returns although some steps may throw, none of the steps it took
threw: the outcome is that of the run without exceptions. -/
theorem Prog.run_eq_of_ok
    {S : Schema Db Key Write Stmt Res} {fails : ℕ → Bool}
    {prog : Prog Stmt Res α} {n m : ℕ} {work : Option Db} {db db' : Db}
    {reply : α}
    (hrun : prog.run S fails n work db = (.ok reply, db')) :
    prog.run S (fun _ => false) m work db = (.ok reply, db') := by
  induction prog generalizing n m work db with
  | ret r => simpa [Prog.run] using hrun
  | throw f => simp [Prog.run] at hrun
  | beginTx next ih =>
      simp only [Prog.run] at hrun ⊢
      split at hrun
      · simp at hrun
      · simpa using ih hrun
  | query stmt next ih =>
      simp only [Prog.run] at hrun ⊢
      split at hrun
      · simp at hrun
      · cases hexec : S.exec stmt (work.getD db) (work.getD db) with
        | error f => simp [hexec] at hrun
        | ok outcome =>
            simp only [hexec, Bool.false_eq_true, if_false] at hrun ⊢
            cases work with
            | some view => exact ih outcome.1 hrun
            | none => exact ih outcome.1 hrun
  | commit next ih =>
      simp only [Prog.run] at hrun ⊢
      split at hrun
      · simp at hrun
      · simpa using ih hrun
  | rollback next ih =>
      simp only [Prog.run] at hrun ⊢
      split at hrun
      · simp at hrun
      · simpa using ih hrun

/-! ## A serial run is an interleaving -/

/-- The end of a call that returned `outcome`. -/
def Prog.ofOutcome : Except Fault α → Prog Stmt Res α
  | .ok reply => .ret reply
  | .error fault => .throw fault

section Embedding

variable [DecidableEq Key] {S : Schema Db Key Write Stmt Res}
  {start : τ → Prog Stmt Res α}
  {ok : System Db Key Write Stmt Res τ α → Label τ → Prop}

theorem blocked_nil (wanted : List (Key × LockMode)) :
    blocked wanted ([] : List (Key × LockMode)) = false := by
  simp [blocked]

theorem System.Steps.trans
    {sys sys' sys'' : System Db Key Write Stmt Res τ α}
    (hfirst : System.Steps S start ok sys sys')
    (hrest : System.Steps S start ok sys' sys'') :
    System.Steps S start ok sys sys'' :=
  Relation.ReflTransGen.trans hfirst hrest

/-- One move of the last call of a system whose other calls hold no locks. -/
theorem System.Steps.advance_last
    {procs : List (Proc Db Key Write Stmt Res τ α)} {db db' : Db}
    {p p' : Proc Db Key Write Stmt Res τ α}
    (hok : ∀ sys i, ok sys (.advance i))
    (hquiet : ∀ q ∈ procs, q.locks = [])
    (hadvance : p.advance S db [] = some (db', p')) :
    System.Steps S start ok ⟨db, procs ++ [p]⟩ ⟨db', procs ++ [p']⟩ := by
  have hheld : (⟨db, procs ++ [p]⟩ :
      System Db Key Write Stmt Res τ α).heldByOthers procs.length = [] := by
    unfold System.heldByOthers
    rw [List.eraseIdx_append_of_length_le (by simp)]
    simpa using hquiet
  have hstep : System.Step S start ⟨db, procs ++ [p]⟩
      (.advance procs.length) ⟨db', (procs ++ [p]).set procs.length p'⟩ := by
    apply System.Step.advance (p := p)
    · simp
    · rw [hheld]
      exact hadvance
  rw [List.set_append_right _ _ (by simp)] at hstep
  simp only [Nat.sub_self, List.set_cons_zero] at hstep
  exact Relation.ReflTransGen.single ⟨_, hok _ _, hstep⟩

/-- The call runs to its end exactly as `Prog.run` says. -/
theorem System.Steps.run_last
    {procs : List (Proc Db Key Write Stmt Res τ α)}
    (hok : ∀ sys i, ok sys (.advance i))
    (hquiet : ∀ q ∈ procs, q.locks = [])
    (call : τ) (prog : Prog Stmt Res α) (n : ℕ) (work : Option Db) (db : Db)
    (writes : List Write) (locks : List (Key × LockMode))
    (hview : S.applyAll writes db = work.getD db)
    (hbalanced : prog.Balanced work.isSome)
    (hidle : work = none → writes = [] ∧ locks = []) :
    System.Steps S start ok
      ⟨db, procs ++ [⟨call, prog, work.isSome, none, writes, locks⟩]⟩
      ⟨(prog.run S (fun _ => false) n work db).2, procs ++
        [.fresh call (.ofOutcome (prog.run S (fun _ => false) n work db).1)]⟩ := by
  induction prog generalizing n work db writes locks with
  | ret reply =>
      obtain rfl : work = none := Option.isSome_eq_false_iff.mp hbalanced |>
        Option.isNone_iff_eq_none.mp
      obtain ⟨rfl, rfl⟩ := hidle rfl
      exact Relation.ReflTransGen.refl
  | throw fault =>
      obtain rfl : work = none := Option.isSome_eq_false_iff.mp hbalanced |>
        Option.isNone_iff_eq_none.mp
      obtain ⟨rfl, rfl⟩ := hidle rfl
      exact Relation.ReflTransGen.refl
  | beginTx next ih =>
      have hrest := ih (n + 1) (some (work.getD db)) db writes locks hview
        hbalanced (by simp)
      rw [Prog.run_beginTx]
      exact .trans (.advance_last hok hquiet rfl) hrest
  | query stmt next ih =>
      have hopen : System.Steps S start ok
          ⟨db, procs ++ [⟨call, .query stmt next, work.isSome, none, writes,
            locks⟩]⟩
          ⟨db, procs ++ [⟨call, .query stmt next, work.isSome,
            some (work.getD db), writes, locks⟩]⟩ := by
        rw [← hview]
        exact .advance_last hok hquiet rfl
      cases hexec : S.exec stmt (work.getD db) (work.getD db) with
      | error fault =>
          rw [Prog.run_query_error (Schema.alone_of_error hexec)]
          refine .trans hopen (.advance_last hok hquiet ?_)
          simp [Proc.advance, Proc.view, hview, hexec, blocked_nil, Proc.fail,
            Prog.ofOutcome]
      | ok outcome =>
          obtain ⟨result, ws⟩ := outcome
          cases work with
          | some view =>
              simp only [Option.getD_some] at hexec hview hopen
              rw [Prog.run_query_some (Schema.alone_of_exec hexec rfl)]
              have hrest := ih result (n + 1) (some (S.applyAll ws view)) db
                (writes ++ ws) (locks ++ S.lockSet stmt view view)
                (by rw [Schema.applyAll_append, hview, Option.getD_some])
                (hbalanced result) (by simp)
              refine .trans hopen (.trans (.advance_last hok hquiet ?_) hrest)
              simp [Proc.advance, Proc.view, hview, hexec, blocked_nil]
          | none =>
              simp only [Option.getD_none] at hexec hview hopen
              rw [Prog.run_query_none (Schema.alone_of_exec hexec rfl)]
              have hrest := ih result (n + 1) none (S.applyAll ws db) [] [] rfl
                (hbalanced result) fun _ => ⟨rfl, rfl⟩
              refine .trans hopen (.trans (.advance_last hok hquiet ?_) hrest)
              simp [Proc.advance, Proc.view, hview, hexec, blocked_nil,
                Proc.fresh]
  | commit next ih =>
      have hrest := ih (n + 1) none (work.getD db) [] [] rfl hbalanced
        fun _ => ⟨rfl, rfl⟩
      rw [Prog.run_commit]
      refine .trans ?_ hrest
      rw [← hview]
      exact .advance_last hok hquiet rfl
  | rollback next ih =>
      have hrest := ih (n + 1) none db [] [] rfl hbalanced fun _ => ⟨rfl, rfl⟩
      rw [Prog.run_rollback]
      exact .trans (.advance_last hok hquiet rfl) hrest

/-! ### Serial histories -/

/-- The system after a call has been served with nothing beside it. -/
def System.serve (S : Schema Db Key Write Stmt Res)
    (start : τ → Prog Stmt Res α) (sys : System Db Key Write Stmt Res τ α)
    (call : τ) : System Db Key Write Stmt Res τ α where
  db := ((start call).runSerial S sys.db).2
  procs := sys.procs ++
    [.fresh call (.ofOutcome ((start call).runSerial S sys.db).1)]

/-- Histories in which the calls are served one after the other, each one
admitted by `admits` when it arrives. -/
def System.SerialSteps (S : Schema Db Key Write Stmt Res)
    (start : τ → Prog Stmt Res α)
    (admits : System Db Key Write Stmt Res τ α → τ → Prop) :
    System Db Key Write Stmt Res τ α →
      System Db Key Write Stmt Res τ α → Prop :=
  Relation.ReflTransGen fun sys sys' =>
    ∃ call, admits sys call ∧ sys' = sys.serve S start call

/-- Every call has ended and holds nothing. -/
def System.Quiescent (sys : System Db Key Write Stmt Res τ α) : Prop :=
  ∀ p ∈ sys.procs, p.running = false ∧ p.locks = []

omit [DecidableEq Key] in
theorem System.Quiescent.serve {sys : System Db Key Write Stmt Res τ α}
    (hquiescent : sys.Quiescent) (call : τ) :
    (sys.serve S start call).Quiescent := by
  intro p hp
  obtain hp | hp := List.mem_append.mp hp
  · exact hquiescent p hp
  · obtain rfl := List.mem_singleton.mp hp
    refine ⟨?_, rfl⟩
    cases ((start call).runSerial S sys.db).1 <;> rfl

theorem System.Steps.serve {sys : System Db Key Write Stmt Res τ α} {call : τ}
    (hquiescent : sys.Quiescent) (hbalanced : (start call).Balanced false)
    (hspawn : ok sys (.spawn call)) (hok : ∀ sys i, ok sys (.advance i)) :
    System.Steps S start ok sys (sys.serve S start call) := by
  have harrive : System.Steps S start ok sys
      ⟨sys.db, sys.procs ++ [.fresh call (start call)]⟩ :=
    Relation.ReflTransGen.single ⟨_, hspawn, .spawn call⟩
  refine .trans harrive ?_
  exact .run_last hok (fun q hq => (hquiescent q hq).2) call (start call) 0 none
    sys.db [] [] rfl hbalanced fun _ => ⟨rfl, rfl⟩

/-- A serial history is one of the interleavings. -/
theorem System.SerialSteps.steps
    {admits : System Db Key Write Stmt Res τ α → τ → Prop}
    {sys sys' : System Db Key Write Stmt Res τ α}
    (hserial : System.SerialSteps S start admits sys sys')
    (hquiescent : sys.Quiescent)
    (hbalanced : ∀ {sys call}, admits sys call → (start call).Balanced false)
    (hspawn : ∀ {sys call}, admits sys call → ok sys (.spawn call))
    (hok : ∀ sys i, ok sys (.advance i)) :
    System.Steps S start ok sys sys' ∧ sys'.Quiescent := by
  induction hserial with
  | refl => exact ⟨Relation.ReflTransGen.refl, hquiescent⟩
  | tail _ hlast ih =>
      obtain ⟨call, hadmits, rfl⟩ := hlast
      exact ⟨.trans ih.1 (.serve ih.2 (hbalanced hadmits) (hspawn hadmits) hok),
        ih.2.serve call⟩

end Embedding

end ReadCommitted
