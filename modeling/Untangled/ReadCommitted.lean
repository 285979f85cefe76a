import Mathlib.Logic.Relation
import Mathlib.Tactic

/-!
# Transactions under READ COMMITTED

A generic operational model of client programs that talk to a relational
database at the READ COMMITTED isolation level.

A program is the tree of the statements it sends; the continuation of a
statement receives its result.  A statement takes its snapshot when it starts
and finishes later: it waits for the row locks of other transactions and then
acts on the rows of its snapshot as they are in the newest committed state.
The writes of an open transaction are kept beside the committed database and
are published by `COMMIT`; outside a transaction every statement commits by
itself.

Everything is generic in the database, the row writes, the statements and the
lockable rows.  `Schema` says what one statement does; the law that a
statement locks every row it writes is a field of it.
-/

namespace ReadCommitted

/-- The row lock strengths that occur: the lock of a foreign-key check, of an
update that leaves the key columns alone, and of `FOR UPDATE` or a deletion. -/
inductive LockMode
  | keyShare
  | noKeyUpdate
  | update
  deriving DecidableEq

namespace LockMode

def conflicts : LockMode → LockMode → Bool
  | .update, _ => true
  | _, .update => true
  | .noKeyUpdate, .noKeyUpdate => true
  | _, _ => false

/-- The modes under which a row may be written. -/
def isWrite : LockMode → Bool
  | .keyShare => false
  | .noKeyUpdate => true
  | .update => true

theorem conflicts_comm (m m' : LockMode) :
    m.conflicts m' = m'.conflicts m := by
  cases m <;> cases m' <;> rfl

@[simp] theorem conflicts_update_left (m : LockMode) :
    LockMode.update.conflicts m = true := by
  cases m <;> rfl

@[simp] theorem conflicts_update_right (m : LockMode) :
    m.conflicts .update = true := by
  cases m <;> rfl

theorem conflicts_of_isWrite {m m' : LockMode}
    (hm : m.isWrite = true) (hm' : m'.isWrite = true) :
    m.conflicts m' = true := by
  cases m <;> cases m' <;> simp_all [isWrite, conflicts]

end LockMode

/-- Why a program stopped without returning: an error of the database, or any
other exception thrown while one of its steps was under way. -/
inductive Fault
  | uniqueViolation
  | foreignKeyViolation
  | numericValueOutOfRange
  | invalidTextRepresentation
  | deadlockDetected
  | interrupted
  deriving DecidableEq

/-- A client program: the statements it sends, in order, each with what the
program does on the result.  `ret` and `throw` end the call. -/
inductive Prog (Stmt : Type) (Res : Stmt → Type) (α : Type) : Type
  | ret (reply : α)
  | throw (fault : Fault)
  | beginTx (next : Prog Stmt Res α)
  | query (stmt : Stmt) (next : Res stmt → Prog Stmt Res α)
  | commit (next : Prog Stmt Res α)
  | rollback (next : Prog Stmt Res α)

/-- Every reply the program can give satisfies `P`. -/
def Prog.Returns {Stmt : Type} {Res : Stmt → Type} {α : Type} (P : α → Prop) :
    Prog Stmt Res α → Prop
  | .ret reply => P reply
  | .throw _ => True
  | .beginTx next => next.Returns P
  | .query _ next => ∀ result, (next result).Returns P
  | .commit next => next.Returns P
  | .rollback next => next.Returns P

/-- Every statement the program can send satisfies `P`. -/
def Prog.Uses {Stmt : Type} {Res : Stmt → Type} {α : Type} (P : Stmt → Prop) :
    Prog Stmt Res α → Prop
  | .ret _ => True
  | .throw _ => True
  | .beginTx next => next.Uses P
  | .query stmt next => P stmt ∧ ∀ result, (next result).Uses P
  | .commit next => next.Uses P
  | .rollback next => next.Uses P

/-- The meaning of one statement.  `lockSet` and `exec` see the snapshot the
statement took when it started and the newest rows it finds when it finishes. -/
structure Schema (Db Key Write Stmt : Type) (Res : Stmt → Type) where
  apply : Write → Db → Db
  target : Write → Key
  lockSet : Stmt → Db → Db → List (Key × LockMode)
  exec : (stmt : Stmt) → Db → Db → Except Fault (Res stmt × List Write)
  exec_locked :
    ∀ {stmt snap cur result writes},
      exec stmt snap cur = .ok (result, writes) →
        ∀ w ∈ writes,
          ∃ m, (target w, m) ∈ lockSet stmt snap cur ∧ m.isWrite = true

variable {Db Key Write Stmt : Type} {Res : Stmt → Type} {τ α : Type}

/-- The database after a list of writes, in order. -/
def Schema.applyAll
    (S : Schema Db Key Write Stmt Res) (writes : List Write) (db : Db) : Db :=
  writes.foldl (fun db w => S.apply w db) db

@[simp] theorem Schema.applyAll_nil
    (S : Schema Db Key Write Stmt Res) (db : Db) :
    S.applyAll [] db = db := rfl

@[simp] theorem Schema.applyAll_cons
    (S : Schema Db Key Write Stmt Res) (w : Write) (ws : List Write)
    (db : Db) :
    S.applyAll (w :: ws) db = S.applyAll ws (S.apply w db) := rfl

theorem Schema.applyAll_append
    (S : Schema Db Key Write Stmt Res) (ws ws' : List Write) (db : Db) :
    S.applyAll (ws ++ ws') db = S.applyAll ws' (S.applyAll ws db) := by
  simp [Schema.applyAll, List.foldl_append]

/-- A running or ended call together with its open transaction: the writes
not yet published and the row locks held.  `snapshot` is set while a
statement is under way. -/
structure Proc (Db Key Write Stmt : Type) (Res : Stmt → Type) (τ α : Type) where
  call : τ
  prog : Prog Stmt Res α
  inTx : Bool
  snapshot : Option Db
  writes : List Write
  locks : List (Key × LockMode)

namespace Proc

/-- A call that holds nothing and is about to run `prog`. -/
def fresh (call : τ) (prog : Prog Stmt Res α) :
    Proc Db Key Write Stmt Res τ α where
  call := call
  prog := prog
  inTx := false
  snapshot := none
  writes := []
  locks := []

/-- The call ends with a fault: its transaction is rolled back. -/
def fail (p : Proc Db Key Write Stmt Res τ α) (fault : Fault) :
    Proc Db Key Write Stmt Res τ α :=
  fresh p.call (.throw fault)

def running (p : Proc Db Key Write Stmt Res τ α) : Bool :=
  match p.prog with
  | .ret _ => false
  | .throw _ => false
  | _ => true

/-- What the call sees: the committed database under its own writes. -/
def view (S : Schema Db Key Write Stmt Res)
    (p : Proc Db Key Write Stmt Res τ α) (db : Db) : Db :=
  S.applyAll p.writes db

end Proc

/-- Two locks exclude each other: same row, conflicting strengths. -/
def clash [DecidableEq Key] (l l' : Key × LockMode) : Bool :=
  decide (l.1 = l'.1) && l.2.conflicts l'.2

/-- Some lock of `wanted` is excluded by a lock of `held`. -/
def blocked [DecidableEq Key] (wanted held : List (Key × LockMode)) : Bool :=
  wanted.any fun l => held.any fun l' => clash l l'

theorem blocked_eq_false_iff [DecidableEq Key]
    {wanted held : List (Key × LockMode)} :
    blocked wanted held = false ↔
      ∀ k m m', (k, m) ∈ wanted → (k, m') ∈ held → m.conflicts m' = false := by
  simp only [blocked, clash, List.any_eq_false]
  constructor
  · intro h k m m' hm hm'
    have hpair := h (k, m) hm
    simp only [Bool.not_eq_true, List.any_eq_false] at hpair
    simpa using hpair (k, m') hm'
  · rintro h ⟨k, m⟩ hm
    simp only [Bool.not_eq_true, List.any_eq_false]
    rintro ⟨k', m'⟩ hm'
    by_cases hk : k = k'
    · subst k'
      simpa using h k m m' hm hm'
    · simp [hk]

/-- One move of a call against the committed database, given the locks other
calls hold.  A statement starts by taking its snapshot; it finishes only when
nobody else holds a lock it needs. -/
def Proc.advance [DecidableEq Key] (S : Schema Db Key Write Stmt Res)
    (db : Db) (held : List (Key × LockMode))
    (p : Proc Db Key Write Stmt Res τ α) :
    Option (Db × Proc Db Key Write Stmt Res τ α) :=
  match p.prog with
  | .ret _ => none
  | .throw _ => none
  | .beginTx next => some (db, { p with prog := next, inTx := true })
  | .query stmt next =>
      match p.snapshot with
      | none => some (db, { p with snapshot := some (p.view S db) })
      | some snap =>
          let cur := p.view S db
          if blocked (S.lockSet stmt snap cur) held then none
          else
            match S.exec stmt snap cur with
            | .error fault => some (db, p.fail fault)
            | .ok (result, ws) =>
                if p.inTx then
                  some (db, { p with
                    prog := next result
                    snapshot := none
                    writes := p.writes ++ ws
                    locks := p.locks ++ S.lockSet stmt snap cur })
                else
                  some (S.applyAll ws cur, .fresh p.call (next result))
  | .commit next => some (p.view S db, .fresh p.call next)
  | .rollback next => some (db, .fresh p.call next)

/-- What a move can be.  `advance_move` is the one place where `advance` is
taken apart; every invariant is proved by cases on this. -/
inductive Proc.Move [DecidableEq Key] (S : Schema Db Key Write Stmt Res)
    (db : Db) (held : List (Key × LockMode))
    (p : Proc Db Key Write Stmt Res τ α) :
    Db → Proc Db Key Write Stmt Res τ α → Prop
  | beginTx {next} (hprog : p.prog = .beginTx next) :
      Move S db held p db { p with prog := next, inTx := true }
  | takeSnapshot {stmt next} (hprog : p.prog = .query stmt next)
      (hsnap : p.snapshot = none) :
      Move S db held p db { p with snapshot := some (p.view S db) }
  | error {stmt next snap fault} (hprog : p.prog = .query stmt next)
      (hsnap : p.snapshot = some snap)
      (hexec : S.exec stmt snap (p.view S db) = .error fault) :
      Move S db held p db (p.fail fault)
  | finish {stmt next snap result ws} (hprog : p.prog = .query stmt next)
      (hsnap : p.snapshot = some snap) (hinTx : p.inTx = true)
      (hfree : blocked (S.lockSet stmt snap (p.view S db)) held = false)
      (hexec : S.exec stmt snap (p.view S db) = .ok (result, ws)) :
      Move S db held p db { p with
        prog := next result
        snapshot := none
        writes := p.writes ++ ws
        locks := p.locks ++ S.lockSet stmt snap (p.view S db) }
  | auto {stmt next snap result ws} (hprog : p.prog = .query stmt next)
      (hsnap : p.snapshot = some snap) (hinTx : p.inTx = false)
      (hfree : blocked (S.lockSet stmt snap (p.view S db)) held = false)
      (hexec : S.exec stmt snap (p.view S db) = .ok (result, ws)) :
      Move S db held p (S.applyAll ws (p.view S db)) (.fresh p.call (next result))
  | commit {next} (hprog : p.prog = .commit next) :
      Move S db held p (p.view S db) (.fresh p.call next)
  | rollback {next} (hprog : p.prog = .rollback next) :
      Move S db held p db (.fresh p.call next)

theorem Proc.advance_move [DecidableEq Key] {S : Schema Db Key Write Stmt Res}
    {db db' : Db} {held : List (Key × LockMode)}
    {p p' : Proc Db Key Write Stmt Res τ α}
    (hstep : p.advance S db held = some (db', p')) :
    p.Move S db held db' p' := by
  unfold Proc.advance at hstep
  cases hprog : p.prog with
  | ret reply => simp [hprog] at hstep
  | throw fault => simp [hprog] at hstep
  | beginTx next =>
      simp only [hprog, Option.some.injEq, Prod.mk.injEq] at hstep
      obtain ⟨rfl, rfl⟩ := hstep
      exact .beginTx hprog
  | commit next =>
      simp only [hprog, Option.some.injEq, Prod.mk.injEq] at hstep
      obtain ⟨rfl, rfl⟩ := hstep
      exact .commit hprog
  | rollback next =>
      simp only [hprog, Option.some.injEq, Prod.mk.injEq] at hstep
      obtain ⟨rfl, rfl⟩ := hstep
      exact .rollback hprog
  | query stmt next =>
      simp only [hprog] at hstep
      cases hsnap : p.snapshot with
      | none =>
          simp only [hsnap, Option.some.injEq, Prod.mk.injEq] at hstep
          obtain ⟨rfl, rfl⟩ := hstep
          rw [← hprog]
          exact .takeSnapshot hprog hsnap
      | some snap =>
          simp only [hsnap] at hstep
          split at hstep
          · cases hstep
          · rename_i hblocked
            have hfree : blocked (S.lockSet stmt snap (p.view S db)) held = false := by
              simpa using hblocked
            cases hexec : S.exec stmt snap (p.view S db) with
            | error fault =>
                simp only [hexec, Option.some.injEq, Prod.mk.injEq] at hstep
                obtain ⟨rfl, rfl⟩ := hstep
                exact .error hprog hsnap hexec
            | ok outcome =>
                obtain ⟨result, ws⟩ := outcome
                simp only [hexec] at hstep
                cases hinTx : p.inTx with
                | true =>
                    simp only [hinTx, if_true, Option.some.injEq,
                      Prod.mk.injEq] at hstep
                    obtain ⟨rfl, rfl⟩ := hstep
                    rw [← hinTx]
                    exact .finish hprog hsnap hinTx hfree hexec
                | false =>
                    simp only [hinTx, Bool.false_eq_true, if_false,
                      Option.some.injEq, Prod.mk.injEq] at hstep
                    obtain ⟨rfl, rfl⟩ := hstep
                    exact .auto hprog hsnap hinTx hfree hexec

theorem Proc.Move.call_eq [DecidableEq Key] {S : Schema Db Key Write Stmt Res}
    {db db' : Db} {held : List (Key × LockMode)}
    {p p' : Proc Db Key Write Stmt Res τ α}
    (hmove : p.Move S db held db' p') :
    p'.call = p.call := by
  cases hmove <;> rfl

/-! ### Moves from a known position -/

/-- The moves of a call whose next statement is `stmt`. -/
inductive Proc.QueryMove [DecidableEq Key] (S : Schema Db Key Write Stmt Res)
    (db : Db) (held : List (Key × LockMode))
    (p : Proc Db Key Write Stmt Res τ α) (stmt : Stmt)
    (next : Res stmt → Prog Stmt Res α) :
    Db → Proc Db Key Write Stmt Res τ α → Prop
  | takeSnapshot (hsnap : p.snapshot = none) :
      QueryMove S db held p stmt next db
        { p with snapshot := some (p.view S db) }
  | error {snap fault} (hsnap : p.snapshot = some snap)
      (hexec : S.exec stmt snap (p.view S db) = .error fault) :
      QueryMove S db held p stmt next db (p.fail fault)
  | finish {snap result ws} (hsnap : p.snapshot = some snap)
      (hinTx : p.inTx = true)
      (hfree : blocked (S.lockSet stmt snap (p.view S db)) held = false)
      (hexec : S.exec stmt snap (p.view S db) = .ok (result, ws)) :
      QueryMove S db held p stmt next db { p with
        prog := next result
        snapshot := none
        writes := p.writes ++ ws
        locks := p.locks ++ S.lockSet stmt snap (p.view S db) }
  | auto {snap result ws} (hsnap : p.snapshot = some snap)
      (hinTx : p.inTx = false)
      (hfree : blocked (S.lockSet stmt snap (p.view S db)) held = false)
      (hexec : S.exec stmt snap (p.view S db) = .ok (result, ws)) :
      QueryMove S db held p stmt next (S.applyAll ws (p.view S db))
        (.fresh p.call (next result))

section Inversion

variable [DecidableEq Key] {S : Schema Db Key Write Stmt Res} {db db' : Db}
  {held : List (Key × LockMode)} {p p' : Proc Db Key Write Stmt Res τ α}

theorem Proc.Move.running (hmove : p.Move S db held db' p') :
    p.running = true := by
  cases hmove <;> simp_all [Proc.running]

theorem Proc.Move.of_beginTx {next : Prog Stmt Res α}
    (hmove : p.Move S db held db' p') (hprog : p.prog = .beginTx next) :
    db' = db ∧ p' = { p with prog := next, inTx := true } := by
  cases hmove with
  | beginTx hprog' =>
      rw [hprog, Prog.beginTx.injEq] at hprog'
      subst next
      exact ⟨rfl, rfl⟩
  | _ => simp_all

theorem Proc.Move.of_commit {next : Prog Stmt Res α}
    (hmove : p.Move S db held db' p') (hprog : p.prog = .commit next) :
    db' = p.view S db ∧ p' = .fresh p.call next := by
  cases hmove with
  | commit hprog' =>
      rw [hprog, Prog.commit.injEq] at hprog'
      subst next
      exact ⟨rfl, rfl⟩
  | _ => simp_all

theorem Proc.Move.of_rollback {next : Prog Stmt Res α}
    (hmove : p.Move S db held db' p') (hprog : p.prog = .rollback next) :
    db' = db ∧ p' = .fresh p.call next := by
  cases hmove with
  | rollback hprog' =>
      rw [hprog, Prog.rollback.injEq] at hprog'
      subst next
      exact ⟨rfl, rfl⟩
  | _ => simp_all

theorem Proc.Move.of_query {stmt : Stmt} {next : Res stmt → Prog Stmt Res α}
    (hmove : p.Move S db held db' p') (hprog : p.prog = .query stmt next) :
    p.QueryMove S db held stmt next db' p' := by
  cases hmove with
  | takeSnapshot hprog' hsnap =>
      cases hprog.symm.trans hprog'
      exact .takeSnapshot hsnap
  | error hprog' hsnap hexec =>
      cases hprog.symm.trans hprog'
      exact .error hsnap hexec
  | finish hprog' hsnap hinTx hfree hexec =>
      cases hprog.symm.trans hprog'
      exact .finish hsnap hinTx hfree hexec
  | auto hprog' hsnap hinTx hfree hexec =>
      cases hprog.symm.trans hprog'
      exact .auto hsnap hinTx hfree hexec
  | _ => simp_all

end Inversion

/-! ## Systems of concurrent calls -/

/-- The committed database and every call made so far, ended ones included. -/
structure System (Db Key Write Stmt : Type) (Res : Stmt → Type) (τ α : Type) where
  db : Db
  procs : List (Proc Db Key Write Stmt Res τ α)

/-- A new call arrives, one call makes a move, one call is interrupted by an
exception or a lost connection, or the database breaks a deadlock. -/
inductive Label (τ : Type)
  | spawn (call : τ)
  | advance (i : ℕ)
  | interrupt (i : ℕ)
  | deadlock (i : ℕ)

/-- The call that arrives in a step. -/
def Label.spawned : Label τ → Option τ
  | .spawn call => some call
  | _ => none

namespace System

/-- The locks held by the calls other than the `i`-th. -/
def heldByOthers (sys : System Db Key Write Stmt Res τ α) (i : ℕ) :
    List (Key × LockMode) :=
  (sys.procs.eraseIdx i).flatMap Proc.locks

theorem mem_heldByOthers
    {sys : System Db Key Write Stmt Res τ α} {i : ℕ} {l : Key × LockMode} :
    l ∈ sys.heldByOthers i ↔
      ∃ j q, j ≠ i ∧ sys.procs[j]? = some q ∧ l ∈ q.locks := by
  unfold heldByOthers
  rw [List.mem_flatMap]
  constructor
  · rintro ⟨q, hq, hl⟩
    obtain ⟨j, hji, hj⟩ := List.mem_eraseIdx_iff_getElem?.mp hq
    exact ⟨j, q, hji, hj, hl⟩
  · rintro ⟨j, q, hji, hj, hl⟩
    exact ⟨q, List.mem_eraseIdx_iff_getElem?.mpr ⟨j, hji, hj⟩, hl⟩

/-- Call `i` has a statement under way that needs a lock call `j` excludes. -/
def WaitsFor (S : Schema Db Key Write Stmt Res)
    (sys : System Db Key Write Stmt Res τ α) (i j : ℕ) : Prop :=
  ∃ p q stmt next snap,
    i ≠ j ∧ sys.procs[i]? = some p ∧ sys.procs[j]? = some q ∧
      p.prog = .query stmt next ∧ p.snapshot = some snap ∧
      ∃ k m m', (k, m) ∈ S.lockSet stmt snap (p.view S sys.db) ∧
        (k, m') ∈ q.locks ∧ m.conflicts m' = true

/-- One step of the system.  `start` is the program a call runs. -/
inductive Step [DecidableEq Key] (S : Schema Db Key Write Stmt Res)
    (start : τ → Prog Stmt Res α) (sys : System Db Key Write Stmt Res τ α) :
    Label τ → System Db Key Write Stmt Res τ α → Prop
  | spawn (call : τ) :
      Step S start sys (.spawn call)
        ⟨sys.db, sys.procs ++ [.fresh call (start call)]⟩
  | advance {i p db' p'} (hi : sys.procs[i]? = some p)
      (hadvance : p.advance S sys.db (sys.heldByOthers i) = some (db', p')) :
      Step S start sys (.advance i) ⟨db', sys.procs.set i p'⟩
  | interrupt {i p} (hi : sys.procs[i]? = some p) (hrunning : p.running = true) :
      Step S start sys (.interrupt i)
        ⟨sys.db, sys.procs.set i (p.fail .interrupted)⟩
  | deadlock {i p} (hi : sys.procs[i]? = some p)
      (hcycle : Relation.TransGen (sys.WaitsFor S) i i) :
      Step S start sys (.deadlock i)
        ⟨sys.db, sys.procs.set i (p.fail .deadlockDetected)⟩

/-- Runs whose every step satisfies `ok` in the state it is taken from. -/
def Steps [DecidableEq Key] (S : Schema Db Key Write Stmt Res)
    (start : τ → Prog Stmt Res α)
    (ok : System Db Key Write Stmt Res τ α → Label τ → Prop) :
    System Db Key Write Stmt Res τ α →
      System Db Key Write Stmt Res τ α → Prop :=
  Relation.ReflTransGen fun sys sys' =>
    ∃ label, ok sys label ∧ Step S start sys label sys'

/-- How one call changes in one step: by a move or by ending with a fault. -/
inductive Change [DecidableEq Key] (S : Schema Db Key Write Stmt Res)
    (sys : System Db Key Write Stmt Res τ α) (i : ℕ)
    (p : Proc Db Key Write Stmt Res τ α) :
    Db → Proc Db Key Write Stmt Res τ α → Prop
  | move {db' p'} (hmove : p.Move S sys.db (sys.heldByOthers i) db' p') :
      Change S sys i p db' p'
  | fail (fault : Fault) (hrunning : p.running = true) :
      Change S sys i p sys.db (p.fail fault)

theorem Change.call_eq [DecidableEq Key] {S : Schema Db Key Write Stmt Res}
    {sys : System Db Key Write Stmt Res τ α} {i : ℕ}
    {p p' : Proc Db Key Write Stmt Res τ α} {db' : Db}
    (hchange : Change S sys i p db' p') :
    p'.call = p.call := by
  cases hchange with
  | move hmove => exact hmove.call_eq
  | fail fault hrunning => rfl

/-- A call that waits has not ended. -/
theorem WaitsFor.running {S : Schema Db Key Write Stmt Res}
    {sys : System Db Key Write Stmt Res τ α} {i j : ℕ}
    {p : Proc Db Key Write Stmt Res τ α}
    (hwaits : sys.WaitsFor S i j) (hi : sys.procs[i]? = some p) :
    p.running = true := by
  obtain ⟨p', q, stmt, next, snap, _, hi', _, hprog, _⟩ := hwaits
  obtain rfl : p = p' := by simpa [hi] using hi'
  simp [Proc.running, hprog]

/-- A step either adds one call or changes one call; nothing else moves. -/
theorem Step.spawn_or_change [DecidableEq Key]
    {S : Schema Db Key Write Stmt Res} {start : τ → Prog Stmt Res α}
    {sys sys' : System Db Key Write Stmt Res τ α} {label : Label τ}
    (hstep : Step S start sys label sys') :
    (∃ call, label = .spawn call ∧
        sys' = ⟨sys.db, sys.procs ++ [.fresh call (start call)]⟩) ∨
      ∃ i p db' p', sys.procs[i]? = some p ∧ Change S sys i p db' p' ∧
        sys' = ⟨db', sys.procs.set i p'⟩ := by
  cases hstep with
  | spawn call => exact Or.inl ⟨call, rfl, rfl⟩
  | advance hi hadvance =>
      exact Or.inr ⟨_, _, _, _, hi, .move (Proc.advance_move hadvance), rfl⟩
  | interrupt hi hrunning =>
      exact Or.inr ⟨_, _, _, _, hi, .fail _ hrunning, rfl⟩
  | deadlock hi hcycle =>
      obtain ⟨j, hwaits, _⟩ := Relation.TransGen.head'_iff.mp hcycle
      exact Or.inr ⟨_, _, _, _, hi, .fail _ (hwaits.running hi), rfl⟩

theorem getElem?_set_eq
    {procs : List (Proc Db Key Write Stmt Res τ α)} {i j : ℕ}
    {p p' q : Proc Db Key Write Stmt Res τ α}
    (hi : procs[i]? = some p) (hj : (procs.set i p')[j]? = some q) :
    (j = i ∧ q = p') ∨ (j ≠ i ∧ procs[j]? = some q) := by
  rw [List.getElem?_set] at hj
  by_cases hij : i = j
  · subst j
    have hlt : i < procs.length := (List.getElem?_eq_some_iff.mp hi).1
    simp only [if_true, hlt, Option.some.injEq] at hj
    exact Or.inl ⟨rfl, hj.symm⟩
  · rw [if_neg hij] at hj
    exact Or.inr ⟨fun h => hij h.symm, hj⟩

theorem getElem?_append_eq
    {procs : List (Proc Db Key Write Stmt Res τ α)} {j : ℕ}
    {p q : Proc Db Key Write Stmt Res τ α}
    (hj : (procs ++ [p])[j]? = some q) :
    (j = procs.length ∧ q = p) ∨ procs[j]? = some q := by
  rw [List.getElem?_append] at hj
  by_cases hlt : j < procs.length
  · rw [if_pos hlt] at hj
    exact Or.inr hj
  · rw [if_neg hlt] at hj
    obtain ⟨hlen, hq⟩ := List.getElem?_eq_some_iff.mp hj
    simp only [List.length_singleton] at hlen
    have hjlen : j = procs.length := by omega
    refine Or.inl ⟨hjlen, ?_⟩
    simpa [hjlen] using hq.symm

theorem Change.running [DecidableEq Key] {S : Schema Db Key Write Stmt Res}
    {sys : System Db Key Write Stmt Res τ α} {i : ℕ}
    {p p' : Proc Db Key Write Stmt Res τ α} {db' : Db}
    (hchange : Change S sys i p db' p') : p.running = true := by
  cases hchange with
  | move hmove => exact hmove.running
  | fail fault hrunning => exact hrunning

/-- A call that has ended stays as it is. -/
theorem Step.ended [DecidableEq Key] {S : Schema Db Key Write Stmt Res}
    {start : τ → Prog Stmt Res α} {sys sys' : System Db Key Write Stmt Res τ α}
    {label : Label τ} (hstep : Step S start sys label sys') {i : ℕ}
    {p : Proc Db Key Write Stmt Res τ α} (hi : sys.procs[i]? = some p)
    (hended : p.running = false) : sys'.procs[i]? = some p := by
  obtain ⟨call, _, rfl⟩ | ⟨j, q, db', q', hj, hchange, rfl⟩ :=
    hstep.spawn_or_change
  · have hlt : i < sys.procs.length := (List.getElem?_eq_some_iff.mp hi).1
    simpa [List.getElem?_append, hlt] using hi
  · have hji : j ≠ i := by
      rintro rfl
      obtain rfl : q = p := by simpa [hi] using hj.symm
      rw [hchange.running] at hended
      cases hended
    simpa [List.getElem?_set_ne hji] using hi

theorem Steps.ended [DecidableEq Key] {S : Schema Db Key Write Stmt Res}
    {start : τ → Prog Stmt Res α}
    {ok : System Db Key Write Stmt Res τ α → Label τ → Prop}
    {sys sys' : System Db Key Write Stmt Res τ α}
    (hsteps : Steps S start ok sys sys') {i : ℕ}
    {p : Proc Db Key Write Stmt Res τ α} (hi : sys.procs[i]? = some p)
    (hended : p.running = false) : sys'.procs[i]? = some p := by
  induction hsteps with
  | refl => exact hi
  | tail _ hlast ih =>
      obtain ⟨label, _, hstep⟩ := hlast
      exact hstep.ended ih hended

/-- Whether call `i` waits for call `j`. -/
def waits [DecidableEq Key] (S : Schema Db Key Write Stmt Res)
    (sys : System Db Key Write Stmt Res τ α) (i j : ℕ) : Bool :=
  match sys.procs[i]?, sys.procs[j]? with
  | some p, some q =>
      match p.prog, p.snapshot with
      | .query stmt _, some snap =>
          decide (i ≠ j) && blocked (S.lockSet stmt snap (p.view S sys.db)) q.locks
      | _, _ => false
  | _, _ => false

theorem waitsFor_of_waits [DecidableEq Key] {S : Schema Db Key Write Stmt Res}
    {sys : System Db Key Write Stmt Res τ α} {i j : ℕ}
    (hwaits : waits S sys i j = true) : sys.WaitsFor S i j := by
  unfold waits at hwaits
  split at hwaits
  · rename_i p q hi hj
    split at hwaits
    · rename_i stmt next snap hprog hsnap
      simp only [Bool.and_eq_true, decide_eq_true_eq] at hwaits
      refine ⟨p, q, stmt, next, snap, hwaits.1, hi, hj, hprog, hsnap, ?_⟩
      by_contra hfree
      have hblocked := blocked_eq_false_iff.mpr fun k m m' hm hm' => by
        by_contra hconflict
        exact hfree ⟨k, m, m', hm, hm', by simpa using hconflict⟩
      rw [hblocked] at hwaits
      cases hwaits.2
    · cases hwaits
  · cases hwaits

/-- Two calls that wait for each other are in a deadlock. -/
theorem Step.deadlock_of_waits [DecidableEq Key] {S : Schema Db Key Write Stmt Res}
    {start : τ → Prog Stmt Res α} {sys : System Db Key Write Stmt Res τ α}
    {i j : ℕ} {p : Proc Db Key Write Stmt Res τ α} (hi : sys.procs[i]? = some p)
    (hwaits : waits S sys i j = true) (hwaits' : waits S sys j i = true) :
    Step S start sys (.deadlock i)
      ⟨sys.db, sys.procs.set i (p.fail .deadlockDetected)⟩ :=
  .deadlock hi (.tail (.single (waitsFor_of_waits hwaits)) (waitsFor_of_waits hwaits'))

/-! ### What a call can return -/

section Returns

variable [DecidableEq Key] {S : Schema Db Key Write Stmt Res}
  {start : τ → Prog Stmt Res α} {P : τ → α → Prop}

theorem Change.returns {sys : System Db Key Write Stmt Res τ α} {i : ℕ}
    {p p' : Proc Db Key Write Stmt Res τ α} {db' : Db}
    (hreturns : p.prog.Returns (P p.call)) (hchange : Change S sys i p db' p') :
    p'.prog.Returns (P p'.call) := by
  cases hchange with
  | fail fault hrunning => exact trivial
  | move hmove =>
      cases hmove with
      | beginTx hprog =>
          rw [hprog] at hreturns
          exact hreturns
      | takeSnapshot hprog hsnap => exact hreturns
      | error hprog hsnap hexec => exact trivial
      | finish hprog hsnap hinTx hfree hexec =>
          rw [hprog] at hreturns
          exact hreturns _
      | auto hprog hsnap hinTx hfree hexec =>
          rw [hprog] at hreturns
          exact hreturns _
      | commit hprog =>
          rw [hprog] at hreturns
          exact hreturns
      | rollback hprog =>
          rw [hprog] at hreturns
          exact hreturns

theorem Change.uses {sys : System Db Key Write Stmt Res τ α} {i : ℕ}
    {p p' : Proc Db Key Write Stmt Res τ α} {db' : Db} {Q : Stmt → Prop}
    (huses : p.prog.Uses Q) (hchange : Change S sys i p db' p') :
    p'.prog.Uses Q := by
  cases hchange with
  | fail fault hrunning => exact trivial
  | move hmove =>
      cases hmove with
      | beginTx hprog =>
          rw [hprog] at huses
          exact huses
      | takeSnapshot hprog hsnap => exact huses
      | error hprog hsnap hexec => exact trivial
      | finish hprog hsnap hinTx hfree hexec =>
          rw [hprog] at huses
          exact huses.2 _
      | auto hprog hsnap hinTx hfree hexec =>
          rw [hprog] at huses
          exact huses.2 _
      | commit hprog =>
          rw [hprog] at huses
          exact huses
      | rollback hprog =>
          rw [hprog] at huses
          exact huses

/-- What holds of every reply a program can give holds of every reply given. -/
theorem Steps.returns {ok : System Db Key Write Stmt Res τ α → Label τ → Prop}
    {sys sys' : System Db Key Write Stmt Res τ α}
    (hsteps : Steps S start ok sys sys')
    (hstart : ∀ call, (start call).Returns (P call))
    (hprocs : ∀ p ∈ sys.procs, p.prog.Returns (P p.call)) :
    ∀ p ∈ sys'.procs, p.prog.Returns (P p.call) := by
  induction hsteps with
  | refl => exact hprocs
  | tail _ hlast ih =>
      obtain ⟨label, _, hstep⟩ := hlast
      intro q hq
      obtain ⟨call, _, rfl⟩ | ⟨i, p, db', p', hi, hchange, rfl⟩ :=
        hstep.spawn_or_change
      · obtain hq | hq := List.mem_append.mp hq
        · exact ih q hq
        · obtain rfl := List.mem_singleton.mp hq
          exact hstart call
      · obtain hq | rfl := List.mem_or_eq_of_mem_set hq
        · exact ih q hq
        · exact hchange.returns (ih p (List.mem_of_getElem? hi))

end Returns

/-! ### Executing a schedule -/

/-- Take the step a label names, if it can be taken.  A deadlock is not
searched for. -/
def perform [DecidableEq Key] (S : Schema Db Key Write Stmt Res)
    (start : τ → Prog Stmt Res α) (sys : System Db Key Write Stmt Res τ α) :
    Label τ → Option (System Db Key Write Stmt Res τ α)
  | .spawn call => some ⟨sys.db, sys.procs ++ [.fresh call (start call)]⟩
  | .advance i =>
      match sys.procs[i]? with
      | none => none
      | some p =>
          (p.advance S sys.db (sys.heldByOthers i)).map fun next =>
            ⟨next.1, sys.procs.set i next.2⟩
  | .interrupt i =>
      match sys.procs[i]? with
      | none => none
      | some p =>
          if p.running then
            some ⟨sys.db, sys.procs.set i (p.fail .interrupted)⟩
          else none
  | .deadlock _ => none

/-- Follow a schedule whose every step satisfies `ok`. -/
def performAll [DecidableEq Key] (S : Schema Db Key Write Stmt Res)
    (start : τ → Prog Stmt Res α)
    (ok : System Db Key Write Stmt Res τ α → Label τ → Prop)
    [∀ sys label, Decidable (ok sys label)] :
    List (Label τ) → System Db Key Write Stmt Res τ α →
      Option (System Db Key Write Stmt Res τ α)
  | [], sys => some sys
  | label :: rest, sys =>
      if ok sys label then
        (sys.perform S start label).bind (performAll S start ok rest)
      else none

section Schedules

variable [DecidableEq Key] {S : Schema Db Key Write Stmt Res}
  {start : τ → Prog Stmt Res α} {sys sys' : System Db Key Write Stmt Res τ α}

theorem perform_step {label : Label τ}
    (hperform : sys.perform S start label = some sys') :
    Step S start sys label sys' := by
  cases label with
  | spawn call =>
      obtain rfl := Option.some.inj hperform
      exact .spawn call
  | advance i =>
      unfold perform at hperform
      cases hi : sys.procs[i]? with
      | none => simp [hi] at hperform
      | some p =>
          simp only [hi, Option.map_eq_some_iff] at hperform
          obtain ⟨⟨db', p'⟩, hadvance, rfl⟩ := hperform
          exact .advance hi hadvance
  | interrupt i =>
      unfold perform at hperform
      cases hi : sys.procs[i]? with
      | none => simp [hi] at hperform
      | some p =>
          simp only [hi, Option.ite_none_right_eq_some,
            Option.some.injEq] at hperform
          obtain ⟨hrunning, rfl⟩ := hperform
          exact .interrupt hi hrunning
  | deadlock i => cases hperform

/-- A schedule is a run under every condition its steps are known to meet. -/
theorem performAll_steps_of
    {ok ok' : System Db Key Write Stmt Res τ α → Label τ → Prop}
    [∀ sys label, Decidable (ok sys label)] {labels : List (Label τ)}
    (hperform : performAll S start ok labels sys = some sys')
    (himplies : ∀ label ∈ labels, ∀ s, ok s label → ok' s label) :
    Steps S start ok' sys sys' := by
  induction labels generalizing sys with
  | nil =>
      obtain rfl := Option.some.inj hperform
      exact Relation.ReflTransGen.refl
  | cons label rest ih =>
      simp only [performAll, Option.ite_none_right_eq_some,
        Option.bind_eq_some_iff] at hperform
      obtain ⟨hok, next, hnext, hrest⟩ := hperform
      have hhead := himplies label List.mem_cons_self sys hok
      exact Relation.ReflTransGen.head ⟨label, hhead, perform_step hnext⟩
        (ih hrest fun l hl => himplies l (List.mem_cons_of_mem _ hl))

theorem performAll_steps
    {ok : System Db Key Write Stmt Res τ α → Label τ → Prop}
    [∀ sys label, Decidable (ok sys label)] {labels : List (Label τ)}
    (hperform : performAll S start ok labels sys = some sys') :
    Steps S start ok sys sys' :=
  performAll_steps_of hperform fun _ _ _ hok => hok

omit [DecidableEq Key] in
theorem set_call {procs : List (Proc Db Key Write Stmt Res τ α)} {i : ℕ}
    {p p' : Proc Db Key Write Stmt Res τ α} (hi : procs[i]? = some p)
    (hcall : p'.call = p.call) :
    (procs.set i p').map Proc.call = procs.map Proc.call := by
  apply List.ext_getElem?
  intro j
  rw [List.getElem?_map, List.getElem?_map]
  by_cases hji : j = i
  · subst j
    have hlt : i < procs.length := (List.getElem?_eq_some_iff.mp hi).1
    rw [List.getElem?_set_self hlt, hi, Option.map_some, Option.map_some, hcall]
  · rw [List.getElem?_set_ne (Ne.symm hji)]

/-- A step keeps the calls in their places. -/
theorem Step.calls {label : Label τ} (hstep : Step S start sys label sys') :
    sys'.procs.map Proc.call =
      sys.procs.map Proc.call ++ label.spawned.toList := by
  cases hstep with
  | spawn call => simp [Label.spawned, Proc.fresh]
  | advance hi hadvance =>
      rw [set_call hi (Proc.advance_move hadvance).call_eq]
      simp [Label.spawned]
  | interrupt hi hrunning =>
      refine (set_call hi ?_).trans (by simp [Label.spawned])
      rfl
  | deadlock hi hcycle =>
      refine (set_call hi ?_).trans (by simp [Label.spawned])
      rfl

/-- The calls of a run are those its schedule makes, in this order. -/
theorem performAll_calls
    {ok : System Db Key Write Stmt Res τ α → Label τ → Prop}
    [∀ sys label, Decidable (ok sys label)] {labels : List (Label τ)}
    (hperform : performAll S start ok labels sys = some sys') :
    sys'.procs.map Proc.call =
      sys.procs.map Proc.call ++ labels.filterMap Label.spawned := by
  induction labels generalizing sys with
  | nil =>
      obtain rfl := Option.some.inj hperform
      simp
  | cons label rest ih =>
      simp only [performAll, Option.ite_none_right_eq_some,
        Option.bind_eq_some_iff] at hperform
      obtain ⟨_, next, hnext, hrest⟩ := hperform
      rw [ih hrest, (perform_step hnext).calls, List.append_assoc]
      cases hspawned : label.spawned <;> simp [hspawned]

end Schedules

end System

end ReadCommitted
