import Untangled.ReadCommittedTraces
import Untangled.Records

/-!
# Two updates of one record

`RecordStore.update` as a program under READ COMMITTED: it reads the whole row,
merges and validates, and writes all user columns back.  The runs of two such
calls on one record, and which of their fields survive.
-/

namespace Untangled.Records

open Mapping ReadCommitted

/-! ## The statements -/

inductive RecordStmt
  | selectRow (rowId : String)
  | updateRow (rowId : String) (obj : Row)

def RecordResult : RecordStmt → Type
  | .selectRow _ => Option Row
  | .updateRow _ _ => Unit

section Statements

variable (C : RecordClass) (refuses : Table Row → Row → Option Fault)

/-- `UPDATE` of one row, which a constraint may refuse. -/
def execUpdate (rowId : String) (obj : Row) (snap cur : Table Row) :
    Except Fault (Unit × List Row) :=
  match snap.find rowId, cur.find rowId with
  | some _, some stored =>
      match refuses cur (stored.set C obj) with
      | some fault => .error fault
      | none => .ok ((), [stored.set C obj])
  | _, _ => .ok ((), [])

def recordExec :
    (stmt : RecordStmt) → Table Row → Table Row →
      Except Fault (RecordResult stmt × List Row)
  | .selectRow rowId, snap, _ => .ok (snap.find rowId, [])
  | .updateRow rowId obj, snap, cur => execUpdate C refuses rowId obj snap cur

/-- No statement here checks a foreign key to the class, so the strength of the
lock does not depend on the columns that change. -/
def recordLocks : RecordStmt → List (String × LockMode)
  | .selectRow _ => []
  | .updateRow rowId _ => [(rowId, .noKeyUpdate)]

variable {C refuses} in
theorem execUpdate_writes {rowId : String} {obj : Row} {snap cur : Table Row}
    {writes : List Row} {result : Unit}
    (h : execUpdate C refuses rowId obj snap cur = .ok (result, writes)) :
    ∀ w ∈ writes, w.id = rowId := by
  unfold execUpdate at h
  split at h
  · rename_i stored _ hstored
    split at h
    · cases h
    · cases h
      intro w hw
      rw [List.mem_singleton.mp hw]
      exact (Table.find_eq_some.mp hstored).2
  · cases h
    simp

def recordSchema : Schema (Table Row) String Row RecordStmt RecordResult where
  apply w t := t.put w
  target := Row.id
  lockSet stmt _ _ := recordLocks stmt
  exec := recordExec C refuses
  exec_locked := by
    intro stmt snap cur result writes h w hw
    cases stmt with
    | selectRow rowId =>
        cases h
        cases hw
    | updateRow rowId obj =>
        refine ⟨.noKeyUpdate, ?_, rfl⟩
        rw [execUpdate_writes h w hw]
        exact .head _

end Statements

/-! ## The program -/

abbrev RecordProg := Prog RecordStmt RecordResult (Except RecordError Row)

abbrev RecordProc :=
  Proc (Table Row) String Row RecordStmt RecordResult UpdateCall (Except RecordError Row)

abbrev RecordSystem :=
  System (Table Row) String Row RecordStmt RecordResult UpdateCall (Except RecordError Row)

/-- An exception leaves the transaction to be rolled back with the connection. -/
def abandon (e : RecordError) : RecordProg :=
  .rollback (.ret (.error e))

def writeBack (rowId : String) (obj : Row) : RecordProg :=
  .query (.updateRow rowId obj) fun _ => .commit (.ret (.ok obj))

section Program

variable (C : RecordClass) (P : Pydantic)

def afterSelect (call : UpdateCall) : Option Row → RecordProg
  | none => abandon .notFound
  | some stored =>
      match updateObject C P call stored with
      | .error e => abandon e
      | .ok obj => writeBack call.rowId obj

def selectRow (call : UpdateCall) : RecordProg :=
  .query (.selectRow call.rowId) (afterSelect C P call)

def updateProgram (call : UpdateCall) : RecordProg :=
  match rejectKeys C call.userFields with
  | .error e => .ret (.error e)
  | .ok _ => .beginTx (selectRow C P call)

end Program

/-! ## What the two calls promise -/

section Promise

variable (C : RecordClass) (P : Pydantic)

/-- The record after one call and then the other. -/
def Serial (first second : UpdateCall) (before after : Row) : Prop :=
  ∃ obj obj', updateObject C P first before = .ok obj ∧
    updateObject C P second (before.set C obj) = .ok obj' ∧
    after = (before.set C obj).set C obj'

/-- Both calls are kept: every field that one names has the value which that call
wrote, every other field its old value, and the calls ran as if in turn. -/
structure BothKept (call call' : UpdateCall) (before after : Row) : Prop where
  first : ∀ a ∈ C.attributes, ∀ v, call.userFields.lookup a.nameSnake = some v →
    validateField P a v = some (after.fields a.nameSnake)
  second : ∀ a ∈ C.attributes, ∀ v, call'.userFields.lookup a.nameSnake = some v →
    validateField P a v = some (after.fields a.nameSnake)
  others : ∀ a ∈ C.attributes, call.userFields.lookup a.nameSnake = none →
    call'.userFields.lookup a.nameSnake = none →
    after.fields a.nameSnake = before.fields a.nameSnake
  serial : Serial C P call call' before after ∨ Serial C P call' call before after

/-- The call has begun to read and has not committed. -/
def midway (p : RecordProc) : Prop :=
  match p.prog with
  | .query (.selectRow _) _ => p.snapshot.isSome = true
  | .query (.updateRow _ _) _ => True
  | .commit _ => True
  | _ => False

def Returned (p : RecordProc) : Prop :=
  ∃ obj, p.prog = .ret (.ok obj)

/-- At some moment all calls had begun to read and none had committed. -/
def Overlapped (states : List RecordSystem) : Prop :=
  ∃ sys ∈ states, ∀ p ∈ sys.procs, midway p

/-- At some moment the `i`-th call had returned and the other had not. -/
def CommittedFirst (i : ℕ) (states : List RecordSystem) : Prop :=
  ∃ sys ∈ states, (∃ p, sys.procs[i]? = some p ∧ Returned p) ∧
    ∃ q, sys.procs[1 - i]? = some q ∧ ¬Returned q

/-- Fields that no call names are stored as the model leaves them, and where the
calls overlapped, the one that committed first wrote what the record had. -/
structure NothingLost (calls : ℕ → UpdateCall) (before : Row)
    (states : List RecordSystem) : Prop where
  settled : ∀ a ∈ C.attributes, (∀ i < 2, (calls i).userFields.lookup a.nameSnake = none) →
    validateField P a (before.fields a.nameSnake) = some (before.fields a.nameSnake)
  same : Overlapped states → ∀ i < 2, CommittedFirst i states →
    ∀ a ∈ C.attributes, ∀ v, (calls i).userFields.lookup a.nameSnake = some v →
      validateField P a v = validateField P a (before.fields a.nameSnake)

end Promise

/-! ## How far a call is -/

inductive Phase
  | starting
  | reading (snap : Table Row)
  | read (stored obj : Row)
  | written (stored obj after : Row)
  | done (stored obj : Row)

section Stages

variable (C : RecordClass) (P : Pydantic)

/-- The call is on its way to an update of the row that it has read. -/
def Stage (call : UpdateCall) (p : RecordProc) : Phase → Prop
  | .starting => p.writes = [] ∧ p.locks = [] ∧ p.snapshot = none ∧
      (p.prog = .beginTx (selectRow C P call) ∨
        p.prog = selectRow C P call ∧ p.inTx = true)
  | .reading snap => p.writes = [] ∧ p.locks = [] ∧ p.snapshot = some snap ∧
      p.prog = selectRow C P call ∧ p.inTx = true
  | .read stored obj => p.writes = [] ∧ p.locks = [] ∧
      (∀ snap ∈ p.snapshot, (snap.find call.rowId).isSome = true) ∧
      p.prog = writeBack call.rowId obj ∧ p.inTx = true ∧
      updateObject C P call stored = .ok obj
  | .written stored obj after => p.writes = [after] ∧
      p.locks = [(call.rowId, .noKeyUpdate)] ∧
      p.prog = .commit (.ret (.ok obj)) ∧ updateObject C P call stored = .ok obj
  | .done stored obj => p.writes = [] ∧ p.locks = [] ∧
      p.prog = .ret (.ok obj) ∧ updateObject C P call stored = .ok obj

/-- The call has ended, or is about to, without an update. -/
def Failed (p : RecordProc) : Prop :=
  p.writes = [] ∧ ((∃ fault, p.prog = .throw fault) ∨ (∃ e, p.prog = abandon e) ∨
    ∃ e, p.prog = .ret (.error e))

end Stages

section Stages

variable {C : RecordClass} {P : Pydantic} {refuses : Table Row → Row → Option Fault}
  {call : UpdateCall} {sys : RecordSystem} {i : ℕ} {p p' : RecordProc} {db' : Table Row}

theorem Failed.not_returned (hfailed : Failed p) : ¬Returned p := by
  rintro ⟨obj, hobj⟩
  rcases hfailed.2 with ⟨fault, h⟩ | ⟨e, h⟩ | ⟨e, h⟩
  · rw [hobj] at h
    cases h
  · rw [hobj] at h
    cases h
  · rw [hobj] at h
    cases h

theorem failed_fail (fault : Fault) : Failed (p.fail fault) :=
  ⟨rfl, Or.inl ⟨fault, rfl⟩⟩

theorem Failed.change (hfailed : Failed p)
    (hchange : System.Change (recordSchema C refuses) sys i p db' p') :
    Failed p' ∧ db' = sys.db := by
  cases hchange with
  | fail fault hrunning => exact ⟨failed_fail fault, rfl⟩
  | move hmove =>
      rcases hfailed with ⟨hwrites, ⟨fault, hprog⟩ | ⟨e, hprog⟩ | ⟨e, hprog⟩⟩
      · have hrunning := hmove.running
        rw [Proc.running, hprog] at hrunning
        cases hrunning
      · rcases hmove.of_rollback hprog with ⟨hdb, rfl⟩
        exact ⟨⟨rfl, Or.inr (Or.inr ⟨e, rfl⟩)⟩, hdb⟩
      · have hrunning := hmove.running
        rw [Proc.running, hprog] at hrunning
        cases hrunning

theorem view_of_no_writes (hwrites : p.writes = []) :
    p.view (recordSchema C refuses) sys.db = sys.db := by
  rw [Proc.view, hwrites, Schema.applyAll_nil]

theorem Stage.starting_change (hstage : Stage C P call p .starting)
    (hchange : System.Change (recordSchema C refuses) sys i p db' p') :
    db' = sys.db ∧ (Failed p' ∨ Stage C P call p' .starting ∨
      Stage C P call p' (.reading sys.db)) := by
  rcases hstage with ⟨hwrites, hlocks, hsnapshot, hprog⟩
  cases hchange with
  | fail fault hrunning => exact ⟨rfl, Or.inl (failed_fail fault)⟩
  | move hmove =>
      rcases hprog with hprog | ⟨hprog, hinTx⟩
      · rcases hmove.of_beginTx hprog with ⟨hdb, rfl⟩
        exact ⟨hdb, Or.inr (Or.inl ⟨hwrites, hlocks, hsnapshot, Or.inr ⟨rfl, rfl⟩⟩)⟩
      · cases hmove.of_query hprog with
        | takeSnapshot hsnap =>
            rw [view_of_no_writes hwrites]
            exact ⟨rfl, Or.inr (Or.inr ⟨hwrites, hlocks, rfl, hprog, hinTx⟩)⟩
        | error hsnap =>
            rw [hsnapshot] at hsnap
            cases hsnap
        | finish hsnap =>
            rw [hsnapshot] at hsnap
            cases hsnap
        | auto hsnap =>
            rw [hsnapshot] at hsnap
            cases hsnap

theorem Stage.reading_change {snap : Table Row} {stored : Row}
    (hstage : Stage C P call p (.reading snap)) (hread : snap.find call.rowId = some stored)
    (hchange : System.Change (recordSchema C refuses) sys i p db' p') :
    db' = sys.db ∧ (Failed p' ∨ ∃ obj, Stage C P call p' (.read stored obj)) := by
  rcases hstage with ⟨hwrites, hlocks, hsnapshot, hprog, hinTx⟩
  cases hchange with
  | fail fault hrunning => exact ⟨rfl, Or.inl (failed_fail fault)⟩
  | move hmove =>
      cases hmove.of_query hprog with
      | takeSnapshot hsnap =>
          rw [hsnapshot] at hsnap
          cases hsnap
      | error hsnap hexec => cases hexec
      | auto hsnap hnotTx =>
          rw [hinTx] at hnotTx
          cases hnotTx
      | finish hsnap _ _ hexec =>
          rw [hsnapshot] at hsnap
          cases hsnap
          cases hexec
          refine ⟨rfl, ?_⟩
          cases hobject : updateObject C P call stored with
          | error e =>
              refine Or.inl ⟨by simp [hwrites], Or.inr (Or.inl ⟨e, ?_⟩)⟩
              change afterSelect C P call (snap.find call.rowId) = _
              rw [hread]
              simp only [afterSelect, hobject]
          | ok obj =>
              refine Or.inr ⟨obj, by simp [hwrites], ?_, by simp, ?_, hinTx, hobject⟩
              · simp [hlocks, recordSchema, recordLocks]
              · change afterSelect C P call (snap.find call.rowId) = _
                rw [hread]
                simp only [afterSelect, hobject]

/-- The write-back finishes when nobody else has written the row without
committing. -/
theorem Stage.read_change {stored obj current : Row}
    (hstage : Stage C P call p (.read stored obj))
    (hcurrent : sys.db.find call.rowId = some current)
    (hchange : System.Change (recordSchema C refuses) sys i p db' p') :
    db' = sys.db ∧ (Failed p' ∨ Stage C P call p' (.read stored obj) ∨
      Stage C P call p' (.written stored obj (current.set C obj)) ∧
        (call.rowId, .noKeyUpdate) ∉ sys.heldByOthers i) := by
  rcases hstage with ⟨hwrites, hlocks, hsnapshot, hprog, hinTx, hobject⟩
  have hview : p.view (recordSchema C refuses) sys.db = sys.db :=
    view_of_no_writes hwrites
  cases hchange with
  | fail fault hrunning => exact ⟨rfl, Or.inl (failed_fail fault)⟩
  | move hmove =>
      cases hmove.of_query hprog with
      | takeSnapshot hsnap =>
          rw [hview]
          refine ⟨rfl, Or.inr (Or.inl ⟨hwrites, hlocks, ?_, hprog, hinTx, hobject⟩)⟩
          intro snap hmem
          cases hmem
          rw [hcurrent]
          rfl
      | error hsnap hexec => exact ⟨rfl, Or.inl (failed_fail _)⟩
      | auto hsnap hnotTx =>
          rw [hinTx] at hnotTx
          cases hnotTx
      | finish hsnap _ hfree hexec =>
          rw [hview] at hexec
          rcases Option.isSome_iff_exists.mp (hsnapshot _ hsnap) with ⟨old, hold⟩
          have hwrite : execUpdate C refuses call.rowId obj _ sys.db = .ok (_, _) := hexec
          simp only [execUpdate, hold, hcurrent] at hwrite
          split at hwrite
          · cases hwrite
          · cases hwrite
            refine ⟨rfl, Or.inr (Or.inr ⟨⟨?_, ?_, rfl, hobject⟩, ?_⟩)⟩
            · simp [hwrites]
            · simp [hlocks, recordSchema, recordLocks]
            · intro hheld
              have hclash := blocked_eq_false_iff.mp hfree call.rowId .noKeyUpdate
                .noKeyUpdate (.head _) hheld
              cases hclash

theorem Stage.written_change {stored obj after : Row}
    (hstage : Stage C P call p (.written stored obj after))
    (hchange : System.Change (recordSchema C refuses) sys i p db' p') :
    (Failed p' ∧ db' = sys.db) ∨
      Stage C P call p' (.done stored obj) ∧ db' = sys.db.put after := by
  rcases hstage with ⟨hwrites, _, hprog, hobject⟩
  cases hchange with
  | fail fault hrunning => exact Or.inl ⟨failed_fail fault, rfl⟩
  | move hmove =>
      rcases hmove.of_commit hprog with ⟨hdb, rfl⟩
      refine Or.inr ⟨⟨rfl, rfl, rfl, hobject⟩, ?_⟩
      rw [hdb, Proc.view, hwrites]
      rfl

theorem Stage.done_change {stored obj : Row} (hstage : Stage C P call p (.done stored obj))
    (hchange : System.Change (recordSchema C refuses) sys i p db' p') : False := by
  have hrunning : p.running = true := by
    cases hchange with
    | fail fault hrunning => exact hrunning
    | move hmove => exact hmove.running
  rw [Proc.running, hstage.2.2.1] at hrunning
  cases hrunning

end Stages

/-! ## Runs of two calls -/

/-- Two calls, of which the `i`-th is `p`. -/
def pair (i : ℕ) (p q : RecordProc) : List RecordProc :=
  if i = 0 then [p, q] else [q, p]

section Pair

variable {i : ℕ} {p p' q : RecordProc}

theorem pair_self (hi : i < 2) : (pair i p q)[i]? = some p := by
  have hcases : i = 0 ∨ i = 1 := by omega
  rcases hcases with rfl | rfl
  · rfl
  · rfl

theorem pair_other (hi : i < 2) : (pair i p q)[1 - i]? = some q := by
  have hcases : i = 0 ∨ i = 1 := by omega
  rcases hcases with rfl | rfl
  · rfl
  · rfl

theorem pair_swap (hi : i < 2) : pair i p q = pair (1 - i) q p := by
  have hcases : i = 0 ∨ i = 1 := by omega
  rcases hcases with rfl | rfl
  · rfl
  · rfl

theorem pair_set (hi : i < 2) : (pair i p q).set i p' = pair i p' q := by
  have hcases : i = 0 ∨ i = 1 := by omega
  rcases hcases with rfl | rfl
  · rfl
  · rfl

theorem forall_mem_pair (hi : i < 2) {A : RecordProc → Prop} :
    (∀ r ∈ pair i p q, A r) ↔ A p ∧ A q := by
  have hcases : i = 0 ∨ i = 1 := by omega
  rcases hcases with rfl | rfl
  · simp [pair]
  · simp [pair, and_comm]

theorem index_of_pair {k : ℕ} {r : RecordProc} (hi : i < 2)
    (hk : (pair i p q)[k]? = some r) : k = i ∧ r = p ∨ k = 1 - i ∧ r = q := by
  have hcases : i = 0 ∨ i = 1 := by omega
  have hlength : (pair i p q).length = 2 := by
    rcases hcases with rfl | rfl
    · rfl
    · rfl
  have hlt : k < 2 := by
    rw [← hlength]
    exact (List.getElem?_eq_some_iff.mp hk).1
  by_cases hki : k = i
  · subst hki
    rw [pair_self hi] at hk
    exact Or.inl ⟨rfl, (Option.some.inj hk).symm⟩
  · have hother : k = 1 - i := by omega
    subst hother
    rw [pair_other hi] at hk
    exact Or.inr ⟨rfl, (Option.some.inj hk).symm⟩

end Pair

section Runs

variable (C : RecordClass) (P : Pydantic)

/-- The phase is that of a call that reads `read` and, once it has written, found
`current`. -/
def Phase.From (rowId : String) (read current : Row) : Phase → Prop
  | .starting => True
  | .reading snap => snap.find rowId = some read
  | .read stored _ => stored = read
  | .written stored obj after => stored = read ∧ after = current.set C obj
  | .done _ _ => False

def Phase.locks : Phase → Prop
  | .written _ _ _ => True
  | _ => False

/-- The row that the second call has read: the first one, if the calls overlapped. -/
def ReadBySecond (states : List RecordSystem) (before after read : Row) : Prop :=
  Overlapped states ∧ read = before ∨ ¬Overlapped states ∧ read = after

/-- How far two calls on one record are. -/
inductive Situation (calls : ℕ → UpdateCall) (rowId : String) (before : Row)
    (states : List RecordSystem) (sys : RecordSystem) : Prop
  | failed {k : ℕ} {p : RecordProc} (hlt : k < 2) (hk : sys.procs[k]? = some p)
      (hfailed : Failed p)
  | underway {i : ℕ} {p q : RecordProc} {φ ψ : Phase} (hi : i < 2)
      (hprocs : sys.procs = pair i p q)
      (hrow : sys.db.find rowId = some before)
      (hp : Stage C P (calls i) p φ) (hq : Stage C P (calls (1 - i)) q ψ)
      (hφ : φ.From C rowId before before) (hψ : ψ.From C rowId before before)
      (hlocks : ¬(φ.locks ∧ ψ.locks))
      (hoverlapped : Overlapped states → midway p ∧ midway q)
      (hnobody : ∀ k, ¬CommittedFirst k states)
  | one {i : ℕ} {p q : RecordProc} {ψ : Phase} {obj : Row} (hi : i < 2)
      (hprocs : sys.procs = pair i p q)
      (hrow : sys.db.find rowId = some (before.set C obj))
      (hp : Stage C P (calls i) p (.done before obj))
      (hq : Stage C P (calls (1 - i)) q ψ)
      (hψ : Overlapped states ∧ midway q ∧ ψ.From C rowId before (before.set C obj) ∨
        ¬Overlapped states ∧ ψ.From C rowId (before.set C obj) (before.set C obj))
      (hother : ¬CommittedFirst (1 - i) states)
  | both {i : ℕ} {p q : RecordProc} {obj read obj' : Row} (hi : i < 2)
      (hprocs : sys.procs = pair i p q)
      (hrow : sys.db.find rowId = some ((before.set C obj).set C obj'))
      (hp : Stage C P (calls i) p (.done before obj))
      (hq : Stage C P (calls (1 - i)) q (.done read obj'))
      (hread : ReadBySecond states before (before.set C obj) read)
      (hfirst : CommittedFirst i states) (hother : ¬CommittedFirst (1 - i) states)

end Runs

section Runs

variable {C : RecordClass} {P : Pydantic} {refuses : Table Row → Row → Option Fault}
  {calls : ℕ → UpdateCall} {call : UpdateCall} {rowId : String} {before : Row}
  {states : List RecordSystem} {sys sys' : RecordSystem} {p q : RecordProc} {φ : Phase}
  {i k : ℕ}

theorem not_midway_starting (hstage : Stage C P call p .starting) : ¬midway p := by
  rcases hstage with ⟨_, _, hsnapshot, hprog | ⟨hprog, _⟩⟩
  · simp [midway, hprog]
  · simp [midway, hprog, selectRow, hsnapshot]

theorem midway_reading {snap : Table Row} (hstage : Stage C P call p (.reading snap)) :
    midway p := by
  rcases hstage with ⟨_, _, hsnapshot, hprog, _⟩
  simp [midway, hprog, selectRow, hsnapshot]

theorem midway_read {stored obj : Row} (hstage : Stage C P call p (.read stored obj)) :
    midway p := by
  simp [midway, hstage.2.2.2.1, writeBack]

theorem midway_written {stored obj after : Row}
    (hstage : Stage C P call p (.written stored obj after)) : midway p := by
  simp [midway, hstage.2.2.1]

theorem not_midway_done {stored obj : Row} (hstage : Stage C P call p (.done stored obj)) :
    ¬midway p := by
  simp [midway, hstage.2.2.1]

theorem returned_done {stored obj : Row} (hstage : Stage C P call p (.done stored obj)) :
    Returned p :=
  ⟨obj, hstage.2.2.1⟩

/-- A call that has not committed has not returned. -/
theorem Phase.From.not_returned {read current : Row} (hφ : φ.From C rowId read current)
    (hstage : Stage C P call p φ) : ¬Returned p := by
  rintro ⟨obj, hobj⟩
  cases φ with
  | starting =>
      rcases hstage with ⟨_, _, _, hprog | ⟨hprog, _⟩⟩
      · rw [hobj] at hprog
        cases hprog
      · rw [hobj] at hprog
        cases hprog
  | reading snap =>
      rw [hstage.2.2.2.1] at hobj
      cases hobj
  | read stored obj =>
      rw [hstage.2.2.2.1] at hobj
      cases hobj
  | written stored obj after =>
      rw [hstage.2.2.1] at hobj
      cases hobj
  | done stored obj => exact hφ

theorem overlapped_append :
    Overlapped (states ++ [sys]) ↔ Overlapped states ∨ ∀ p ∈ sys.procs, midway p := by
  constructor
  · rintro ⟨s, hs, hall⟩
    rcases List.mem_append.mp hs with hs | hs
    · exact Or.inl ⟨s, hs, hall⟩
    · rw [List.mem_singleton.mp hs] at hall
      exact Or.inr hall
  · rintro (⟨s, hs, hall⟩ | hall)
    · exact ⟨s, List.mem_append_left _ hs, hall⟩
    · exact ⟨sys, by simp, hall⟩

theorem committedFirst_append :
    CommittedFirst k (states ++ [sys]) ↔ CommittedFirst k states ∨
      (∃ p, sys.procs[k]? = some p ∧ Returned p) ∧
        ∃ q, sys.procs[1 - k]? = some q ∧ ¬Returned q := by
  constructor
  · rintro ⟨s, hs, hall⟩
    rcases List.mem_append.mp hs with hs | hs
    · exact Or.inl ⟨s, hs, hall⟩
    · rw [List.mem_singleton.mp hs] at hall
      exact Or.inr hall
  · rintro (⟨s, hs, hall⟩ | hall)
    · exact ⟨s, List.mem_append_left _ hs, hall⟩
    · exact ⟨sys, by simp, hall⟩

section Steps

variable (hids : ∀ i < 2, (calls i).rowId = rowId) {q : RecordProc} {p' : RecordProc}
  {db' : Table Row} {ψ : Phase}

theorem overlapped_open (hi : i < 2) (hprocs : sys.procs = pair i p q)
    (hoverlapped : Overlapped states → midway p ∧ midway q)
    (h : Overlapped (states ++ [sys])) : midway p ∧ midway q := by
  rcases overlapped_append.mp h with h | h
  · exact hoverlapped h
  · rw [hprocs] at h
    exact (forall_mem_pair hi).mp h

theorem nobody_append (hi : i < 2) (hprocs : sys.procs = pair i p q)
    (hp : ¬Returned p) (hq : ¬Returned q) (hnobody : ∀ k, ¬CommittedFirst k states) (k : ℕ) :
    ¬CommittedFirst k (states ++ [sys]) := by
  intro h
  rcases committedFirst_append.mp h with h | ⟨⟨r, hr, hreturned⟩, _⟩
  · exact hnobody k h
  · rw [hprocs] at hr
    rcases index_of_pair hi hr with ⟨_, rfl⟩ | ⟨_, rfl⟩
    · exact hp hreturned
    · exact hq hreturned

/-- What a call that has not committed may become while the row stays as it is. -/
theorem Stage.stays_open {read current : Row} (hstage : Stage C P call p φ)
    (hφ : φ.From C call.rowId read current)
    (hcurrent : sys.db.find call.rowId = some current)
    (hstart : φ = .starting → read = current)
    (hchange : System.Change (recordSchema C refuses) sys i p db' p') :
    Failed p' ∨
      (db' = sys.db ∧ (midway p → midway p') ∧
        ∃ φ', Stage C P call p' φ' ∧ φ'.From C call.rowId read current ∧
          (φ'.locks → (call.rowId, .noKeyUpdate) ∉ sys.heldByOthers i)) ∨
      ∃ obj, φ = .written read obj (current.set C obj) ∧
        Stage C P call p' (.done read obj) ∧ db' = sys.db.put (current.set C obj) := by
  cases φ with
  | starting =>
      rcases hstage.starting_change hchange with ⟨hdb, hfailed | hnext | hnext⟩
      · exact Or.inl hfailed
      · exact Or.inr (Or.inl ⟨hdb, fun h => absurd h (not_midway_starting hstage),
          _, hnext, trivial, fun h => h.elim⟩)
      · refine Or.inr (Or.inl ⟨hdb, fun h => absurd h (not_midway_starting hstage),
          _, hnext, ?_, fun h => h.elim⟩)
        rw [hstart rfl]
        exact hcurrent
  | reading snap =>
      rcases hstage.reading_change hφ hchange with ⟨hdb, hfailed | ⟨obj, hnext⟩⟩
      · exact Or.inl hfailed
      · exact Or.inr (Or.inl ⟨hdb, fun _ => midway_read hnext, _, hnext, rfl,
          fun h => h.elim⟩)
  | read stored obj =>
      rcases hstage.read_change hcurrent hchange with
        ⟨hdb, hfailed | hnext | ⟨hnext, hfree⟩⟩
      · exact Or.inl hfailed
      · exact Or.inr (Or.inl ⟨hdb, fun _ => midway_read hnext, _, hnext, hφ,
          fun h => h.elim⟩)
      · exact Or.inr (Or.inl ⟨hdb, fun _ => midway_written hnext, _, hnext, ⟨hφ, rfl⟩,
          fun _ => hfree⟩)
  | written stored obj after =>
      rcases hφ with ⟨rfl, rfl⟩
      rcases hstage.written_change hchange with ⟨hfailed, _⟩ | ⟨hnext, hdb⟩
      · exact Or.inl hfailed
      · exact Or.inr (Or.inr ⟨obj, rfl, hnext, hdb⟩)
  | done stored obj => exact hφ.elim

/-- A call that holds the lock of the row keeps others from writing it. -/
theorem mem_heldByOthers_of_locks (hi : i < 2) (hprocs : sys.procs = pair i p q)
    (hq : Stage C P call q ψ) (hlocks : ψ.locks) :
    (call.rowId, .noKeyUpdate) ∈ sys.heldByOthers i := by
  cases ψ with
  | written stored obj after =>
      refine System.mem_heldByOthers.mpr ⟨1 - i, q, by omega, ?_, ?_⟩
      · rw [hprocs]
        exact pair_other hi
      · rw [hq.2.1]
        exact .head _
  | _ => exact hlocks.elim

theorem find_put_set {t : Table Row} {r r' : Row} (hfind : t.find rowId = some r)
    (hid : r'.id = r.id) : (t.put r').find rowId = some r' := by
  have hkey : r'.id = rowId := hid.trans (Table.find_eq_some.mp hfind).2
  rw [← hkey]
  exact find_put_self t r'

include hids in
theorem open_step (hi : i < 2) (hprocs : sys.procs = pair i p q)
    (hrow : sys.db.find rowId = some before)
    (hp : Stage C P (calls i) p φ) (hq : Stage C P (calls (1 - i)) q ψ)
    (hφ : φ.From C rowId before before) (hψ : ψ.From C rowId before before)
    (hlocks : ¬(φ.locks ∧ ψ.locks))
    (hoverlapped : Overlapped states → midway p ∧ midway q)
    (hnobody : ∀ k, ¬CommittedFirst k states)
    (hchange : System.Change (recordSchema C refuses) sys i p db' p') :
    Situation C P calls rowId before (states ++ [sys]) ⟨db', pair i p' q⟩ := by
  have hid := hids i hi
  have hid' := hids (1 - i) (by omega)
  have hnext := overlapped_open hi hprocs hoverlapped
  have hnone := nobody_append hi hprocs (hφ.not_returned hp) (hψ.not_returned hq) hnobody
  rw [← hid] at hφ hrow
  rcases hp.stays_open hφ hrow (fun _ => rfl) hchange with
    hfailed | ⟨rfl, hmidway, φ', hp', hφ', hfree⟩ | ⟨obj, rfl, hp', rfl⟩
  · exact .failed hi (pair_self hi) hfailed
  · rw [hid] at hφ' hrow hfree
    refine .underway hi rfl hrow hp' hq hφ' hψ ?_ ?_ hnone
    · rintro ⟨hfirst, hsecond⟩
      have hheld := mem_heldByOthers_of_locks hi hprocs hq hsecond
      rw [hid'] at hheld
      exact hfree hfirst hheld
    · intro h
      exact ⟨hmidway (hnext h).1, (hnext h).2⟩
  · rw [hid] at hrow
    have hunlocked : ¬ψ.locks := fun h => hlocks ⟨trivial, h⟩
    refine .one hi rfl (find_put_set hrow rfl) hp' hq ?_ (hnone (1 - i))
    by_cases hq' : midway q
    · refine Or.inl ⟨overlapped_append.mpr (Or.inr ?_), hq', ?_⟩
      · rw [hprocs]
        exact (forall_mem_pair hi).mpr ⟨midway_written hp, hq'⟩
      · cases ψ with
        | starting => exact absurd hq' (not_midway_starting hq)
        | reading snap => exact hψ
        | read stored obj => exact hψ
        | written stored obj after => exact absurd trivial hunlocked
        | done stored obj => exact hψ.elim
    · refine Or.inr ⟨fun h => hq' (hnext h).2, ?_⟩
      cases ψ with
      | starting => trivial
      | reading snap => exact absurd (midway_reading hq) hq'
      | read stored obj => exact absurd (midway_read hq) hq'
      | written stored obj after => exact absurd trivial hunlocked
      | done stored obj => exact hψ.elim

include hids in
theorem one_step {obj : Row} (hi : i < 2) (hprocs : sys.procs = pair i p q)
    (hrow : sys.db.find rowId = some (before.set C obj))
    (hp : Stage C P (calls i) p (.done before obj))
    (hq : Stage C P (calls (1 - i)) q ψ)
    (hψ : Overlapped states ∧ midway q ∧ ψ.From C rowId before (before.set C obj) ∨
      ¬Overlapped states ∧ ψ.From C rowId (before.set C obj) (before.set C obj))
    (hother : ¬CommittedFirst (1 - i) states) {q' : RecordProc}
    (hchange : System.Change (recordSchema C refuses) sys (1 - i) q db' q') :
    Situation C P calls rowId before (states ++ [sys]) ⟨db', pair i p q'⟩ := by
  have hid := hids (1 - i) (by omega)
  have hsame : Overlapped (states ++ [sys]) ↔ Overlapped states := by
    rw [overlapped_append, hprocs, forall_mem_pair hi]
    constructor
    · rintro (h | h)
      · exact h
      · exact absurd h.1 (not_midway_done hp)
    · exact Or.inl
  have hnot : ¬Returned q := by
    rcases hψ with ⟨_, _, hψ⟩ | ⟨_, hψ⟩
    · exact hψ.not_returned hq
    · exact hψ.not_returned hq
  have hother' : ¬CommittedFirst (1 - i) (states ++ [sys]) := by
    intro h
    rcases committedFirst_append.mp h with h | ⟨⟨r, hr, hreturned⟩, _⟩
    · exact hother h
    · rw [hprocs, pair_other hi] at hr
      cases hr
      exact hnot hreturned
  have hfirst : CommittedFirst i (states ++ [sys]) := by
    refine committedFirst_append.mpr (Or.inr ⟨⟨p, ?_, returned_done hp⟩, q, ?_, hnot⟩)
    · rw [hprocs]
      exact pair_self hi
    · rw [hprocs]
      exact pair_other hi
  rw [← hid] at hrow
  rcases hψ with ⟨hover, hmid, hψ⟩ | ⟨hapart, hψ⟩
  · rw [← hid] at hψ
    have hstart : ψ = .starting → before = before.set C obj := by
      rintro rfl
      exact absurd hmid (not_midway_starting hq)
    rcases hq.stays_open hψ hrow hstart hchange with
      hfailed | ⟨rfl, hmidway, ψ', hq', hψ', _⟩ | ⟨obj', rfl, hq', rfl⟩
    · exact .failed (by omega) (pair_other hi) hfailed
    · rw [hid] at hψ' hrow
      exact .one hi rfl hrow hp hq'
        (Or.inl ⟨hsame.mpr hover, hmidway hmid, hψ'⟩) hother'
    · rw [hid] at hrow
      exact .both hi rfl (find_put_set hrow rfl) hp hq'
        (Or.inl ⟨hsame.mpr hover, rfl⟩) hfirst hother'
  · rw [← hid] at hψ
    rcases hq.stays_open hψ hrow (fun _ => rfl) hchange with
      hfailed | ⟨rfl, _, ψ', hq', hψ', _⟩ | ⟨obj', rfl, hq', rfl⟩
    · exact .failed (by omega) (pair_other hi) hfailed
    · rw [hid] at hψ' hrow
      exact .one hi rfl hrow hp hq' (Or.inr ⟨fun h => hapart (hsame.mp h), hψ'⟩) hother'
    · rw [hid] at hrow
      exact .both hi rfl (find_put_set hrow rfl) hp hq'
        (Or.inr ⟨fun h => hapart (hsame.mp h), rfl⟩) hfirst hother'

/-- A call that has failed stays so. -/
theorem Failed.step {start : UpdateCall → RecordProg} {label : Label UpdateCall}
    (hstep : System.Step (recordSchema C refuses) start sys label sys')
    (hk : sys.procs[k]? = some p) (hfailed : Failed p) :
    ∃ p', sys'.procs[k]? = some p' ∧ Failed p' := by
  rcases hstep.spawn_or_change with ⟨call, _, rfl⟩ | ⟨j, r, db', r', hj, hchange, rfl⟩
  · refine ⟨p, ?_, hfailed⟩
    rw [List.getElem?_append_left (List.getElem?_eq_some_iff.mp hk).1]
    exact hk
  · by_cases hjk : j = k
    · subst hjk
      rw [hk] at hj
      cases hj
      refine ⟨r', ?_, (hfailed.change hchange).1⟩
      rw [List.getElem?_set_self (List.getElem?_eq_some_iff.mp hk).1]
    · refine ⟨p, ?_, hfailed⟩
      rw [List.getElem?_set_ne hjk]
      exact hk

/-- No call arrives beside the two. -/
def NoArrival (_ : RecordSystem) (label : Label UpdateCall) : Prop :=
  label.spawned = none

include hids in
theorem Situation.step {start : UpdateCall → RecordProg}
    (hsituation : Situation C P calls rowId before states sys)
    {label : Label UpdateCall} (hok : NoArrival sys label)
    (hstep : System.Step (recordSchema C refuses) start sys label sys') :
    Situation C P calls rowId before (states ++ [sys]) sys' := by
  cases hsituation with
  | failed hlt hk hfailed =>
      rcases hfailed.step hstep hk with ⟨p', hk', hfailed'⟩
      exact .failed hlt hk' hfailed'
  | @underway i p₀ q₀ φ₀ ψ₀ hi hprocs hrow hp hq hφ hψ hlocks hoverlapped hnobody =>
      rcases hstep.spawn_or_change with ⟨call, rfl, _⟩ | ⟨j, r, db', r', hj, hchange, rfl⟩
      · cases hok
      · rw [hprocs] at hj
        rcases index_of_pair hi hj with ⟨rfl, rfl⟩ | ⟨rfl, rfl⟩
        · rw [hprocs, pair_set hi]
          exact open_step hids hi hprocs hrow hp hq hφ hψ hlocks hoverlapped hnobody hchange
        · have hj : 1 - i < 2 := by omega
          have hback : 1 - (1 - i) = i := by omega
          have hp' : Stage C P (calls (1 - (1 - i))) _ _ := hback.symm ▸ hp
          rw [hprocs, pair_swap hi, pair_set hj]
          refine open_step hids hj (hprocs.trans (pair_swap hi)) hrow hq hp' hψ hφ ?_ ?_
            hnobody hchange
          · rintro ⟨hfirst, hsecond⟩
            exact hlocks ⟨hsecond, hfirst⟩
          · intro h
            exact ⟨(hoverlapped h).2, (hoverlapped h).1⟩
  | @one i p₀ q₀ ψ₀ obj hi hprocs hrow hp hq hψ hother =>
      rcases hstep.spawn_or_change with ⟨call, rfl, _⟩ | ⟨j, r, db', r', hj, hchange, rfl⟩
      · cases hok
      · rw [hprocs] at hj
        rcases index_of_pair hi hj with ⟨rfl, rfl⟩ | ⟨rfl, rfl⟩
        · exact (hp.done_change hchange).elim
        · have hj : 1 - i < 2 := by omega
          have hback : 1 - (1 - i) = i := by omega
          rw [hprocs, pair_swap hi, pair_set hj, pair_swap hj, hback]
          exact one_step hids hi hprocs hrow hp hq hψ hother hchange
  | both hi hprocs hrow hp hq hread hfirst hother =>
      rcases hstep.spawn_or_change with ⟨call, rfl, _⟩ | ⟨j, r, db', r', hj, hchange, rfl⟩
      · cases hok
      · rw [hprocs] at hj
        rcases index_of_pair hi hj with ⟨rfl, rfl⟩ | ⟨rfl, rfl⟩
        · exact (hp.done_change hchange).elim
        · exact (hq.done_change hchange).elim

/-- Two calls about to run. -/
def twoCalls (C : RecordClass) (P : Pydantic) (calls : ℕ → UpdateCall) (t : Table Row) :
    RecordSystem :=
  ⟨t, [.fresh (calls 0) (updateProgram C P (calls 0)),
    .fresh (calls 1) (updateProgram C P (calls 1))]⟩

theorem failed_of_rejected {e : RecordError} (h : rejectKeys C call.userFields = .error e) :
    Failed (.fresh call (updateProgram C P call)) := by
  refine ⟨rfl, Or.inr (Or.inr ⟨e, ?_⟩)⟩
  simp only [Proc.fresh, updateProgram, h]

theorem starting_of_accepted (h : rejectKeys C call.userFields = .ok ()) :
    Stage C P call (.fresh call (updateProgram C P call)) .starting := by
  refine ⟨rfl, rfl, rfl, Or.inl ?_⟩
  simp only [Proc.fresh, updateProgram, h]

variable {t : Table Row}

include hids in
theorem situation_of_trace
    (hrun : System.Trace (recordSchema C refuses) (updateProgram C P) NoArrival
      (twoCalls C P calls t) states sys)
    (hrow : t.find rowId = some before)
    (hkeys : ∀ i < 2, rejectKeys C (calls i).userFields = .ok ()) :
    Situation C P calls rowId before states sys := by
  apply hrun.invariant
  · intro states sys sys' label (hsituation : Situation C P calls rowId before states sys)
      hok hstep
    exact hsituation.step hids hok hstep
  · refine @Situation.underway C P calls rowId before [] _ 0 _ _ .starting .starting
      (by omega) rfl hrow
      (starting_of_accepted (hkeys 0 (by omega)))
      (starting_of_accepted (hkeys 1 (by omega))) trivial trivial ?_ ?_ ?_
    · exact fun h => h.1
    · rintro ⟨s, hs, _⟩
      cases hs
    · rintro k ⟨s, hs, _⟩
      cases hs

/-- Calls that return have passed the check of their keys. -/
theorem accepted_of_returned
    (hrun : System.Trace (recordSchema C refuses) (updateProgram C P) NoArrival
      (twoCalls C P calls t) states sys)
    (hlt : i < 2) (hi : sys.procs[i]? = some p) (hreturned : Returned p) :
    rejectKeys C (calls i).userFields = .ok () := by
  cases hkeys : rejectKeys C (calls i).userFields with
  | ok u => rfl
  | error e =>
      have hfirst : ∃ p, (twoCalls C P calls t).procs[i]? = some p ∧ Failed p := by
        have hcases : i = 0 ∨ i = 1 := by omega
        rcases hcases with rfl | rfl
        · exact ⟨_, rfl, failed_of_rejected hkeys⟩
        · exact ⟨_, rfl, failed_of_rejected hkeys⟩
      have hlast : ∃ p, sys.procs[i]? = some p ∧ Failed p := by
        have hstays : ∀ (states : List RecordSystem) sys sys' label,
            (∃ p, sys.procs[i]? = some p ∧ Failed p) → NoArrival sys label →
            System.Step (recordSchema C refuses) (updateProgram C P) sys label sys' →
            ∃ p, sys'.procs[i]? = some p ∧ Failed p := by
          rintro states sys sys' label ⟨p, hp, hfailed⟩ _ hstep
          exact hfailed.step hstep hp
        exact hrun.invariant hstays hfirst
      rcases hlast with ⟨p', hp', hfailed⟩
      rw [hi] at hp'
      cases hp'
      exact absurd hreturned hfailed.not_returned

end Steps

end Runs

/-! ## What survives -/

section Survival

variable {C : RecordClass} {P : Pydantic} {refuses : Table Row → Row → Option Fault}
  {call call' : UpdateCall} {before read after obj obj' : Row}

theorem BothKept.swap (h : BothKept C P call call' before after) :
    BothKept C P call' call before after where
  first := h.second
  second := h.first
  others := fun a ha hnone hnone' => h.others a ha hnone' hnone
  serial := h.serial.symm

theorem Row.set_congr {stored : Row} (hupdatedAt : obj.updatedAt = obj'.updatedAt)
    (hupdatedBy : obj.updatedBy = obj'.updatedBy)
    (hfields : ∀ a ∈ C.attributes, obj.fields a.nameSnake = obj'.fields a.nameSnake) :
    stored.set C obj = stored.set C obj' := by
  have hall : (stored.set C obj).fields = (stored.set C obj').fields := by
    funext f
    by_cases hf : f ∈ C.userColumns
    · rcases RecordClass.exists_attribute hf with ⟨a, ha, rfl⟩
      rw [Row.set_field ha, Row.set_field ha, hfields a ha]
    · rw [Row.set_other hf, Row.set_other hf]
  simp only [Row.set] at hall ⊢
  rw [hall, hupdatedAt, hupdatedBy]

section Fields

variable (hkeys : rejectKeys C call.userFields = .ok ())
  (hkeys' : rejectKeys C call'.userFields = .ok ())
  (hobject : updateObject C P call before = .ok obj)
  (hdisjoint : ∀ f, call.userFields.lookup f = none ∨ call'.userFields.lookup f = none)

include hkeys hkeys' hobject hdisjoint

/-- The second call has read what the first one wrote: all named fields are kept. -/
theorem bothKept_iff_of_turns
    (hobject' : updateObject C P call' (before.set C obj) = .ok obj') :
    BothKept C P call call' before ((before.set C obj).set C obj') ↔
      ∀ a ∈ C.attributes, call.userFields.lookup a.nameSnake = none →
        call'.userFields.lookup a.nameSnake = none →
        validateField P a (before.fields a.nameSnake) =
          some (before.fields a.nameSnake) := by
  have hlast : ∀ a ∈ C.attributes, call'.userFields.lookup a.nameSnake = none →
      obj'.fields a.nameSnake = obj.fields a.nameSnake := by
    intro a ha hnone
    have hread := updateObject_unnamed hobject' ha hnone
    rw [Row.set_field ha, updateObject_valid hobject ha] at hread
    exact (Option.some.inj hread).symm
  constructor
  · intro hkept a ha hnone hnone'
    have hold := hkept.others a ha hnone hnone'
    rw [Row.set_field ha, hlast a ha hnone'] at hold
    rw [updateObject_unnamed hobject ha hnone, hold]
  · intro hsettled
    refine ⟨?_, ?_, ?_, Or.inl ⟨obj, obj', hobject, hobject', rfl⟩⟩
    · intro a ha v hv
      have hnone' : call'.userFields.lookup a.nameSnake = none := by
        rcases hdisjoint a.nameSnake with h | h
        · rw [hv] at h
          cases h
        · exact h
      rw [Row.set_field ha, hlast a ha hnone']
      exact updateObject_named hkeys hobject ha hv
    · intro a ha v hv
      rw [Row.set_field ha]
      exact updateObject_named hkeys' hobject' ha hv
    · intro a ha hnone hnone'
      have hold := updateObject_unnamed hobject ha hnone
      rw [hsettled a ha hnone hnone'] at hold
      rw [Row.set_field ha, hlast a ha hnone']
      exact (Option.some.inj hold).symm

/-- Both calls have read the same row: what the first one wrote is lost unless it
was there before. -/
theorem bothKept_iff_of_overlap (hobject' : updateObject C P call' before = .ok obj') :
    BothKept C P call call' before ((before.set C obj).set C obj') ↔
      (∀ a ∈ C.attributes, call.userFields.lookup a.nameSnake = none →
        call'.userFields.lookup a.nameSnake = none →
        validateField P a (before.fields a.nameSnake) =
          some (before.fields a.nameSnake)) ∧
      ∀ a ∈ C.attributes, ∀ v, call.userFields.lookup a.nameSnake = some v →
        validateField P a v = validateField P a (before.fields a.nameSnake) := by
  have hnone : ∀ a ∈ C.attributes, ∀ v, call.userFields.lookup a.nameSnake = some v →
      call'.userFields.lookup a.nameSnake = none := by
    intro a _ v hv
    rcases hdisjoint a.nameSnake with h | h
    · rw [hv] at h
      cases h
    · exact h
  have hlast := fun a ha h => updateObject_unnamed (a := a) hobject' ha h
  constructor
  · intro hkept
    constructor
    · intro a ha hnot hnot'
      have hold := hkept.others a ha hnot hnot'
      rw [Row.set_field ha] at hold
      rw [hlast a ha hnot', hold]
    · intro a ha v hv
      have hwritten := hkept.first a ha v hv
      rw [Row.set_field ha] at hwritten
      rw [hwritten, hlast a ha (hnone a ha v hv)]
  · rintro ⟨hsettled, hsame⟩
    have hfirst : ∀ a ∈ C.attributes, call'.userFields.lookup a.nameSnake = none →
        obj'.fields a.nameSnake = obj.fields a.nameSnake := by
      intro a ha hnot'
      have hread := hlast a ha hnot'
      cases hv : call.userFields.lookup a.nameSnake with
      | none =>
          have hread' := updateObject_unnamed hobject ha hv
          exact Option.some.inj (hread.symm.trans hread')
      | some v =>
          have hnamed := updateObject_named hkeys hobject ha hv
          rw [hsame a ha v hv] at hnamed
          exact Option.some.inj (hread.symm.trans hnamed)
    refine ⟨?_, ?_, ?_, Or.inl ?_⟩
    · intro a ha v hv
      rw [Row.set_field ha, hsame a ha v hv]
      exact hlast a ha (hnone a ha v hv)
    · intro a ha v hv
      rw [Row.set_field ha]
      exact updateObject_named hkeys' hobject' ha hv
    · intro a ha hnot hnot'
      have hread := hlast a ha hnot'
      rw [hsettled a ha hnot hnot'] at hread
      rw [Row.set_field ha]
      exact (Option.some.inj hread).symm
    · rcases exists_modelValidate_set hobject with ⟨existing, hexisting⟩
      have hserial : ∃ next, updateObject C P call' (before.set C obj) = .ok next := by
        apply exists_updateObject (updateObject_eq_ok.mp hobject').1 hexisting
        intro a ha v hv
        rw [updateObject_named hkeys' hobject' ha hv]
        rfl
      rcases hserial with ⟨next, hnext⟩
      refine ⟨obj, next, hobject, hnext, ?_⟩
      rcases updateObject_stamps hobject' with ⟨_, hat, hby⟩
      rcases updateObject_stamps hnext with ⟨_, hat', hby'⟩
      apply Row.set_congr (hat.trans hat'.symm) (hby.trans hby'.symm)
      intro a ha
      cases hv : call'.userFields.lookup a.nameSnake with
      | none =>
          have hread := updateObject_unnamed hnext ha hv
          rw [Row.set_field ha, updateObject_valid hobject ha] at hread
          exact (hfirst a ha hv).trans (Option.some.inj hread)
      | some v =>
          have hnamed := updateObject_named hkeys' hobject' ha hv
          have hnamed' := updateObject_named hkeys' hnext ha hv
          exact Option.some.inj (hnamed.symm.trans hnamed')

end Fields

/-- Two updates of one record that both return keep each other's fields exactly
when nothing is lost on the way. -/
theorem updates_both_kept_iff {calls : ℕ → UpdateCall} {t : Table Row} {rowId : String}
    {states : List RecordSystem} {sys : RecordSystem}
    (hrow : t.find rowId = some before)
    (hids : ∀ i < 2, (calls i).rowId = rowId)
    (hdisjoint : ∀ f, (calls 0).userFields.lookup f = none ∨
      (calls 1).userFields.lookup f = none)
    (hrun : System.Trace (recordSchema C refuses) (updateProgram C P) NoArrival
      (twoCalls C P calls t) states sys)
    (hreturned : ∀ i < 2, ∃ p, sys.procs[i]? = some p ∧ Returned p) :
    ∃ after, sys.db.find rowId = some after ∧
      (BothKept C P (calls 0) (calls 1) before after ↔
        NothingLost C P calls before states) := by
  have hkeys : ∀ i < 2, rejectKeys C (calls i).userFields = .ok () := by
    intro i hi
    rcases hreturned i hi with ⟨p, hp, hret⟩
    exact accepted_of_returned hrun hi hp hret
  have hnot : ∀ {i p}, i < 2 → sys.procs[i]? = some p → ¬Returned p → False := by
    intro i p hi hp hnot
    rcases hreturned i hi with ⟨p', hp', hret⟩
    rw [hp] at hp'
    cases hp'
    exact hnot hret
  cases situation_of_trace hids hrun hrow hkeys with
  | failed hlt hk hfailed => exact (hnot hlt hk hfailed.not_returned).elim
  | underway hi hprocs _ hp _ hφ =>
      exact (hnot hi (hprocs ▸ pair_self hi) (hφ.not_returned hp)).elim
  | @one i p q ψ obj hi hprocs hrow hp hq hψ =>
      have hpending : ¬Returned q := by
        rcases hψ with ⟨_, _, hψ⟩ | ⟨_, hψ⟩
        · exact hψ.not_returned hq
        · exact hψ.not_returned hq
      have hq' : sys.procs[1 - i]? = some q := by
        rw [hprocs]
        exact pair_other hi
      exact (hnot (by omega) hq' hpending).elim
  | @both i p q obj read obj' hi hprocs hrow hp hq hread hfirst hother =>
      refine ⟨_, hrow, ?_⟩
      have hj : 1 - i < 2 := by omega
      have hcases : i = 0 ∨ i = 1 := by omega
      have happart : ∀ f, (calls i).userFields.lookup f = none ∨
          (calls (1 - i)).userFields.lookup f = none := by
        intro f
        rcases hcases with rfl | rfl
        · exact hdisjoint f
        · exact (hdisjoint f).symm
      have hswap : BothKept C P (calls 0) (calls 1) before ((before.set C obj).set C obj') ↔
          BothKept C P (calls i) (calls (1 - i)) before
            ((before.set C obj).set C obj') := by
        rcases hcases with rfl | rfl
        · exact Iff.rfl
        · exact ⟨BothKept.swap, BothKept.swap⟩
      have hnone : ∀ f, (∀ k < 2, (calls k).userFields.lookup f = none) ↔
          (calls i).userFields.lookup f = none ∧
            (calls (1 - i)).userFields.lookup f = none := by
        intro f
        constructor
        · intro h
          exact ⟨h i hi, h (1 - i) hj⟩
        · rintro ⟨h, h'⟩ k hk
          by_cases hki : k = i
          · rw [hki]
            exact h
          · have hk' : k = 1 - i := by omega
            rw [hk']
            exact h'
      rw [hswap]
      rcases hread with ⟨hover, rfl⟩ | ⟨happart', rfl⟩
      · rw [bothKept_iff_of_overlap (hkeys i hi) (hkeys _ hj) hp.2.2.2 happart hq.2.2.2]
        constructor
        · rintro ⟨hsettled, hsame⟩
          constructor
          · intro a ha h
            have hboth := (hnone _).mp h
            exact hsettled a ha hboth.1 hboth.2
          · intro _ k hk hcommitted
            by_cases hki : k = i
            · rw [hki]
              exact hsame
            · have hk' : k = 1 - i := by omega
              rw [hk'] at hcommitted
              exact absurd hcommitted hother
        · intro hlost
          constructor
          · intro a ha h h'
            exact hlost.settled a ha ((hnone _).mpr ⟨h, h'⟩)
          · exact hlost.same hover i hi hfirst
      · rw [bothKept_iff_of_turns (hkeys i hi) (hkeys _ hj) hp.2.2.2 happart hq.2.2.2]
        constructor
        · intro hsettled
          constructor
          · intro a ha h
            have hboth := (hnone _).mp h
            exact hsettled a ha hboth.1 hboth.2
          · intro hover
            exact absurd hover happart'
        · intro hlost a ha h h'
          exact hlost.settled a ha ((hnone _).mpr ⟨h, h'⟩)

end Survival

/-! ## Executed runs -/

instance (sys : RecordSystem) : (label : Label UpdateCall) → Decidable (NoArrival sys label)
  | .spawn _ => isFalse fun h => nomatch h
  | .advance _ => isTrue rfl
  | .interrupt _ => isTrue rfl
  | .deadlock _ => isTrue rfl

def returnedObject (p : RecordProc) : Option Row :=
  match p.prog with
  | .ret (.ok obj) => some obj
  | _ => none

theorem returned_of_object {p : RecordProc} (h : (returnedObject p).isSome = true) :
    Returned p := by
  unfold returnedObject at h
  split at h
  · rename_i obj hprog
    exact ⟨obj, hprog⟩
  · cases h

/-- A class with two texts. -/
def cardClass : RecordClass where
  nameSnake := "card"
  displayName := "Card"
  description := "A card."
  attributes := ["front", "back"].map fun n =>
    ⟨n, "compact_text", true, none, false, none, none, none, none,
      defaultFriendlyIdPadWidth, none⟩
  sourcePath := "card.yaml"
  displayAttribute := none
  isPublic := false
  permissions := ["update"]
  checkConstraints := []
  uniqueConstraints := []
  names := by decide
  notSystem := by decide

def card : Row :=
  ⟨"card 1", 0, 0, "user 1", "user 1", fun _ => .text "old"⟩

def cardTable : Table Row := Table.empty.put card

/-- One call writes the front, the other one the back. -/
def cardCalls (i : ℕ) : UpdateCall :=
  ⟨"card 1", [(if i = 0 then "front" else "back", .text "new")], "user 1", ⟨0, inCalendar_zero⟩⟩

/-- Follow a schedule of the two calls: whether both have returned, and the texts. -/
def cardOutcome (labels : List (Label UpdateCall)) : Option (Bool × Option (List Value)) :=
  (System.traceAll (recordSchema cardClass fun _ _ => none)
    (updateProgram cardClass epochTexts) NoArrival labels []
      (twoCalls cardClass epochTexts cardCalls cardTable)).map fun run =>
    ((run.2.procs.map returnedObject).map Option.isSome = [true, true],
      (run.2.db.find "card 1").map cardClass.userData)

theorem cardRun_of_outcome {labels : List (Label UpdateCall)} {values : List Value}
    (h : cardOutcome labels = some (true, some values)) :
    ∃ states sys after, System.Trace (recordSchema cardClass fun _ _ => none)
        (updateProgram cardClass epochTexts) NoArrival
        (twoCalls cardClass epochTexts cardCalls cardTable) states sys ∧
      (∀ i < 2, ∃ p, sys.procs[i]? = some p ∧ Returned p) ∧
      sys.db.find "card 1" = some after ∧ cardClass.userData after = values := by
  rcases Option.map_eq_some_iff.mp h with ⟨⟨states, sys⟩, htrace, hend⟩
  simp only [Prod.mk.injEq, decide_eq_true_eq] at hend
  rcases hend with ⟨hreturned, hrow⟩
  rcases Option.map_eq_some_iff.mp hrow with ⟨after, hafter, hvalues⟩
  refine ⟨states, sys, after, System.traceAll_trace (fun _ _ hok => hok) .start htrace, ?_,
    hafter, hvalues⟩
  intro i hi
  have hflag : (((sys.procs.map returnedObject).map Option.isSome)[i]?) = some true := by
    rw [hreturned]
    have hcases : i = 0 ∨ i = 1 := by omega
    rcases hcases with rfl | rfl
    · rfl
    · rfl
  rw [List.map_map, List.getElem?_map] at hflag
  rcases Option.map_eq_some_iff.mp hflag with ⟨p, hp, hobject⟩
  exact ⟨p, hp, returned_of_object hobject⟩

theorem cardCalls_disjoint (f : String) : (cardCalls 0).userFields.lookup f = none ∨
    (cardCalls 1).userFields.lookup f = none := by
  by_cases hf : f = "front"
  · right
    rw [hf]
    rfl
  · left
    have hne : (f == "front") = false := beq_false_of_ne hf
    change List.lookup f [("front", Value.text "new")] = none
    rw [List.lookup_cons, hne]
    rfl

/-- One call after the other. -/
theorem updates_both_kept_in_turn :
    ∃ states after,
      (BothKept cardClass epochTexts (cardCalls 0) (cardCalls 1) card after ↔
        NothingLost cardClass epochTexts cardCalls card states) := by
  have hrun : cardOutcome (List.replicate 6 (.advance 0) ++ List.replicate 6 (.advance 1)) =
      some (true, some [.text "new", .text "new"]) := by
    decide +kernel
  rcases cardRun_of_outcome hrun with ⟨states, sys, after, htrace, hreturned, _, _⟩
  have hrow : cardTable.find "card 1" = some card := rfl
  rcases updates_both_kept_iff hrow (fun _ _ => rfl) cardCalls_disjoint htrace hreturned with
    ⟨after, _, hiff⟩
  exact ⟨states, after, hiff⟩

/-- Both calls read before either one commits, and the new front is lost. -/
theorem overlapping_update_lost :
    ∃ states sys after, System.Trace (recordSchema cardClass fun _ _ => none)
        (updateProgram cardClass epochTexts) NoArrival
        (twoCalls cardClass epochTexts cardCalls cardTable) states sys ∧
      (∀ i < 2, ∃ p, sys.procs[i]? = some p ∧ Returned p) ∧
      sys.db.find "card 1" = some after ∧
      ¬BothKept cardClass epochTexts (cardCalls 0) (cardCalls 1) card after := by
  have hrun : cardOutcome (List.replicate 3 (.advance 0) ++ List.replicate 3 (.advance 1) ++
      List.replicate 3 (.advance 0) ++ List.replicate 3 (.advance 1)) =
      some (true, some [.text "old", .text "new"]) := by
    decide +kernel
  rcases cardRun_of_outcome hrun with ⟨states, sys, after, htrace, hreturned, hafter, hvalues⟩
  refine ⟨states, sys, after, htrace, hreturned, hafter, ?_⟩
  intro hkept
  have hold : after.fields "front" = .text "old" := (List.cons.inj hvalues).1
  have hnew := hkept.first _ (.head _) (.text "new") rfl
  have hfront : validateField epochTexts _ (.text "new") = some (after.fields "front") := hnew
  rw [hold] at hfront
  revert hfront
  decide

end Untangled.Records
