import Mathlib.Data.List.Forall2
import Mathlib.Logic.Function.Basic
import Mathlib.Tactic

/-!
# Editing a record

The detail page edits a draft of a record next to the baseline it was read
with.  Contiguous edits of one field form a chunk, and undo takes the last chunk
back by the value its field had before.  The editor is compared with a machine
that keeps a whole draft for each chunk: undo is right because no field but the
chunk's has changed since.
-/

namespace Untangled.DetailEditor

/-! ## Values -/

/-- A JavaScript value, as far as the editor tells values apart: `α` holds the
values that `===` compares by identity. -/
inductive Value (α : Type) where
  | undefined
  | null
  | nan
  | zero
  | negativeZero
  | other (a : α)
  deriving DecidableEq

variable {α : Type}

/-- `a === b` -/
def Value.strictEqual [DecidableEq α] (a b : Value α) : Bool :=
  match a, b with
  | .nan, .nan => false
  | .zero, .negativeZero => true
  | .negativeZero, .zero => true
  | a, b => decide (a = b)

/-- `a == null` -/
def Value.isNullish : Value α → Bool
  | .undefined => true
  | .null => true
  | _ => false

/-- `a ?? null` -/
def Value.orNull : Value α → Value α
  | .undefined => .null
  | a => a

def valuesEqual [DecidableEq α] (a b : Value α) : Bool :=
  if a.strictEqual b then true
  else if a.isNullish && b.isNullish then true
  else if decide (a = .nan) && decide (b = .nan) then true
  else false

@[simp] theorem Value.orNull_orNull (a : Value α) : a.orNull.orNull = a.orNull := by
  cases a <;> rfl

theorem Value.orNull_of_ne {a : Value α} (h : a ≠ .undefined) : a.orNull = a := by
  cases a with
  | undefined => exact absurd rfl h
  | null | nan | zero | negativeZero | other => rfl

theorem Value.orNull_ne_undefined (a : Value α) : a.orNull ≠ .undefined := by
  cases a <;> simp [Value.orNull]

@[simp] theorem valuesEqual_refl [DecidableEq α] (a : Value α) : valuesEqual a a = true := by
  cases a <;> simp [valuesEqual, Value.strictEqual, Value.isNullish]

/-- One value for all that `values_equal` takes to be the same. -/
def Value.canonical : Value α → Value α
  | .undefined => .null
  | .negativeZero => .zero
  | a => a

@[simp] theorem Value.canonical_orNull (a : Value α) : a.orNull.canonical = a.canonical := by
  cases a <;> rfl

theorem valuesEqual_eq [DecidableEq α] (a b : Value α) :
    valuesEqual a b = decide (a.canonical = b.canonical) := by
  cases a <;> cases b <;> first
    | rfl
    | simp [valuesEqual, Value.strictEqual, Value.isNullish, Value.canonical]

theorem valuesEqual_orNull_left [DecidableEq α] (a b : Value α) :
    valuesEqual a.orNull b = valuesEqual a b := by
  rw [valuesEqual_eq, valuesEqual_eq, Value.canonical_orNull]

theorem valuesEqual_orNull_right [DecidableEq α] (a b : Value α) :
    valuesEqual a b.orNull = valuesEqual a b := by
  rw [valuesEqual_eq, valuesEqual_eq, Value.canonical_orNull]

theorem valuesEqual_symm [DecidableEq α] (a b : Value α) : valuesEqual a b = valuesEqual b a := by
  rw [valuesEqual_eq, valuesEqual_eq]
  exact decide_eq_decide.mpr eq_comm

/-! ## The editor -/

/-- The own fields of an object; a missing field reads as `undefined`. -/
abbrev DetailDraft (α : Type) := String → Value α

/-- The object that assigns one field. -/
def single (field : String) (value : Value α) : DetailDraft α :=
  Function.update (fun _ => .undefined) field value

structure UndoChunk (α : Type) where
  before : DetailDraft α
  fields : List String

structure EditorSnapshot (α : Type) where
  baseline : DetailDraft α
  draft : DetailDraft α
  undoStack : List (UndoChunk α)
  activeField : Option String

def seedDraftFromRecord (record : DetailDraft α) (editable : List String) : DetailDraft α :=
  editable.foldl (fun draft name => Function.update draft name (record name).orNull)
    fun _ => .undefined

def isDirty [DecidableEq α] (baseline draft : DetailDraft α) (editable : List String) : Bool :=
  editable.any fun name => !valuesEqual (baseline name).orNull (draft name).orNull

/-- The assignments that build the object of changed fields, in order. -/
def computeChangedFields [DecidableEq α] (baseline draft : DetailDraft α)
    (editable : List String) : List (String × Value α) :=
  editable.filterMap fun name =>
    let next := (draft name).orNull
    if !valuesEqual (baseline name).orNull next then some (name, next) else none

def createEditorSnapshot (record : DetailDraft α) (editable : List String) : EditorSnapshot α :=
  let draft := seedDraftFromRecord record editable
  ⟨draft, draft, [], none⟩

def applyFieldEdit [DecidableEq α] (snapshot : EditorSnapshot α) (field : String)
    (value : Value α) : EditorSnapshot α :=
  let prevValue := snapshot.draft field
  if valuesEqual prevValue.orNull value.orNull then snapshot
  else
    let draft := Function.update snapshot.draft field value
    if snapshot.activeField = some field ∧ 0 < snapshot.undoStack.length then
      { snapshot with draft }
    else
      { snapshot with
        draft
        undoStack := snapshot.undoStack ++ [⟨single field prevValue.orNull, [field]⟩]
        activeField := some field }

def closeActiveChunk (snapshot : EditorSnapshot α) : EditorSnapshot α :=
  if snapshot.activeField = none then snapshot else { snapshot with activeField := none }

def undoLastChunk (snapshot : EditorSnapshot α) : EditorSnapshot α :=
  match snapshot.undoStack.getLast? with
  | none => { snapshot with activeField := none }
  | some chunk =>
      { snapshot with
        draft := chunk.fields.foldl
          (fun draft field => Function.update draft field (chunk.before field).orNull)
          snapshot.draft
        undoStack := snapshot.undoStack.dropLast
        activeField := none }

/-- `{ ...baseline, ...changed }` -/
def overwrite (baseline : DetailDraft α) (changed : List (String × Value α)) : DetailDraft α :=
  changed.foldl (fun draft assignment => Function.update draft assignment.1 assignment.2) baseline

/-- What the page does to the editor. -/
inductive EditorStep (α : Type) where
  | edit (field : String) (value : Value α)
  | close
  | undo

def EditorStep.apply [DecidableEq α] (snapshot : EditorSnapshot α) :
    EditorStep α → EditorSnapshot α
  | .edit field value => applyFieldEdit snapshot field value
  | .close => closeActiveChunk snapshot
  | .undo => undoLastChunk snapshot

def run [DecidableEq α] (steps : List (EditorStep α)) (snapshot : EditorSnapshot α) :
    EditorSnapshot α :=
  steps.foldl EditorStep.apply snapshot

/-! ## The machine that keeps whole drafts -/

/-- The draft, the drafts that preceded the open chunks with the last chunk's
first, and the field whose edits go on. -/
structure History (α : Type) where
  draft : DetailDraft α
  checkpoints : List (DetailDraft α)
  activeField : Option String

def History.start (draft : DetailDraft α) : History α := ⟨draft, [], none⟩

def History.undo (history : History α) : History α :=
  match history.checkpoints with
  | [] => ⟨history.draft, [], none⟩
  | before :: earlier => ⟨before, earlier, none⟩

/-- An edit that changes the value goes on with the chunk of its field, or keeps
the draft it finds as a checkpoint. -/
def History.edit [DecidableEq α] (history : History α) (field : String) (value : Value α) : History α :=
  if valuesEqual (history.draft field).orNull value.orNull then history
  else if history.activeField = some field ∧ history.checkpoints ≠ [] then
    { history with draft := Function.update history.draft field value }
  else
    ⟨Function.update history.draft field value, history.draft :: history.checkpoints, some field⟩

def History.apply [DecidableEq α] (history : History α) : EditorStep α → History α
  | .edit field value => history.edit field value
  | .close => { history with activeField := none }
  | .undo => history.undo

def History.run [DecidableEq α] (steps : List (EditorStep α)) (history : History α) :
    History α :=
  steps.foldl History.apply history

/-! ## Chunks stand for drafts -/

/-- The drafts differ at most where one has `undefined` and the other `null`. -/
def SameValues (d d' : DetailDraft α) : Prop := ∀ field, (d field).orNull = (d' field).orNull

theorem SameValues.refl (d : DetailDraft α) : SameValues d d := fun _ => rfl

theorem SameValues.symm {d d' : DetailDraft α} (h : SameValues d d') : SameValues d' d :=
  fun field => (h field).symm

theorem SameValues.trans
    {d d' d'' : DetailDraft α} (h : SameValues d d') (h' : SameValues d' d'') :
    SameValues d d'' :=
  fun field => (h field).trans (h' field)

theorem SameValues.update
    {d d' : DetailDraft α} (h : SameValues d d') (field : String) (value : Value α) :
    SameValues (Function.update d field value) (Function.update d' field value) := by
  intro other
  by_cases hother : other = field
  · subst hother
    rw [Function.update_self, Function.update_self]
  · rw [Function.update_of_ne hother, Function.update_of_ne hother]
    exact h other

/-- The chunk takes the draft back to the checkpoint: it keeps the checkpoint's
value of its one field, and nothing else has changed. -/
structure TakesBack (draft : DetailDraft α) (chunk : UndoChunk α) (field : String)
    (checkpoint : DetailDraft α) : Prop where
  chunk_eq : chunk = ⟨single field (checkpoint field).orNull, [field]⟩
  others : ∀ other, other ≠ field → (draft other).orNull = (checkpoint other).orNull

/-- The chunks, the last first, take the draft back through the checkpoints. -/
inductive TakeBack : DetailDraft α → List (UndoChunk α) → List (DetailDraft α) → Prop
  | nil (draft : DetailDraft α) : TakeBack draft [] []
  | cons {draft checkpoint : DetailDraft α} {chunk : UndoChunk α} {field : String}
      {chunks : List (UndoChunk α)} {checkpoints : List (DetailDraft α)}
      (first : TakesBack draft chunk field checkpoint)
      (rest : TakeBack checkpoint chunks checkpoints) :
      TakeBack draft (chunk :: chunks) (checkpoint :: checkpoints)

theorem TakeBack.congr
    {d d' : DetailDraft α} {chunks : List (UndoChunk α)} {checkpoints : List (DetailDraft α)}
    (h : TakeBack d chunks checkpoints) (hsame : SameValues d' d) :
    TakeBack d' chunks checkpoints := by
  cases h with
  | nil => exact .nil d'
  | cons first rest =>
      have hfirst : TakesBack d' _ _ _ :=
        ⟨first.chunk_eq, fun other hother => (hsame other).trans (first.others other hother)⟩
      exact .cons hfirst rest

theorem TakeBack.length_eq
    {d : DetailDraft α} {chunks : List (UndoChunk α)} {checkpoints : List (DetailDraft α)}
    (h : TakeBack d chunks checkpoints) : chunks.length = checkpoints.length := by
  induction h with
  | nil => rfl
  | cons _ _ ih => rw [List.length_cons, List.length_cons, ih]

/-- A further edit of the chunk's field. -/
theorem TakesBack.edit
    {draft checkpoint : DetailDraft α} {chunk : UndoChunk α} {field : String}
    (h : TakesBack draft chunk field checkpoint) (value : Value α) :
    TakesBack (Function.update draft field value) chunk field checkpoint where
  chunk_eq := h.chunk_eq
  others other hother := by
    rw [Function.update_of_ne hother]
    exact h.others other hother

/-- Assigning the values that a chunk keeps. -/
def UndoChunk.restore (chunk : UndoChunk α) (draft : DetailDraft α) : DetailDraft α :=
  chunk.fields.foldl
    (fun draft field => Function.update draft field (chunk.before field).orNull) draft

theorem TakesBack.restore
    {draft checkpoint : DetailDraft α} {chunk : UndoChunk α} {field : String}
    (h : TakesBack draft chunk field checkpoint) :
    chunk.restore draft = Function.update draft field (checkpoint field).orNull := by
  rw [h.chunk_eq, UndoChunk.restore]
  simp [single]

theorem TakesBack.restore_same
    {draft checkpoint : DetailDraft α} {chunk : UndoChunk α} {field : String}
    (h : TakesBack draft chunk field checkpoint) :
    SameValues (chunk.restore draft) checkpoint := by
  intro other
  rw [h.restore]
  by_cases hother : other = field
  · subst hother
    rw [Function.update_self, Value.orNull_orNull]
  · rw [Function.update_of_ne hother]
    exact h.others other hother

/-! ## The editor refines the machine -/

/-- The editor and the machine are at one point of a run from the draft `base`. -/
structure Refines (base : DetailDraft α) (s : EditorSnapshot α) (h : History α) : Prop where
  baseline : s.baseline = base
  activeField : s.activeField = h.activeField
  draft : SameValues s.draft h.draft
  chunks : TakeBack s.draft s.undoStack.reverse h.checkpoints
  active : ∀ field chunk, s.activeField = some field → s.undoStack.getLast? = some chunk →
    chunk.fields = [field]
  oldest : (h.draft :: h.checkpoints).getLast? = some base

theorem Refines.start (base : DetailDraft α) :
    Refines base ⟨base, base, [], none⟩ (History.start base) where
  baseline := rfl
  activeField := rfl
  draft := SameValues.refl base
  chunks := .nil base
  active := by simp
  oldest := rfl

variable {base : DetailDraft α} {s : EditorSnapshot α} {h : History α}

theorem Refines.length_eq (hr : Refines base s h) :
    s.undoStack.length = h.checkpoints.length := by
  rw [← List.length_reverse, hr.chunks.length_eq]

theorem Refines.close (hr : Refines base s h) :
    Refines base (closeActiveChunk s) { h with activeField := none } := by
  have hclose : closeActiveChunk s = { s with activeField := none } := by
    rw [closeActiveChunk]
    by_cases hnone : s.activeField = none
    · rw [if_pos hnone, ← hnone]
    · rw [if_neg hnone]
  rw [hclose]
  exact ⟨hr.baseline, rfl, hr.draft, hr.chunks, by simp, hr.oldest⟩

theorem Refines.undo (hr : Refines base s h) : Refines base (undoLastChunk s) h.undo := by
  rcases List.eq_nil_or_concat s.undoStack with hnil | ⟨earlier, chunk, hstack⟩
  · have hcheckpoints : h.checkpoints = [] := by
      rw [← List.length_eq_zero_iff, ← hr.length_eq, hnil, List.length_nil]
    have holdest := hr.oldest
    have hundo : undoLastChunk s = { s with activeField := none } := by
      simp [undoLastChunk, hnil]
    rw [hundo, History.undo, hcheckpoints]
    rw [hcheckpoints] at holdest
    exact ⟨hr.baseline, rfl, hr.draft, by rw [hnil]; exact .nil _, by simp, holdest⟩
  · have hchunks := hr.chunks
    rw [hstack, List.concat_eq_append, List.reverse_append, List.reverse_singleton,
      List.singleton_append] at hchunks
    have hundo : undoLastChunk s =
        { s with draft := chunk.restore s.draft, undoStack := earlier, activeField := none } := by
      rw [undoLastChunk, hstack, List.concat_eq_append, List.getLast?_concat, List.dropLast_concat]
      rfl
    have holdest := hr.oldest
    cases hcheckpoints : h.checkpoints with
    | nil =>
        rw [hcheckpoints] at hchunks
        cases hchunks
    | cons checkpoint checkpoints =>
        rw [hcheckpoints] at hchunks holdest
        cases hchunks with
        | cons first rest =>
            rw [hundo, History.undo, hcheckpoints]
            exact ⟨hr.baseline, rfl, first.restore_same, rest.congr first.restore_same,
              by simp, by rwa [List.getLast?_cons_cons] at holdest⟩

/-- A further edit of the field whose chunk is open. -/
theorem Refines.goOn (hr : Refines base s h) {field : String}
    (hactive : s.activeField = some field) (hopen : s.undoStack ≠ []) (value : Value α) :
    Refines base { s with draft := Function.update s.draft field value }
      { h with draft := Function.update h.draft field value } := by
  have hchunks := hr.chunks
  have holdest := hr.oldest
  rcases List.eq_nil_or_concat s.undoStack with hnil | ⟨earlier, chunk, hstack⟩
  · exact absurd hnil hopen
  have htop : chunk.fields = [field] := by
    refine hr.active field chunk hactive ?_
    rw [hstack, List.concat_eq_append, List.getLast?_concat]
  rw [hstack, List.concat_eq_append, List.reverse_append, List.reverse_singleton,
    List.singleton_append] at hchunks
  cases hcheckpoints : h.checkpoints with
  | nil =>
      rw [hcheckpoints] at hchunks
      cases hchunks
  | cons checkpoint checkpoints =>
      rw [hcheckpoints] at hchunks holdest
      cases hchunks with
      | cons first rest =>
          have hfield := first.chunk_eq ▸ htop
          rw [List.cons.injEq] at hfield
          have hedited : TakeBack (Function.update s.draft field value) s.undoStack.reverse
              (checkpoint :: checkpoints) := by
            rw [hstack, List.concat_eq_append, List.reverse_append, List.reverse_singleton,
              List.singleton_append]
            exact .cons (hfield.1 ▸ first.edit value) rest
          have holdest' : (Function.update h.draft field value ::
              checkpoint :: checkpoints).getLast? = some base := by
            rw [List.getLast?_cons_cons] at holdest ⊢
            exact holdest
          exact ⟨hr.baseline, hr.activeField, hr.draft.update field value, hedited, hr.active,
            holdest'⟩

/-- The first edit of a chunk. -/
theorem Refines.begin (hr : Refines base s h) (field : String) (value : Value α) :
    Refines base
      { s with
        draft := Function.update s.draft field value
        undoStack := s.undoStack ++ [⟨single field (s.draft field).orNull, [field]⟩]
        activeField := some field }
      ⟨Function.update h.draft field value, h.draft :: h.checkpoints, some field⟩ where
  baseline := hr.baseline
  activeField := rfl
  draft := hr.draft.update field value
  chunks := by
    rw [List.reverse_append, List.reverse_singleton, List.singleton_append, hr.draft field]
    have hothers : ∀ other, other ≠ field →
        (Function.update s.draft field value other).orNull = (h.draft other).orNull := by
      intro other hother
      rw [Function.update_of_ne hother]
      exact hr.draft other
    exact .cons ⟨rfl, hothers⟩ (hr.chunks.congr hr.draft.symm)
  active other chunk hactive hlast := by
    rw [List.getLast?_concat] at hlast
    cases hactive
    cases hlast
    rfl
  oldest := by
    rw [List.getLast?_cons_cons]
    exact hr.oldest

variable [DecidableEq α]

theorem Refines.edit (hr : Refines base s h) (field : String) (value : Value α) :
    Refines base (applyFieldEdit s field value) (h.edit field value) := by
  have hlength := hr.length_eq
  rw [applyFieldEdit, History.edit, ← hr.draft field, ← hr.activeField]
  by_cases hequal : valuesEqual (s.draft field).orNull value.orNull = true
  · rw [if_pos hequal, if_pos hequal]
    exact hr
  rw [if_neg hequal, if_neg hequal]
  by_cases hmerge : s.activeField = some field ∧ 0 < s.undoStack.length
  · have hmerge' : s.activeField = some field ∧ h.checkpoints ≠ [] :=
      ⟨hmerge.1, List.length_pos_iff.mp (hlength ▸ hmerge.2)⟩
    rw [if_pos hmerge, if_pos hmerge', hr.activeField]
    have hgoOn := hr.goOn hmerge.1 (List.length_pos_iff.mp hmerge.2) value
    rwa [hr.activeField] at hgoOn
  · have hmerge' : ¬ (s.activeField = some field ∧ h.checkpoints ≠ []) := by
      rintro ⟨hactive, hne⟩
      exact hmerge ⟨hactive, hlength ▸ List.length_pos_iff.mpr hne⟩
    rw [if_neg hmerge, if_neg hmerge']
    exact hr.begin field value

theorem Refines.apply (hr : Refines base s h) (step : EditorStep α) :
    Refines base (EditorStep.apply s step) (h.apply step) := by
  cases step with
  | edit field value => exact hr.edit field value
  | close => exact hr.close
  | undo => exact hr.undo

theorem Refines.run (hr : Refines base s h) (steps : List (EditorStep α)) :
    Refines base (run steps s) (h.run steps) := by
  induction steps generalizing s h with
  | nil => exact hr
  | cons step steps ih => exact ih (hr.apply step)

/-! ## Values of the fields -/

omit [DecidableEq α] in
theorem seedDraftFromRecord_apply (record : DetailDraft α) (editable : List String)
    (field : String) :
    seedDraftFromRecord record editable field =
      if field ∈ editable then (record field).orNull else .undefined := by
  have hfold : ∀ draft : DetailDraft α,
      editable.foldl (fun draft name => Function.update draft name (record name).orNull) draft
          field = if field ∈ editable then (record field).orNull else draft field := by
    induction editable with
    | nil => simp
    | cons name editable ih =>
        intro draft
        rw [List.foldl_cons, ih]
        by_cases hmem : field ∈ editable
        · simp [hmem]
        · by_cases hname : field = name
          · subst hname
            simp [hmem]
          · simp [hmem, hname]
  exact hfold _

/-- The fields that a draft has. -/
def HasFields (editable : List String) (d : DetailDraft α) : Prop :=
  ∀ field, field ∉ editable → d field = .undefined

/-- No field that the draft has is `undefined`. -/
def Defined (editable : List String) (d : DetailDraft α) : Prop :=
  ∀ field ∈ editable, d field ≠ .undefined

/-- Every edit assigns an editable field an allowed value. -/
def EditsWithin (editable : List String) (allowed : Value α → Prop)
    (steps : List (EditorStep α)) : Prop :=
  ∀ field value, .edit field value ∈ steps → field ∈ editable ∧ allowed value

/-- Assigning an editable field an allowed value keeps `P`. -/
structure ClosedUnderEdits (editable : List String) (allowed : Value α → Prop)
    (P : DetailDraft α → Prop) : Prop where
  orNull : ∀ value : Value α, allowed value.orNull
  update : ∀ (d : DetailDraft α) (field : String) (value : Value α), field ∈ editable →
    allowed value → P d → P (Function.update d field value)

omit [DecidableEq α] in
theorem closed_hasFields (editable : List String) :
    ClosedUnderEdits (α := α) editable (fun _ => True) (HasFields editable) where
  orNull _ := trivial
  update d field value hfield _ hd other hother := by
    have hne : other ≠ field := fun heq => hother (heq ▸ hfield)
    rw [Function.update_of_ne hne]
    exact hd other hother

omit [DecidableEq α] in
theorem closed_defined (editable : List String) :
    ClosedUnderEdits (α := α) editable (· ≠ .undefined)
      fun d => HasFields editable d ∧ Defined editable d where
  orNull value := value.orNull_ne_undefined
  update d field value hfield hvalue hd := by
    refine ⟨(closed_hasFields editable).update d field value hfield trivial hd.1,
      fun other hother => ?_⟩
    by_cases heq : other = field
    · subst heq
      rwa [Function.update_self]
    · rw [Function.update_of_ne heq]
      exact hd.2 other hother

section Drafts

variable {editable : List String} {allowed : Value α → Prop} {P : DetailDraft α → Prop}

/-- The draft has `P`, and undo assigns editable fields only. -/
structure DraftKeeps (editable : List String) (P : DetailDraft α → Prop)
    (s : EditorSnapshot α) : Prop where
  draft : P s.draft
  chunks : ∀ chunk ∈ s.undoStack, ∀ field ∈ chunk.fields, field ∈ editable

omit [DecidableEq α] in
theorem ClosedUnderEdits.restore (hP : ClosedUnderEdits editable allowed P)
    {chunk : UndoChunk α} (hchunk : ∀ field ∈ chunk.fields, field ∈ editable)
    {d : DetailDraft α} (hd : P d) : P (chunk.restore d) := by
  have hfold : ∀ (fields : List String) (d : DetailDraft α),
      (∀ field ∈ fields, field ∈ editable) → P d →
        P (fields.foldl
          (fun d field => Function.update d field (chunk.before field).orNull) d) := by
    intro fields
    induction fields with
    | nil =>
        intro d _ hd
        exact hd
    | cons field fields ih =>
        intro d hfields hd
        refine ih _ (fun other hother => hfields other (List.mem_cons_of_mem _ hother)) ?_
        exact hP.update d field _ (hfields field (List.mem_cons_self ..)) (hP.orNull _) hd
  exact hfold chunk.fields d hchunk hd

theorem DraftKeeps.apply (hP : ClosedUnderEdits editable allowed P) (hs : DraftKeeps editable P s)
    {step : EditorStep α}
    (hstep : ∀ field value, step = .edit field value → field ∈ editable ∧ allowed value) :
    DraftKeeps editable P (EditorStep.apply s step) := by
  cases step with
  | close =>
      rw [EditorStep.apply, closeActiveChunk]
      by_cases hnone : s.activeField = none
      · rw [if_pos hnone]
        exact hs
      · rw [if_neg hnone]
        exact ⟨hs.draft, hs.chunks⟩
  | undo =>
      rw [EditorStep.apply, undoLastChunk]
      cases hlast : s.undoStack.getLast? with
      | none => exact ⟨hs.draft, hs.chunks⟩
      | some chunk =>
          have hchunk := hs.chunks chunk (List.mem_of_getLast? hlast)
          exact ⟨hP.restore hchunk hs.draft, fun other hother =>
            hs.chunks other (List.mem_of_mem_dropLast hother)⟩
  | edit field value =>
      rcases hstep field value rfl with ⟨hfield, hvalue⟩
      have hdraft := hP.update s.draft field value hfield hvalue hs.draft
      rw [EditorStep.apply, applyFieldEdit]
      by_cases hequal : valuesEqual (s.draft field).orNull value.orNull = true
      · rw [if_pos hequal]
        exact hs
      rw [if_neg hequal]
      by_cases hmerge : s.activeField = some field ∧ 0 < s.undoStack.length
      · rw [if_pos hmerge]
        exact ⟨hdraft, hs.chunks⟩
      · rw [if_neg hmerge]
        refine ⟨hdraft, fun chunk hchunk => ?_⟩
        rcases List.mem_append.mp hchunk with hchunk | hchunk
        · exact hs.chunks chunk hchunk
        · rcases List.mem_singleton.mp hchunk with rfl
          intro other hother
          rcases List.mem_singleton.mp hother with rfl
          exact hfield

theorem DraftKeeps.run (hP : ClosedUnderEdits editable allowed P) (hs : DraftKeeps editable P s)
    {steps : List (EditorStep α)} (hsteps : EditsWithin editable allowed steps) :
    DraftKeeps editable P (run steps s) := by
  induction steps generalizing s with
  | nil => exact hs
  | cons step steps ih =>
      have hstep : ∀ field value, step = .edit field value → field ∈ editable ∧ allowed value := by
        rintro field value rfl
        exact hsteps field value (List.mem_cons_self ..)
      exact ih (hs.apply hP hstep) fun field value hmem =>
        hsteps field value (List.mem_cons_of_mem _ hmem)

/-- The draft and the checkpoints have `P`. -/
def HistoryKeeps (P : DetailDraft α → Prop) (h : History α) : Prop :=
  ∀ d ∈ h.draft :: h.checkpoints, P d

theorem HistoryKeeps.apply (hP : ClosedUnderEdits editable allowed P) (hh : HistoryKeeps P h)
    {step : EditorStep α}
    (hstep : ∀ field value, step = .edit field value → field ∈ editable ∧ allowed value) :
    HistoryKeeps P (h.apply step) := by
  cases step with
  | close => exact hh
  | undo =>
      rw [History.apply, History.undo]
      cases hcheckpoints : h.checkpoints with
      | nil =>
          rintro d hd
          rcases List.mem_singleton.mp hd with rfl
          exact hh _ (List.mem_cons_self ..)
      | cons before earlier =>
          intro d hd
          refine hh d (List.mem_cons_of_mem _ ?_)
          rwa [hcheckpoints]
  | edit field value =>
      rcases hstep field value rfl with ⟨hfield, hvalue⟩
      have hdraft := hP.update h.draft field value hfield hvalue (hh h.draft (List.mem_cons_self ..))
      rw [History.apply, History.edit]
      by_cases hequal : valuesEqual (h.draft field).orNull value.orNull = true
      · rw [if_pos hequal]
        exact hh
      rw [if_neg hequal]
      by_cases hmerge : h.activeField = some field ∧ h.checkpoints ≠ []
      · rw [if_pos hmerge]
        intro d hd
        rcases List.mem_cons.mp hd with rfl | hd
        · exact hdraft
        · exact hh d (List.mem_cons_of_mem _ hd)
      · rw [if_neg hmerge]
        intro d hd
        rcases List.mem_cons.mp hd with rfl | hd
        · exact hdraft
        · exact hh d hd

theorem HistoryKeeps.run (hP : ClosedUnderEdits editable allowed P) (hh : HistoryKeeps P h)
    {steps : List (EditorStep α)} (hsteps : EditsWithin editable allowed steps) :
    HistoryKeeps P (h.run steps) := by
  induction steps generalizing h with
  | nil => exact hh
  | cons step steps ih =>
      have hstep : ∀ field value, step = .edit field value → field ∈ editable ∧ allowed value := by
        rintro field value rfl
        exact hsteps field value (List.mem_cons_self ..)
      exact ih (hh.apply hP hstep) fun field value hmem =>
        hsteps field value (List.mem_cons_of_mem _ hmem)

end Drafts

section Seed

variable (record : DetailDraft α) (editable : List String)

omit [DecidableEq α] in
theorem seed_hasFields : HasFields editable (seedDraftFromRecord record editable) := by
  intro field hfield
  rw [seedDraftFromRecord_apply, if_neg hfield]

omit [DecidableEq α] in
theorem seed_defined : Defined editable (seedDraftFromRecord record editable) := by
  intro field hfield
  rw [seedDraftFromRecord_apply, if_pos hfield]
  exact (record field).orNull_ne_undefined

end Seed

omit [DecidableEq α] in
/-- Drafts of the same fields without `undefined` that have the same values are equal. -/
theorem SameValues.eq
    {editable : List String} {d d' : DetailDraft α} (h : SameValues d d')
    (hd : HasFields editable d ∧ Defined editable d)
    (hd' : HasFields editable d' ∧ Defined editable d') : d = d' := by
  funext field
  by_cases hfield : field ∈ editable
  · have hvalues := h field
    rwa [Value.orNull_of_ne (hd.2 field hfield), Value.orNull_of_ne (hd'.2 field hfield)]
      at hvalues
  · rw [hd.1 field hfield, hd'.1 field hfield]

/-! ## Changed fields -/

section Changed

variable (baseline draft : DetailDraft α) (editable : List String)

theorem isDirty_eq_false_iff :
    isDirty baseline draft editable = false ↔
      ∀ field ∈ editable, valuesEqual (baseline field).orNull (draft field).orNull = true := by
  rw [isDirty, List.any_eq_false]
  simp

theorem computeChangedFields_eq_nil_iff :
    computeChangedFields baseline draft editable = [] ↔
      isDirty baseline draft editable = false := by
  rw [isDirty_eq_false_iff, computeChangedFields, List.filterMap_eq_nil_iff]
  simp

theorem overwrite_apply (field : String) :
    overwrite baseline (computeChangedFields baseline draft editable) field =
      if field ∈ editable ∧ valuesEqual (baseline field).orNull (draft field).orNull = false then
        (draft field).orNull
      else baseline field := by
  have hfold : ∀ built : DetailDraft α,
      overwrite built (computeChangedFields baseline draft editable) field =
        if field ∈ editable ∧
            valuesEqual (baseline field).orNull (draft field).orNull = false then
          (draft field).orNull
        else built field := by
    induction editable with
    | nil => simp [overwrite, computeChangedFields]
    | cons name editable ih =>
        intro built
        have hsplit : overwrite built (computeChangedFields baseline draft (name :: editable)) =
            overwrite (overwrite built (computeChangedFields baseline draft [name]))
              (computeChangedFields baseline draft editable) := by
          rw [overwrite, overwrite, overwrite, ← List.foldl_append, computeChangedFields,
            computeChangedFields, computeChangedFields, ← List.filterMap_append,
            List.singleton_append]
        rw [hsplit, ih]
        by_cases hchanged : valuesEqual (baseline name).orNull (draft name).orNull = true
        · by_cases hname : field = name
          · subst hname
            simp [overwrite, computeChangedFields, hchanged]
          · simp [overwrite, computeChangedFields, hchanged, hname]
        · by_cases hname : field = name
          · subst hname
            simp [overwrite, computeChangedFields, hchanged]
          · simp [overwrite, computeChangedFields, hchanged, hname]
  exact hfold baseline

/-- The draft is the baseline with the changed fields written over it. -/
theorem valuesEqual_overwrite (hbaseline : HasFields editable baseline)
    (hdraft : HasFields editable draft) (field : String) :
    valuesEqual (draft field)
      (overwrite baseline (computeChangedFields baseline draft editable) field) = true := by
  rw [overwrite_apply]
  by_cases hfield : field ∈ editable
  · by_cases hchanged : valuesEqual (baseline field).orNull (draft field).orNull = true
    · rw [if_neg (by simp [hchanged])]
      rwa [valuesEqual_orNull_left, valuesEqual_orNull_right, valuesEqual_symm] at hchanged
    · rw [if_pos ⟨hfield, by simpa using hchanged⟩, valuesEqual_orNull_right]
      exact valuesEqual_refl _
  · rw [if_neg fun h => hfield h.1, hdraft field hfield, hbaseline field hfield]
    exact valuesEqual_refl _

end Changed

/-! ## Runs of the page -/

section Runs

variable {record : DetailDraft α} {editable : List String} {steps : List (EditorStep α)}

theorem refines_run (record : DetailDraft α) (editable : List String)
    (steps : List (EditorStep α)) :
    Refines (seedDraftFromRecord record editable)
      (run steps (createEditorSnapshot record editable))
      ((History.start (seedDraftFromRecord record editable)).run steps) :=
  (Refines.start (seedDraftFromRecord record editable)).run steps

theorem draftKeeps_run {allowed : Value α → Prop} {P : DetailDraft α → Prop}
    (hP : ClosedUnderEdits editable allowed P) (hseed : P (seedDraftFromRecord record editable))
    (hsteps : EditsWithin editable allowed steps) :
    P (run steps (createEditorSnapshot record editable)).draft ∧
      P ((History.start (seedDraftFromRecord record editable)).run steps).draft := by
  have hsnapshot : DraftKeeps editable P (createEditorSnapshot record editable) :=
    ⟨hseed, by simp [createEditorSnapshot]⟩
  have hhistory : HistoryKeeps P (History.start (seedDraftFromRecord record editable)) := by
    intro d hd
    rcases List.mem_singleton.mp hd with rfl
    exact hseed
  exact ⟨(hsnapshot.run hP hsteps).draft,
    hhistory.run hP hsteps _ (List.mem_cons_self ..)⟩

/-- With the stack empty the draft is the baseline again. -/
theorem Refines.clean {base : DetailDraft α} {s : EditorSnapshot α} {h : History α}
    (hr : Refines base s h) (hempty : s.undoStack = []) (editable : List String) :
    isDirty s.baseline s.draft editable = false := by
  have hcheckpoints : h.checkpoints = [] := by
    rw [← List.length_eq_zero_iff, ← hr.length_eq, hempty, List.length_nil]
  have holdest := hr.oldest
  rw [hcheckpoints, List.getLast?_singleton, Option.some.injEq] at holdest
  rw [isDirty_eq_false_iff]
  intro field _
  rw [hr.baseline, hr.draft field, holdest]
  exact valuesEqual_refl _

omit [DecidableEq α] in
theorem length_undoStack_undoLastChunk (s : EditorSnapshot α) :
    (undoLastChunk s).undoStack.length = s.undoStack.length - 1 := by
  rw [undoLastChunk]
  cases hlast : s.undoStack.getLast? with
  | none =>
      rw [List.getLast?_eq_none_iff] at hlast
      simp [hlast]
  | some chunk => exact List.length_dropLast ..

omit [DecidableEq α] in
theorem undoStack_iterate_undoLastChunk (n : ℕ) (s : EditorSnapshot α) :
    (undoLastChunk^[n] s).undoStack.length = s.undoStack.length - n := by
  induction n generalizing s with
  | zero => rfl
  | succ n ih =>
      rw [Function.iterate_succ_apply, ih, length_undoStack_undoLastChunk]
      omega

omit [DecidableEq α] in
theorem Refines.iterate_undo {base : DetailDraft α} {s : EditorSnapshot α} {h : History α}
    (hr : Refines base s h) (n : ℕ) : Refines base (undoLastChunk^[n] s) (History.undo^[n] h) := by
  induction n generalizing s h with
  | zero => exact hr
  | succ n ih => exact ih hr.undo

omit [DecidableEq α] in
/-- Undo changes no field but the last chunk's. -/
theorem undoLastChunk_frame (s : EditorSnapshot α) {field : String}
    (hfield : ∀ chunk, s.undoStack.getLast? = some chunk → field ∉ chunk.fields) :
    (undoLastChunk s).draft field = s.draft field := by
  rw [undoLastChunk]
  cases hlast : s.undoStack.getLast? with
  | none => rfl
  | some chunk =>
      have hfold : ∀ (fields : List String) (d : DetailDraft α), field ∉ fields →
          fields.foldl (fun d name => Function.update d name (chunk.before name).orNull) d field =
            d field := by
        intro fields
        induction fields with
        | nil =>
            intro d _
            rfl
        | cons name fields ih =>
            intro d hnot
            rw [List.mem_cons, not_or] at hnot
            rw [List.foldl_cons, ih _ hnot.2, Function.update_of_ne hnot.1]
      exact hfold chunk.fields s.draft (hfield chunk hlast)

/-- Undo takes the editor back through the drafts its chunks began with. -/
theorem run_undo (record : DetailDraft α) (editable : List String)
    (steps : List (EditorStep α)) (hsteps : EditsWithin editable (fun _ => True) steps) :
    let start := createEditorSnapshot record editable
    let s := run steps start
    let h := (History.start start.draft).run steps
    (undoLastChunk^[s.undoStack.length] s).undoStack = [] ∧
      (∀ n, (undoLastChunk^[n] s).undoStack = [] →
        isDirty s.baseline (undoLastChunk^[n] s).draft editable = false) ∧
      SameValues (undoLastChunk s).draft h.undo.draft ∧
      (EditsWithin editable (· ≠ .undefined) steps → (undoLastChunk s).draft = h.undo.draft) ∧
      (∀ field, (∀ chunk, s.undoStack.getLast? = some chunk → field ∉ chunk.fields) →
        (undoLastChunk s).draft field = s.draft field) ∧
      s.baseline = start.baseline ∧
      (∀ field, valuesEqual (s.draft field)
        (overwrite s.baseline (computeChangedFields s.baseline s.draft editable) field) = true) ∧
      (computeChangedFields s.baseline s.draft editable = [] ↔
        isDirty s.baseline s.draft editable = false) := by
  intro start s h
  have hr : Refines (seedDraftFromRecord record editable) s h := refines_run record editable steps
  have hseed := seed_hasFields record editable
  have hexact : EditsWithin editable (· ≠ .undefined) steps →
      (undoLastChunk s).draft = h.undo.draft := by
    intro hdefined
    have hundo : EditsWithin editable (· ≠ .undefined) (steps ++ [.undo]) := by
      intro field value hmem
      refine hdefined field value ?_
      simpa using hmem
    have hkeeps := draftKeeps_run (closed_defined editable)
      ⟨hseed, seed_defined record editable⟩ hundo
    rw [run, History.run, List.foldl_append, List.foldl_append] at hkeeps
    exact hr.undo.draft.eq hkeeps.1 hkeeps.2
  have hdraft : HasFields editable s.draft :=
    (draftKeeps_run (closed_hasFields editable) hseed hsteps).1
  refine ⟨?_, ?_, hr.undo.draft, hexact, fun field => undoLastChunk_frame s, hr.baseline, ?_,
    computeChangedFields_eq_nil_iff ..⟩
  · rw [← List.length_eq_zero_iff, undoStack_iterate_undoLastChunk, Nat.sub_self]
  · intro n hempty
    have hclean := (hr.iterate_undo n).clean hempty editable
    rwa [(hr.iterate_undo n).baseline, ← hr.baseline] at hclean
  · have hbaseline : HasFields editable s.baseline := hr.baseline ▸ hseed
    exact fun field => valuesEqual_overwrite s.baseline s.draft editable hbaseline hdraft field

/-- The fields of an incident. -/
def incident : DetailDraft String :=
  Function.update (single "summary" (.other "A")) "due" (.other "2026-01-01")

theorem incident_undone :
    let start := createEditorSnapshot incident ["summary", "due"]
    let s := run [.edit "summary" (.other "B"), .close, .edit "due" .undefined] start
    isDirty s.baseline (undoLastChunk^[2] s).draft ["summary", "due"] = false := by
  have hsteps : EditsWithin ["summary", "due"] (fun _ => True)
      [.edit "summary" (.other "B"), .close, .edit "due" (.undefined : Value String)] := by
    intro field value hmem
    simp only [List.mem_cons, EditorStep.edit.injEq, reduceCtorEq, List.not_mem_nil, or_false,
      false_or] at hmem
    rcases hmem with ⟨rfl, _⟩ | ⟨rfl, _⟩
    · exact ⟨by simp, trivial⟩
    · exact ⟨by simp, trivial⟩
  exact (run_undo incident ["summary", "due"] _ hsteps).2.1 2 rfl

/-- A chunk keeps `null` for a field that was set to `undefined`. -/
theorem undefined_not_restored :
    ¬ ∀ steps, EditsWithin ["due"] (fun _ => True) steps →
      (undoLastChunk (run steps (createEditorSnapshot incident ["due"]))).draft =
        ((History.start (createEditorSnapshot incident ["due"]).draft).run steps).undo.draft := by
  intro h
  have hdraft := h [.edit "due" .undefined, .close, .edit "due" (.other "2026-02-01")] (by
    intro field value hmem
    simp only [List.mem_cons, EditorStep.edit.injEq, reduceCtorEq, List.not_mem_nil, or_false,
      false_or] at hmem
    rcases hmem with ⟨rfl, _⟩ | ⟨rfl, _⟩
    · exact ⟨by simp, trivial⟩
    · exact ⟨by simp, trivial⟩)
  have hdue := congrFun hdraft "due"
  exact absurd hdue (by decide +kernel)

end Runs

end Untangled.DetailEditor
