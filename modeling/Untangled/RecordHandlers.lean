import Untangled.Records

/-!
# Create, update and delete requests

The handlers of the versioned record routes: the store commits first, the audit
event comes second, and a write error of the audit log is compensated third.  A
locator is given as `classify_locator` resolves it.
-/

namespace Untangled.Records

open Mapping ReadCommitted

/-! ## Audit events -/

inductive EventType
  | recordCreate
  | recordUpdate
  | recordDelete
  | auditCompensate
  deriving DecidableEq

structure AuditEvent where
  eventType : EventType
  reason : String
  className : String
  locator : String
  fields : List String
  deriving DecidableEq

/-- What an emission does: the event is in the log, the log could not be written,
or another exception came up. -/
inductive Emission
  | written
  | writeError
  | raised
  deriving DecidableEq

/-- The event as the emission leaves it in the log. -/
def Emission.logged (emission : Emission) (event : AuditEvent) : List AuditEvent :=
  if emission = .written then [event] else []

inductive Answer
  | success (status : ℕ)
  | httpError (status : ℕ) (detail : String)
  | raised
  deriving DecidableEq

def auditHttp500 : Answer := .httpError 500 "Audit logging failed"

structure Outcome where
  answer : Answer
  table : Table Row
  log : List AuditEvent

/-! ## Requests -/

inductive Locator
  | id (value : String)
  | friendly (value : String)
  deriving DecidableEq

/-- A body that the model of the request lets through: it has writable fields
only. -/
structure Body (C : RecordClass) where
  fields : FieldMap
  writable : ∀ e ∈ fields, e.1 ∈ C.userColumns ∧ C.friendlyName ≠ some e.1

structure CreateRequest (C : RecordClass) where
  body : Body C
  rowId : String
  actor : String
  now : Second
  nextval : ℕ

structure UpdateRequest (C : RecordClass) where
  locator : Locator
  body : Body C
  actor : String
  now : Second
  /-- The clock when the old values are restored. -/
  restoredAt : Second

section Handlers

variable (C : RecordClass) (P : Pydantic) (emissions : ℕ → Emission)

def notFound : Answer := .httpError 404 (C.nameSnake ++ " not found")

def CreateRequest.call (request : CreateRequest C) : CreateCall :=
  ⟨request.body.fields, request.rowId, request.actor, request.now, request.nextval⟩

def createEvent (rowId : String) : AuditEvent :=
  ⟨.recordCreate, "create_ok", C.nameSnake, rowId, []⟩

def createRecord (t : Table Row) (request : CreateRequest C) : Outcome :=
  match create C P t (request.call C) with
  | .error _ => ⟨.raised, t, []⟩
  | .ok (created, t') =>
      let log := (emissions 0).logged (createEvent C created.id)
      match emissions 0 with
      | .written =>
          ⟨if (t'.find created.id).isSome then .success 201 else notFound C, t', log⟩
      | .raised => ⟨.raised, t', log⟩
      | .writeError =>
          let compensated := (emissions 1).logged
            ⟨.recordDelete, "compensate_delete_after_audit_failure", C.nameSnake,
              created.id, []⟩
          match emissions 1 with
          | .written => ⟨auditHttp500, (delete t' created.id).2, log ++ compensated⟩
          | _ => ⟨auditHttp500, t', log ++ compensated⟩

/-- The row of a locator, as the table has it. -/
def locate (t : Table Row) : Locator → Option Row
  | .id value => t.find value
  | .friendly value =>
      C.friendlyName.bind fun f => t.rows.find? fun r => r.fields f = .text value

/-- `fetch_by_locator`: the validated row, or the answer without one. -/
def fetchByLocator (t : Table Row) (locator : Locator) : Except Answer Row :=
  match locate C t locator with
  | none => throw (notFound C)
  | some stored => (C.modelValidate P stored).elim (throw .raised) pure

def UpdateRequest.call (request : UpdateRequest C) (rowId : String) : UpdateCall :=
  ⟨rowId, request.body.fields, request.actor, request.now⟩

/-- The fields of a patch with the values before it. -/
def restoreFields (existing : Row) (patch : FieldMap) : FieldMap :=
  (patch.filter fun e => e.1 ∈ C.userColumns).map fun e =>
    (e.1, dumpField P (existing.fields e.1))

def UpdateRequest.restore (request : UpdateRequest C) (existing : Row) : UpdateCall :=
  ⟨existing.id, restoreFields C P existing request.body.fields, request.actor,
    request.restoredAt⟩

def updateEvent (rowId : String) (patch : FieldMap) : AuditEvent :=
  ⟨.recordUpdate, "update_ok", C.nameSnake, rowId,
    (patch.map Prod.fst).insertionSort fun a b => a ≤ b⟩

def updateRecord (t : Table Row) (request : UpdateRequest C) : Outcome :=
  match fetchByLocator C P t request.locator with
  | .error answer => ⟨answer, t, []⟩
  | .ok existing =>
      match update C P t (request.call C existing.id) with
      | .error .notFound => ⟨notFound C, t, []⟩
      | .error _ => ⟨.raised, t, []⟩
      | .ok (updated, t') =>
          let log := (emissions 0).logged
            (updateEvent C existing.id request.body.fields)
          match emissions 0 with
          | .written =>
              ⟨if (t'.find updated.id).isSome then .success 200 else notFound C, t', log⟩
          | .raised => ⟨.raised, t', log⟩
          | .writeError =>
              match update C P t' (request.restore C P existing) with
              | .error _ => ⟨auditHttp500, t', log⟩
              | .ok (_, t'') =>
                  ⟨auditHttp500, t'', log ++ (emissions 1).logged
                    ⟨.auditCompensate, "compensate_restore_after_audit_failure",
                      C.nameSnake, existing.id, []⟩⟩

def deleteEvent (rowId : String) : AuditEvent :=
  ⟨.recordDelete, "delete_ok", C.nameSnake, rowId, []⟩

def deleteRecord (t : Table Row) (locator : Locator) : Outcome :=
  match fetchByLocator C P t locator with
  | .error answer => ⟨answer, t, []⟩
  | .ok existing =>
      let log := (emissions 0).logged (deleteEvent C existing.id)
      match emissions 0 with
      | .writeError => ⟨auditHttp500, t, log⟩
      | .raised => ⟨.raised, t, log⟩
      | .written =>
          ⟨if (delete t existing.id).1 then .success 204 else notFound C,
            (delete t existing.id).2, log⟩

inductive Request
  | create (request : CreateRequest C)
  | update (request : UpdateRequest C)
  | delete (locator : Locator)

def serve (t : Table Row) : Request C → Outcome
  | .create request => createRecord C P emissions t request
  | .update request => updateRecord C P emissions t request
  | .delete locator => deleteRecord C P emissions t locator

/-! ## What the audit promises -/

/-- The same records with the same user-defined values. -/
def SameRecords (t t' : Table Row) : Prop :=
  ∀ rowId, (t'.find rowId).map (C.userData) = (t.find rowId).map (C.userData)

/-- The event of a request that succeeds. -/
def Request.successEvent (t : Table Row) : Request C → Option AuditEvent
  | .create request => some (createEvent C request.rowId)
  | .update request =>
      (locate C t request.locator).map fun r => updateEvent C r.id request.body.fields
  | .delete locator => (locate C t locator).map fun r => deleteEvent C r.id

structure AuditKept (t : Table Row) (request : Request C) : Prop where
  failed : (serve C P emissions t request).answer = auditHttp500 →
    SameRecords C t (serve C P emissions t request).table
  success : ∀ status, (serve C P emissions t request).answer = .success status →
    ∃ event ∈ request.successEvent C t, event ∈ (serve C P emissions t request).log

/-- The model leaves the values of the row as they are. -/
def Settled (r : Row) : Prop :=
  ∀ a ∈ C.attributes,
    validateField P a (r.fields a.nameSnake) = some (r.fields a.nameSnake)

/-- When the store takes a request and the first emission cannot be written: the
second one of a creation is written, and the model leaves the values of an updated
row as they are. -/
def Compensable (t : Table Row) : Request C → Prop
  | .create request =>
      emissions 0 = .writeError → (∃ r, create C P t (request.call C) = .ok r) →
        emissions 1 = .written
  | .update request =>
      emissions 0 = .writeError → ∀ stored, locate C t request.locator = some stored →
        (∃ r, update C P t (request.call C stored.id) = .ok r) → Settled C P stored
  | .delete _ => True

end Handlers

/-! ## The store, taken apart -/

section Store

variable {C : RecordClass} {P : Pydantic} {t t' : Table Row} {obj : Row}

theorem create_eq_ok {call : CreateCall} :
    create C P t call = .ok (obj, t') ↔ rejectKeys C call.userFields = .ok () ∧
      createObject C P call = .ok obj ∧ t.find obj.id = none ∧ t' = t.put obj := by
  unfold create
  rw [bind_eq_ok]
  constructor
  · rintro ⟨_, hkeys, h⟩
    rcases bind_eq_ok.mp h with ⟨found, hobject, h⟩
    split at h
    · cases h
    · rename_i hfresh
      cases h
      exact ⟨hkeys, hobject, by simpa using hfresh, rfl⟩
  · rintro ⟨hkeys, hobject, hfresh, rfl⟩
    refine ⟨(), hkeys, bind_eq_ok.mpr ⟨obj, hobject, ?_⟩⟩
    rw [hfresh]
    rfl

theorem createObject_id {call : CreateCall} (h : createObject C P call = .ok obj) :
    obj.id = call.rowId := by
  rcases RecordClass.modelValidate_some (validateObject_eq_ok.mp h).2 with ⟨hid, _⟩
  exact hid

theorem update_eq_ok {call : UpdateCall} :
    update C P t call = .ok (obj, t') ↔ rejectKeys C call.userFields = .ok () ∧
      ∃ stored, t.find call.rowId = some stored ∧
        updateObject C P call stored = .ok obj ∧ t' = t.put (stored.set C obj) := by
  unfold update
  rw [bind_eq_ok]
  constructor
  · rintro ⟨_, hkeys, h⟩
    refine ⟨hkeys, ?_⟩
    split at h
    · cases h
    · rename_i stored hfind
      rcases bind_eq_ok.mp h with ⟨found, hobject, h⟩
      cases h
      exact ⟨stored, hfind, hobject, rfl⟩
  · rintro ⟨hkeys, stored, hfind, hobject, rfl⟩
    refine ⟨(), hkeys, ?_⟩
    rw [hfind]
    exact bind_eq_ok.mpr ⟨obj, hobject, rfl⟩

theorem locate_find {locator : Locator} {stored : Row}
    (h : locate C t locator = some stored) : t.find stored.id = some stored := by
  rw [Table.find_eq_some]
  refine ⟨?_, rfl⟩
  cases locator with
  | id value => exact (Table.find_eq_some.mp h).1
  | friendly value =>
      rcases Option.bind_eq_some_iff.mp h with ⟨f, _, hfind⟩
      exact List.mem_of_find?_eq_some hfind

theorem fetchByLocator_eq_ok {locator : Locator} {existing : Row} :
    fetchByLocator C P t locator = .ok existing ↔
      ∃ stored, locate C t locator = some stored ∧
        C.modelValidate P stored = some existing := by
  unfold fetchByLocator
  cases hlocate : locate C t locator with
  | none =>
      constructor
      · intro h
        cases h
      · rintro ⟨stored, hnone, _⟩
        cases hnone
  | some stored =>
      cases hvalid : C.modelValidate P stored with
      | none =>
          dsimp only
          rw [hvalid]
          constructor
          · intro h
            cases h
          · rintro ⟨found, hfound, hnone⟩
            cases hfound
            rw [hvalid] at hnone
            cases hnone
      | some found =>
          dsimp only
          rw [hvalid]
          constructor
          · intro h
            cases h
            exact ⟨stored, rfl, hvalid⟩
          · rintro ⟨other, hother, hfound⟩
            cases hother
            rw [hvalid] at hfound
            cases hfound
            rfl

theorem fetchByLocator_error {locator : Locator} {answer : Answer}
    (h : fetchByLocator C P t locator = .error answer) :
    answer = notFound C ∨ answer = .raised := by
  unfold fetchByLocator at h
  split at h
  · cases h
    exact Or.inl rfl
  · rename_i stored _
    cases hvalid : C.modelValidate P stored with
    | none =>
        rw [hvalid] at h
        cases h
        exact Or.inr rfl
    | some found =>
        rw [hvalid] at h
        cases h

end Store

/-! ## Creation -/

section Creation

variable {C : RecordClass} {P : Pydantic} {emissions : ℕ → Emission} {t : Table Row}

/-- An answer that is neither a success nor that of a failed audit. -/
theorem AuditKept.of_answer {request : Request C} {answer : Answer}
    (hserve : (serve C P emissions t request).answer = answer)
    (hanswer : answer = notFound C ∨ answer = .raised) :
    AuditKept C P emissions t request := by
  constructor
  · intro h
    rw [hserve] at h
    rcases hanswer with rfl | rfl
    · simp [notFound, auditHttp500] at h
    · cases h
  · intro status h
    rw [hserve] at h
    rcases hanswer with rfl | rfl
    · cases h
    · cases h

theorem not_sameRecords_put {obj : Row} (hfresh : t.find obj.id = none) :
    ¬SameRecords C t (t.put obj) := by
  intro hsame
  have hrow := hsame obj.id
  rw [find_put_self, hfresh] at hrow
  cases hrow

theorem sameRecords_erase_put {obj : Row} (hfresh : t.find obj.id = none) :
    SameRecords C t ((t.put obj).erase obj.id) := by
  intro rowId
  rw [Table.find_erase]
  split
  · rename_i hid
    rw [hid, hfresh]
  · rename_i hid
    have hne : rowId ≠ key obj := hid
    rw [Table.find_put, if_neg hne]

theorem createRecord_auditKept_iff {request : CreateRequest C} :
    AuditKept C P emissions t (.create request) ↔
      Compensable C P emissions t (.create request) := by
  cases hcreate : create C P t (request.call C) with
  | error e =>
      have hserve : serve C P emissions t (.create request) = ⟨.raised, t, []⟩ := by
        rw [serve, createRecord, hcreate]
      constructor
      · rintro _ _ ⟨r, hr⟩
        rw [hcreate] at hr
        cases hr
      · intro _
        exact AuditKept.of_answer (congrArg Outcome.answer hserve) (Or.inr rfl)
  | ok result =>
      rcases result with ⟨obj, t'⟩
      rcases create_eq_ok.mp hcreate with ⟨_, hobject, hfresh, rfl⟩
      have hid : obj.id = request.rowId := createObject_id hobject
      cases hfirst : emissions 0 with
      | written =>
          have hfound := find_put_self t obj
          have hserve : serve C P emissions t (.create request) =
              ⟨.success 201, t.put obj, [createEvent C obj.id]⟩ := by
            simp only [serve, createRecord, hcreate, hfirst, hfound]
            rfl
          constructor
          · intro _ herror
            rw [hfirst] at herror
            cases herror
          · intro _
            refine ⟨?_, ?_⟩
            · intro h
              rw [hserve] at h
              cases h
            · intro status _
              refine ⟨createEvent C request.rowId, rfl, ?_⟩
              rw [hserve, ← hid]
              exact .head _
      | raised =>
          have hserve : serve C P emissions t (.create request) =
              ⟨.raised, t.put obj, []⟩ := by
            simp only [serve, createRecord, hcreate, hfirst]
            rfl
          constructor
          · intro _ herror
            rw [hfirst] at herror
            cases herror
          · intro _
            exact AuditKept.of_answer (congrArg Outcome.answer hserve) (Or.inr rfl)
      | writeError =>
          have haccepted : ∃ r, create C P t (request.call C) = .ok r := ⟨_, hcreate⟩
          by_cases hsecond : emissions 1 = .written
          · have hserve : serve C P emissions t (.create request) =
                ⟨auditHttp500, (t.put obj).erase obj.id,
                  [⟨.recordDelete, "compensate_delete_after_audit_failure", C.nameSnake,
                    obj.id, []⟩]⟩ := by
              simp only [serve, createRecord, hcreate, hfirst, hsecond]
              rfl
            constructor
            · intro _ _ _
              exact hsecond
            · intro _
              refine ⟨?_, ?_⟩
              · intro _
                rw [hserve]
                exact sameRecords_erase_put hfresh
              · intro status h
                rw [hserve] at h
                cases h
          · have hserve : (serve C P emissions t (.create request)).answer = auditHttp500 ∧
                (serve C P emissions t (.create request)).table = t.put obj := by
              simp only [serve, createRecord, hcreate, hfirst]
              cases hemission : emissions 1 with
              | written => exact absurd hemission hsecond
              | writeError => simp
              | raised => simp
            constructor
            · intro hkept
              have hsame := hkept.failed hserve.1
              rw [hserve.2] at hsame
              exact absurd hsame (not_sameRecords_put hfresh)
            · intro hcompensable
              exact absurd (hcompensable hfirst haccepted) hsecond

end Creation

/-! ## Restoring -/

section Restoring

variable {C : RecordClass} {P : Pydantic} {t t' : Table Row} {stored existing obj : Row}

/-- The store takes fields that a request can write. -/
theorem rejectKeys_of_writable {userFields : FieldMap}
    (hwritable : ∀ e ∈ userFields, e.1 ∈ C.userColumns ∧ C.friendlyName ≠ some e.1) :
    rejectKeys C userFields = .ok () := by
  have hsystem : ¬(userFields.any fun e => e.1 ∈ systemFieldNames) = true := by
    intro hany
    rcases List.any_eq_true.mp hany with ⟨e, he, hname⟩
    rcases RecordClass.exists_attribute (hwritable e he).1 with ⟨a, ha, heq⟩
    apply C.notSystem a ha
    rw [heq]
    simpa using hname
  have hfriendly : ¬(userFields.any fun e => C.friendlyName = some e.1) = true := by
    intro hany
    rcases List.any_eq_true.mp hany with ⟨e, he, hname⟩
    exact (hwritable e he).2 (by simpa using hname)
  rw [rejectKeys, if_neg hsystem, if_neg hfriendly]
  rfl

theorem lookup_restoreFields {patch : FieldMap}
    (hwritable : ∀ e ∈ patch, e.1 ∈ C.userColumns) (f : String) :
    (restoreFields C P existing patch).lookup f =
      (patch.lookup f).map fun _ => dumpField P (existing.fields f) := by
  have hkept : (patch.filter fun e => e.1 ∈ C.userColumns) = patch :=
    List.filter_eq_self.mpr fun e he => by simpa using hwritable e he
  rw [restoreFields, hkept]
  clear hwritable hkept
  induction patch with
  | nil => rfl
  | cons e rest ih =>
      rw [List.map_cons, List.lookup_cons, List.lookup_cons]
      by_cases hf : f = e.1
      · rw [hf, beq_self_eq_true]
        rfl
      · rw [beq_false_of_ne hf]
        exact ih

theorem restoreFields_writable (body : Body C) :
    ∀ e ∈ restoreFields C P existing body.fields,
      e.1 ∈ C.userColumns ∧ C.friendlyName ≠ some e.1 := by
  intro e he
  rcases List.mem_map.mp he with ⟨e', he', rfl⟩
  exact body.writable e' (List.mem_filter.mp he').1

/-- Restoring after an update gives every field the value that was read. -/
theorem restore_spec {request : UpdateRequest C}
    (hexisting : C.modelValidate P stored = some existing)
    (hobject : updateObject C P (request.call C existing.id) stored = .ok obj) :
    ∃ restored, updateObject C P (request.restore C P existing) (stored.set C obj) =
        .ok restored ∧
      ∀ a ∈ C.attributes, restored.fields a.nameSnake = existing.fields a.nameSnake := by
  have hkeys : ∀ e ∈ request.body.fields, e.1 ∈ C.userColumns :=
    fun e he => (request.body.writable e he).1
  have hlookup : ∀ f, (restoreFields C P existing request.body.fields).lookup f =
      (request.body.fields.lookup f).map fun _ => dumpField P (existing.fields f) :=
    lookup_restoreFields hkeys
  have hread : ∀ a ∈ C.attributes, validateField P a
      (dumpField P (existing.fields a.nameSnake)) =
        some (existing.fields a.nameSnake) :=
    fun a ha => validateField_dump (RecordClass.modelValidate_field hexisting ha)
  rcases exists_modelValidate_set hobject with ⟨again, hagain⟩
  have hrestored : ∃ restored, updateObject C P (request.restore C P existing)
      (stored.set C obj) = .ok restored := by
    apply exists_updateObject _ hagain
    · intro a ha v hv
      have hvalue := hv.symm.trans (hlookup a.nameSnake)
      rcases Option.map_eq_some_iff.mp hvalue.symm with ⟨_, _, rfl⟩
      rw [hread a ha]
      rfl
    · intro e he
      exact (restoreFields_writable request.body e he).1
  rcases hrestored with ⟨restored, hrestored⟩
  refine ⟨restored, hrestored, ?_⟩
  intro a ha
  have hwritable : ∀ e ∈ restoreFields C P existing request.body.fields,
      e.1 ∈ C.userColumns ∧ C.friendlyName ≠ some e.1 :=
    restoreFields_writable request.body
  have hreject := rejectKeys_of_writable hwritable
  cases hpatch : request.body.fields.lookup a.nameSnake with
  | some v =>
      have hnamed := updateObject_named hreject hrestored ha
        ((hlookup a.nameSnake).trans (by rw [hpatch]; rfl))
      rw [hread a ha] at hnamed
      exact (Option.some.inj hnamed).symm
  | none =>
      have hunnamed := updateObject_unnamed hrestored ha
        ((hlookup a.nameSnake).trans (by rw [hpatch]; rfl))
      rw [Row.set_field ha, updateObject_valid hobject ha] at hunnamed
      have hfirst := updateObject_unnamed hobject ha hpatch
      rw [RecordClass.modelValidate_field hexisting ha] at hfirst
      rw [← Option.some.inj hunnamed, ← Option.some.inj hfirst]

/-- Two rows of one record in turn leave the table as the second one alone. -/
theorem sameRecords_put_put {r r' : Row} (hfind : t.find stored.id = some stored)
    (hid : r.id = stored.id) (hid' : r'.id = stored.id) :
    SameRecords C t ((t.put r).put r') ↔
      ∀ a ∈ C.attributes, r'.fields a.nameSnake = stored.fields a.nameSnake := by
  constructor
  · intro hsame a ha
    have hrow := hsame r'.id
    rw [find_put_self, hid', hfind] at hrow
    have hdata : C.userData r' = C.userData stored := by simpa using hrow
    exact List.map_inj_left.mp hdata a ha
  · intro hfields rowId
    rw [Table.find_put, Table.find_put]
    by_cases hrow : rowId = stored.id
    · have hkey : rowId = key r' := hrow.trans hid'.symm
      rw [if_pos hkey, hrow, hfind, Option.map_some, Option.map_some]
      exact congrArg some (List.map_congr_left hfields)
    · have hkey : rowId ≠ key r' := fun h => hrow (h.trans hid')
      have hkey' : rowId ≠ key r := fun h => hrow (h.trans hid)
      rw [if_neg hkey, if_neg hkey']

end Restoring

/-! ## Update and deletion -/

section Update

variable {C : RecordClass} {P : Pydantic} {emissions : ℕ → Emission} {t : Table Row}

/-- An update that the store takes and whose event cannot be written ends with
the restored row. -/
theorem updateRecord_failed {request : UpdateRequest C} {stored existing obj : Row}
    {t' : Table Row} (hlocate : locate C t request.locator = some stored)
    (hexisting : C.modelValidate P stored = some existing)
    (hupdate : update C P t (request.call C existing.id) = .ok (obj, t'))
    (hfirst : emissions 0 = .writeError) :
    (serve C P emissions t (.update request)).answer = auditHttp500 ∧
      (SameRecords C t (serve C P emissions t (.update request)).table ↔
        Settled C P stored) := by
  have hfind := locate_find hlocate
  rcases RecordClass.modelValidate_some hexisting with ⟨hid, _⟩
  rcases update_eq_ok.mp hupdate with ⟨_, found, hfound, hobject, rfl⟩
  have hfound : t.find existing.id = some found := hfound
  rw [hid, hfind] at hfound
  cases hfound
  rcases restore_spec hexisting hobject with ⟨restored, hrestored, hfields⟩
  have hrestore : update C P (t.put (stored.set C obj)) (request.restore C P existing) =
      .ok (restored, (t.put (stored.set C obj)).put
        ((stored.set C obj).set C restored)) := by
    apply update_eq_ok.mpr
    refine ⟨rejectKeys_of_writable (restoreFields_writable request.body),
      stored.set C obj, ?_, hrestored, rfl⟩
    change (t.put (stored.set C obj)).find existing.id = some (stored.set C obj)
    rw [hid]
    exact find_put_self _ _
  have hfetch : fetchByLocator C P t request.locator = .ok existing :=
    fetchByLocator_eq_ok.mpr ⟨stored, hlocate, hexisting⟩
  have hserve : (serve C P emissions t (.update request)).answer = auditHttp500 ∧
      (serve C P emissions t (.update request)).table =
        (t.put (stored.set C obj)).put ((stored.set C obj).set C restored) := by
    simp only [serve, updateRecord, hfetch, hupdate, hfirst, hrestore]
    exact ⟨trivial, trivial⟩
  refine ⟨hserve.1, ?_⟩
  have hrows := @sameRecords_put_put C t stored (stored.set C obj)
    ((stored.set C obj).set C restored) hfind rfl rfl
  rw [hserve.2, hrows]
  constructor
  · intro hsame a ha
    have hvalue := hsame a ha
    rw [Row.set_field ha, hfields a ha] at hvalue
    rw [RecordClass.modelValidate_field hexisting ha, hvalue]
  · intro hsettled a ha
    have hread := RecordClass.modelValidate_field hexisting ha
    rw [hsettled a ha] at hread
    rw [Row.set_field ha, hfields a ha, ← Option.some.inj hread]

/-- Where the first emission does not run into a write error, an update answers a
success only with its event. -/
theorem updateRecord_auditKept {request : UpdateRequest C}
    (hfirst : emissions 0 ≠ .writeError) :
    AuditKept C P emissions t (.update request) := by
  cases hfetch : fetchByLocator C P t request.locator with
  | error answer =>
      have hserve : serve C P emissions t (.update request) = ⟨answer, t, []⟩ := by
        simp only [serve, updateRecord, hfetch]
      exact AuditKept.of_answer (congrArg Outcome.answer hserve)
        (fetchByLocator_error hfetch)
  | ok existing =>
      rcases fetchByLocator_eq_ok.mp hfetch with ⟨stored, hlocate, hexisting⟩
      cases hupdate : update C P t (request.call C existing.id) with
      | error e =>
          have hserve : (serve C P emissions t (.update request)).answer = notFound C ∨
              (serve C P emissions t (.update request)).answer = .raised := by
            simp only [serve, updateRecord, hfetch, hupdate]
            cases e with
            | notFound => exact Or.inl rfl
            | _ => exact Or.inr rfl
          exact AuditKept.of_answer rfl hserve
      | ok result =>
          rcases result with ⟨obj, t'⟩
          cases hemission : emissions 0 with
          | writeError => exact absurd hemission hfirst
          | raised =>
              have hserve : (serve C P emissions t (.update request)).answer = .raised := by
                simp only [serve, updateRecord, hfetch, hupdate, hemission]
              exact AuditKept.of_answer hserve (Or.inr rfl)
          | written =>
              rcases RecordClass.modelValidate_some hexisting with ⟨hid, _⟩
              have hlog : (serve C P emissions t (.update request)).log =
                  [updateEvent C existing.id request.body.fields] := by
                simp only [serve, updateRecord, hfetch, hupdate, hemission]
                rfl
              have hanswer : (serve C P emissions t (.update request)).answer ≠
                  auditHttp500 := by
                simp only [serve, updateRecord, hfetch, hupdate, hemission]
                split <;> simp [notFound, auditHttp500]
              refine ⟨fun h => absurd h hanswer, ?_⟩
              intro status _
              refine ⟨updateEvent C stored.id request.body.fields, ?_, ?_⟩
              · rw [Request.successEvent, hlocate]
                rfl
              · rw [hlog, hid]
                exact .head _

theorem updateRecord_auditKept_iff {request : UpdateRequest C} :
    AuditKept C P emissions t (.update request) ↔
      Compensable C P emissions t (.update request) := by
  constructor
  · rintro hkept hfirst stored hlocate ⟨⟨obj, t'⟩, hupdate⟩
    rcases update_eq_ok.mp hupdate with ⟨_, found, hfound, hobject, _⟩
    rw [show (request.call C stored.id).rowId = stored.id from rfl,
      locate_find hlocate] at hfound
    cases hfound
    rcases (updateObject_eq_ok.mp hobject).2 with ⟨existing, hexisting, _⟩
    rcases RecordClass.modelValidate_some hexisting with ⟨hid, _⟩
    rw [← hid] at hupdate
    rcases updateRecord_failed hlocate hexisting hupdate hfirst with ⟨hanswer, hsame⟩
    exact hsame.mp (hkept.failed hanswer)
  · intro hcompensable
    by_cases hfirst : emissions 0 = .writeError
    · cases hfetch : fetchByLocator C P t request.locator with
      | error answer =>
          have hserve : serve C P emissions t (.update request) = ⟨answer, t, []⟩ := by
            simp only [serve, updateRecord, hfetch]
          exact AuditKept.of_answer (congrArg Outcome.answer hserve)
            (fetchByLocator_error hfetch)
      | ok existing =>
          rcases fetchByLocator_eq_ok.mp hfetch with ⟨stored, hlocate, hexisting⟩
          cases hupdate : update C P t (request.call C existing.id) with
          | error e =>
              have hserve : (serve C P emissions t (.update request)).answer = notFound C ∨
                  (serve C P emissions t (.update request)).answer = .raised := by
                simp only [serve, updateRecord, hfetch, hupdate]
                cases e with
                | notFound => exact Or.inl rfl
                | _ => exact Or.inr rfl
              exact AuditKept.of_answer rfl hserve
          | ok result =>
              rcases result with ⟨obj, t'⟩
              rcases RecordClass.modelValidate_some hexisting with ⟨hid, _⟩
              rcases updateRecord_failed hlocate hexisting hupdate hfirst with
                ⟨hanswer, hsame⟩
              rw [hid] at hupdate
              have hsettled := hcompensable hfirst stored hlocate ⟨_, hupdate⟩
              refine ⟨fun _ => hsame.mpr hsettled, ?_⟩
              intro status h
              rw [hanswer] at h
              cases h
    · exact updateRecord_auditKept hfirst

theorem deleteRecord_auditKept {locator : Locator} :
    AuditKept C P emissions t (.delete locator) := by
  cases hfetch : fetchByLocator C P t locator with
  | error answer =>
      have hserve : serve C P emissions t (.delete locator) = ⟨answer, t, []⟩ := by
        simp only [serve, deleteRecord, hfetch]
      exact AuditKept.of_answer (congrArg Outcome.answer hserve)
        (fetchByLocator_error hfetch)
  | ok existing =>
      rcases fetchByLocator_eq_ok.mp hfetch with ⟨stored, hlocate, hexisting⟩
      rcases RecordClass.modelValidate_some hexisting with ⟨hid, _⟩
      cases hemission : emissions 0 with
      | writeError =>
          have hserve : (serve C P emissions t (.delete locator)).answer = auditHttp500 ∧
              (serve C P emissions t (.delete locator)).table = t := by
            simp only [serve, deleteRecord, hfetch, hemission]
            exact ⟨trivial, trivial⟩
          constructor
          · intro _ rowId
            rw [hserve.2]
          · intro status h
            rw [hserve.1] at h
            cases h
      | raised =>
          have hserve : (serve C P emissions t (.delete locator)).answer = .raised := by
            simp only [serve, deleteRecord, hfetch, hemission]
          exact AuditKept.of_answer hserve (Or.inr rfl)
      | written =>
          have hlog : (serve C P emissions t (.delete locator)).log =
              [deleteEvent C existing.id] := by
            simp only [serve, deleteRecord, hfetch, hemission]
            rfl
          have hanswer : (serve C P emissions t (.delete locator)).answer ≠
              auditHttp500 := by
            simp only [serve, deleteRecord, hfetch, hemission]
            split <;> simp [notFound, auditHttp500]
          refine ⟨fun h => absurd h hanswer, ?_⟩
          intro status _
          refine ⟨deleteEvent C stored.id, ?_, ?_⟩
          · rw [Request.successEvent, hlocate]
            rfl
          · rw [hlog, hid]
            exact .head _

/-- A failed audit leaves no trace, and a success has its event, exactly when the
request can be compensated. -/
theorem audit_kept_iff (C : RecordClass) (P : Pydantic) (emissions : ℕ → Emission)
    (t : Table Row) (request : Request C) :
    AuditKept C P emissions t request ↔ Compensable C P emissions t request := by
  cases request with
  | create request => exact createRecord_auditKept_iff
  | update request => exact updateRecord_auditKept_iff
  | delete locator =>
      constructor
      · intro _
        trivial
      · intro _
        exact deleteRecord_auditKept

end Update

/-! ## A creation that stays -/

/-- A class with one text. -/
def noteClass : RecordClass where
  nameSnake := "note"
  displayName := "Note"
  description := "A note."
  attributes := [⟨"title", "compact_text", true, none, false, none, none, none, none,
    defaultFriendlyIdPadWidth, none⟩]
  sourcePath := "note.yaml"
  displayAttribute := none
  isPublic := false
  permissions := ["create", "update", "delete"]
  checkConstraints := []
  uniqueConstraints := []
  names := by decide
  notSystem := by decide

def noteBody : Body noteClass where
  fields := [("title", .text "first")]
  writable := by decide

def noteRequest : CreateRequest noteClass :=
  ⟨noteBody, "note 1", "user 1", ⟨0, inCalendar_zero⟩, 1⟩

/-- Neither emission can be written, and the new record stays. -/
theorem failed_audit_keeps_record :
    (serve noteClass epochTexts (fun _ => .writeError) Table.empty
      (.create noteRequest)).answer = auditHttp500 ∧
    ¬SameRecords noteClass Table.empty
      (serve noteClass epochTexts (fun _ => .writeError) Table.empty
        (.create noteRequest)).table := by
  refine ⟨rfl, ?_⟩
  intro hsame
  have hrow := congrArg Option.isSome (hsame "note 1")
  revert hrow
  decide

end Untangled.Records
