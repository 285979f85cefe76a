import Untangled.DefinitionSets
import Untangled.JsStrings
import Untangled.KeyedTable

/-!
# Records

The rows of a class, the generated model that validates them, and what
`RecordStore` computes from them.  Pydantic's conversions are parameters; the
datetime validator is the one that the generator emits.
-/

namespace Untangled.Records

open Mapping ReadCommitted

/-- A field value; a datetime is in microseconds since the epoch, in UTC. -/
inductive Value
  | null
  | text (s : String)
  | bool (b : Bool)
  | int (i : ℤ)
  | float (text : String)
  | decimal (text : String)
  | uuid (text : String)
  | datetime (micros : ℤ)
  deriving DecidableEq

/-- The value is one of the Python type of an attribute. -/
def Value.hasType (typeName : String) : Value → Bool
  | .null => false
  | .text _ => typeName ∈ textStorageFamily || typeName = "friendly_id"
  | .bool _ => typeName = "boolean"
  | .int _ => typeName = "integer"
  | .float _ => typeName = "float"
  | .decimal _ => typeName = "decimal"
  | .uuid _ => typeName = "uuid"
  | .datetime _ => typeName = "datetime"

/-! ## Whole seconds -/

/-- The nearest second, halves upwards. -/
def nearestSecond (micros : ℤ) : ℤ :=
  if 500000 ≤ micros % 1000000 then micros / 1000000 + 1 else micros / 1000000

/-- The seconds of the years 1 to 9999. -/
def inCalendar (second : ℤ) : Prop :=
  -62135596800 ≤ second ∧ second ≤ 253402300799

instance (second : ℤ) : Decidable (inCalendar second) :=
  inferInstanceAs (Decidable (_ ∧ _))

/-- An instant out of the calendar cannot be converted to UTC, and the last half
second cannot be rounded up. -/
def requireUtcSeconds (micros : ℤ) : Option ℤ :=
  if inCalendar (micros / 1000000) ∧ inCalendar (nearestSecond micros) then
    some (nearestSecond micros * 1000000)
  else none

theorem nearestSecond_mul (second : ℤ) : nearestSecond (second * 1000000) = second := by
  have hmod : second * 1000000 % 1000000 = 0 := by omega
  have hdiv : second * 1000000 / 1000000 = second := by omega
  rw [nearestSecond, hmod, hdiv, if_neg (by norm_num)]

theorem requireUtcSeconds_some {micros rounded : ℤ}
    (h : requireUtcSeconds micros = some rounded) :
    inCalendar (nearestSecond rounded) ∧
      rounded = nearestSecond rounded * 1000000 := by
  unfold requireUtcSeconds at h
  split at h
  · rename_i hrange
    cases h
    rw [nearestSecond_mul]
    exact ⟨hrange.2, rfl⟩
  · cases h

theorem requireUtcSeconds_mul {second : ℤ} (hrange : inCalendar second) :
    requireUtcSeconds (second * 1000000) = some (second * 1000000) := by
  have hdiv : second * 1000000 / 1000000 = second := by omega
  rw [requireUtcSeconds, nearestSecond_mul, hdiv, if_pos ⟨hrange, hrange⟩]

theorem requireUtcSeconds_idem {micros rounded : ℤ}
    (h : requireUtcSeconds micros = some rounded) :
    requireUtcSeconds rounded = some rounded := by
  rcases requireUtcSeconds_some h with ⟨hrange, heq⟩
  rw [heq, requireUtcSeconds_mul hrange]

/-! ## The generated model -/

/-- Conversions of other values to the type of an attribute, and the ISO text of
a second. -/
structure Pydantic where
  convert : String → Value → Option Value
  isoformat : ℤ → String
  convert_typed : ∀ {typeName : String} {v w : Value},
    convert typeName v = some w → w.hasType typeName = true
  convert_isoformat : ∀ {second : ℤ}, inCalendar second →
    convert "datetime" (.text (isoformat second)) = some (.datetime (second * 1000000))

/-- The model that takes no text but the seconds since the epoch for a datetime. -/
def epochTexts : Pydantic where
  convert typeName v :=
    match v with
    | .text s =>
        if typeName = "datetime" then
          (parseNumber s).map fun second => .datetime (second * 1000000)
        else none
    | _ => none
  isoformat := numberText
  convert_typed := by
    intro typeName v w h
    split at h
    · split at h
      · rename_i htype
        rcases Option.map_eq_some_iff.mp h with ⟨second, _, rfl⟩
        simpa [Value.hasType] using htype
      · cases h
    · cases h
  convert_isoformat := by
    intro second _
    change (parseNumber (numberText second)).map _ = _
    rw [parseNumber_numberText]
    rfl

section Fields

variable (P : Pydantic)

def utcDatetime : Value → Option Value
  | .datetime micros => (requireUtcSeconds micros).map .datetime
  | v => some v

def validateField (a : AttributeDefinition) (v : Value) : Option Value :=
  if v = .null then
    if a.required then none else some .null
  else if v.hasType a.typeName then utcDatetime v
  else (P.convert a.typeName v).bind utcDatetime

/-- `model_dump` of a field: datetimes become ISO texts. -/
def dumpField : Value → Value
  | .datetime micros => .text (P.isoformat (nearestSecond micros))
  | v => v

variable {P}

theorem utcDatetime_spec {v w : Value} (h : utcDatetime v = some w) {typeName : String}
    (hv : v.hasType typeName = true) :
    w.hasType typeName = true ∧ utcDatetime w = some w := by
  unfold utcDatetime at h
  split at h
  · rcases Option.map_eq_some_iff.mp h with ⟨rounded, hrounded, rfl⟩
    constructor
    · exact hv
    · rw [utcDatetime, requireUtcSeconds_idem hrounded]
      rfl
  · rename_i hother
    cases h
    constructor
    · exact hv
    · unfold utcDatetime
      split
      · exact absurd rfl (hother _)
      · rfl

/-- A validated value: null where that is allowed, or a value of the type that
the datetime validator leaves as it is. -/
theorem validateField_some {a : AttributeDefinition} {v w : Value}
    (h : validateField P a v = some w) :
    (w = .null ∧ a.required = false) ∨
      (w.hasType a.typeName = true ∧ utcDatetime w = some w) := by
  unfold validateField at h
  split at h
  · split at h
    · cases h
    · rename_i hrequired
      cases h
      exact Or.inl ⟨rfl, by simpa using hrequired⟩
  · split at h
    · rename_i htype
      exact Or.inr (utcDatetime_spec h htype)
    · rcases Option.bind_eq_some_iff.mp h with ⟨converted, hconvert, h⟩
      exact Or.inr (utcDatetime_spec h (P.convert_typed hconvert))

theorem ne_null_of_hasType {w : Value} {typeName : String}
    (h : w.hasType typeName = true) : w ≠ .null := by
  rintro rfl
  cases h

theorem validateField_typed {a : AttributeDefinition} {w : Value}
    (htype : w.hasType a.typeName = true) : validateField P a w = utcDatetime w := by
  rw [validateField, if_neg (ne_null_of_hasType htype), if_pos htype]

theorem validateField_null {a : AttributeDefinition} (h : a.required = false) :
    validateField P a .null = some .null := by
  rw [validateField, if_pos rfl, h]
  rfl

theorem validateField_idem {a : AttributeDefinition} {v w : Value}
    (h : validateField P a v = some w) : validateField P a w = some w := by
  rcases validateField_some h with ⟨rfl, hrequired⟩ | ⟨htype, hutc⟩
  · exact validateField_null hrequired
  · rw [validateField_typed htype, hutc]

/-- Validating what was dumped gives the validated value again. -/
theorem validateField_dump {a : AttributeDefinition} {v w : Value}
    (h : validateField P a v = some w) : validateField P a (dumpField P w) = some w := by
  rcases validateField_some h with ⟨rfl, hrequired⟩ | ⟨htype, hutc⟩
  · exact validateField_null hrequired
  · cases w with
    | datetime micros =>
        have hname : a.typeName = "datetime" := by simpa [Value.hasType] using htype
        rw [utcDatetime, Option.map_eq_some_iff] at hutc
        rcases hutc with ⟨rounded, hrounded, heq⟩
        cases heq
        rcases requireUtcSeconds_some hrounded with ⟨hrange, hmicros⟩
        have hconvert := P.convert_isoformat hrange
        have htext : (Value.text (P.isoformat (nearestSecond micros))).hasType "datetime" =
            false := by
          rw [Value.hasType]
          decide
        rw [dumpField, validateField, if_neg (by simp), hname, htext, hconvert, ← hmicros,
          if_neg (by simp), Option.bind_some, utcDatetime, hrounded]
        rfl
    | _ => exact validateField_idem h

end Fields

/-! ## Classes and rows -/

/-- A class whose attributes have distinct names, none that of a system field. -/
structure RecordClass extends ClassDefinition where
  names : (attributes.map AttributeDefinition.nameSnake).Nodup
  notSystem : ∀ a ∈ attributes, a.nameSnake ∉ systemFieldNames

/-- Loaded classes are such classes. -/
def RecordClass.ofValid {R : Scalars} {d : ClassDefinition} (hd : d.Valid R) :
    RecordClass where
  toClassDefinition := d
  names := hd.attributes.names
  notSystem := hd.attributes.notSystem

/-- A row of a class or an instance of its model. -/
structure Row where
  id : String
  createdAt : ℤ
  updatedAt : ℤ
  createdBy : String
  updatedBy : String
  fields : String → Value

instance : Keyed Row String where
  key := Row.id

namespace RecordClass

variable (C : RecordClass)

def userColumns : List String :=
  C.attributes.map AttributeDefinition.nameSnake

def userData (r : Row) : List Value :=
  C.attributes.map fun a => r.fields a.nameSnake

def findAttribute (f : String) : Option AttributeDefinition :=
  C.attributes.find? fun a => a.nameSnake = f

def friendlyName : Option String :=
  C.friendlyIdAttr.map AttributeDefinition.nameSnake

variable {C}

theorem findAttribute_eq_some {f : String} {a : AttributeDefinition} :
    C.findAttribute f = some a ↔ a ∈ C.attributes ∧ a.nameSnake = f := by
  constructor
  · intro h
    exact ⟨List.mem_of_find?_eq_some h, by simpa using List.find?_some h⟩
  · rintro ⟨ha, rfl⟩
    have hfound : (C.findAttribute a.nameSnake).isSome = true := by
      rw [findAttribute, List.find?_isSome]
      exact ⟨a, ha, by simp⟩
    rcases Option.isSome_iff_exists.mp hfound with ⟨b, hb⟩
    have hmem : b ∈ C.attributes := List.mem_of_find?_eq_some hb
    have hname : b.nameSnake = a.nameSnake := by simpa using List.find?_some hb
    rw [hb, List.inj_on_of_nodup_map C.names hmem ha hname]

theorem findAttribute_of_mem {a : AttributeDefinition} (ha : a ∈ C.attributes) :
    C.findAttribute a.nameSnake = some a :=
  findAttribute_eq_some.mpr ⟨ha, rfl⟩

theorem exists_attribute {f : String} (hf : f ∈ C.userColumns) :
    ∃ a ∈ C.attributes, a.nameSnake = f :=
  List.mem_map.mp hf

variable (C) (P : Pydantic)

def validateFields (given : String → Value) : Option (String → Value) :=
  if ∀ a ∈ C.attributes, (validateField P a (given a.nameSnake)).isSome = true then
    some fun f =>
      ((C.findAttribute f).bind fun a => validateField P a (given f)).getD .null
  else none

/-- `model_validate` of the values of a row. -/
def modelValidate (r : Row) : Option Row := do
  let createdAt ← requireUtcSeconds r.createdAt
  let updatedAt ← requireUtcSeconds r.updatedAt
  let fields ← C.validateFields P r.fields
  pure { r with createdAt := createdAt, updatedAt := updatedAt, fields := fields }

variable {C P}

theorem validateFields_some {given fields : String → Value}
    (h : C.validateFields P given = some fields) {a : AttributeDefinition}
    (ha : a ∈ C.attributes) :
    validateField P a (given a.nameSnake) = some (fields a.nameSnake) := by
  unfold validateFields at h
  split at h
  · rename_i hall
    cases h
    rcases Option.isSome_iff_exists.mp (hall a ha) with ⟨w, hw⟩
    have hfound : C.findAttribute a.nameSnake = some a := findAttribute_of_mem ha
    simp only [hfound, Option.bind_some, hw, Option.getD_some]
  · cases h

theorem validateFields_isSome {given : String → Value} :
    (C.validateFields P given).isSome = true ↔
      ∀ a ∈ C.attributes, (validateField P a (given a.nameSnake)).isSome = true := by
  unfold validateFields
  split
  · rename_i hall
    exact ⟨fun _ => hall, fun _ => rfl⟩
  · rename_i hnot
    constructor
    · intro h
      cases h
    · intro hall
      exact absurd hall hnot

theorem modelValidate_some {r obj : Row} (h : C.modelValidate P r = some obj) :
    obj.id = r.id ∧ requireUtcSeconds r.createdAt = some obj.createdAt ∧
      requireUtcSeconds r.updatedAt = some obj.updatedAt ∧
      obj.createdBy = r.createdBy ∧ obj.updatedBy = r.updatedBy ∧
      C.validateFields P r.fields = some obj.fields := by
  unfold modelValidate at h
  rcases Option.bind_eq_some_iff.mp h with ⟨createdAt, hcreated, h⟩
  rcases Option.bind_eq_some_iff.mp h with ⟨updatedAt, hupdated, h⟩
  rcases Option.bind_eq_some_iff.mp h with ⟨fields, hfields, h⟩
  cases h
  exact ⟨rfl, hcreated, hupdated, rfl, rfl, hfields⟩

theorem modelValidate_field {r obj : Row} (h : C.modelValidate P r = some obj)
    {a : AttributeDefinition} (ha : a ∈ C.attributes) :
    validateField P a (r.fields a.nameSnake) = some (obj.fields a.nameSnake) :=
  validateFields_some (modelValidate_some h).2.2.2.2.2 ha

/-- A row is an instance when its times are in the calendar and its fields are
valid. -/
theorem exists_modelValidate {r : Row}
    (hcreated : (requireUtcSeconds r.createdAt).isSome = true)
    (hupdated : (requireUtcSeconds r.updatedAt).isSome = true)
    (hfields : ∀ a ∈ C.attributes,
      (validateField P a (r.fields a.nameSnake)).isSome = true) :
    ∃ obj, C.modelValidate P r = some obj := by
  rcases Option.isSome_iff_exists.mp (validateFields_isSome.mpr hfields) with
    ⟨fields, hvalid⟩
  rcases Option.isSome_iff_exists.mp hcreated with ⟨createdAt, hcreated⟩
  rcases Option.isSome_iff_exists.mp hupdated with ⟨updatedAt, hupdated⟩
  refine ⟨{ r with createdAt := createdAt, updatedAt := updatedAt, fields := fields }, ?_⟩
  rw [modelValidate, hcreated, hupdated, hvalid]
  rfl

end RecordClass

/-! ## The store -/

/-- A dictionary of field values. -/
abbrev FieldMap := List (String × Value)

/-- What `utc_now` returns. -/
abbrev Second := {second : ℤ // inCalendar second}

theorem inCalendar_zero : inCalendar 0 := by
  decide

def Second.micros (now : Second) : ℤ := now.val * 1000000

theorem requireUtcSeconds_micros (now : Second) :
    requireUtcSeconds now.micros = some now.micros :=
  requireUtcSeconds_mul now.property

inductive RecordError
  | systemFields
  | friendlyIdField
  | notFound
  | invalid
  | refused
  deriving DecidableEq

structure UpdateCall where
  rowId : String
  userFields : FieldMap
  actor : String
  now : Second

structure CreateCall where
  userFields : FieldMap
  rowId : String
  actor : String
  now : Second
  /-- What the sequence of the friendly ids gives. -/
  nextval : ℕ

def formatFriendlyId (idPrefix : String) (value : ℕ) (padWidth : ℤ) : String :=
  let body := toString value
  idPrefix ++ String.ofList (List.replicate (padWidth.toNat - body.length) '0') ++ body

section Store

variable (C : RecordClass) (P : Pydantic)

/-- The fields of a payload that the server sets itself. -/
def rejectKeys (userFields : FieldMap) : Except RecordError Unit :=
  if userFields.any fun e => e.1 ∈ systemFieldNames then throw .systemFields
  else if userFields.any fun e => C.friendlyName = some e.1 then throw .friendlyIdField
  else pure ()

/-- `model_validate`, which forbids other fields. -/
def validateObject (userFields : FieldMap) (r : Row) : Except RecordError Row :=
  if userFields.all fun e => e.1 ∈ C.userColumns then
    (C.modelValidate P r).elim (throw .invalid) pure
  else throw .invalid

def createFields (call : CreateCall) (f : String) : Value :=
  match C.friendlyIdAttr with
  | some a =>
      match a.idPrefix with
      | some p =>
          if a.nameSnake = f then .text (formatFriendlyId p call.nextval a.padWidth)
          else (call.userFields.lookup f).getD .null
      | none => (call.userFields.lookup f).getD .null
  | none => (call.userFields.lookup f).getD .null

def createObject (call : CreateCall) : Except RecordError Row :=
  validateObject C P call.userFields
    ⟨call.rowId, call.now.micros, call.now.micros, call.actor, call.actor,
      createFields C call⟩

def create (t : Table Row) (call : CreateCall) : Except RecordError (Row × Table Row) := do
  rejectKeys C call.userFields
  let obj ← createObject C P call
  if (t.find obj.id).isSome then throw .refused else pure (obj, t.put obj)

/-- The fields after an update, before they are validated. -/
def mergedFields (existing : Row) (userFields : FieldMap) (f : String) : Value :=
  if C.friendlyName = some f then existing.fields f
  else (userFields.lookup f).getD (dumpField P (existing.fields f))

/-- The instance that an update makes from the row that it has read. -/
def updateObject (call : UpdateCall) (stored : Row) : Except RecordError Row :=
  match C.modelValidate P stored with
  | none => throw .invalid
  | some existing =>
      validateObject C P call.userFields
        { existing with
          updatedAt := call.now.micros
          updatedBy := call.actor
          fields := mergedFields C P existing call.userFields }

/-- The row after `UPDATE` has set the columns of an update from an instance. -/
def Row.set (stored obj : Row) : Row :=
  { stored with
    updatedAt := obj.updatedAt
    updatedBy := obj.updatedBy
    fields := fun f => if f ∈ C.userColumns then obj.fields f else stored.fields f }

def update (t : Table Row) (call : UpdateCall) : Except RecordError (Row × Table Row) := do
  rejectKeys C call.userFields
  match t.find call.rowId with
  | none => throw .notFound
  | some stored => do
      let obj ← updateObject C P call stored
      pure (obj, t.put (stored.set C obj))

/-- Whether there was a row, and the table without it. -/
def delete (t : Table Row) (rowId : String) : Bool × Table Row :=
  ((t.find rowId).isSome, t.erase rowId)

end Store

/-! ## What an update writes -/

section Updates

variable {C : RecordClass} {P : Pydantic} {call : UpdateCall} {stored obj : Row}

@[simp] theorem Row.set_id : (stored.set C obj).id = stored.id := rfl

theorem find_put_self (t : Table Row) (r : Row) : (t.put r).find r.id = some r := by
  rw [Table.find_put]
  exact if_pos rfl

theorem Row.set_field {a : AttributeDefinition} (ha : a ∈ C.attributes) :
    (stored.set C obj).fields a.nameSnake = obj.fields a.nameSnake :=
  if_pos (List.mem_map_of_mem ha)

theorem Row.set_other {f : String} (hf : f ∉ C.userColumns) :
    (stored.set C obj).fields f = stored.fields f :=
  if_neg hf

theorem rejectKeys_eq_ok {userFields : FieldMap} {u : Unit}
    (h : rejectKeys C userFields = .ok u) {f : String} {v : Value}
    (hf : userFields.lookup f = some v) : C.friendlyName ≠ some f := by
  have hmem : (f, v) ∈ userFields := by
    clear h
    induction userFields with
    | nil => cases hf
    | cons e rest ih =>
        rcases e with ⟨g, w⟩
        rw [List.lookup_cons] at hf
        by_cases hg : f = g
        · rw [hg, beq_self_eq_true] at hf
          cases hf
          rw [hg]
          exact .head _
        · rw [beq_false_of_ne hg] at hf
          exact .tail _ (ih hf)
  intro hfriendly
  unfold rejectKeys at h
  split at h
  · cases h
  · split at h
    · cases h
    · rename_i hnone
      apply hnone
      exact List.any_eq_true.mpr ⟨(f, v), hmem, by simpa using hfriendly⟩

theorem validateObject_eq_ok {userFields : FieldMap} {r : Row} :
    validateObject C P userFields r = .ok obj ↔
      (∀ e ∈ userFields, e.1 ∈ C.userColumns) ∧ C.modelValidate P r = some obj := by
  unfold validateObject
  by_cases hkeys : userFields.all fun e => e.1 ∈ C.userColumns
  · rw [if_pos hkeys]
    have hall : ∀ e ∈ userFields, e.1 ∈ C.userColumns := by simpa using hkeys
    cases hvalid : C.modelValidate P r with
    | none =>
        constructor
        · intro h
          cases h
        · intro h
          cases h.2
    | some found =>
        constructor
        · intro h
          cases h
          exact ⟨hall, rfl⟩
        · intro h
          rw [Option.some.inj h.2]
          rfl
  · rw [if_neg hkeys]
    constructor
    · intro h
      cases h
    · intro h
      exact absurd (by simpa using h.1) hkeys

theorem updateObject_eq_ok :
    updateObject C P call stored = .ok obj ↔
      (∀ e ∈ call.userFields, e.1 ∈ C.userColumns) ∧
        ∃ existing, C.modelValidate P stored = some existing ∧
          C.modelValidate P
            { existing with
              updatedAt := call.now.micros
              updatedBy := call.actor
              fields := mergedFields C P existing call.userFields } = some obj := by
  unfold updateObject
  cases hexisting : C.modelValidate P stored with
  | none =>
      constructor
      · intro h
        cases h
      · intro h
        rcases h.2 with ⟨existing, hnone, _⟩
        cases hnone
  | some existing =>
      rw [validateObject_eq_ok]
      constructor
      · intro h
        exact ⟨h.1, existing, rfl, h.2⟩
      · rintro ⟨hkeys, found, hfound, hvalid⟩
        cases hfound
        exact ⟨hkeys, hvalid⟩

/-- The instance has the stamps of the call. -/
theorem updateObject_stamps (h : updateObject C P call stored = .ok obj) :
    obj.id = stored.id ∧ obj.updatedAt = call.now.micros ∧ obj.updatedBy = call.actor := by
  rcases (updateObject_eq_ok.mp h).2 with ⟨existing, hexisting, hvalid⟩
  rcases RecordClass.modelValidate_some hexisting with ⟨hid, _⟩
  rcases RecordClass.modelValidate_some hvalid with ⟨hid', _, hupdated, _, hactor, _⟩
  refine ⟨hid'.trans hid, ?_, hactor⟩
  rw [requireUtcSeconds_micros] at hupdated
  exact (Option.some.inj hupdated).symm

/-- A field that the call names has the validated value of the call. -/
theorem updateObject_named (hkeys : rejectKeys C call.userFields = .ok ())
    (h : updateObject C P call stored = .ok obj) {a : AttributeDefinition}
    (ha : a ∈ C.attributes) {v : Value}
    (hv : call.userFields.lookup a.nameSnake = some v) :
    validateField P a v = some (obj.fields a.nameSnake) := by
  rcases (updateObject_eq_ok.mp h).2 with ⟨existing, _, hvalid⟩
  have hfield := RecordClass.modelValidate_field hvalid ha
  have hmerged : mergedFields C P existing call.userFields a.nameSnake = v := by
    rw [mergedFields, if_neg (rejectKeys_eq_ok hkeys hv), hv]
    rfl
  rw [← hmerged]
  exact hfield

/-- A field that the call does not name has the validated value of the row read. -/
theorem updateObject_unnamed (h : updateObject C P call stored = .ok obj)
    {a : AttributeDefinition} (ha : a ∈ C.attributes)
    (hv : call.userFields.lookup a.nameSnake = none) :
    validateField P a (stored.fields a.nameSnake) = some (obj.fields a.nameSnake) := by
  rcases (updateObject_eq_ok.mp h).2 with ⟨existing, hexisting, hvalid⟩
  have hread := RecordClass.modelValidate_field hexisting ha
  have hfield : validateField P a
      (mergedFields C P existing call.userFields a.nameSnake) =
        some (obj.fields a.nameSnake) := RecordClass.modelValidate_field hvalid ha
  have hsame : validateField P a
      (mergedFields C P existing call.userFields a.nameSnake) =
        some (existing.fields a.nameSnake) := by
    unfold mergedFields
    split
    · exact validateField_idem hread
    · rw [hv, Option.getD_none]
      exact validateField_dump hread
  rw [hread, ← hsame, hfield]

/-- Every field of the instance is valid as it is. -/
theorem updateObject_valid (h : updateObject C P call stored = .ok obj)
    {a : AttributeDefinition} (ha : a ∈ C.attributes) :
    validateField P a (obj.fields a.nameSnake) = some (obj.fields a.nameSnake) := by
  rcases (updateObject_eq_ok.mp h).2 with ⟨existing, _, hvalid⟩
  exact validateField_idem (RecordClass.modelValidate_field hvalid ha)

/-- An update goes through when the row is valid and each named value is. -/
theorem exists_updateObject {existing : Row}
    (hkeys : ∀ e ∈ call.userFields, e.1 ∈ C.userColumns)
    (hexisting : C.modelValidate P stored = some existing)
    (hnamed : ∀ a ∈ C.attributes, ∀ v, call.userFields.lookup a.nameSnake = some v →
      (validateField P a v).isSome = true) :
    ∃ obj, updateObject C P call stored = .ok obj := by
  rcases RecordClass.modelValidate_some hexisting with ⟨_, hcreated, _⟩
  have hvalid : ∃ obj, C.modelValidate P
      { existing with
        updatedAt := call.now.micros
        updatedBy := call.actor
        fields := mergedFields C P existing call.userFields } = some obj := by
    apply RecordClass.exists_modelValidate
    · rw [requireUtcSeconds_idem hcreated]
      rfl
    · rw [requireUtcSeconds_micros]
      rfl
    · intro a ha
      have hread := RecordClass.modelValidate_field hexisting ha
      change (validateField P a (mergedFields C P existing call.userFields
        a.nameSnake)).isSome = true
      unfold mergedFields
      split
      · rw [validateField_idem hread]
        rfl
      · cases hv : call.userFields.lookup a.nameSnake with
        | none =>
            rw [Option.getD_none, validateField_dump hread]
            rfl
        | some v => exact hnamed a ha v hv
  rcases hvalid with ⟨obj, hobj⟩
  exact ⟨obj, updateObject_eq_ok.mpr ⟨hkeys, existing, hexisting, hobj⟩⟩

/-- The row that an update has written is valid. -/
theorem exists_modelValidate_set
    (hobject : updateObject C P call stored = .ok obj) :
    ∃ again, C.modelValidate P (stored.set C obj) = some again := by
  rcases (updateObject_eq_ok.mp hobject).2 with ⟨existing, hexisting, _⟩
  rcases RecordClass.modelValidate_some hexisting with ⟨_, hcreated, _⟩
  apply RecordClass.exists_modelValidate
  · change (requireUtcSeconds stored.createdAt).isSome = true
    rw [hcreated]
    rfl
  · change (requireUtcSeconds obj.updatedAt).isSome = true
    rw [(updateObject_stamps hobject).2.1, requireUtcSeconds_micros]
    rfl
  · intro a ha
    rw [Row.set_field ha, updateObject_valid hobject ha]
    rfl

end Updates

end Untangled.Records
