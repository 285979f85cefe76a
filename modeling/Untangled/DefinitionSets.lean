import Untangled.ClassDefinitions

/-!
# What loading accepts

The facts about definitions that the loader has checked when it returns them.
-/

namespace Untangled.Mapping

open PythonText Untangled.Schema

variable {R : Scalars}

section Except

variable {ε α β : Type}

theorem bind_eq_ok {x : Except ε α} {f : α → Except ε β} {b : β} :
    x >>= f = .ok b ↔ ∃ a, x = .ok a ∧ f a = .ok b := by
  cases x with
  | error e =>
      constructor
      · intro h
        cases h
      · rintro ⟨a, ha, _⟩
        cases ha
  | ok a =>
      constructor
      · intro h
        exact ⟨a, rfl, h⟩
      · rintro ⟨a', ha, h⟩
        cases ha
        exact h

theorem mapM_eq_ok {f : α → Except ε β} {items : List α} {results : List β}
    (h : items.mapM f = .ok results) : ∀ r ∈ results, ∃ a ∈ items, f a = .ok r := by
  induction items generalizing results with
  | nil =>
      rw [List.mapM_nil] at h
      cases h
      simp
  | cons a items ih =>
      rw [List.mapM_cons] at h
      rcases bind_eq_ok.mp h with ⟨r, hr, h⟩
      rcases bind_eq_ok.mp h with ⟨rest, hrest, h⟩
      cases h
      intro r' hr'
      rcases List.mem_cons.mp hr' with rfl | hr'
      · exact ⟨a, .head _, hr⟩
      · rcases ih hrest r' hr' with ⟨a', ha', hok⟩
        exact ⟨a', .tail _ ha', hok⟩

end Except

@[simp] theorem require_eq_ok {p : Prop} [Decidable p] {message : String} {u : Unit} :
    require p message = .ok u ↔ p := by
  unfold require
  split
  · simp_all [pure, Except.pure]
  · simp_all [throw, throwThe, MonadExceptOf.throw]

/-! ## Attributes -/

structure AttributeDefinition.Valid (R : Scalars) (a : AttributeDefinition) : Prop where
  supported : a.typeName ∈ supportedTypes
  friendly : a.typeName = "friendly_id" →
    ∃ p, a.idPrefix = some p ∧ R.isAlnumText p = true

theorem parseType_supported {name : String} {spec : Entries} {typeName : String}
    (h : parseType name spec = .ok typeName) : typeName ∈ supportedTypes := by
  unfold parseType at h
  split at h
  · split at h
    · rename_i hmem
      cases h
      exact hmem
    · cases h
  · cases h

theorem parsePrefix_alnum {name : String} {spec : Entries} {p : String}
    (h : parsePrefix R name spec = .ok p) : R.isAlnumText p = true := by
  unfold parsePrefix at h
  split at h
  · split at h
    · cases h
    · split at h
      · rename_i halnum
        cases h
        exact halnum
      · cases h
  · cases h

/-- What is read of an attribute, of a `friendly_id` and of the other types. -/
theorem parseAttribute_ok {name : String} {spec : Entries} {seen : Bool}
    {a : AttributeDefinition} (h : parseAttribute R name spec seen = .ok a) :
    a.nameSnake = name ∧ parseType name spec = .ok a.typeName ∧
      (a.typeName = "friendly_id" ∧ a.references = none ∧
          (∃ p, a.idPrefix = some p ∧ parsePrefix R name spec = .ok p) ∨
        a.typeName ≠ "friendly_id" ∧
          parseReferences R name a.typeName spec = .ok a.references) := by
  unfold parseAttribute at h
  rcases bind_eq_ok.mp h with ⟨typeName, htype, h⟩
  rcases bind_eq_ok.mp h with ⟨required, _, h⟩
  rcases bind_eq_ok.mp h with ⟨references, hreferences, h⟩
  rcases bind_eq_ok.mp h with ⟨unique, _, h⟩
  rcases bind_eq_ok.mp h with ⟨createDefault, _, h⟩
  rcases bind_eq_ok.mp h with ⟨⟨minValue, maxValue⟩, _, h⟩
  dsimp only at h
  split at h
  · rename_i hfriendly
    rcases bind_eq_ok.mp h with ⟨_, _, h⟩
    rcases bind_eq_ok.mp h with ⟨_, hnone, h⟩
    rcases bind_eq_ok.mp h with ⟨_, _, h⟩
    rcases bind_eq_ok.mp h with ⟨p, hp, h⟩
    rcases bind_eq_ok.mp h with ⟨_, _, h⟩
    rcases bind_eq_ok.mp h with ⟨_, _, h⟩
    rcases bind_eq_ok.mp h with ⟨_, _, h⟩
    cases h
    rw [require_eq_ok] at hnone
    exact ⟨rfl, htype, Or.inl ⟨hfriendly, hnone, p, rfl, hp⟩⟩
  · rename_i hnot
    rcases bind_eq_ok.mp h with ⟨_, _, h⟩
    rcases bind_eq_ok.mp h with ⟨_, _, h⟩
    cases h
    exact ⟨rfl, htype, Or.inr ⟨hnot, hreferences⟩⟩

theorem parseAttribute_valid {name : String} {spec : Entries} {seen : Bool}
    {a : AttributeDefinition} (h : parseAttribute R name spec seen = .ok a) :
    a.Valid R ∧ a.nameSnake = name := by
  rcases parseAttribute_ok h with ⟨hname, htype, hkind⟩
  refine ⟨⟨parseType_supported htype, fun hfriendly => ?_⟩, hname⟩
  rcases hkind with ⟨_, _, p, hprefix, hp⟩ | ⟨hnot, _⟩
  · exact ⟨p, hprefix, parsePrefix_alnum hp⟩
  · exact absurd hfriendly hnot

/-- What holds of the attributes of a class. -/
structure AttributesValid (R : Scalars) (attributes : List AttributeDefinition) :
    Prop where
  each : ∀ a ∈ attributes, a.Valid R
  names : (attributes.map AttributeDefinition.nameSnake).Nodup
  notSystem : ∀ a ∈ attributes, a.nameSnake ∉ systemFieldNames

/-- What is known of the first attribute where all are read. -/
theorem parseAttributes_cons {entry : Yaml × Yaml} {entries : Entries}
    {seen result : List AttributeDefinition}
    (h : parseAttributes R (entry :: entries) seen = .ok result) :
    ∃ name spec a, isSnakeCase R.toCharRules name = true ∧ name ∉ systemFieldNames ∧
      name ∉ seen.map AttributeDefinition.nameSnake ∧
      parseAttribute R name spec (seen.any fun a => a.typeName = "friendly_id") = .ok a ∧
      parseAttributes R entries (seen ++ [a]) = .ok result := by
  rcases entry with ⟨key, raw⟩
  unfold parseAttributes at h
  split at h
  · rename_i heq
    cases heq
  · rename_i name raw rest heq
    cases heq
    rcases bind_eq_ok.mp h with ⟨_, hsnake, h⟩
    rcases bind_eq_ok.mp h with ⟨_, hsystem, h⟩
    rcases bind_eq_ok.mp h with ⟨_, hnew, h⟩
    rcases bind_eq_ok.mp h with ⟨spec, _, h⟩
    rcases bind_eq_ok.mp h with ⟨a, ha, h⟩
    rw [requireSnake, require_eq_ok] at hsnake
    rw [require_eq_ok] at hsystem hnew
    exact ⟨name, spec, a, hsnake, hsystem, hnew, ha, h⟩
  · cases h

theorem parseAttributes_valid {entries : Entries} {seen result : List AttributeDefinition}
    (hseen : AttributesValid R seen) (h : parseAttributes R entries seen = .ok result) :
    AttributesValid R result := by
  induction entries generalizing seen with
  | nil =>
      cases h
      exact hseen
  | cons entry entries ih =>
      rcases parseAttributes_cons h with ⟨name, spec, a, _, hsystem, hnew, ha, hrest⟩
      rcases parseAttribute_valid ha with ⟨hvalid, hname⟩
      refine ih ⟨?_, ?_, ?_⟩ hrest
      · intro b hb
        rcases List.mem_append.mp hb with hb | hb
        · exact hseen.each b hb
        · rw [List.mem_singleton.mp hb]
          exact hvalid
      · rw [List.map_append, List.map_singleton, hname]
        exact List.Nodup.append hseen.names (List.nodup_singleton _)
          (by simpa using hnew)
      · intro b hb
        rcases List.mem_append.mp hb with hb | hb
        · exact hseen.notSystem b hb
        · rw [List.mem_singleton.mp hb, hname]
          exact hsystem

theorem parseAttributeMap_valid {raw : Option Yaml} {result : List AttributeDefinition}
    (h : parseAttributeMap R raw = .ok result) : AttributesValid R result := by
  have hnil : AttributesValid R [] := ⟨by simp, by simp, by simp⟩
  unfold parseAttributeMap at h
  split at h
  · cases h
    exact hnil
  · cases h
    exact hnil
  · exact parseAttributes_valid hnil h
  · cases h

/-! ## Unique constraints -/

theorem parseUniqueColumns_mem {attrNames : List String} {items : List Yaml}
    {columns result : List String} (hcolumns : ∀ c ∈ columns, c ∈ attrNames)
    (h : parseUniqueColumns R attrNames items columns = .ok result) :
    (∀ c ∈ result, c ∈ attrNames) ∧ columns.length + items.length = result.length := by
  induction items generalizing columns with
  | nil =>
      cases h
      exact ⟨hcolumns, rfl⟩
  | cons item items ih =>
      unfold parseUniqueColumns at h
      split at h
      · rename_i heq
        cases heq
      · rename_i s rest heq
        cases heq
        split at h
        · cases h
        · rcases bind_eq_ok.mp h with ⟨_, _, h⟩
          rcases bind_eq_ok.mp h with ⟨_, hknown, h⟩
          rcases bind_eq_ok.mp h with ⟨_, _, h⟩
          rw [require_eq_ok] at hknown
          have hnext := List.forall_mem_append.mpr
            ⟨hcolumns, List.forall_mem_singleton.mpr hknown⟩
          rcases ih hnext h with ⟨hmem, hlength⟩
          refine ⟨hmem, ?_⟩
          simp only [List.length_append, List.length_cons, List.length_nil] at hlength ⊢
          omega
      · cases h

/-- A unique constraint names at least one attribute, and only attributes. -/
def UniqueColumnsValid (attrNames columns : List String) : Prop :=
  columns ≠ [] ∧ ∀ c ∈ columns, c ∈ attrNames

theorem parseUniqueEntries_valid {attrNames : List String} {items : List Yaml}
    {seen result : List (List String)}
    (hseen : ∀ columns ∈ seen, UniqueColumnsValid attrNames columns)
    (h : parseUniqueEntries R attrNames items seen = .ok result) :
    ∀ columns ∈ result, UniqueColumnsValid attrNames columns := by
  induction items generalizing seen with
  | nil =>
      cases h
      exact hseen
  | cons item items ih =>
      unfold parseUniqueEntries at h
      split at h
      · rename_i heq
        cases heq
      · rename_i entry rest heq
        cases heq
        split at h
        · cases h
        · rename_i hentry
          rcases bind_eq_ok.mp h with ⟨columns, hcolumns, h⟩
          rcases bind_eq_ok.mp h with ⟨_, _, h⟩
          rcases parseUniqueColumns_mem (by simp) hcolumns with ⟨hmem, hlength⟩
          have hne : columns ≠ [] := by
            rintro rfl
            apply hentry
            simpa using hlength
          refine ih ?_ h
          intro other hother
          rcases List.mem_append.mp hother with hother | hother
          · exact hseen other hother
          · rw [List.mem_singleton.mp hother]
            exact ⟨hne, hmem⟩
      · cases h

theorem parseUniqueConstraints_valid {attributes : List AttributeDefinition}
    {raw : Option Yaml} {result : List (List String)}
    (h : parseUniqueConstraints R attributes raw = .ok result) :
    ∀ columns ∈ result,
      UniqueColumnsValid (attributes.map AttributeDefinition.nameSnake) columns := by
  unfold parseUniqueConstraints at h
  split at h
  · cases h
    simp
  · split at h
    · cases h
    · exact parseUniqueEntries_valid (by simp) h
  · cases h

/-! ## Classes and sets of classes -/

structure ClassDefinition.Valid (R : Scalars) (d : ClassDefinition) : Prop where
  attributes : AttributesValid R d.attributes
  uniques : ∀ columns ∈ d.uniqueConstraints,
    UniqueColumnsValid (d.attributes.map AttributeDefinition.nameSnake) columns

theorem loadDefinition_valid {file : DefinitionFile} {d : ClassDefinition}
    (h : loadDefinition R file = .ok d) : d.Valid R := by
  unfold loadDefinition at h
  split at h
  · rcases bind_eq_ok.mp h with ⟨name, _, h⟩
    rcases bind_eq_ok.mp h with ⟨_, _, h⟩
    rcases bind_eq_ok.mp h with ⟨displayName, _, h⟩
    rcases bind_eq_ok.mp h with ⟨description, _, h⟩
    rcases bind_eq_ok.mp h with ⟨attributes, hattributes, h⟩
    rcases bind_eq_ok.mp h with ⟨_, _, h⟩
    rcases bind_eq_ok.mp h with ⟨displayAttribute, _, h⟩
    rcases bind_eq_ok.mp h with ⟨isPublic, _, h⟩
    rcases bind_eq_ok.mp h with ⟨permissions, _, h⟩
    rcases bind_eq_ok.mp h with ⟨_, _, h⟩
    rcases bind_eq_ok.mp h with ⟨checkConstraints, _, h⟩
    rcases bind_eq_ok.mp h with ⟨uniqueConstraints, huniques, h⟩
    cases h
    exact ⟨parseAttributeMap_valid hattributes, parseUniqueConstraints_valid huniques⟩
  · cases h
  · cases h

/-- What loading has checked of a list of definitions. -/
structure ValidSet (R : Scalars) (definitions : List ClassDefinition) : Prop where
  classes : ∀ d ∈ definitions, d.Valid R
  references : ReferencesKnown definitions
  prefixes : (prefixKeys R definitions).Nodup

theorem loadDefinitions_valid {directory : Option (List DefinitionFile)}
    {definitions : List ClassDefinition}
    (h : loadDefinitions R directory = .ok definitions) : ValidSet R definitions := by
  unfold loadDefinitions at h
  split at h
  · cases h
  · split at h
    · cases h
    · rcases bind_eq_ok.mp h with ⟨loaded, hloaded, h⟩
      rcases bind_eq_ok.mp h with ⟨_, hreferences, h⟩
      rcases bind_eq_ok.mp h with ⟨_, hprefixes, h⟩
      rw [require_eq_ok] at hreferences hprefixes
      cases h
      refine ⟨?_, hreferences, hprefixes⟩
      intro d hd
      rcases mapM_eq_ok hloaded d hd with ⟨file, _, hfile⟩
      exact loadDefinition_valid hfile

/-- There is a class `user`. -/
theorem validatePlatformDefinitions_user {definitions : List ClassDefinition}
    (h : validatePlatformDefinitions definitions = .ok ()) :
    "user" ∈ definitions.map ClassDefinition.nameSnake := by
  unfold validatePlatformDefinitions at h
  split at h
  · cases h
  · rename_i hone
    rcases List.exists_mem_of_length_pos (by omega :
      0 < (definitions.filter fun d => d.nameSnake = "user").length) with ⟨d, hd⟩
    rw [List.mem_filter, decide_eq_true_eq] at hd
    exact List.mem_map.mpr ⟨d, hd.1, hd.2⟩
  · cases h

end Untangled.Mapping
