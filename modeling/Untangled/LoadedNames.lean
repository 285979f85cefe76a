import Untangled.DefinitionSets

/-!
# Loaded names

The names of loaded classes and attributes are in snake case, which is all that the
loader asks of them.
-/

namespace Untangled.Mapping

open PythonText

variable {R : Scalars}

theorem isSnakeCase_ne_empty
    {R : CharRules} {name : String}
    (h : isSnakeCase R name = true) :
    name ≠ "" := by
  intro hempty
  rw [hempty] at h
  simp [isSnakeCase] at h

theorem parseAttributes_snake
    {entries : Entries} {seen result : List AttributeDefinition}
    (hseen : ∀ a ∈ seen, isSnakeCase R.toCharRules a.nameSnake = true)
    (h : parseAttributes R entries seen = .ok result) :
    ∀ a ∈ result, isSnakeCase R.toCharRules a.nameSnake = true := by
  induction entries generalizing seen with
  | nil =>
      cases h
      exact hseen
  | cons entry entries ih =>
      rcases parseAttributes_cons h with ⟨name, spec, a, hsnake, _, _, ha, hrest⟩
      have hname : isSnakeCase R.toCharRules a.nameSnake = true := by
        rw [(parseAttribute_valid ha).2]
        exact hsnake
      exact ih (List.forall_mem_append.mpr ⟨hseen, List.forall_mem_singleton.mpr hname⟩) hrest

theorem parseAttributeMap_snake
    {raw : Option Yaml} {result : List AttributeDefinition}
    (h : parseAttributeMap R raw = .ok result) :
    ∀ a ∈ result, isSnakeCase R.toCharRules a.nameSnake = true := by
  unfold parseAttributeMap at h
  split at h
  · cases h
    simp
  · cases h
    simp
  · exact parseAttributes_snake (by simp) h
  · cases h

/-- The class and its attributes have names in snake case. -/
structure SnakeNames (R : CharRules) (d : ClassDefinition) : Prop where
  ofClass : isSnakeCase R d.nameSnake = true
  ofAttributes : ∀ a ∈ d.attributes, isSnakeCase R a.nameSnake = true

theorem loadDefinition_snake
    {file : DefinitionFile} {d : ClassDefinition}
    (h : loadDefinition R file = .ok d) :
    SnakeNames R.toCharRules d := by
  unfold loadDefinition at h
  split at h
  · rcases bind_eq_ok.mp h with ⟨name, _, h⟩
    rcases bind_eq_ok.mp h with ⟨_, hsnake, h⟩
    rcases bind_eq_ok.mp h with ⟨displayName, _, h⟩
    rcases bind_eq_ok.mp h with ⟨description, _, h⟩
    rcases bind_eq_ok.mp h with ⟨attributes, hattributes, h⟩
    rcases bind_eq_ok.mp h with ⟨_, _, h⟩
    rcases bind_eq_ok.mp h with ⟨displayAttribute, _, h⟩
    rcases bind_eq_ok.mp h with ⟨isPublic, _, h⟩
    rcases bind_eq_ok.mp h with ⟨permissions, _, h⟩
    rcases bind_eq_ok.mp h with ⟨_, _, h⟩
    rcases bind_eq_ok.mp h with ⟨checkConstraints, _, h⟩
    rcases bind_eq_ok.mp h with ⟨uniqueConstraints, _, h⟩
    rw [requireSnake, require_eq_ok] at hsnake
    cases h
    exact ⟨hsnake, parseAttributeMap_snake hattributes⟩
  · cases h
  · cases h

theorem loadDefinitions_snake
    {directory : Option (List DefinitionFile)} {definitions : List ClassDefinition}
    (h : loadDefinitions R directory = .ok definitions) :
    ∀ d ∈ definitions, SnakeNames R.toCharRules d := by
  unfold loadDefinitions at h
  split at h
  · cases h
  · split at h
    · cases h
    · rcases bind_eq_ok.mp h with ⟨loaded, hloaded, h⟩
      rcases bind_eq_ok.mp h with ⟨_, _, h⟩
      rcases bind_eq_ok.mp h with ⟨_, _, h⟩
      cases h
      intro d hd
      rcases mapM_eq_ok hloaded d hd with ⟨file, _, hfile⟩
      exact loadDefinition_snake hfile

end Untangled.Mapping
