import Untangled.Records

/-!
# Loaded classes

What the loader guarantees of the names, references and display attribute of a class,
as a structure, and the set of classes that an application serves.
-/

namespace Untangled.Mapping

open PythonText Records

/-- A class as the loader gives it. -/
structure LoadedClass extends RecordClass where
  singleUnderscores : ∀ a ∈ attributes, ¬ ['_', '_'] <:+: a.nameSnake.toList
  referencesUuid : ∀ a ∈ attributes, a.references ≠ none → a.typeName = "uuid"
  displayText : ∀ a ∈ displayAttribute, a ∈ attributes ∧ a.typeName = "compact_text"

/-! ## Loading -/

section Loading

variable {R : Scalars}

theorem singleUnderscores_of_isSnakeCase {R : CharRules} {name : String}
    (h : isSnakeCase R name = true) : ¬ ['_', '_'] <:+: name.toList := by
  unfold isSnakeCase at h
  split at h
  · cases h
  · split at h
    · cases h
    · rename_i hother
      simp only [Bool.or_eq_true, decide_eq_true_eq, not_or] at hother
      exact hother.2

theorem parseReferences_uuid {name typeName : String} {spec : Entries} {c : String}
    (h : parseReferences R name typeName spec = .ok (some c)) : typeName = "uuid" := by
  unfold parseReferences at h
  split at h
  · cases h
  · cases h
  · split at h
    · cases h
    · rcases bind_eq_ok.mp h with ⟨_, _, h⟩
      rcases bind_eq_ok.mp h with ⟨_, huuid, _⟩
      rwa [require_eq_ok] at huuid
  · cases h

theorem parseAttribute_references {name : String} {spec : Entries} {seen : Bool}
    {a : AttributeDefinition} (h : parseAttribute R name spec seen = .ok a)
    (hreferences : a.references ≠ none) : a.typeName = "uuid" := by
  rcases parseAttribute_ok h with ⟨_, _, ⟨_, hnone, _⟩ | ⟨_, hparsed⟩⟩
  · exact absurd hnone hreferences
  · cases hfound : a.references with
    | none => exact absurd hfound hreferences
    | some c =>
        rw [hfound] at hparsed
        exact parseReferences_uuid hparsed

/-- What is read of an attribute besides its type. -/
def ReadsPlain (a : AttributeDefinition) : Prop :=
  ¬ ['_', '_'] <:+: a.nameSnake.toList ∧ (a.references ≠ none → a.typeName = "uuid")

theorem parseAttributes_plain {entries : Entries} {seen result : List AttributeDefinition}
    (hseen : ∀ a ∈ seen, ReadsPlain a) (h : parseAttributes R entries seen = .ok result) :
    ∀ a ∈ result, ReadsPlain a := by
  induction entries generalizing seen with
  | nil =>
      cases h
      exact hseen
  | cons entry entries ih =>
      rcases parseAttributes_cons h with ⟨name, spec, a, hsnake, _, _, ha, hrest⟩
      have hname := (parseAttribute_valid ha).2
      have hplain : ReadsPlain a := by
        refine ⟨?_, parseAttribute_references ha⟩
        rw [hname]
        exact singleUnderscores_of_isSnakeCase hsnake
      exact ih (List.forall_mem_append.mpr ⟨hseen, List.forall_mem_singleton.mpr hplain⟩) hrest

theorem parseAttributeMap_plain {raw : Option Yaml} {result : List AttributeDefinition}
    (h : parseAttributeMap R raw = .ok result) : ∀ a ∈ result, ReadsPlain a := by
  unfold parseAttributeMap at h
  split at h
  · cases h
    simp
  · cases h
    simp
  · exact parseAttributes_plain (by simp) h
  · cases h

theorem resolveDisplayAttribute_text {attributes : List AttributeDefinition}
    {raw : Option Yaml} {display : Option AttributeDefinition}
    (h : resolveDisplayAttribute R attributes raw = .ok display) :
    ∀ a ∈ display, a ∈ attributes ∧ a.typeName = "compact_text" := by
  intro a ha
  unfold resolveDisplayAttribute at h
  split at h
  · cases h
    have hfound := List.find?_some ha
    simp only [Bool.and_eq_true, decide_eq_true_eq] at hfound
    exact ⟨List.mem_of_find?_eq_some ha, hfound.2⟩
  · cases h
    cases ha
  · split at h
    · cases h
    · rcases bind_eq_ok.mp h with ⟨_, _, h⟩
      split at h
      · cases h
      · rename_i found hfound
        split at h
        · rename_i htype
          cases h
          cases ha
          exact ⟨List.mem_of_find?_eq_some hfound, htype⟩
        · cases h
  · cases h

theorem exists_loadedClass {file : DefinitionFile} {d : ClassDefinition}
    (h : loadDefinition R file = .ok d) : ∃ C : LoadedClass, C.toClassDefinition = d := by
  have hvalid := loadDefinition_valid h
  unfold loadDefinition at h
  split at h
  · rcases bind_eq_ok.mp h with ⟨name, _, h⟩
    rcases bind_eq_ok.mp h with ⟨_, _, h⟩
    rcases bind_eq_ok.mp h with ⟨displayName, _, h⟩
    rcases bind_eq_ok.mp h with ⟨description, _, h⟩
    rcases bind_eq_ok.mp h with ⟨attributes, hattributes, h⟩
    rcases bind_eq_ok.mp h with ⟨_, _, h⟩
    rcases bind_eq_ok.mp h with ⟨displayAttribute, hdisplay, h⟩
    rcases bind_eq_ok.mp h with ⟨isPublic, _, h⟩
    rcases bind_eq_ok.mp h with ⟨permissions, _, h⟩
    rcases bind_eq_ok.mp h with ⟨_, _, h⟩
    rcases bind_eq_ok.mp h with ⟨checkConstraints, _, h⟩
    rcases bind_eq_ok.mp h with ⟨uniqueConstraints, _, h⟩
    cases h
    have hplain := parseAttributeMap_plain hattributes
    exact ⟨{ RecordClass.ofValid hvalid with
      singleUnderscores := fun a ha => (hplain a ha).1
      referencesUuid := fun a ha => (hplain a ha).2
      displayText := resolveDisplayAttribute_text hdisplay }, rfl⟩
  · cases h
  · cases h

end Loading

/-! ## Sets of classes -/

/-- The classes of an application: references stay among them, and there are users. -/
structure ClassSet where
  classes : List LoadedClass
  references : ∀ C ∈ classes, ∀ a ∈ C.attributes, ∀ c ∈ a.references,
    c ∈ classes.map fun T => T.nameSnake
  user : "user" ∈ classes.map fun T => T.nameSnake

/-- `definitions_by_name`; of two classes with one name the later one. -/
def ClassSet.byName (S : ClassSet) (name : String) : Option LoadedClass :=
  S.classes.reverse.find? fun T => T.nameSnake = name

theorem ClassSet.byName_some {S : ClassSet} {name : String} {T : LoadedClass}
    (h : S.byName name = some T) : T ∈ S.classes ∧ T.nameSnake = name := by
  have hname := List.find?_some h
  exact ⟨List.mem_reverse.mp (List.mem_of_find?_eq_some h), by simpa using hname⟩

theorem ClassSet.exists_byName {S : ClassSet} {name : String}
    (h : name ∈ S.classes.map fun T => T.nameSnake) : ∃ T, S.byName name = some T := by
  rcases List.mem_map.mp h with ⟨T, hT, rfl⟩
  refine Option.isSome_iff_exists.mp ?_
  rw [byName, List.find?_isSome]
  exact ⟨T, List.mem_reverse.mpr hT, by simp⟩

/-- Loaded definitions that the platform accepts are such a set. -/
theorem exists_classSet {R : Scalars} {directory : Option (List DefinitionFile)}
    {definitions : List ClassDefinition} (h : loadDefinitions R directory = .ok definitions)
    (hplatform : validatePlatformDefinitions definitions = .ok ()) :
    ∃ S : ClassSet, (S.classes.map fun C => C.toClassDefinition) = definitions := by
  have hvalid := loadDefinitions_valid h
  have hloaded : ∀ d ∈ definitions, ∃ C : LoadedClass, C.toClassDefinition = d := by
    intro d hd
    unfold loadDefinitions at h
    split at h
    · cases h
    · split at h
      · cases h
      · rcases bind_eq_ok.mp h with ⟨loaded, hloaded, h⟩
        rcases bind_eq_ok.mp h with ⟨_, _, h⟩
        rcases bind_eq_ok.mp h with ⟨_, _, h⟩
        cases h
        rcases mapM_eq_ok hloaded d hd with ⟨file, _, hfile⟩
        exact exists_loadedClass hfile
  have hclasses : ∃ classes : List LoadedClass,
      (classes.map fun C => C.toClassDefinition) = definitions := by
    clear h hplatform hvalid
    induction definitions with
    | nil => exact ⟨[], rfl⟩
    | cons d definitions ih =>
        rcases hloaded d (List.mem_cons_self ..) with ⟨C, rfl⟩
        rcases ih fun d' hd' => hloaded d' (List.mem_cons_of_mem _ hd') with ⟨classes, rfl⟩
        exact ⟨C :: classes, rfl⟩
  rcases hclasses with ⟨classes, rfl⟩
  have hnames : (classes.map fun C => C.toClassDefinition).map ClassDefinition.nameSnake =
      classes.map fun T => T.nameSnake := by
    rw [List.map_map]
    rfl
  have hreferences := hvalid.references
  have huser := validatePlatformDefinitions_user hplatform
  rw [ReferencesKnown, hnames] at hreferences
  rw [hnames] at huser
  exact ⟨⟨classes, fun C hC => hreferences _ (List.mem_map_of_mem hC), huser⟩, rfl⟩

end Untangled.Mapping
