import ContentTypes.Proofs.Reading.Results
import ContentTypes.Proofs.Wording.Synthesis

namespace ContentTypes

-- Two steps that neither names nor docs tell apart.
structure Step.Interchangeable (step other : Step) : Prop where
  words : other.words = step.words
  id : other.id = step.id
  phrase : other.phrase = step.phrase
  connective : other.connective = step.connective
  apiId : other.apiId = step.apiId

theorem Step.Interchangeable.refl (step : Step) : step.Interchangeable step :=
  ⟨rfl, rfl, rfl, rfl, rfl⟩

theorem Step.interchangeable_customType {model other : CustomType} (hid : other.id = model.id)
    (hlabel : other.displayLabel = model.displayLabel) :
    (customType model).Interchangeable (customType other) where
  words := by simp only [words, hid]
  id := hid
  phrase := by simp only [phrase, label, noun, hlabel]
  connective := rfl
  apiId := hid

def Path.Interchangeable (path other : Path) : Prop := List.Forall₂ Step.Interchangeable path other

namespace Path.Interchangeable

variable {path other : Path}

theorem extend (h : path.Interchangeable other) (step : Step) :
    Path.Interchangeable (path ++ [step]) (other ++ [step]) :=
  List.rel_append h (.cons (.refl step) .nil)

theorem words_eq (h : path.Interchangeable other) : other.words = path.words := by
  induction h with
  | nil => rfl
  | cons hstep _ ih =>
      simp only [Path.words, List.flatMap_cons, hstep.words] at ih ⊢
      rw [ih]

theorem lastId_eq (h : path.Interchangeable other) :
    other.getLast?.map Step.id = path.getLast?.map Step.id := by
  rw [← List.getLast?_map, ← List.getLast?_map]
  have hids : other.map Step.id = path.map Step.id :=
    Reading.map_eq_of_forall₂ (fun _ _ hstep => hstep.id) h
  rw [hids]

theorem apiIdPath_eq (h : path.Interchangeable other) (id : String) :
    other.apiIdPath id = path.apiIdPath id := by
  have hids : other.map Step.apiId = path.map Step.apiId :=
    Reading.map_eq_of_forall₂ (fun _ _ hstep => hstep.apiId) h
  rw [Path.apiIdPath, Path.apiIdPath, hids]

theorem describeOutward_eq {steps others : List Step}
    (h : List.Forall₂ Step.Interchangeable steps others) :
    describeOutward others = describeOutward steps := by
  induction h with
  | nil => rfl
  | @cons step other outer outer' hstep houter ih =>
      cases houter with
      | nil => exact hstep.phrase
      | cons _ _ =>
          rw [describeOutward_cons_cons, describeOutward_cons_cons, hstep.phrase,
            hstep.connective, ih]

theorem describe_eq (h : path.Interchangeable other) : other.describe = path.describe :=
  describeOutward_eq (List.forall₂_reverse_iff.mpr h)

theorem docs_eq (h : path.Interchangeable other) (id : String) (field : Field) :
    Docs.ofField other id field = Docs.ofField path id field := by
  rw [Docs.ofField, Docs.ofField, h.describe_eq, h.apiIdPath_eq]

theorem position_eq (h : path.Interchangeable other) (lead : String) :
    Docs.ofPosition lead other = Docs.ofPosition lead path := by
  rw [Docs.ofPosition, Docs.ofPosition, h.describe_eq]

theorem declarationName_eq (h : path.Interchangeable other) (suffix : List String) :
    Naming.declarationName other suffix = Naming.declarationName path suffix :=
  Naming.declarationName_congr h.words_eq suffix

end Path.Interchangeable

namespace Synthesis

open Naming (run)

variable {path other : Path}

-- These fields are synthesized the same at paths that cannot be told apart.
def Placeless (fields : List (String × Field)) : Prop :=
  ∀ {path other : Path}, path.Interchangeable other → ∀ table,
    run (ofFields other fields) table = run (ofFields path fields) table

theorem scalar_interchange (hp : path.Interchangeable other) (id : String) (field : Field)
    (ty : Ty) : scalar other id field ty = scalar path id field ty := by
  rw [scalar, scalar, hp.docs_eq]

theorem role_interchange (hp : path.Interchangeable other) (role : Role) (lead : String)
    (emptyTy : Ty) {fields : FieldSet} (ih : Placeless fields.entries) (table : NameTable) :
    run (ofRole other role lead emptyTy fields) table =
      run (ofRole path role lead emptyTy fields) table := by
  obtain ⟨_ | ⟨first, rest⟩⟩ := fields
  · rfl
  · have hinside := hp.extend (.role role)
    rw [run_ofRole_cons, run_ofRole_cons]
    simp only [hinside.declarationName_eq, hp.position_eq, ih hinside]

theorem variant_interchange (hp : path.Interchangeable other) (libraryName : String) (docs : Docs)
    (primary items : FieldSet) (hprimary : Placeless primary.entries)
    (hitems : Placeless items.entries) (table : NameTable) :
    run (ofVariant other libraryName docs primary items) table =
      run (ofVariant path libraryName docs primary items) table := by
  have hcontent := role_interchange hp .primary "Primary content in" emptyRecordTy hprimary
  have hrepeated := role_interchange hp .items "Item in" .never hitems
  rw [run_ofVariant, run_ofVariant]
  simp only [hp.declarationName_eq, hcontent, hrepeated, variantAlias, hp.lastId_eq]

mutual

theorem field_interchange {path other : Path} (hp : path.Interchangeable other) (id : String) :
    (field : Field) → (table : NameTable) →
    run (ofField other id field) table = run (ofField path id field) table
  | .group label ⟨fields⟩ repeats, table => by
      have hinside := hp.extend (.field id (.group label ⟨fields⟩ repeats))
      rw [run_group, run_group]
      simp only [hinside.declarationName_eq, hinside.position_eq, hp.docs_eq,
        fields_interchange fields hinside]
  | .slices fieldset ⟨choices⟩, table => by
      have hinside := hp.extend (.field id (.slices fieldset ⟨choices⟩))
      rw [run_slices, run_slices]
      simp only [hinside.declarationName_eq, zoneAlias, hinside.position_eq, hp.docs_eq,
        choices_interchange hinside id choices]
  | .plain kind caption, table => by
      rw [run_plain, run_plain]
      simp only [scalar_interchange hp]
  | .image config, table => congrArg (·, table) (scalar_interchange hp id _ (imageTy config))
  | .integration _, table => congrArg (·, table) (scalar_interchange hp id _ _)
  | .link config, table => congrArg (·, table) (scalar_interchange hp id _ (linkTy config))
  | .richText config, table => congrArg (·, table) (scalar_interchange hp id _ (richTextTy config))
  | .select config, table => congrArg (·, table) (scalar_interchange hp id _ (selectTy config))
  | .unknown _ _, table => congrArg (·, table) (scalar_interchange hp id _ .unknown)

theorem fields_interchange : (fields : List (String × Field)) → Placeless fields
  | [], _, _, _, _ => rfl
  | (id, field) :: rest, path, other, hp, table => by
      rw [run_ofFields_cons, run_ofFields_cons]
      simp only [field_interchange hp id field, fields_interchange rest hp]

theorem choices_interchange {path other : Path} (hp : path.Interchangeable other) (zone : String) :
    (choices : List (String × SliceChoice)) → (table : NameTable) →
    run (ofChoices other zone choices) table = run (ofChoices path zone choices) table
  | [], _ => rfl
  | (id, choice) :: rest, table => by
      rw [run_ofChoices_cons, run_ofChoices_cons]
      simp only [choice_interchange hp zone id choice, choices_interchange hp zone rest]

theorem choice_interchange {path other : Path} (hp : path.Interchangeable other)
    (zone id : String) : (choice : SliceChoice) → (table : NameTable) →
    run (ofChoice other zone id choice) table = run (ofChoice path zone id choice) table
  | .shared, _ | .unknown, _ => rfl
  | .slice fieldset description ⟨nonRepeat⟩ ⟨repeated⟩, table => by
      have hinside := hp.extend (.choice id (.slice fieldset description ⟨nonRepeat⟩ ⟨repeated⟩))
      have hvariant := variant_interchange hinside "Slice" .empty ⟨nonRepeat⟩ ⟨repeated⟩
        (fields_interchange nonRepeat) (fields_interchange repeated)
      rw [run_slice, run_slice]
      simp only [hvariant]

end

end Synthesis

end ContentTypes
