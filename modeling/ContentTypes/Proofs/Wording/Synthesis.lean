import ContentTypes.Proofs.Synthesis.Run
import ContentTypes.Proofs.Wording.Model

namespace ContentTypes

def Property.undocumented (property : Property) : Property := { property with docs := .empty }

def DeclarationKind.undocumented : DeclarationKind → DeclarationKind
  | .record properties => .record (properties.map Property.undocumented)
  | .alias params ty => .alias params ty

-- All of a declaration but its docs and those of its properties.
def Declaration.undocumented (declaration : Declaration) : Declaration :=
  { declaration with docs := .empty, kind := declaration.kind.undocumented }

-- The words that a path gives to names.
def Path.words (path : Path) : List String := path.flatMap Step.words

theorem Path.words_concat (path : Path) (step : Step) :
    (path ++ [step]).words = path.words ++ step.words := by
  simp [words]

-- A path that differs in the text of its steps only.
theorem Path.words_extend {path other : Path} (hp : other.words = path.words) {step same : Step}
    (hs : same.words = step.words) : (other ++ [same]).words = (path ++ [step]).words := by
  rw [words_concat, words_concat, hp, hs]

theorem Naming.declarationName_congr {path other : Path} (hp : other.words = path.words)
    (suffix : List String) : declarationName other suffix = declarationName path suffix := by
  simp only [Path.words] at hp
  rw [declarationName, declarationName, hp]

namespace Synthesis

open Naming (run declarationName declarationName_congr)

mutual

theorem sharedNames_wordless : (field : Field) → sharedNames field.wordless = sharedNames field
  | .group _ ⟨fields⟩ _ => by
      rw [Field.wordless, sharedNames, sharedNames, sharedNamesOfFields_wordless fields]
  | .slices _ ⟨choices⟩ => by
      rw [Field.wordless, sharedNames, sharedNames, sharedNamesOfChoices_wordless choices]
  | .plain _ _ | .image _ | .integration _ | .link _ | .richText _ | .select _ | .unknown _ _ => rfl

theorem sharedNamesOfFields_wordless : (fields : List (String × Field)) →
    sharedNamesOfFields (Field.wordlessAll fields) = sharedNamesOfFields fields
  | [] => rfl
  | (id, field) :: rest => by
      rw [Field.wordlessAll, sharedNamesOfFields, sharedNamesOfFields, sharedNames_wordless field,
        sharedNamesOfFields_wordless rest]

theorem sharedNamesOfChoices_wordless : (choices : List (String × SliceChoice)) →
    sharedNamesOfChoices (SliceChoice.wordlessAll choices) = sharedNamesOfChoices choices
  | [] => rfl
  | (id, choice) :: rest => by
      rw [SliceChoice.wordlessAll, sharedNamesOfChoices, sharedNamesOfChoices,
        sharedNamesOfChoice_wordless id choice, sharedNamesOfChoices_wordless rest]

theorem sharedNamesOfChoice_wordless (id : String) : (choice : SliceChoice) →
    sharedNamesOfChoice id choice.wordless = sharedNamesOfChoice id choice
  | .shared | .unknown => rfl
  | .slice _ _ ⟨nonRepeat⟩ ⟨repeated⟩ => by
      rw [SliceChoice.wordless, sharedNamesOfChoice, sharedNamesOfChoice,
        sharedNamesOfFields_wordless nonRepeat, sharedNamesOfFields_wordless repeated]

end

-- Two results of synthesis: the declarations are the same but for their docs, the names that are
-- taken are the same, and the rest is the same in the given sense.
structure Alike {α : Type} (same : α → α → Prop)
    (first second : (α × List Declaration) × NameTable) : Prop where
  own : same first.1.1 second.1.1
  declared : first.1.2.map Declaration.undocumented = second.1.2.map Declaration.undocumented
  table : first.2 = second.2

-- The properties of a field set, too, are the same but for their docs.
abbrev AlikeInside (first second : (List Property × List Declaration) × NameTable) : Prop :=
  Alike (fun properties others =>
    properties.map Property.undocumented = others.map Property.undocumented) first second

-- A field on its own, seen as a field set.
def gathered (result : Synthesis × NameTable) : (List Property × List Declaration) × NameTable :=
  ((result.1.property.toList, result.1.declarations), result.2)

-- Wherever these fields stand, they are synthesized alike with their text and without.
def Wordless (fields : List (String × Field)) : Prop :=
  ∀ {path other : Path}, other.words = path.words → ∀ table,
    AlikeInside (run (ofFields other (Field.wordlessAll fields)) table)
      (run (ofFields path fields) table)

theorem undocumented_recordFirst {first second : List Property × List Declaration}
    {before after : NameTable} (h : AlikeInside (first, before) (second, after)) (name : String)
    (docs others : Docs) :
    (recordFirst name docs first).map Declaration.undocumented =
      (recordFirst name others second).map Declaration.undocumented := by
  have hown : first.1.map Property.undocumented = second.1.map Property.undocumented := h.own
  have hdeclared : first.2.map Declaration.undocumented = second.2.map Declaration.undocumented :=
    h.declared
  simp only [recordFirst, List.map_cons, hdeclared, Declaration.undocumented, Declaration.withDocs,
    Declaration.ofRecord, DeclarationKind.undocumented, hown]

variable {path other : Path}

theorem alike_role (hp : other.words = path.words) (role : Role) (lead : String) (emptyTy : Ty)
    {fields : FieldSet} (ih : Wordless fields.entries) (table : NameTable) :
    Alike Eq (run (ofRole other role lead emptyTy fields.wordless) table)
      (run (ofRole path role lead emptyTy fields) table) := by
  obtain ⟨_ | ⟨⟨id, field⟩, rest⟩⟩ := fields
  · exact ⟨rfl, rfl, rfl⟩
  · have hinside : (other ++ [.role role] : Path).words = (path ++ [.role role] : Path).words :=
      Path.words_extend hp rfl
    have hinner := ih hinside
      (table.taking [table.free (declarationName (path ++ [.role role]) [])])
    rw [FieldSet.wordless_eq, Field.wordlessAll, run_ofRole_cons, run_ofRole_cons]
    simp only [declarationName_congr hinside]
    exact ⟨rfl, undocumented_recordFirst hinner _ _ _, hinner.table⟩

-- The id of a slice is the one of the innermost step.
theorem alike_variant (hp : other.words = path.words)
    (hid : other.getLast?.map Step.id = path.getLast?.map Step.id) (libraryName : String)
    (docs others : Docs) {primary items : FieldSet} (hprimary : Wordless primary.entries)
    (hitems : Wordless items.entries) (table : NameTable) :
    Alike Eq (run (ofVariant other libraryName others primary.wordless items.wordless) table)
      (run (ofVariant path libraryName docs primary items) table) := by
  have hcontent := alike_role hp .primary "Primary content in" emptyRecordTy hprimary
    (table.taking [table.free (declarationName path [])])
  have hrepeated := alike_role hp .items "Item in" .never hitems
    (run (ofRole path .primary "Primary content in" emptyRecordTy primary)
      (table.taking [table.free (declarationName path [])])).2
  rw [run_ofVariant, run_ofVariant, declarationName_congr hp]
  simp only [hcontent.table]
  refine ⟨rfl, ?_, hrepeated.table⟩
  simp only [List.map_append, hcontent.declared, hrepeated.declared, hcontent.own, hrepeated.own,
    variantAlias, hid]
  rfl

mutual

theorem alike_ofField {path other : Path} (hp : other.words = path.words) (id : String) :
    (field : Field) → (table : NameTable) →
    AlikeInside (gathered (run (ofField other id field.wordless) table))
      (gathered (run (ofField path id field) table))
  | .group label ⟨fields⟩ repeats, table => by
      have hinside : (other ++ [.field id (.group none ⟨Field.wordlessAll fields⟩ repeats)] :
          Path).words = (path ++ [.field id (.group label ⟨fields⟩ repeats)] : Path).words :=
        Path.words_extend hp rfl
      have hinner := alike_ofFields fields hinside
        (table.taking [table.free (declarationName
          (path ++ [.field id (.group label ⟨fields⟩ repeats)]) ["Item"])])
      rw [Field.wordless, run_group, run_group]
      simp only [declarationName_congr hinside]
      exact ⟨rfl, undocumented_recordFirst hinner _ _ _, hinner.table⟩
  | .slices fieldset ⟨choices⟩, table => by
      have hinside : (other ++ [.field id (.slices none ⟨SliceChoice.wordlessAll choices⟩)] :
          Path).words = (path ++ [.field id (.slices fieldset ⟨choices⟩)] : Path).words :=
        Path.words_extend hp rfl
      have hinner := alike_ofChoices hinside id choices
        (table.taking [table.free (declarationName
          (path ++ [.field id (.slices fieldset ⟨choices⟩)]) ["Slice"])])
      rw [Field.wordless, run_slices, run_slices]
      simp only [declarationName_congr hinside]
      refine ⟨rfl, ?_, hinner.table⟩
      simp only [gathered, List.map_append, hinner.declared, hinner.own]
      rfl
  | .plain kind caption, table => by
      cases kind <;> exact ⟨rfl, rfl, rfl⟩
  | .image _, table | .integration _, table | .link _, table | .richText _, table
  | .select _, table | .unknown _ _, table => ⟨rfl, rfl, rfl⟩

theorem alike_ofFields : (fields : List (String × Field)) → Wordless fields
  | [], _, _, _, _ => ⟨rfl, rfl, rfl⟩
  | (id, field) :: rest, path, other, hp, table => by
      have hone := alike_ofField hp id field table
      have hmore := alike_ofFields rest hp (run (ofField path id field) table).2
      have htable : (run (ofField other id field.wordless) table).2 =
        (run (ofField path id field) table).2 := hone.table
      rw [Field.wordlessAll, run_ofFields_cons, run_ofFields_cons]
      simp only [htable]
      refine ⟨?_, ?_, hmore.table⟩
      · rw [List.map_append, List.map_append, hmore.own]
        exact congrArg (· ++ _) hone.own
      · rw [List.map_append, List.map_append, hmore.declared]
        exact congrArg (· ++ _) hone.declared

theorem alike_ofChoices {path other : Path} (hp : other.words = path.words) (zone : String) :
    (choices : List (String × SliceChoice)) → (table : NameTable) →
    Alike Eq (run (ofChoices other zone (SliceChoice.wordlessAll choices)) table)
      (run (ofChoices path zone choices) table)
  | [], table => ⟨rfl, rfl, rfl⟩
  | (id, choice) :: rest, table => by
      have hone := alike_ofChoice hp zone id choice table
      have hmore := alike_ofChoices hp zone rest (run (ofChoice path zone id choice) table).2
      rw [SliceChoice.wordlessAll, run_ofChoices_cons, run_ofChoices_cons]
      simp only [hone.table]
      refine ⟨?_, ?_, hmore.table⟩
      · simp only [hone.own, hmore.own]
      · rw [List.map_append, List.map_append, hone.declared, hmore.declared]

theorem alike_ofChoice {path other : Path} (hp : other.words = path.words) (zone id : String) :
    (choice : SliceChoice) → (table : NameTable) →
    Alike Eq (run (ofChoice other zone id choice.wordless) table)
      (run (ofChoice path zone id choice) table)
  | .shared, table | .unknown, table => ⟨rfl, rfl, rfl⟩
  | .slice fieldset description ⟨nonRepeat⟩ ⟨repeated⟩, table => by
      have hinside : (other ++ [.choice id (.slice none none ⟨Field.wordlessAll nonRepeat⟩
            ⟨Field.wordlessAll repeated⟩)] : Path).words =
          (path ++ [.choice id (.slice fieldset description ⟨nonRepeat⟩ ⟨repeated⟩)] :
            Path).words :=
        Path.words_extend hp rfl
      have hvariant := alike_variant hinside (by simp [Step.id]) "Slice" .empty .empty
        (alike_ofFields nonRepeat) (alike_ofFields repeated) table
      rw [FieldSet.wordless_eq, FieldSet.wordless_eq] at hvariant
      rw [SliceChoice.wordless, run_slice, run_slice]
      refine ⟨?_, hvariant.declared, hvariant.table⟩
      simp only [hvariant.own]

end

end Synthesis

end ContentTypes
