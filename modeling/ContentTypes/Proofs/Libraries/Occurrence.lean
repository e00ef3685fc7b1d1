import ContentTypes.Proofs.Compilation.Names

namespace ContentTypes

namespace Ty

mutual

-- The names of the library types in a type, in order and with repeats.
def libraries : Ty → List String
  | .library name args => name :: librariesOfAll args
  | .named _ args => librariesOfAll args
  | .union members => librariesOfAll members
  | .literal _ | .string | .null | .never | .unknown => []

def librariesOfAll : List Ty → List String
  | [] => []
  | ty :: rest => libraries ty ++ librariesOfAll rest

end

theorem librariesOfAll_eq (tys : List Ty) : librariesOfAll tys = tys.flatMap libraries := by
  induction tys with
  | nil => rfl
  | cons ty rest ih => rw [librariesOfAll, ih, List.flatMap_cons]

@[simp] theorem libraries_library (name : String) (args : List Ty) :
    (library name args).libraries = name :: args.flatMap libraries :=
  congrArg (name :: ·) (librariesOfAll_eq args)

@[simp] theorem libraries_named (name : String) (args : List Ty) :
    (named name args).libraries = args.flatMap libraries :=
  librariesOfAll_eq args

@[simp] theorem libraries_union (members : List Ty) :
    (union members).libraries = members.flatMap libraries :=
  librariesOfAll_eq members

@[simp] theorem libraries_literal (text : String) : (literal text).libraries = [] := rfl

@[simp] theorem libraries_string : string.libraries = [] := rfl

@[simp] theorem libraries_null : null.libraries = [] := rfl

@[simp] theorem libraries_never : never.libraries = [] := rfl

@[simp] theorem libraries_unknown : unknown.libraries = [] := rfl

@[simp] theorem libraries_simplified (name : String) : (simplified name).libraries = [] := by
  simp [simplified]

@[simp] theorem libraries_unionOrNever (members : List Ty) :
    (unionOrNever members).libraries = members.flatMap libraries := by
  cases members with
  | nil => simp [unionOrNever]
  | cons first rest => exact libraries_union (first :: rest)

@[simp] theorem libraries_literalUnion (texts : List String) :
    (literalUnion texts).libraries = [] := by
  simp [literalUnion, List.flatMap_map]

end Ty

def TypeParam.libraries (param : TypeParam) : List String :=
  (param.bound.toList ++ param.default.toList).flatMap Ty.libraries

-- All library types that are written where a declaration is written, its parameters included.
def Declaration.libraries (declaration : Declaration) : List String :=
  match declaration.kind with
  | .record properties => properties.flatMap (·.ty.libraries)
  | .alias params ty => params.flatMap TypeParam.libraries ++ ty.libraries

def Compilation.libraries (compilation : Compilation) : List String :=
  compilation.declarations.flatMap Declaration.libraries

namespace Synthesis

open Naming (run)

-- What a content of fields can bring.
def fieldLibraries : List String :=
  ["BooleanField", "ColorField", "DateField", "EmbedField", "GeoPointField", "NumberField",
    "KeyTextField", "TimestampField", "ImageField", "IntegrationFields", "RelationField",
    "LinkToMediaField", "LinkField", "TitleField", "RichTextField", "SelectField", "GroupField",
    "SliceZone", "Slice"]

-- The library types in some types and in the declarations that come with them.
def drawn (tys : List Ty) (declarations : List Declaration) : List String :=
  tys.flatMap Ty.libraries ++ declarations.flatMap Declaration.libraries

theorem drawn_append (tys more : List Ty) (declarations others : List Declaration) :
    drawn (tys ++ more) (declarations ++ others) ⊆ fieldLibraries ↔
      drawn tys declarations ⊆ fieldLibraries ∧ drawn more others ⊆ fieldLibraries := by
  simp only [drawn, List.flatMap_append, List.append_subset]
  exact and_and_and_comm

def tysOf (properties : List Property) : List Ty := properties.map Property.ty

-- A record holds the types of its properties.
theorem libraries_recordFirst (name : String) (docs : Docs)
    (inner : List Property × List Declaration) :
    (recordFirst name docs inner).flatMap Declaration.libraries = drawn (tysOf inner.1) inner.2 := by
  rw [recordFirst, List.flatMap_cons, drawn, tysOf, List.flatMap_map]
  rfl

theorem libraries_plainTy {kind : PlainKind} {name : String} (h : libraryName? kind = some name) :
    (Ty.library name []).libraries ⊆ fieldLibraries := by
  cases kind <;> cases h <;> simp [fieldLibraries]

theorem libraries_imageTy (config : ImageConfig) : (imageTy config).libraries ⊆ fieldLibraries := by
  unfold imageTy
  split <;> simp [fieldLibraries]

theorem libraries_linkTy (config : LinkConfig) : (linkTy config).libraries ⊆ fieldLibraries := by
  unfold linkTy
  split <;> simp [fieldLibraries]

theorem libraries_richTextTy (config : RichTextConfig) :
    (richTextTy config).libraries ⊆ fieldLibraries := by
  unfold richTextTy
  split <;> simp [fieldLibraries]

theorem libraries_selectTy (config : SelectConfig) :
    (selectTy config).libraries ⊆ fieldLibraries := by
  unfold selectTy
  split <;> simp [fieldLibraries]

theorem libraries_emptyRecordTy : emptyRecordTy.libraries = [] := by
  simp [emptyRecordTy]

theorem libraries_zoneAlias (inside : Path) (name : String) (members : List Ty) :
    (zoneAlias inside name members).libraries = members.flatMap Ty.libraries :=
  Ty.libraries_unionOrNever members

theorem libraries_variantAlias (path : Path) (libraryName : String) (docs : Docs) (name : String)
    (primary items : Ty) :
    (variantAlias path libraryName docs name primary items).libraries =
      libraryName :: (primary.libraries ++ items.libraries) := by
  simp [Declaration.libraries, variantAlias, Declaration.withDocs, Declaration.ofAlias]

-- A field that brings a property and nothing else.
theorem libraries_scalar (path : Path) (id : String) (field : Field) {ty : Ty}
    (ht : ty.libraries ⊆ fieldLibraries) :
    drawn (tysOf (scalar path id field ty).property.toList)
      (scalar path id field ty).declarations ⊆ fieldLibraries := by
  simpa [scalar, drawn, tysOf] using ht

-- A role refers to its record by name, so it brings no more than its fields do.
theorem libraries_role {fields : FieldSet}
    (ih : ∀ inside known, drawn (tysOf (run (ofFields inside fields.entries) known).1.1)
      (run (ofFields inside fields.entries) known).1.2 ⊆ fieldLibraries)
    (path : Path) (role : Role) (lead : String) {emptyTy : Ty} (he : emptyTy.libraries = [])
    (table : NameTable) :
    (run (ofRole path role lead emptyTy fields) table).1.1.libraries = [] ∧
      (run (ofRole path role lead emptyTy fields) table).1.2.flatMap Declaration.libraries ⊆
        fieldLibraries := by
  obtain ⟨_ | ⟨first, rest⟩⟩ := fields
  · rw [run_ofRole_empty]
    exact ⟨he, by simp⟩
  · rw [run_ofRole_cons]
    refine ⟨Ty.libraries_simplified _, ?_⟩
    rw [libraries_recordFirst]
    exact ih _ _

theorem libraries_variant (primary items : FieldSet)
    (hprimary : ∀ inside known, drawn (tysOf (run (ofFields inside primary.entries) known).1.1)
      (run (ofFields inside primary.entries) known).1.2 ⊆ fieldLibraries)
    (hitems : ∀ inside known, drawn (tysOf (run (ofFields inside items.entries) known).1.1)
      (run (ofFields inside items.entries) known).1.2 ⊆ fieldLibraries)
    (path : Path) (libraryName : String) (docs : Docs) (table : NameTable) :
    (run (ofVariant path libraryName docs primary items) table).1.2.flatMap Declaration.libraries ⊆
      libraryName :: fieldLibraries := by
  have hp := libraries_role hprimary path .primary "Primary content in" libraries_emptyRecordTy
  have hi := libraries_role hitems path .items "Item in" Ty.libraries_never
  rw [run_ofVariant]
  simp only [List.flatMap_append, List.flatMap_cons, List.flatMap_nil, libraries_variantAlias,
    (hp _).1, (hi _).1, List.append_subset, List.append_nil]
  refine ⟨⟨?_, ?_⟩, by simp⟩
  · exact List.subset_cons_of_subset _ (hp _).2
  · exact List.subset_cons_of_subset _ (hi _).2

mutual

theorem libraries_ofField (path : Path) (id : String) : (field : Field) → (table : NameTable) →
    drawn (tysOf (run (ofField path id field) table).1.property.toList)
      (run (ofField path id field) table).1.declarations ⊆ fieldLibraries
  | .group label ⟨fields⟩ repeats, table => by
      have hinner := libraries_ofFields
        (path ++ [.field id (.group label ⟨fields⟩ repeats)]) fields
      rw [run_group]
      rw [drawn, libraries_recordFirst, List.append_subset]
      exact ⟨by simp [tysOf, fieldLibraries], hinner _⟩
  | .slices fieldset ⟨choices⟩, table => by
      have hinner := libraries_ofChoices
        (path ++ [.field id (.slices fieldset ⟨choices⟩)]) id choices
      rw [run_slices]
      simp only [drawn, List.flatMap_append, List.flatMap_cons, List.flatMap_nil,
        libraries_zoneAlias, List.append_nil, List.append_subset] at hinner ⊢
      exact ⟨by simp [tysOf, fieldLibraries], (hinner _).2, (hinner _).1⟩
  | .plain kind caption, table => by
      rw [run_plain]
      split
      · exact List.nil_subset _
      · exact libraries_scalar _ _ _ (libraries_plainTy ‹_›)
  | .image config, table => libraries_scalar _ _ _ (libraries_imageTy config)
  | .integration config, table => libraries_scalar _ _ _ (by simp [fieldLibraries])
  | .link config, table => libraries_scalar _ _ _ (libraries_linkTy config)
  | .richText config, table => libraries_scalar _ _ _ (libraries_richTextTy config)
  | .select config, table => libraries_scalar _ _ _ (libraries_selectTy config)
  | .unknown kind caption, table => libraries_scalar _ _ _ (by simp)

theorem libraries_ofFields (path : Path) : (fields : List (String × Field)) →
    (table : NameTable) →
    drawn (tysOf (run (ofFields path fields) table).1.1) (run (ofFields path fields) table).1.2 ⊆
      fieldLibraries
  | [], table => by
      rw [run_ofFields_nil]
      exact List.nil_subset _
  | (id, field) :: rest, table => by
      rw [run_ofFields_cons, tysOf, List.map_append, drawn_append]
      exact ⟨libraries_ofField path id field table, libraries_ofFields path rest _⟩

theorem libraries_ofChoices (path : Path) (zone : String) :
    (choices : List (String × SliceChoice)) → (table : NameTable) →
    drawn (run (ofChoices path zone choices) table).1.1
      (run (ofChoices path zone choices) table).1.2 ⊆ fieldLibraries
  | [], table => by
      rw [run_ofChoices_nil]
      exact List.nil_subset _
  | (id, choice) :: rest, table => by
      rw [run_ofChoices_cons, drawn_append]
      exact ⟨libraries_ofChoice path zone id choice table, libraries_ofChoices path zone rest _⟩

theorem libraries_ofChoice (path : Path) (zone id : String) : (choice : SliceChoice) →
    (table : NameTable) →
    drawn (run (ofChoice path zone id choice) table).1.1
      (run (ofChoice path zone id choice) table).1.2 ⊆ fieldLibraries
  | .shared, table => by
      rw [run_shared]
      simp [drawn]
  | .unknown, table => by
      rw [run_unknownChoice]
      exact List.nil_subset _
  | .slice fieldset description ⟨nonRepeat⟩ ⟨repeated⟩, table => by
      have hvariant := libraries_variant ⟨nonRepeat⟩ ⟨repeated⟩
        (libraries_ofFields · nonRepeat) (libraries_ofFields · repeated)
        (path ++ [.choice id (.slice fieldset description ⟨nonRepeat⟩ ⟨repeated⟩)]) "Slice" .empty
        table
      rw [run_slice]
      simp only [drawn, List.flatMap_cons, List.flatMap_nil, Ty.libraries_named, List.nil_append,
        List.append_nil]
      exact List.Subset.trans hvariant
        (List.cons_subset.mpr ⟨by simp [fieldLibraries], List.Subset.refl _⟩)

end

end Synthesis

namespace Compilation

open Naming (run sharedSliceName)
open Synthesis (fieldLibraries)

def documentLibraries : List String :=
  "PrismicDocumentWithUID" :: "PrismicDocumentWithoutUID" :: fieldLibraries

theorem libraries_documentAlias (model : CustomType) (root contentName : String) :
    (documentAlias model root contentName).libraries ⊆ documentLibraries := by
  have hty : (documentAlias model root contentName).libraries =
      (documentTy model contentName).libraries := by
    simp [Declaration.libraries, documentAlias, Declaration.asExported, Declaration.withDocs,
      Declaration.withParams, Declaration.ofAlias, TypeParam.libraries, langParam]
  rw [hty, documentTy]
  split <;> simp [documentLibraries]

theorem libraries_ofCustomType (model : CustomType) :
    (ofCustomType model).value.libraries ⊆ documentLibraries := by
  have hcontent : (content model).flatMap Declaration.libraries ⊆ fieldLibraries := by
    rw [content, Synthesis.libraries_recordFirst]
    exact Synthesis.libraries_ofFields _ _ _
  rw [libraries, ofCustomType_value, List.flatMap_append, List.flatMap_singleton]
  apply List.append_subset.mpr
  refine ⟨?_, libraries_documentAlias model _ _⟩
  exact List.subset_cons_of_subset _ (List.subset_cons_of_subset _ hcontent)

def sliceLibraries : List String := "SharedSlice" :: "SharedSliceVariation" :: fieldLibraries

theorem libraries_variations (model : SharedSlice) (variations : List Variation)
    (table : NameTable) :
    (run (variationsNaming model variations) table).1.2.flatMap Declaration.libraries ⊆
      "SharedSliceVariation" :: fieldLibraries := by
  induction variations generalizing table with
  | nil => exact List.nil_subset _
  | cons variation rest ih =>
      rw [run_variationsNaming_cons, List.flatMap_append, List.append_subset]
      exact ⟨Synthesis.libraries_variant variation.primary variation.items
        (Synthesis.libraries_ofFields · _) (Synthesis.libraries_ofFields · _) _ _ _ _, ih _⟩

-- The union refers to the variants by name.
theorem libraries_ofSharedSlice (model : SharedSlice) :
    (ofSharedSlice model).value.libraries ⊆ sliceLibraries := by
  have hunion : (unionAlias model).libraries = [] := by
    simp [Declaration.libraries, unionAlias, Declaration.withDocs, Declaration.ofAlias,
      List.flatMap_map]
  have hslice : (sliceAlias model (sharedSliceName model.id) (unionName model)).libraries =
      ["SharedSlice"] := by
    simp [Declaration.libraries, sliceAlias, Declaration.asExported, Declaration.withDocs,
      Declaration.ofAlias]
  rw [libraries, declarations_ofSharedSlice]
  simp only [List.flatMap_append, List.flatMap_singleton, hunion, hslice, List.append_nil,
    List.append_subset]
  exact ⟨List.subset_cons_of_subset _ (libraries_variations model _ _), by simp [sliceLibraries]⟩

end Compilation

end ContentTypes
