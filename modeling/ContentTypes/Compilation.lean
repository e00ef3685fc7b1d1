import ContentTypes.Synthesis

namespace ContentTypes

-- The declarations of a whole model. The alias that stands for the model comes last.
structure Compilation where
  -- The name of the alias that stands for the model.
  root : String
  declarations : List Declaration

namespace Compilation

def names (compilation : Compilation) : List String :=
  compilation.declarations.map Declaration.name

def get? (compilation : Compilation) (name : String) : Option Declaration :=
  compilation.declarations.find? (·.name == name)

-- The language of a document, which is any text unless it is restricted.
def langParam : TypeParam := ⟨"Lang", some .string, some .string⟩

def documentTy (model : CustomType) (contentName : String) : Ty :=
  .library (if model.hasUid then "PrismicDocumentWithUID" else "PrismicDocumentWithoutUID")
    [.simplified contentName, .literal model.id, .named "Lang" []]

def documentAlias (model : CustomType) (root contentName : String) : Declaration :=
  let docs := (Docs.line s!"{model.displayLabel} Prismic document (API ID: {model.id})").withTag
    "typeParam" "Lang - Language API ID of the document."
  (((Declaration.ofAlias root (documentTy model contentName)).withParams [langParam]).withDocs
    docs).asExported

def reserveSharedOf (fields : FieldSet) : Naming Unit :=
  modify fun table => fields.values.foldl (fun known field => Synthesis.reserveShared field known) table

-- The name of the document is claimed before the names of shared slices are reserved.
def customTypeNaming (model : CustomType) : Naming Compilation := do
  let path := [Step.customType model]
  let root ← Naming.claim (Naming.documentName model.id)
  reserveSharedOf model.fields
  let contentName ← Naming.claimFor path []
  let content ← Synthesis.ofRecord path contentName
    (.line s!"Content for {model.displayLabel} documents") model.fields
  return ⟨root, content ++ [documentAlias model root contentName]⟩

def ofCustomType (model : CustomType) : Logged Compilation := do
  model.repeatedIds.forM fun id => Logged.report (.repeatedField model.id id)
  let (compilation, _) ← customTypeNaming model .empty
  Logged.report (.compiledCustomType model.id compilation.declarations.length)
  return compilation

-- The names of the variants, and what they declare.
def variationsNaming (model : SharedSlice) :
    List Variation → Naming (List String × List Declaration)
  | [] => return ([], [])
  | variation :: rest => do
      let docs := Docs.line
        s!"{variation.displayLabel} variation for {model.displayLabel} Slice"
      let (name, declared) ← Synthesis.ofVariant [.sharedSlice model, .variation variation]
        "SharedSliceVariation" docs variation.primary variation.items
      let (names, declarations) ← variationsNaming model rest
      return (name :: names, declared ++ declarations)

def sliceDocs (model : SharedSlice) : Docs :=
  ⟨s!"{model.displayLabel} Shared Slice" :: (nonEmpty? model.description).toList, []⟩

def sliceAlias (model : SharedSlice) (root unionName : String) : Declaration :=
  ((Declaration.ofAlias root
    (.library "SharedSlice" [.literal model.id, .named unionName []])).withDocs
    (sliceDocs model)).asExported

-- The names of the slice and of the union are claimed before any variation.
def sharedSliceNaming (model : SharedSlice) : Naming Compilation := do
  let path := [Step.sharedSlice model]
  let root ← Naming.claim (Naming.sharedSliceName model.id)
  let unionName ← Naming.claimFor path ["Variation"]
  let (names, declarations) ← variationsNaming model model.variations
  let members := Ty.unionOrNever (names.map fun name => .named name [])
  let union := (Declaration.ofAlias unionName members).withDocs
    (.ofPosition "Slice variation for" path)
  return ⟨root, declarations ++ [union, sliceAlias model root unionName]⟩

def ofSharedSlice (model : SharedSlice) : Logged Compilation := do
  let (compilation, _) ← sharedSliceNaming model .empty
  Logged.report (.compiledSharedSlice model.id compilation.declarations.length)
  return compilation

end Compilation

end ContentTypes
