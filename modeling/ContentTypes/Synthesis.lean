import ContentTypes.Documentation
import ContentTypes.Naming

namespace ContentTypes

-- What a field brings: a property for the record around it, unless it lives outside the content,
-- and the declarations of what lies inside it.
structure Synthesis where
  property : Option Property
  declarations : List Declaration

namespace Synthesis

-- A UID lives on the document itself and not in its content.
def libraryName? : PlainKind → Option String
  | .boolean => some "BooleanField"
  | .color => some "ColorField"
  | .date => some "DateField"
  | .embed => some "EmbedField"
  | .geoPoint => some "GeoPointField"
  | .number => some "NumberField"
  | .text => some "KeyTextField"
  | .timestamp => some "TimestampField"
  | .uid => none

def imageTy (config : ImageConfig) : Ty :=
  match config.thumbnails with
  | [] => .library "ImageField" [.null]
  | thumbnails => .library "ImageField" [.literalUnion (thumbnails.map Thumbnail.name)]

def linkTy (config : LinkConfig) : Ty :=
  match config.target, config.customTypes with
  | some .document, [] => .library "RelationField" []
  | some .document, customTypes => .library "RelationField" [.literalUnion customTypes]
  | some .media, _ => .library "LinkToMediaField" []
  | _, _ => .library "LinkField" []

def richTextTy (config : RichTextConfig) : Ty :=
  .library (if config.isTitle then "TitleField" else "RichTextField") []

def selectTy (config : SelectConfig) : Ty :=
  let options := Ty.literalUnion config.options
  .library "SelectField" (if config.hasDefault then [options, .literal "filled"] else [options])

-- The type of a set that has no fields once a slice is filled.
def emptyRecordTy : Ty := .named "Record" [.string, .never]

-- The record of a field set, before the declarations of its fields.
def recordFirst (name : String) (docs : Docs) (inner : List Property × List Declaration) :
    List Declaration :=
  (Declaration.ofRecord name inner.1).withDocs docs :: inner.2

-- The properties of a field set that sits at a given path, and the declarations its fields bring.
abbrev Inside := Path → Naming (List Property × List Declaration)

-- The type of one of the two field sets of a slice, and the record it stands for.
-- A set without fields has no record, and neither has it a name.
def roleTy (path : Path) (role : Role) (lead : String) (emptyTy : Ty) :
    Option Inside → Naming (Ty × List Declaration)
  | none => return (emptyTy, [])
  | some fields => do
      let inside := path ++ [.role role]
      let name ← Naming.claimFor inside []
      let inner ← fields inside
      return (.simplified name, recordFirst name (.ofPosition lead path) inner)

-- A slice variant has the id of the innermost step. Its name is claimed first, and its alias is
-- declared last.
def variant (path : Path) (libraryName : String) (docs : Docs) (primary items : Option Inside) :
    Naming (String × List Declaration) := do
  let name ← Naming.claimFor path []
  let (primaryTy, primaryRecords) ←
    roleTy path .primary "Primary content in" emptyRecordTy primary
  let (itemTy, itemRecords) ← roleTy path .items "Item in" .never items
  let id := (path.getLast?.map Step.id).getD ""
  let slice := Declaration.ofAlias name (.library libraryName [.literal id, primaryTy, itemTy])
  return (name, primaryRecords ++ itemRecords ++ [slice.withDocs docs])

def scalar (path : Path) (id : String) (field : Field) (ty : Ty) : Synthesis :=
  ⟨some ⟨id, ty, .ofField path id field⟩, []⟩

mutual

-- `path` leads to the record that will hold the property.
def ofField (path : Path) (id : String) : Field → Naming Synthesis
  | .plain kind caption =>
      return match libraryName? kind with
        | none => ⟨none, []⟩
        | some name => scalar path id (.plain kind caption) (.library name [])
  | .image config => return scalar path id (.image config) (imageTy config)
  | .integration config =>
      return scalar path id (.integration config) (.library "IntegrationFields" [])
  | .link config => return scalar path id (.link config) (linkTy config)
  | .richText config => return scalar path id (.richText config) (richTextTy config)
  | .select config => return scalar path id (.select config) (selectTy config)
  | .group label ⟨fields⟩ repeats => do
      let field := Field.group label ⟨fields⟩ repeats
      let inside := path ++ [.field id field]
      let name ← Naming.claimFor inside ["Item"]
      let inner ← ofFields inside fields
      return ⟨some ⟨id, .library "GroupField" [.simplified name], .ofField path id field⟩,
        recordFirst name (.ofPosition "Item in" inside) inner⟩
  | .slices fieldset ⟨choices⟩ => do
      let field := Field.slices fieldset ⟨choices⟩
      let inside := path ++ [.field id field]
      let name ← Naming.claimFor inside ["Slice"]
      let (variants, declarations) ← ofChoices inside id choices
      let zone := (Declaration.ofAlias name (.unionOrNever variants)).withDocs
        (.ofPosition "Slice for" inside)
      return ⟨some ⟨id, .library "SliceZone" [.named name []], .ofField path id field⟩,
        declarations ++ [zone]⟩
  | .unknown kind caption => do
      Naming.report (.unknownField id kind)
      return scalar path id (.unknown kind caption) .unknown

-- The properties of a field set, and the declarations that its fields bring.
def ofFields (path : Path) : List (String × Field) → Naming (List Property × List Declaration)
  | [] => return ([], [])
  | (id, field) :: rest => do
      let one ← ofField path id field
      let (properties, declarations) ← ofFields path rest
      return (one.property.toList ++ properties, one.declarations ++ declarations)

-- The members of a zone and the declarations of its local slices. `path` leads into the zone.
def ofChoices (path : Path) (zone : String) :
    List (String × SliceChoice) → Naming (List Ty × List Declaration)
  | [] => return ([], [])
  | (id, choice) :: rest => do
      let (members, declared) ← ofChoice path zone id choice
      let (variants, declarations) ← ofChoices path zone rest
      return (members ++ variants, declared ++ declarations)

def ofChoice (path : Path) (zone id : String) :
    SliceChoice → Naming (List Ty × List Declaration)
  | .shared => return ([.named (Naming.sharedSliceName id) []], [])
  | .slice fieldset description ⟨nonRepeat⟩ ⟨repeated⟩ => do
      let inside := path ++ [.choice id (.slice fieldset description ⟨nonRepeat⟩ ⟨repeated⟩)]
      let (name, declarations) ← variant inside "Slice" .empty
        (if nonRepeat.isEmpty then none else some fun path => ofFields path nonRepeat)
        (if repeated.isEmpty then none else some fun path => ofFields path repeated)
      return ([.named name []], declarations)
  | .unknown => do
      Naming.report (.unknownChoice zone id)
      return ([], [])

end

-- The record of a field set under a given name, then everything that its fields bring.
def ofRecord (path : Path) (name : String) (docs : Docs) (fields : FieldSet) :
    Naming (List Declaration) := do
  let inner ← ofFields path fields.entries
  return recordFirst name docs inner

-- The variant of a slice whose field sets are given.
def ofVariant (path : Path) (libraryName : String) (docs : Docs) (primary items : FieldSet) :
    Naming (String × List Declaration) :=
  variant path libraryName docs
    (if primary.isEmpty then none else some fun path => ofFields path primary.entries)
    (if items.isEmpty then none else some fun path => ofFields path items.entries)

mutual

-- The names of the shared slices that zones below a field refer to, in order and with repeats.
def sharedNames : Field → List String
  | .group _ ⟨fields⟩ _ => sharedNamesOfFields fields
  | .slices _ ⟨choices⟩ => sharedNamesOfChoices choices
  | _ => []

def sharedNamesOfFields : List (String × Field) → List String
  | [] => []
  | (_, field) :: rest => sharedNames field ++ sharedNamesOfFields rest

def sharedNamesOfChoices : List (String × SliceChoice) → List String
  | [] => []
  | (id, choice) :: rest => sharedNamesOfChoice id choice ++ sharedNamesOfChoices rest

def sharedNamesOfChoice (id : String) : SliceChoice → List String
  | .shared => [Naming.sharedSliceName id]
  | .slice _ _ ⟨nonRepeat⟩ ⟨repeated⟩ =>
      sharedNamesOfFields nonRepeat ++ sharedNamesOfFields repeated
  | .unknown => []

end

-- Takes every name that a zone below the field points at, so that no declaration gets it.
def reserveShared (field : Field) (table : NameTable) : NameTable :=
  (sharedNames field).foldl NameTable.reserve table

-- A field alone, with a table of its own.
def ofFieldAlone (path : Path) (id : String) (field : Field) : Logged Synthesis := do
  let (synthesis, _) ← ofField path id field (reserveShared field .empty)
  return synthesis

end Synthesis

end ContentTypes
