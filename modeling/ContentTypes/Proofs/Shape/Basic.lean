import ContentTypes.Compilation

namespace ContentTypes

-- A type without declared names: a record stands where it is used, with all its properties.
inductive Shape where
  | library (name : String) (args : List Shape)
  -- A name that nothing declares.
  | named (name : String) (args : List Shape)
  | literal (text : String)
  | union (members : List Shape)
  | record (properties : List (String × Shape))
  | string
  | null
  | never
  | unknown

namespace Shape

instance : Inhabited Shape := ⟨.unknown⟩

-- A record as its users see it.
def simplified (properties : List (String × Shape)) : Shape :=
  .named "Simplify" [.record properties]

def literals (texts : List String) : Shape := .union (texts.map .literal)

def unionOrNever : List Shape → Shape
  | [] => .never
  | members => .union members

-- Most kinds give their name to their type.
def ofPlain? : PlainKind → Option Shape
  | .uid => none
  | .text => some (.library "KeyTextField" [])
  | kind => some (.library (kind.name ++ "Field") [])

def ofImage (config : ImageConfig) : Shape :=
  if config.thumbnails.isEmpty then .library "ImageField" [.null]
  else .library "ImageField" [literals (config.thumbnails.map Thumbnail.name)]

-- Only a link to documents can be restricted further.
def ofLink (config : LinkConfig) : Shape :=
  if config.target = some .document then
    .library "RelationField"
      (if config.customTypes.isEmpty then [] else [literals config.customTypes])
  else if config.target = some .media then .library "LinkToMediaField" []
  else .library "LinkField" []

def ofRichText (config : RichTextConfig) : Shape :=
  if config.isTitle then .library "TitleField" [] else .library "RichTextField" []

def ofSelect (config : SelectConfig) : Shape :=
  .library "SelectField"
    (literals config.options :: if config.hasDefault then [.literal "filled"] else [])

-- The shape of a set that has no fields once a slice is filled.
def emptyRecord : Shape := .named "Record" [.string, .never]

-- The field set of one role of a slice: a record of its fields, if there are any.
def ofRole (empty : Shape) (fields : FieldSet) (properties : List (String × Shape)) : Shape :=
  if fields.isEmpty then empty else simplified properties

mutual

def ofField? : Field → Option Shape
  | .plain kind _ => ofPlain? kind
  | .image config => some (ofImage config)
  | .integration _ => some (.library "IntegrationFields" [])
  | .link config => some (ofLink config)
  | .richText config => some (ofRichText config)
  | .select config => some (ofSelect config)
  | .group _ ⟨fields⟩ _ => some (.library "GroupField" [simplified (ofFields fields)])
  | .slices _ ⟨choices⟩ => some (.library "SliceZone" [unionOrNever (ofChoices choices)])
  | .unknown _ _ => some .unknown

-- One property for each field that has a shape.
def ofFields : List (String × Field) → List (String × Shape)
  | [] => []
  | (id, field) :: rest => ((ofField? field).map (id, ·)).toList ++ ofFields rest

def ofChoices : List (String × SliceChoice) → List Shape
  | [] => []
  | (id, choice) :: rest => (ofChoice? id choice).toList ++ ofChoices rest

-- A shared slice is referred to, a local one is spelled out, and what is not known is left out.
def ofChoice? (id : String) : SliceChoice → Option Shape
  | .shared => some (.named (Naming.sharedSliceName id) [])
  | .slice _ _ ⟨nonRepeat⟩ ⟨repeated⟩ =>
      some (.library "Slice" [.literal id,
        ofRole emptyRecord ⟨nonRepeat⟩ (ofFields nonRepeat),
        ofRole .never ⟨repeated⟩ (ofFields repeated)])
  | .unknown => none

end

-- The shape of a whole document, with the language still open.
def ofCustomType (model : CustomType) : Shape :=
  .library (if model.hasUid then "PrismicDocumentWithUID" else "PrismicDocumentWithoutUID")
    [simplified (ofFields model.fields.entries), .literal model.id, .named "Lang" []]

def ofVariation (variation : Variation) : Shape :=
  .library "SharedSliceVariation" [.literal variation.id,
    ofRole emptyRecord variation.primary (ofFields variation.primary.entries),
    ofRole .never variation.items (ofFields variation.items.entries)]

def ofSharedSlice (model : SharedSlice) : Shape :=
  .library "SharedSlice"
    [.literal model.id, unionOrNever (model.variations.map ofVariation)]

end Shape

namespace Ty

mutual

-- The shape of a type. `meaning` tells what a name stands for: nothing if it is not declared, and
-- else a shape or the failure to find one. A declared name takes no arguments.
def opened? (meaning : String → Option (Option Shape)) : Ty → Option Shape
  | .library name args => (openedAll? meaning args).map (.library name)
  | .named name args =>
      match meaning name with
      | none => (openedAll? meaning args).map (.named name)
      | some shape => if args.isEmpty then shape else none
  | .literal text => some (.literal text)
  | .union members => (openedAll? meaning members).map .union
  | .string => some .string
  | .null => some .null
  | .never => some .never
  | .unknown => some .unknown

def openedAll? (meaning : String → Option (Option Shape)) : List Ty → Option (List Shape)
  | [] => some []
  | ty :: rest => do
      let shape ← opened? meaning ty
      let shapes ← openedAll? meaning rest
      return shape :: shapes

end

end Ty

def Property.openedAll? (meaning : String → Option (Option Shape)) :
    List Property → Option (List (String × Shape))
  | [] => some []
  | property :: rest => do
      let shape ← property.ty.opened? meaning
      let shapes ← openedAll? meaning rest
      return (property.name, shape) :: shapes

def Declaration.opened? (meaning : String → Option (Option Shape)) (declaration : Declaration) :
    Option Shape :=
  match declaration.kind with
  | .record properties => (Property.openedAll? meaning properties).map .record
  | .alias _ ty => ty.opened? meaning

namespace Compilation

-- What a name stands for when no more than `depth` declarations are opened inside each other. The
-- first declaration of a name counts.
def meaning (compilation : Compilation) : Nat → String → Option (Option Shape)
  | 0, name => (compilation.get? name).map fun _ => none
  | depth + 1, name => (compilation.get? name).map (Declaration.opened? (compilation.meaning depth))

-- The shape that the root stands for. References that run in a circle have none at any depth.
def opened? (compilation : Compilation) (depth : Nat) : Option Shape :=
  (compilation.meaning depth compilation.root).join

end Compilation

end ContentTypes
