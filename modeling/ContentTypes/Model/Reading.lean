import ContentTypes.Model.CustomType
import ContentTypes.Model.SharedSlice
import ContentTypes.Reading.Variant

namespace ContentTypes

open Reading

section Configs

variable {σ : Type} [Source σ]

def Caption.shape : Shape σ Caption where
  name := "SimpleConfig"
  blank := .none
  slots :=
    [ slot "label" .defaulted optionalText fun c label => { c with label }
    , slot "placeholder" .defaulted optionalText fun c placeholder => { c with placeholder } ]

def Thumbnail.shape : Shape σ Thumbnail where
  name := "Thumbnail"
  blank := ⟨"", none, none⟩
  slots :=
    [ slot "name" .defaulted text fun t name => { t with name }
    , slot "width" .defaulted (optional natural32) fun t width => { t with width }
    , slot "height" .defaulted (optional natural32) fun t height => { t with height } ]

def ImageConfig.shape : Shape σ ImageConfig where
  name := "ImageConfig"
  blank := ⟨none, []⟩
  slots :=
    [ slot "label" .defaulted optionalText fun c label => { c with label }
    , slot "thumbnails" .defaulted (list Thumbnail.shape.read) fun c thumbnails =>
        { c with thumbnails } ]

-- The slots of a caption inside a larger record.
def Caption.slots {ρ : Type} (caption : ρ → Caption) (set : ρ → Caption → ρ) :
    List (Slot σ ρ) :=
  [ slot "label" .defaulted optionalText fun c label => set c { caption c with label }
  , slot "placeholder" .defaulted optionalText fun c placeholder =>
      set c { caption c with placeholder } ]

def IntegrationConfig.shape : Shape σ IntegrationConfig where
  name := "IntegrationFieldsConfig"
  blank := ⟨.none, none⟩
  slots := Caption.slots (·.caption) (fun c caption => { c with caption }) ++
    [ slot "catalog" .defaulted optionalText fun c catalog => { c with catalog } ]

def LinkTarget.ofName : String → LinkTarget
  | "document" => .document
  | "media" => .media
  | "web" => .web
  | _ => .other

def RichTextConfig.shape : Shape σ RichTextConfig where
  name := "StructuredTextConfig"
  blank := ⟨.none, none, none⟩
  slots := Caption.slots (·.caption) (fun c caption => { c with caption }) ++
    [ slot "single" .defaulted optionalText fun c single => { c with single }
    , slot "multi" .defaulted optionalText fun c multi => { c with multi } ]

def SelectConfig.shape : Shape σ SelectConfig where
  name := "SelectConfig"
  blank := ⟨.none, [], none⟩
  slots := Caption.slots (·.caption) (fun c caption => { c with caption }) ++
    [ slot "options" .defaulted (list text) fun c options => { c with options }
    , slot "default_value" .defaulted optionalText fun c default => { c with default } ]

end Configs

-- Any name that is not known restricts the link to something else.
def LinkTarget.read : Reader Json LinkTarget := fun value => do
  let v ← variant value
  v.unit
  return .ofName v.name

def LinkConfig.shape : Shape Json LinkConfig where
  name := "LinkConfig"
  blank := ⟨.none, none, []⟩
  slots := Caption.slots (·.caption) (fun c caption => { c with caption }) ++
    [ slot "select" .defaulted (optional LinkTarget.read) fun c target => { c with target }
    , slot "customtypes" .defaulted (list text) fun c customTypes => { c with customTypes } ]

-- A group without its kind.
structure GroupConfig where
  label : Option String
  fields : FieldSet
  repeats : Option Bool

def GroupConfig.shape (readField : Reader Json Field) : Shape Json GroupConfig where
  name := "GroupConfig"
  blank := ⟨none, .empty, none⟩
  slots :=
    [ slot "label" .defaulted optionalText fun c label => { c with label }
    , slot "fields" .defaulted (orderedMap readField) fun c fields => { c with fields }
    , slot "repeat" .defaulted (optional truth) fun c repeats => { c with repeats } ]

-- A local slice without its kind.
structure LocalSlice where
  fieldset : Option String
  description : Option String
  nonRepeat : FieldSet
  repeated : FieldSet

namespace SliceChoice

section

variable {σ : Type}

def localShape [Source σ] (readField : Reader σ Field) : Shape σ LocalSlice where
  name := "SliceChoice"
  blank := ⟨none, none, .empty, .empty⟩
  slots :=
    [ slot "fieldset" .defaulted optionalText fun c fieldset => { c with fieldset }
    , slot "description" .defaulted optionalText fun c description => { c with description }
    , slot "non-repeat" .defaulted (orderedMap readField) fun c nonRepeat => { c with nonRepeat }
    , slot "repeat" .defaulted (orderedMap readField) fun c repeated => { c with repeated } ]

def ofLocal (slice : LocalSlice) : SliceChoice :=
  .slice slice.fieldset slice.description slice.nonRepeat slice.repeated

def readTag [Source σ] : Reader σ String := fun value => do
  match ← Source.look value with
  | .str tag => .ok tag
  | other => refuse other .variantName

-- A choice is taken in whole before its kind is looked at: the kind may be given last.
def readOn [JsonSource σ] (value : σ) : Except Fault Unit :=
  (JsonSource.value value).map fun _ => ()

-- The kind among the members, and the other members as they are.
def takeTag [JsonSource σ] :
    Option String → List (Option String × σ) →
    Except Fault (Option String × List (Option String × σ))
  | tag, [] => .ok (tag, [])
  | _, (none, _) :: _ => .error .malformed
  | tag, (some key, value) :: rest =>
      if key = "type" then
        if tag.isSome then .error (.repeated "type")
        else do takeTag (some (← readTag value)) rest
      else do
        readOn value
        let (tag, others) ← takeTag tag rest
        return (tag, (some key, value) :: others)

def readMembers [JsonSource σ] (readField : Reader σ Field)
    (members : List (Option String × σ)) : Except Fault SliceChoice := do
  let (tag, others) ← takeTag none members
  match tag with
  | none => .error (.missing "type")
  | some "Slice" =>
      let shape := localShape readField
      return ofLocal (← shape.fillMembers [] shape.blank others)
  | some "SharedSlice" => .ok .shared
  | some _ => .ok .unknown

def readItems [JsonSource σ] (readField : Reader σ Field) :
    List σ → Except Fault SliceChoice
  | [] => .error (.missing "type")
  | first :: others => do
      let tag ← readTag first
      let _ ← others.mapM readOn
      match tag with
      | "Slice" =>
          let shape := localShape readField
          let surplus := fun size => Fault.wrongLength size (.itemsOf shape.slots.length)
          return ofLocal (← shape.fillItems surplus 0 shape.slots shape.blank others)
      | tag =>
          if others.isEmpty then return if tag = "SharedSlice" then .shared else .unknown
          else .error (.wrongLength others.length (.itemsOf 0))

def readWith [JsonSource σ] (readField : Reader σ Field) : Reader σ SliceChoice := fun value => do
  match ← Source.look value with
  | .obj members => readMembers readField members
  | .arr items => readItems readField items
  | other => refuse other (.taggedUnion "SliceChoice")

end

end SliceChoice

-- A slice zone without its kind.
def zoneShape (readField : Reader Json Field) : Shape Json (OrderedMap SliceChoice) where
  name := "SliceZoneConfig"
  blank := .empty
  slots :=
    [ slot "choices" .defaulted (orderedMap (SliceChoice.readWith readField)) fun _ choices =>
        choices ]

namespace Field

def plainKind? : String → Option PlainKind
  | "Boolean" => some .boolean
  | "Color" => some .color
  | "Date" => some .date
  | "Embed" => some .embed
  | "GeoPoint" => some .geoPoint
  | "Number" => some .number
  | "Text" => some .text
  | "Timestamp" => some .timestamp
  | "UID" => some .uid
  | _ => none

def readConfig {ρ : Type} (shape : Shape Json ρ) : Reader Json ρ :=
  orElse shape.blank shape.read

-- Only a kind that is not known forgives what is wrong with its configuration.
def forgivingConfig {ρ : Type} (shape : Shape Json ρ) (value : Json) : ρ :=
  match readConfig shape value with
  | .ok found => found
  | .error _ => shape.blank

def ofParts (readField : Reader Json Field) (kind : String) (value fieldset : Json) :
    Except Fault Field :=
  match plainKind? kind with
  | some known => (readConfig Caption.shape value).map (.plain known)
  | none =>
      match kind with
      | "Image" => (readConfig ImageConfig.shape value).map .image
      | "IntegrationFields" => (readConfig IntegrationConfig.shape value).map .integration
      | "Link" => (readConfig LinkConfig.shape value).map .link
      | "StructuredText" => (readConfig RichTextConfig.shape value).map .richText
      | "Select" => (readConfig SelectConfig.shape value).map .select
      | "Group" =>
          (readConfig (GroupConfig.shape readField) value).map fun c =>
            .group c.label c.fields c.repeats
      | "Slices" => do
          let name ← optionalText fieldset
          let choices ← readConfig (zoneShape readField) value
          return .slices name choices
      | _ => .ok (.unknown kind (forgivingConfig Caption.shape value))

-- One level of a field. The fields inside it are read by `readField`.
def readLevel (readField : Reader Json Field) : Reader Json Field
  | .obj members =>
      match members.get? "type" with
      | none => .error (.missing "type")
      | some (.str kind) =>
          ofParts readField kind ((members.get? "config").getD .null)
            ((members.get? "fieldset").getD .null)
      | some given => .error (.kindNotText given)
  | other => refuse (glanceJson other) .map

def readLevels : Nat → Reader Json Field
  | 0 => fun _ => .error .malformed
  | levels + 1 => readLevel (readLevels levels)

-- A field has no more levels than its value is deep.
def ofJson (value : Json) : Except Fault Field := readLevels (value.depth + 1) value

-- An object is taken in whole, so a key of it may repeat.
def read {σ : Type} [JsonSource σ] : Reader σ Field := fun value => do
  match ← Source.look value with
  | .obj _ => ofJson (← JsonSource.value value)
  | other => refuse other .map

end Field

section Models

variable {σ : Type} [JsonSource σ]

-- What lies around fields can be read straight from text as well, where a key that is given twice
-- is a fault.
def SliceChoice.read : Reader σ SliceChoice := SliceChoice.readWith Field.read

def FieldSet.read : Reader σ FieldSet := orderedMap Field.read

def CustomType.shape : Shape σ CustomType where
  name := "CustomTypeModel"
  blank := ⟨"", none, false, none, .empty⟩
  slots :=
    [ slot "id" .required text fun m id => { m with id }
    , slot "label" .defaulted optionalText fun m label => { m with label }
    , slot "repeatable" .defaulted truth fun m repeatable => { m with repeatable }
    , slot "status" .defaulted (optional truth) fun m status => { m with status }
    , slot "json" .defaulted (orderedMap FieldSet.read) fun m tabs => { m with tabs } ]

def CustomType.read : Reader σ CustomType := CustomType.shape.read

def Variation.shape : Shape σ Variation where
  name := "SharedSliceVariation"
  blank := ⟨"", none, none, .empty, .empty⟩
  slots :=
    [ slot "id" .required text fun v id => { v with id }
    , slot "name" .defaulted optionalText fun v name => { v with name }
    , slot "description" .defaulted optionalText fun v description => { v with description }
    , slot "primary" .defaulted FieldSet.read fun v primary => { v with primary }
    , slot "items" .defaulted FieldSet.read fun v items => { v with items } ]

def Variation.read : Reader σ Variation := Variation.shape.read

def SharedSlice.shape : Shape σ SharedSlice where
  name := "SharedSliceModel"
  blank := ⟨"", none, none, []⟩
  slots :=
    [ slot "id" .required text fun m id => { m with id }
    , slot "name" .defaulted optionalText fun m name => { m with name }
    , slot "description" .defaulted optionalText fun m description => { m with description }
    , slot "variations" .defaulted (list Variation.read) fun m variations =>
        { m with variations } ]

def SharedSlice.read : Reader σ SharedSlice := SharedSlice.shape.read

end Models

end ContentTypes
