import ContentTypes.OrderedMap

namespace ContentTypes

-- What an editor is shown of a field.
structure Caption where
  label : Option String
  placeholder : Option String
  deriving DecidableEq, Repr

def Caption.none : Caption := ⟨.none, .none⟩

-- Kinds of fields that have a caption and nothing else.
inductive PlainKind where
  | boolean
  | color
  | date
  | embed
  | geoPoint
  | number
  | text
  | timestamp
  | uid
  deriving DecidableEq, Repr

def PlainKind.name : PlainKind → String
  | .boolean => "Boolean"
  | .color => "Color"
  | .date => "Date"
  | .embed => "Embed"
  | .geoPoint => "GeoPoint"
  | .number => "Number"
  | .text => "Text"
  | .timestamp => "Timestamp"
  | .uid => "UID"

-- A named alternative rendition of an image.
structure Thumbnail where
  name : String
  width : Option Nat
  height : Option Nat
  deriving DecidableEq, Repr

structure ImageConfig where
  label : Option String
  thumbnails : List Thumbnail
  deriving DecidableEq, Repr

structure IntegrationConfig where
  caption : Caption
  catalog : Option String
  deriving DecidableEq, Repr

-- What a link is restricted to.
inductive LinkTarget where
  | document
  | media
  | web
  | other
  deriving DecidableEq, Repr

structure LinkConfig where
  caption : Caption
  target : Option LinkTarget
  -- The custom types that a document link may point to.
  customTypes : List String
  deriving DecidableEq, Repr

-- The kinds of blocks that a rich text may hold, parted by commas: either a single block or many.
structure RichTextConfig where
  caption : Caption
  single : Option String
  multi : Option String
  deriving DecidableEq, Repr

structure SelectConfig where
  caption : Caption
  options : List String
  default : Option String
  deriving DecidableEq, Repr

mutual

inductive Field where
  | plain (kind : PlainKind) (caption : Caption)
  | image (config : ImageConfig)
  | integration (config : IntegrationConfig)
  | link (config : LinkConfig)
  | richText (config : RichTextConfig)
  | select (config : SelectConfig)
  | group (label : Option String) (fields : OrderedMap Field) (repeats : Option Bool)
  | slices (fieldset : Option String) (choices : OrderedMap SliceChoice)
  -- A kind that is not known keeps its name and its caption.
  | unknown (kind : String) (caption : Caption)

inductive SliceChoice where
  -- A slice of this zone alone: fields that stand once, and fields that each item repeats.
  | slice (fieldset : Option String) (description : Option String)
      (nonRepeat : OrderedMap Field) (repeated : OrderedMap Field)
  -- A reference to a shared slice, whose id is the key of the choice.
  | shared
  | unknown

end

instance : Inhabited Field := ⟨.plain .text .none⟩

instance : Inhabited SliceChoice := ⟨.shared⟩

-- Fields by their ids, in the order of the document.
abbrev FieldSet := OrderedMap Field

def nonEmpty? (text : Option String) : Option String := text.filter (· != "")

-- A single block that is always a heading is a title.
def RichTextConfig.isTitle (config : RichTextConfig) : Bool :=
  config.single.any fun kinds => (kinds.splitOn ",").all (·.contains "heading")

def SelectConfig.hasDefault (config : SelectConfig) : Bool := (nonEmpty? config.default).isSome

namespace Field

def kind : Field → String
  | .plain kind _ => kind.name
  | .image _ => "Image"
  | .integration _ => "IntegrationFields"
  | .link _ => "Link"
  | .richText _ => "StructuredText"
  | .select _ => "Select"
  | .group .. => "Group"
  | .slices .. => "Slices"
  | .unknown kind _ => kind

-- Texts that are empty count as absent.
def label? : Field → Option String
  | .plain _ caption => nonEmpty? caption.label
  | .image config => nonEmpty? config.label
  | .integration config => nonEmpty? config.caption.label
  | .link config => nonEmpty? config.caption.label
  | .richText config => nonEmpty? config.caption.label
  | .select config => nonEmpty? config.caption.label
  | .group label _ _ => nonEmpty? label
  | .slices fieldset _ => nonEmpty? fieldset
  | .unknown _ caption => nonEmpty? caption.label

-- A boolean field shows no placeholder even if it has one.
def placeholder? : Field → Option String
  | .plain .boolean _ => none
  | .plain _ caption => nonEmpty? caption.placeholder
  | .integration config => nonEmpty? config.caption.placeholder
  | .link config => nonEmpty? config.caption.placeholder
  | .richText config => nonEmpty? config.caption.placeholder
  | .select config => nonEmpty? config.caption.placeholder
  | .unknown _ caption => nonEmpty? caption.placeholder
  | .image _ | .group .. | .slices .. => none

def catalog? : Field → Option String
  | .integration config => nonEmpty? config.catalog
  | _ => none

-- Groups and slice zones repeat their own content.
def isRepeatable : Field → Bool
  | .group .. | .slices .. => true
  | _ => false

def isUid : Field → Bool
  | .plain .uid _ => true
  | _ => false

end Field

def SliceChoice.label? : SliceChoice → Option String
  | .slice fieldset _ _ _ => nonEmpty? fieldset
  | .shared | .unknown => none

end ContentTypes
