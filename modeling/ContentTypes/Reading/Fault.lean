import ContentTypes.Json.Printer
import ContentTypes.Text.Quoted

namespace ContentTypes.Reading

-- What stood where something else was wanted.
inductive Found where
  | null
  | bool (value : Bool)
  | int (value : Int)
  -- A fraction, as its source writes it.
  | real (shown : String)
  | str (value : String)
  | sequence
  | map
  -- A bare name of a variant that has content.
  | unitVariant
  deriving DecidableEq, Repr

inductive Wanted where
  | text
  | truth
  | natural32
  | integer64
  | sequence
  | textMap
  | map
  | unit
  | singleKey
  | textOrMap
  | newtypeVariant
  | structVariant
  | variantName
  | taggedUnion (name : String)
  | record (name : String)
  | recordOf (name : String) (size : Nat)
  | fewer
  | itemsOf (size : Nat)
  deriving DecidableEq, Repr

inductive Fault where
  | wrongKind (found : Found) (wanted : Wanted)
  | wrongValue (found : Found) (wanted : Wanted)
  | wrongLength (size : Nat) (wanted : Wanted)
  | missing (key : String)
  | repeated (key : String)
  | unknownVariant (name : String) (known : List String)
  -- The kind of a field is given, but not as text.
  | kindNotText (given : Json)
  -- The text is not what its format allows.
  | malformed
  -- The fault lies under a key, told by sources that keep the place.
  | under (key : String) (fault : Fault)

def Found.describe : Found → String
  | .null => "null"
  | .bool value => s!"boolean `{value}`"
  | .int value => s!"integer `{value}`"
  | .real shown => s!"floating point `{shown}`"
  | .str value => "string " ++ Text.quoted value
  | .sequence => "sequence"
  | .map => "map"
  | .unitVariant => "unit variant"

def counted (size : Nat) : String :=
  if size = 1 then "1 element" else s!"{size} elements"

def Wanted.describe : Wanted → String
  | .text => "a string"
  | .truth => "a boolean"
  | .natural32 => "u32"
  | .integer64 => "i64"
  | .sequence => "a sequence"
  | .textMap => "a map with string keys"
  | .map => "a map"
  | .unit => "unit"
  | .singleKey => "map with a single key"
  | .textOrMap => "string or map"
  | .newtypeVariant => "newtype variant"
  | .structVariant => "struct variant"
  | .variantName => "variant identifier"
  | .taggedUnion name => s!"internally tagged enum {name}"
  | .record name => s!"struct {name}"
  | .recordOf name size => s!"struct {name} with {counted size}"
  | .fewer => "fewer elements in array"
  | .itemsOf size => s!"{counted size} in sequence"

-- Two names are parted by a word, more are listed.
def choiceText (known : List String) : String :=
  match known.map fun name => "`" ++ name ++ "`" with
  | [] => "there are no variants"
  | [one] => "expected " ++ one
  | [one, other] => "expected " ++ one ++ " or " ++ other
  | names => "expected one of " ++ ", ".intercalate names

namespace Fault

def message : Fault → String
  | .wrongKind found wanted => s!"invalid type: {found.describe}, expected {wanted.describe}"
  | .wrongValue found wanted => s!"invalid value: {found.describe}, expected {wanted.describe}"
  | .wrongLength size wanted => s!"invalid length {size}, expected {wanted.describe}"
  | .missing key => s!"missing field `{key}`"
  | .repeated key => s!"duplicate field `{key}`"
  | .unknownVariant name known => s!"unknown variant `{name}`, {choiceText known}"
  | .kindNotText given => s!"field `type` must be a string, got {given.compress}"
  | .malformed => "malformed text"
  | .under _ fault => fault.message

-- The keys that lead to the fault, as far as they were kept.
def place : Fault → List String
  | .under key fault => key :: fault.place
  | _ => []

end Fault

end ContentTypes.Reading
