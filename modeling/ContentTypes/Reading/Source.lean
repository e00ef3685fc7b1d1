import ContentTypes.Json.Document
import ContentTypes.Reading.Fault

namespace ContentTypes.Reading

-- What one look at a value shows. Keys that are not text can be passed over but not read.
inductive Glance (σ : Type) where
  | null
  | bool (value : Bool)
  | int (value : Int)
  | real (shown : String)
  | str (value : String)
  | arr (items : List σ)
  | obj (members : List (Option String × σ))

def Glance.found {σ : Type} : Glance σ → Found
  | .null => .null
  | .bool value => .bool value
  | .int value => .int value
  | .real shown => .real shown
  | .str value => .str value
  | .arr _ => .sequence
  | .obj _ => .map

-- A decoder looks at one value at a time and decides what to do with what lies inside, so the same
-- decoders read JSON values, JSON text and settings.
class Source (σ : Type) where
  look : σ → Except Fault (Glance σ)
  -- Passes over a value that nobody wants.
  skip : σ → Except Fault Unit
  -- The fault of an array that is longer than the record read from it.
  surplus : Nat → Fault
  -- Tells that a fault lies under a key.
  under : String → Fault → Fault

-- Sources of JSON, whose values can be taken as they are.
class JsonSource (σ : Type) extends Source σ where
  value : σ → Except Fault Json

def glanceNumber {σ : Type} : Number → Glance σ
  | .int value => .int value
  | .real bits => .real (Decimal.Layout.json.text bits)

def glanceJson : Json → Glance Json
  | .null => .null
  | .bool value => .bool value
  | .num value => glanceNumber value
  | .str value => .str value
  | .arr items => .arr items
  | .obj ⟨members⟩ => .obj (members.map fun (key, value) => (some key, value))

instance : JsonSource Json where
  look value := .ok (glanceJson value)
  skip _ := .ok ()
  surplus size := .wrongLength size .fewer
  under _ fault := fault
  value := .ok

def glanceDocument : Document → Except Fault (Glance Document)
  | .null => .ok .null
  | .bool value => .ok (.bool value)
  | .num (some value) => .ok (glanceNumber value)
  | .str (some value) => .ok (.str value)
  | .arr items => .ok (.arr items)
  | .obj members => .ok (.obj members)
  | .num none => .error .malformed
  | .str none => .error .malformed
  | .deep _ => .error .malformed
  | .broken => .error .malformed

instance : JsonSource Document where
  look := glanceDocument
  skip value := if value.isSound then .ok () else .error .malformed
  surplus _ := .malformed
  under _ fault := fault
  value document := document.value?.elim (.error .malformed) .ok

end ContentTypes.Reading
