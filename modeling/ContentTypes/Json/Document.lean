import ContentTypes.Json.Basic

namespace ContentTypes

-- A JSON text as a reader finds it from left to right: keys may repeat, and the text may break off.
-- What comes after a break is not there, so a decoder that stops before the break never learns of
-- it.
inductive Document where
  | null
  | bool (value : Bool)
  -- Numbers beyond the range of fractions can be passed over but not read.
  | num (value : Option Number)
  -- So can texts that escape half of a surrogate pair.
  | str (value : Option String)
  | arr (items : List Document)
  | obj (members : List (Option String × Document))
  -- Nested too deep to be read; it can be passed over.
  | deep (inner : Document)
  -- Here the text stops being JSON.
  | broken

namespace Document

instance : Inhabited Document := ⟨.broken⟩

mutual

-- Whether the text of this value is JSON, be it readable or not.
def isSound : Document → Bool
  | .arr items => soundItems items
  | .obj members => soundMembers members
  | .deep inner => inner.isSound
  | .broken => false
  | _ => true

def soundItems : List Document → Bool
  | [] => true
  | item :: rest => item.isSound && soundItems rest

def soundMembers : List (Option String × Document) → Bool
  | [] => true
  | (_, value) :: rest => value.isSound && soundMembers rest

end

mutual

-- The value that the text stands for. A later value of a key replaces the earlier one in place.
def value? : Document → Option Json
  | .null => some .null
  | .bool value => some (.bool value)
  | .num value => value.map .num
  | .str value => value.map .str
  | .arr items => (values? items).map .arr
  | .obj members => (members? members).map fun pairs => .obj (.ofList pairs)
  | .deep _ => none
  | .broken => none

def values? : List Document → Option (List Json)
  | [] => some []
  | item :: rest => do
      let value ← item.value?
      let values ← values? rest
      return value :: values

def members? : List (Option String × Document) → Option (List (String × Json))
  | [] => some []
  | (key, item) :: rest => do
      let name ← key
      let value ← item.value?
      let pairs ← members? rest
      return (name, value) :: pairs

end

end Document

end ContentTypes
