import ContentTypes.OrderedMap

namespace ContentTypes

-- A number without fraction or exponent is an integer where 64 bits hold it, signed or not.
-- Any other number is the binary fraction with these bits.
inductive Number where
  | int (value : Int)
  | real (bits : UInt64)
  deriving DecidableEq, Repr

-- The bounds of signed integers of 64 bits.
def int64Min : Int := -9223372036854775808

def int64Max : Int := 9223372036854775807

-- An object keeps the order of its keys, for the order of fields and choices has a meaning.
inductive Json where
  | null
  | bool (value : Bool)
  | num (value : Number)
  | str (value : String)
  | arr (items : List Json)
  | obj (members : OrderedMap Json)

namespace Json

instance : Inhabited Json := ⟨.null⟩

instance : Coe String Json := ⟨.str⟩

def ofNat (n : Nat) : Json := .num (.int n)

def ofBool (b : Bool) : Json := .bool b

-- An object whose keys are known to differ.
def record (members : List (String × Json)) : Json := .obj ⟨members⟩

-- An object with a single key, the name of a variant.
def tagged (name : String) (content : Json) : Json := .record [(name, content)]

-- An absent value is written as null.
def ofOption {α : Type} (write : α → Json) : Option α → Json
  | none => .null
  | some value => write value

def ofList {α : Type} (write : α → Json) (values : List α) : Json :=
  .arr (values.map write)

-- The value under a key of an object; other values have no keys.
def get? (key : String) : Json → Option Json
  | .obj members => members.get? key
  | _ => none

def text? : Json → Option String
  | .str value => some value
  | _ => none

mutual

-- How many arrays and objects lie around the innermost value, at most.
def depth : Json → Nat
  | .arr items => depthItems items + 1
  | .obj ⟨members⟩ => depthMembers members + 1
  | _ => 0

def depthItems : List Json → Nat
  | [] => 0
  | item :: rest => max item.depth (depthItems rest)

def depthMembers : List (String × Json) → Nat
  | [] => 0
  | (_, value) :: rest => max value.depth (depthMembers rest)

end

end Json

end ContentTypes
