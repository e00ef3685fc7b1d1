import ContentTypes.Reading.Record

namespace ContentTypes.Reading

structure Variant where
  name : String
  content : Option Json

def variant : Reader Json Variant
  | .str name => .ok ⟨name, none⟩
  | .obj ⟨[(name, content)]⟩ => .ok ⟨name, some content⟩
  | .obj _ => .error (.wrongValue .map .singleKey)
  | other => refuse (glanceJson other) .textOrMap

namespace Variant

-- The content of a variant that has none.
def unit (v : Variant) : Except Fault Unit :=
  match v.content with
  | none => .ok ()
  | some .null => .ok ()
  | some other => refuse (glanceJson other) .unit

def newtype {α : Type} (read : Reader Json α) (v : Variant) : Except Fault α :=
  match v.content with
  | none => .error (.wrongKind .unitVariant .newtypeVariant)
  | some content => read content

-- Here a record has to be an object.
def struct {ρ : Type} (shape : Shape Json ρ) (v : Variant) : Except Fault ρ :=
  match v.content with
  | none => .error (.wrongKind .unitVariant .structVariant)
  | some (.obj members) => shape.read (.obj members)
  | some other => refuse (glanceJson other) .structVariant

end Variant

end ContentTypes.Reading
