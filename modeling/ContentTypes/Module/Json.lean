import ContentTypes.Declaration.Json
import ContentTypes.Module

namespace ContentTypes

open Reading

namespace GenericParam

def toJson (param : GenericParam) : Json :=
  .record [("name", param.name), ("constraint", .ofOption .str param.bound),
    ("default", .ofOption .str param.default)]

def shape : Shape Json GenericParam where
  name := "GenericParam"
  blank := ⟨"", none, none⟩
  slots :=
    [ slot "name" .required text fun p name => { p with name }
    , slot "constraint" .nullable (optional text) fun p bound => { p with bound }
    , slot "default" .nullable (optional text) fun p default => { p with default } ]

def ofJson : Reader Json GenericParam := shape.read

end GenericParam

namespace RecordField

def toJson (field : RecordField) : Json :=
  .record [("name", field.name), ("ty", field.ty), ("docs", field.docs.toJson)]

def shape : Shape Json RecordField where
  name := "RecordField"
  blank := ⟨"", "", .empty⟩
  slots :=
    [ slot "name" .required text fun f name => { f with name }
    , slot "ty" .required text fun f ty => { f with ty }
    , slot "docs" .required Docs.ofJson fun f docs => { f with docs } ]

end RecordField

namespace RecordItem

def toJson (item : RecordItem) : Json :=
  .record [("name", item.name), ("docs", item.docs.toJson), ("exported", .ofBool item.exported),
    ("fields", .ofList RecordField.toJson item.fields)]

def shape : Shape Json RecordItem where
  name := "RecordItem"
  blank := ⟨"", .empty, false, []⟩
  slots :=
    [ slot "name" .required text fun r name => { r with name }
    , slot "docs" .required Docs.ofJson fun r docs => { r with docs }
    , slot "exported" .required truth fun r exported => { r with exported }
    , slot "fields" .required (list RecordField.shape.read) fun r fields => { r with fields } ]

end RecordItem

namespace AliasItem

def toJson (item : AliasItem) : Json :=
  .record [("name", item.name), ("docs", item.docs.toJson), ("exported", .ofBool item.exported),
    ("params", .ofList GenericParam.toJson item.params), ("ty", item.ty)]

def shape : Shape Json AliasItem where
  name := "AliasItem"
  blank := ⟨"", .empty, false, [], ""⟩
  slots :=
    [ slot "name" .required text fun a name => { a with name }
    , slot "docs" .required Docs.ofJson fun a docs => { a with docs }
    , slot "exported" .required truth fun a exported => { a with exported }
    , slot "params" .required (list GenericParam.ofJson) fun a params => { a with params }
    , slot "ty" .required text fun a ty => { a with ty } ]

end AliasItem

namespace Item

def toJson : Item → Json
  | .record item => .tagged "Record" item.toJson
  | .alias item => .tagged "Alias" item.toJson

def ofJson : Reader Json Item := fun value => do
  let v ← variant value
  match v.name with
  | "Record" => (v.newtype RecordItem.shape.read).map .record
  | "Alias" => (v.newtype AliasItem.shape.read).map .alias
  | name => .error (.unknownVariant name ["Record", "Alias"])

end Item

namespace Module

def toJson (m : Module) : Json := .record [("items", .ofList Item.toJson m.items)]

def shape : Shape Json Module where
  name := "Module"
  blank := .empty
  slots := [slot "items" .required (list Item.ofJson) fun _ items => ⟨items⟩]

def ofJson : Reader Json Module := shape.read

end Module

end ContentTypes
