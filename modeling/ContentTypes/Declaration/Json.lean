import ContentTypes.Declaration
import ContentTypes.Reading.Variant

namespace ContentTypes

open Reading

namespace Ty

def variantNames : List String :=
  ["Library", "Named", "StringLiteral", "Union", "String", "Null", "Never", "Unknown"]

mutual

def toJson : Ty → Json
  | .library name args =>
      .tagged "Library" (.record [("name", name), ("args", .arr (toJsons args))])
  | .named name args => .tagged "Named" (.record [("name", name), ("args", .arr (toJsons args))])
  | .literal text => .tagged "StringLiteral" text
  | .union members => .tagged "Union" (.arr (toJsons members))
  | .string => "String"
  | .null => "Null"
  | .never => "Never"
  | .unknown => "Unknown"

def toJsons : List Ty → List Json
  | [] => []
  | ty :: rest => ty.toJson :: toJsons rest

end

-- A generic type without the tag that tells where its name is declared.
structure Applied where
  name : String
  args : List Ty

def Applied.shape (readTy : Reader Json Ty) : Shape Json Applied where
  name := "Type"
  blank := ⟨"", []⟩
  slots :=
    [ slot "name" .required text fun t name => { t with name }
    , slot "args" .required (list readTy) fun t args => { t with args } ]

-- One level of a type. The types inside it are read by `readTy`.
def readLevel (readTy : Reader Json Ty) : Reader Json Ty := fun value => do
  let v ← variant value
  match v.name with
  | "Library" => (v.struct (Applied.shape readTy)).map fun t => .library t.name t.args
  | "Named" => (v.struct (Applied.shape readTy)).map fun t => .named t.name t.args
  | "StringLiteral" => (v.newtype text).map .literal
  | "Union" => (v.newtype (list readTy)).map .union
  | "String" => v.unit.map fun _ => .string
  | "Null" => v.unit.map fun _ => .null
  | "Never" => v.unit.map fun _ => .never
  | "Unknown" => v.unit.map fun _ => .unknown
  | name => .error (.unknownVariant name variantNames)

def readLevels : Nat → Reader Json Ty
  | 0 => fun _ => .error .malformed
  | levels + 1 => readLevel (readLevels levels)

-- A type has no more levels than its value is deep.
def ofJson : Reader Json Ty := fun value => readLevels (value.depth + 1) value

end Ty

namespace DocTag

def toJson (tag : DocTag) : Json := .record [("name", tag.name), ("text", tag.text)]

def shape : Shape Json DocTag where
  name := "DocTag"
  blank := ⟨"", ""⟩
  slots :=
    [ slot "name" .required Reading.text fun t name => { t with name }
    , slot "text" .required Reading.text fun t text => { t with text } ]

end DocTag

namespace Docs

def toJson (docs : Docs) : Json :=
  .record [("lines", .ofList .str docs.lines), ("tags", .ofList DocTag.toJson docs.tags)]

def shape : Shape Json Docs where
  name := "Docs"
  blank := .empty
  slots :=
    [ slot "lines" .required (list text) fun d lines => { d with lines }
    , slot "tags" .required (list DocTag.shape.read) fun d tags => { d with tags } ]

def ofJson : Reader Json Docs := shape.read

end Docs

namespace Property

def toJson (property : Property) : Json :=
  .record [("name", property.name), ("ty", property.ty.toJson), ("docs", property.docs.toJson)]

def shape : Shape Json Property where
  name := "Property"
  blank := ⟨"", .unknown, .empty⟩
  slots :=
    [ slot "name" .required text fun p name => { p with name }
    , slot "ty" .required Ty.ofJson fun p ty => { p with ty }
    , slot "docs" .required Docs.ofJson fun p docs => { p with docs } ]

def ofJson : Reader Json Property := shape.read

end Property

namespace TypeParam

-- A bound that is absent is null; a bound that is the null type is the name of that type.
def toJson (param : TypeParam) : Json :=
  .record [("name", param.name), ("constraint", .ofOption Ty.toJson param.bound),
    ("default", .ofOption Ty.toJson param.default)]

def shape : Shape Json TypeParam where
  name := "TypeParam"
  blank := ⟨"", none, none⟩
  slots :=
    [ slot "name" .required text fun p name => { p with name }
    , slot "constraint" .nullable (Reading.optional Ty.ofJson) fun p bound => { p with bound }
    , slot "default" .nullable (Reading.optional Ty.ofJson) fun p default => { p with default } ]

def ofJson : Reader Json TypeParam := shape.read

end TypeParam

namespace DeclarationKind

def toJson : DeclarationKind → Json
  | .record properties => .tagged "Record" (.ofList Property.toJson properties)
  | .alias params ty =>
      .tagged "Alias" (.record [("params", .ofList TypeParam.toJson params), ("ty", ty.toJson)])

-- An alias without its tag.
structure Aliased where
  params : List TypeParam
  ty : Ty

def Aliased.shape : Shape Json Aliased where
  name := "DeclarationKind"
  blank := ⟨[], .unknown⟩
  slots :=
    [ slot "params" .required (list TypeParam.ofJson) fun a params => { a with params }
    , slot "ty" .required Ty.ofJson fun a ty => { a with ty } ]

def ofJson : Reader Json DeclarationKind := fun value => do
  let v ← variant value
  match v.name with
  | "Record" => (v.newtype (list Property.ofJson)).map .record
  | "Alias" => (v.struct Aliased.shape).map fun a => .alias a.params a.ty
  | name => .error (.unknownVariant name ["Record", "Alias"])

end DeclarationKind

namespace Declaration

def toJson (declaration : Declaration) : Json :=
  .record [("name", declaration.name), ("docs", declaration.docs.toJson),
    ("exported", .ofBool declaration.exported), ("kind", declaration.kind.toJson)]

def shape : Shape Json Declaration where
  name := "Declaration"
  blank := .ofRecord "" []
  slots :=
    [ slot "name" .required text fun d name => { d with name }
    , slot "docs" .required Docs.ofJson fun d docs => { d with docs }
    , slot "exported" .required truth fun d exported => { d with exported }
    , slot "kind" .required DeclarationKind.ofJson fun d kind => { d with kind } ]

def ofJson : Reader Json Declaration := shape.read

end Declaration

end ContentTypes
