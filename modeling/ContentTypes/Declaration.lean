import ContentTypes.Json.Printer

namespace ContentTypes

inductive Ty where
  -- A type of the field library, which stands under a namespace.
  | library (name : String) (args : List Ty)
  -- A type by its bare name: a declaration, a parameter or a global helper.
  | named (name : String) (args : List Ty)
  | literal (text : String)
  -- The empty union has no values.
  | union (members : List Ty)
  | string
  | null
  | never
  | unknown

namespace Ty

instance : Inhabited Ty := ⟨.unknown⟩

-- The record of this name, shown with its properties.
def simplified (name : String) : Ty := .named "Simplify" [.named name []]

def literalUnion (texts : List String) : Ty := .union (texts.map .literal)

-- A union that is known to be empty is written as the type without values.
def unionOrNever : List Ty → Ty
  | [] => .never
  | members => .union members

def qualified (spaceName name : String) : String :=
  if spaceName = "" then name else spaceName ++ "." ++ name

theorem toList_qualified {spaceName : String} (h : spaceName ≠ "") (name : String) :
    (qualified spaceName name).toList = spaceName.toList ++ '.' :: name.toList := by
  simp [qualified, h]

def applied (name : String) (args : List String) : String :=
  if args.isEmpty then name else name ++ "<" ++ ", ".intercalate args ++ ">"

mutual

-- The text of a type expression. Library types stand under the namespace, if there is one.
def render (spaceName : String) : Ty → String
  | .library name args => applied (qualified spaceName name) (renderAll spaceName args)
  | .named name args => applied name (renderAll spaceName args)
  | .literal text => Json.quote text
  | .union [] => "never"
  | .union members => " | ".intercalate (renderAll spaceName members)
  | .string => "string"
  | .null => "null"
  | .never => "never"
  | .unknown => "unknown"

def renderAll (spaceName : String) : List Ty → List String
  | [] => []
  | ty :: rest => ty.render spaceName :: renderAll spaceName rest

end

end Ty

structure DocTag where
  name : String
  text : String
  deriving DecidableEq, Repr

-- Lines of description, then tags.
structure Docs where
  lines : List String
  tags : List DocTag
  deriving DecidableEq, Repr

namespace Docs

def empty : Docs := ⟨[], []⟩

instance : Inhabited Docs := ⟨empty⟩

def line (text : String) : Docs := ⟨[text], []⟩

def withTag (docs : Docs) (name text : String) : Docs :=
  { docs with tags := docs.tags ++ [⟨name, text⟩] }

def isEmpty (docs : Docs) : Bool := docs.lines.isEmpty && docs.tags.isEmpty

end Docs

structure Property where
  name : String
  ty : Ty
  docs : Docs

structure TypeParam where
  name : String
  bound : Option Ty
  default : Option Ty

inductive DeclarationKind where
  | record (properties : List Property)
  | alias (params : List TypeParam) (ty : Ty)

structure Declaration where
  name : String
  docs : Docs
  exported : Bool
  kind : DeclarationKind

namespace Declaration

def ofRecord (name : String) (properties : List Property) : Declaration :=
  ⟨name, .empty, false, .record properties⟩

def ofAlias (name : String) (ty : Ty) : Declaration := ⟨name, .empty, false, .alias [] ty⟩

def withDocs (declaration : Declaration) (docs : Docs) : Declaration := { declaration with docs }

@[simp] theorem name_ofAlias (name : String) (ty : Ty) : (ofAlias name ty).name = name := rfl

@[simp] theorem name_withDocs (declaration : Declaration) (docs : Docs) :
    (declaration.withDocs docs).name = declaration.name := rfl

-- A record has no parameters.
def withParams (declaration : Declaration) (params : List TypeParam) : Declaration :=
  match declaration.kind with
  | .alias _ ty => { declaration with kind := .alias params ty }
  | .record _ => declaration

def asExported (declaration : Declaration) : Declaration := { declaration with exported := true }

def properties (declaration : Declaration) : List Property :=
  match declaration.kind with
  | .record properties => properties
  | .alias _ _ => []

def aliased? (declaration : Declaration) : Option Ty :=
  match declaration.kind with
  | .record _ => none
  | .alias _ ty => some ty

end Declaration

end ContentTypes
