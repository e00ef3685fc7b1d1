import ContentTypes.Module

namespace ContentTypes.TypeScript

structure Options where
  -- The name under which the field library is imported.
  spaceName : String
  -- Where the field library is imported from.
  library : String
  -- Whether every declaration is exported, or only those marked so.
  exportAll : Bool
  -- Whether the import of the library and the helper type are written.
  header : Bool
  deriving DecidableEq, Repr

-- Without a namespace there is nothing to import.
def importText (options : Options) : String :=
  if options.spaceName = "" then ""
  else s!"import type * as {options.spaceName} from {Json.quote options.library};\n\n"

def headerText (options : Options) : String :=
  importText options ++
  "type Simplify<T> = \x7b\n  [KeyType in keyof T]: T[KeyType];\n\x7d;\n"

-- The end of a comment must not stand inside of it.
def protect : List Char → List Char
  | '*' :: '/' :: rest => '*' :: '\\' :: '/' :: protect rest
  | c :: rest => c :: protect rest
  | [] => []

def docLine (indent line : String) : String :=
  if line = "" then indent ++ " *\n"
  else indent ++ " * " ++ String.ofList (protect line.toList) ++ "\n"

-- Description lines, then the tags, with an empty line between the two.
def docLines (docs : Docs) : List String :=
  docs.lines ++
  (if docs.lines.isEmpty || docs.tags.isEmpty then [] else [""]) ++
  docs.tags.map fun tag => s!"@{tag.name} {tag.text}"

def docBlock (indent : String) (docs : Docs) : String :=
  if docs.isEmpty then ""
  else indent ++ "/**\n" ++ String.join ((docLines docs).map (docLine indent)) ++ indent ++ " */\n"

def exportText (options : Options) (exported : Bool) : String :=
  if exported || options.exportAll then "export " else ""

def isIdentifierStart (c : Char) : Bool := c.isAlpha || c = '_' || c = '$'

def isIdentifierPart (c : Char) : Bool := c.isAlphanum || c = '_' || c = '$'

def isIdentifier (name : String) : Bool :=
  match name.toList with
  | [] => false
  | first :: rest => isIdentifierStart first && rest.all isIdentifierPart

theorem isIdentifierPart_of_mem {name : String} (h : isIdentifier name) :
    ∀ c ∈ name.toList, isIdentifierPart c := by
  have hstart : ∀ c, isIdentifierStart c → isIdentifierPart c := by
    intro c hc
    simp only [isIdentifierStart, isIdentifierPart, Char.isAlphanum, Bool.or_eq_true] at hc ⊢
    exact hc.imp_left (Or.imp_left Or.inl)
  unfold isIdentifier at h
  cases hn : name.toList with
  | nil => simp
  | cons first rest =>
      simp only [hn, Bool.and_eq_true, List.all_eq_true] at h
      intro c hc
      rcases List.mem_cons.mp hc with rfl | hc
      · exact hstart c h.1
      · exact h.2 c hc

def propertyKey (name : String) : String := if isIdentifier name then name else Json.quote name

def fieldText (field : RecordField) : String :=
  docBlock "  " field.docs ++ "  " ++ propertyKey field.name ++ ": " ++ field.ty ++ ";\n"

def fieldsText (fields : List RecordField) : String :=
  if fields.isEmpty then "\x7b\x7d\n"
  else "\x7b\n" ++ String.join (fields.map fieldText) ++ "\x7d\n"

def recordText (options : Options) (item : RecordItem) : String :=
  docBlock "" item.docs ++ exportText options item.exported ++
  "interface " ++ item.name ++ " " ++ fieldsText item.fields

def paramText (param : GenericParam) : String :=
  param.name ++ (param.bound.map (" extends " ++ ·)).getD "" ++
  (param.default.map (" = " ++ ·)).getD ""

def paramsText (params : List GenericParam) : String :=
  if params.isEmpty then "" else "<" ++ ", ".intercalate (params.map paramText) ++ ">"

def aliasText (options : Options) (item : AliasItem) : String :=
  docBlock "" item.docs ++ exportText options item.exported ++
  "type " ++ item.name ++ paramsText item.params ++ " = " ++ item.ty ++ ";\n"

def itemText (options : Options) : Item → String
  | .record item => recordText options item
  | .alias item => aliasText options item

-- An empty line parts the items from each other and from the header.
def moduleText (options : Options) (m : Module) : String :=
  let blocks := m.items.map (itemText options)
  "\n".intercalate (if options.header then headerText options :: blocks else blocks)

end ContentTypes.TypeScript
