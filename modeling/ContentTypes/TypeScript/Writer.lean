import ContentTypes.TypeScript

namespace ContentTypes.TypeScript

-- What is written so far, and how deep the next line stands.
structure Writer where
  output : String
  depth : Nat

-- The blanks before a line that stands so deep.
def indentation : Nat → String
  | 0 => ""
  | depth + 1 => "  " ++ indentation depth

namespace Writer

def start : Writer := ⟨"", 0⟩

def put (w : Writer) (text : String) : Writer := { w with output := w.output ++ text }

def deeper (w : Writer) : Writer := { w with depth := w.depth + 1 }

def shallower (w : Writer) : Writer := { w with depth := w.depth - 1 }

def putIndent (w : Writer) : Writer := w.put (indentation w.depth)

def putDocLine (w : Writer) (line : String) : Writer :=
  if line = "" then w.putIndent.put " *\n"
  else w.putIndent.put (" * " ++ String.ofList (protect line.toList) ++ "\n")

def putTag (w : Writer) (tag : DocTag) : Writer := w.putDocLine s!"@{tag.name} {tag.text}"

-- An empty line parts the description from the tags, if there is something of both.
def putDocs (w : Writer) (docs : Docs) : Writer :=
  if docs.isEmpty then w
  else
    let described := docs.lines.foldl putDocLine (w.putIndent.put "/**\n")
    let parted :=
      if !docs.lines.isEmpty && !docs.tags.isEmpty then described.putDocLine "" else described
    (docs.tags.foldl putTag parted).putIndent.put " */\n"

def putExport (w : Writer) (options : Options) (exported : Bool) : Writer :=
  if exported || options.exportAll then w.put "export " else w

def putField (w : Writer) (field : RecordField) : Writer :=
  (w.putDocs field.docs).putIndent.put (propertyKey field.name ++ ": " ++ field.ty ++ ";\n")

-- A record without fields is closed on the line that opens it.
def putRecord (w : Writer) (options : Options) (item : RecordItem) : Writer :=
  let opened := ((w.putDocs item.docs).putExport options item.exported).put
    ("interface " ++ item.name ++ " \x7b")
  if item.fields.isEmpty then opened.put "\x7d\n"
  else (item.fields.foldl putField (opened.put "\n").deeper).shallower.put "\x7d\n"

def putParams (w : Writer) (params : List GenericParam) : Writer :=
  if params.isEmpty then w else w.put ("<" ++ ", ".intercalate (params.map paramText) ++ ">")

def putAlias (w : Writer) (options : Options) (item : AliasItem) : Writer :=
  let named := ((w.putDocs item.docs).putExport options item.exported).put ("type " ++ item.name)
  (named.putParams item.params).put (" = " ++ item.ty ++ ";\n")

def putItem (w : Writer) (options : Options) : Item → Writer
  | .record item => w.putRecord options item
  | .alias item => w.putAlias options item

-- `place` tells how many items stand before these. An empty line parts an item from what it
-- follows.
def putItems (options : Options) : Nat → Writer → List Item → Writer
  | _, w, [] => w
  | place, w, item :: rest =>
      let parted := if place > 0 || options.header then w.put "\n" else w
      putItems options (place + 1) (parted.putItem options item) rest

def putHeader (w : Writer) (options : Options) : Writer :=
  let imported :=
    if options.spaceName = "" then w
    else (w.put s!"import type * as {options.spaceName} from {Json.quote options.library};\n").put "\n"
  ((imported.put "type Simplify<T> = \x7b\n").put "  [KeyType in keyof T]: T[KeyType];\n").put
    "\x7d;\n"

def putModule (w : Writer) (options : Options) (m : Module) : Writer :=
  putItems options 0 (if options.header then w.putHeader options else w) m.items

end Writer

end ContentTypes.TypeScript
