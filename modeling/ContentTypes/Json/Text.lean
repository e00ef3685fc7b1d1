import ContentTypes.Json.Document
import ContentTypes.Json.Literal

namespace ContentTypes

namespace Document

-- Readable values lie in at most this many arrays and objects.
def depthLimit : Nat := 127

def isBlank (c : Char) : Bool := c = ' ' || c = '\n' || c = '\t' || c = '\r'

def skipBlanks (chars : List Char) : List Char := chars.dropWhile isBlank

-- What was read, and what follows it unless the text broke off.
abbrev Step (α : Type) := α × Option (List Char)

def word (expected : List Char) (found : Document) (chars : List Char) : Step Document :=
  if expected.isPrefixOf chars then (found, some (chars.drop expected.length)) else (.broken, none)

def scalar (chars : List Char) : Step Document :=
  match chars with
  | 'n' :: _ => word ['n', 'u', 'l', 'l'] .null chars
  | 't' :: _ => word ['t', 'r', 'u', 'e'] (.bool true) chars
  | 'f' :: _ => word ['f', 'a', 'l', 's', 'e'] (.bool false) chars
  | '"' :: rest =>
      match Json.unquote? rest with
      | some (text, rest) => (.str text, some rest)
      | none => (.broken, none)
  | _ =>
      match Number.Literal.read? chars with
      | some (literal, rest) => (.num literal.value?, some rest)
      | none => (.broken, none)

def bounded (depth : Nat) (value : Document) : Document :=
  if depth < depthLimit then value else .deep value

mutual

-- Reads one value that lies in `depth` arrays and objects. No call reads the same character twice
-- at one level, so twice the length of the text is fuel enough.
def readValue : Nat → Nat → List Char → Step Document
  | 0, _, _ => (.broken, none)
  | fuel + 1, depth, chars =>
      match skipBlanks chars with
      | '[' :: rest =>
          match skipBlanks rest with
          | ']' :: rest => (bounded depth (.arr []), some rest)
          | rest =>
              let (items, rest) := readItems fuel (depth + 1) rest
              (bounded depth (.arr items), rest)
      | '{' :: rest =>
          match skipBlanks rest with
          | '}' :: rest => (bounded depth (.obj []), some rest)
          | rest =>
              let (members, rest) := readMembers fuel (depth + 1) rest
              (bounded depth (.obj members), rest)
      | chars => scalar chars

-- Reads the items up to the closing bracket; at least one is due.
def readItems : Nat → Nat → List Char → Step (List Document)
  | 0, _, _ => ([.broken], none)
  | fuel + 1, depth, chars =>
      match readValue fuel depth chars with
      | (item, none) => ([item], none)
      | (item, some rest) =>
          match skipBlanks rest with
          | ']' :: rest => ([item], some rest)
          | ',' :: rest =>
              let (items, rest) := readItems fuel depth rest
              (item :: items, rest)
          | _ => ([item, .broken], none)

-- Reads the members up to the closing brace; at least one is due.
def readMembers : Nat → Nat → List Char → Step (List (Option String × Document))
  | 0, _, _ => ([(none, .broken)], none)
  | fuel + 1, depth, chars =>
      match skipBlanks chars with
      | '"' :: rest =>
          match Json.unquote? rest with
          | none => ([(none, .broken)], none)
          | some (key, rest) =>
              match skipBlanks rest with
              | ':' :: rest =>
                  match readValue fuel depth rest with
                  | (value, none) => ([(key, value)], none)
                  | (value, some rest) =>
                      match skipBlanks rest with
                      | '}' :: rest => ([(key, value)], some rest)
                      | ',' :: rest =>
                          let (members, rest) := readMembers fuel depth rest
                          ((key, value) :: members, rest)
                      | _ => ([(key, value), (none, .broken)], none)
              | _ => ([(key, .broken)], none)
      | _ => ([(none, .broken)], none)

end

-- The document at the front of a text, and whether nothing but blanks follows it.
structure Reading where
  root : Document
  isAll : Bool

-- Every text has a document: where it stops being JSON, the document is broken.
def read (text : String) : Reading :=
  let chars := text.toList
  let (root, rest) := readValue (2 * chars.length + 2) 0 chars
  ⟨root, rest.any fun rest => (skipBlanks rest).isEmpty⟩

end Document

-- The value of a JSON text, if it is one.
def Json.ofText? (text : String) : Option Json :=
  let reading := Document.read text
  if reading.isAll then reading.root.value? else none

end ContentTypes
