import ContentTypes.Toml.Dated
import ContentTypes.Toml.Outline

namespace ContentTypes.Toml

-- So many arrays and tables may lie inside of each other, and so many keys may be joined by dots.
def depthLimit : Nat := 79

def isKeyChar (c : Char) : Bool := c.isAlphanum || c = '_' || c = '-'

private def bareKey : Parser String := do
  let chars ← guarded (!·.isEmpty) (charsWhile isKeyChar)
  return String.ofList chars

private def simpleKey : Parser String := do
  blanks
  let key ← shortText <|> bareKey
  blanks
  return key

-- A dotted key: the keys that lead to a table, and the last one.
def dottedKey : Nat → Parser (List String × String)
  | 0 => failure
  | more + 1 => do
      let key ← simpleKey
      match ← optional (exactly '.') with
      | none => return ([], key)
      | some () =>
          let (path, last) ← dottedKey more
          return (key :: path, last)

def keyPath : Parser (List String × String) := dottedKey depthLimit

private def lineEnd : Parser Unit
  | '\n' :: rest => some ((), rest)
  | '\r' :: '\n' :: rest => some ((), rest)
  | _ => none

private def comment : Parser Unit := do
  exactly '#'
  let _ ← charsWhile isPlainChar

-- Blanks, comments and line ends, as they may stand around the items of an array.
private def space : Nat → Parser Unit
  | 0 => return ()
  | more + 1 => do
      blanks
      let _ ← optional comment
      match ← optional lineEnd with
      | none => return ()
      | some () => space more

-- One thing and more of it after commas. What `more` counts is as long as the text.
def separated {α : Type} (one : Parser α) : Nat → Parser (List α)
  | 0 => failure
  | more + 1 => do
      let first ← one
      let rest ← (do exactly ','; separated one more) <|> return []
      return first :: rest

private def length : Parser Nat := fun chars => some (chars.length, chars)

def between (value : Parser Toml) : Parser Toml := do
  let size ← length
  space size
  let found ← value
  let size ← length
  space size
  return found

-- A comma may stand behind the last item of an array.
def array (value : Parser Toml) : Parser Toml := do
  exactly '['
  let size ← length
  let items ← optional (do
    let items ← separated (between value) size
    let _ ← optional (exactly ',')
    return items)
  let size ← length
  space size
  exactly ']'
  return .arr (items.getD [])

def pair (value : Parser Toml) : Parser (List String × String × Toml) := do
  let (path, key) ← keyPath
  exactly '='
  blanks
  let found ← value
  blanks
  return (path, key, found)

-- No comma may stand behind the last entry of a table.
def inlineTable (value : Parser Toml) : Parser Toml := do
  exactly '{'
  let size ← length
  let pairs ← optional (separated (pair value) size)
  blanks
  exactly '}'
  let table ← StateT.lift (Table.ofPairs? (pairs.getD []))
  return .table table

def truth : Parser Toml :=
  (do word ['t', 'r', 'u', 'e']; return .bool true) <|>
  (do word ['f', 'a', 'l', 's', 'e']; return .bool false)

def scalar : Parser Toml :=
  (return .str (← text)) <|> truth <|> dateOrTime <|> decimalFloat <|> specialFloat <|> integer

-- A value that may hold `levels` more arrays and tables inside of each other.
def value : Nat → Parser Toml
  | 0 => scalar
  | levels + 1 => array (value levels) <|> inlineTable (value levels) <|> scalar

-- What may follow on a line that has said something.
private def trailing : Parser Unit := do
  blanks
  let _ ← optional comment
  match ← get with
  | [] => return ()
  | _ => lineEnd

def statement : Parser Statement
  | '[' :: '[' :: rest => (do
      let (path, key) ← keyPath
      word [']', ']']
      trailing
      return Statement.element path key) rest
  | '[' :: rest => (do
      let (path, key) ← keyPath
      exactly ']'
      trailing
      return Statement.table path key) rest
  | chars => (do
      let (path, key) ← keyPath
      exactly '='
      blanks
      let found ← value depthLimit
      trailing
      return Statement.assign path key found) chars

-- The statements of a text, line by line. `more` counts the lines at least.
def statements : Nat → Parser (List Statement)
  | 0 => failure
  | more + 1 => do
      blanks
      match ← get with
      | [] => return []
      | c :: _ =>
          if c = '#' || c = '\n' || c = '\r' then
            trailing
            statements more
          else
            let first ← statement
            let rest ← statements more
            return first :: rest

private def dropMark : List Char → List Char
  | c :: rest => if c = '\ufeff' then rest else c :: rest
  | [] => []

-- The table of a text, if it is one. A byte order mark may come first.
def ofText? (text : String) : Option Table := do
  let chars := dropMark text.toList
  let (found, _) ← statements (chars.length + 1) chars
  let table ← Table.ofStatements? found
  table.dated?

end ContentTypes.Toml
