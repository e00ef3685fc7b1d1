import ContentTypes.Toml.Basic

namespace ContentTypes.Toml

-- How a table came to be decides whether a later line may add to it: dotted keys may not add to
-- what a header has defined, and no header may define a table twice.
inductive Origin where
  -- A header names it, or it is the root.
  | header
  -- A header names a table inside of it.
  | implied
  -- A dotted key goes through it.
  | dotted
  deriving DecidableEq, Repr

inductive Node where
  | value (value : Toml)
  | table (origin : Origin) (entries : OrderedMap Node)
  -- The tables of an array, the last of which takes what is added.
  | tables (elements : List (OrderedMap Node))

abbrev Outline := OrderedMap Node

namespace Node

mutual

def toToml : Node → Toml
  | .value inner => inner
  | .table _ ⟨entries⟩ => .table ⟨entriesToToml entries⟩
  | .tables elements => .arr (elementsToToml elements)

def entriesToToml : List (String × Node) → List (String × Toml)
  | [] => []
  | (key, node) :: rest => (key, node.toToml) :: entriesToToml rest

def elementsToToml : List (OrderedMap Node) → List Toml
  | [] => []
  | ⟨entries⟩ :: rest => .table ⟨entriesToToml entries⟩ :: elementsToToml rest

end

end Node

namespace Outline

def toTable (outline : Outline) : Table := ⟨Node.entriesToToml outline.entries⟩

-- Goes to the table at the end of a path. `change` learns how that table came to be, and gives its
-- new entries and whatever else is wanted. Tables that are not there yet get the origin `made`.
def visit {α : Type} (made : Origin) (change : Origin → Outline → Option (Outline × α)) :
    List String → Origin → Outline → Option (Outline × α)
  | [], origin, outline => change origin outline
  | key :: path, _, outline =>
      match outline.get? key with
      | none => do
          let (inner, found) ← visit made change path made .empty
          return (outline.insert key (.table made inner), found)
      | some (.value _) => none
      | some (.table origin inner) =>
          if made = .dotted && origin = .header then none
          else do
            let (inner, found) ← visit made change path origin inner
            return (outline.insert key (.table origin inner), found)
      | some (.tables elements) => do
          let (last, found) ← visit made change path .header (← elements.getLast?)
          return (outline.insert key (.tables (elements.dropLast ++ [last])), found)

def kept (outline : Outline) : Option (Outline × Unit) := some (outline, ())

-- Adds a value under a dotted key. A table that only headers have led to takes no dotted keys.
def assign (outline : Outline) (path : List String) (key : String) (value : Toml) :
    Option Outline :=
  (visit .dotted (fun origin entries =>
    if (path.isEmpty || origin = .dotted) && (entries.get? key).isNone then
      kept (entries.insert key (.value value))
    else none) path .header outline).map Prod.fst

-- The entries that a table has when its header opens it: those that other headers implied.
-- An open table has no place among its neighbours until it is closed.
def openTable (outline : Outline) (path : List String) (key : String) :
    Option (Outline × Outline) :=
  visit .implied (fun _ entries =>
    match entries.get? key with
    | none => some (entries, .empty)
    | some (.table .implied known) => some (entries.erase key, known)
    | some _ => none) path .header outline

-- Puts a table behind its neighbours, where its header says.
def closeTable (outline : Outline) (path : List String) (key : String) (table : Outline) :
    Option Outline :=
  (visit .implied (fun _ entries => kept (entries.insert key (.table .header table))) path .header
    outline).map Prod.fst

-- Makes sure that a header can add to an array of tables.
def openElement (outline : Outline) (path : List String) (key : String) : Option Outline :=
  (visit .implied (fun _ entries =>
    match entries.get? key with
    | none => kept (entries.insert key (.tables []))
    | some (.tables _) => kept entries
    | some _ => none) path .header outline).map Prod.fst

def closeElement (outline : Outline) (path : List String) (key : String) (table : Outline) :
    Option Outline :=
  (visit .implied (fun _ entries =>
    match entries.get? key with
    | some (.tables elements) => kept (entries.insert key (.tables (elements ++ [table])))
    | _ => none) path .header outline).map Prod.fst

end Outline

-- A line that says something.
inductive Statement where
  -- Opens a table.
  | table (path : List String) (key : String)
  -- Opens the next table of an array.
  | element (path : List String) (key : String)
  | assign (path : List String) (key : String) (value : Toml)

-- Where the table belongs that is open.
inductive Place where
  | root
  | table (path : List String) (key : String)
  | element (path : List String) (key : String)

-- The tables that are closed, and the one that lines are added to.
structure Progress where
  closed : Outline
  place : Place
  current : Outline

namespace Progress

def start : Progress := ⟨.empty, .root, .empty⟩

-- The whole outline, with the open table in its place.
def close? (progress : Progress) : Option Outline :=
  match progress.place with
  | .root => some progress.current
  | .table path key => progress.closed.closeTable path key progress.current
  | .element path key => progress.closed.closeElement path key progress.current

def step? (progress : Progress) : Statement → Option Progress
  | .assign path key value => do
      return { progress with current := ← progress.current.assign path key value }
  | .table path key => do
      let (closed, current) ← (← progress.close?).openTable path key
      return ⟨closed, .table path key, current⟩
  | .element path key => do
      let closed ← (← progress.close?).openElement path key
      return ⟨closed, .element path key, .empty⟩

end Progress

-- The table that a text describes, unless its lines contradict each other.
def Table.ofStatements? (statements : List Statement) : Option Table := do
  let progress ← statements.foldlM Progress.step? .start
  return (← progress.close?).toTable

-- The table between braces.
def Table.ofPairs? (pairs : List (List String × String × Toml)) : Option Table := do
  let outline ← pairs.foldlM (fun known (path, key, value) => Outline.assign known path key value)
    OrderedMap.empty
  return Outline.toTable outline

end ContentTypes.Toml
