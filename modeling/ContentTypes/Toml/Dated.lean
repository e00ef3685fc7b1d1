import ContentTypes.Toml.Literal

namespace ContentTypes.Toml

-- A table whose first key is this one stands for the date or time that the value of the key holds
-- in quotes, and nothing else in the table counts.
def dateKey : String := "$__toml_private_datetime"

mutual

-- The value with dates in the place of the tables that stand for them.
-- There is none where such a table holds no date.
def dated? : Toml → Option Toml
  | .table ⟨(key, value) :: rest⟩ =>
      if key = dateKey then
        match value with
        | .str text => datetime? text
        | _ => none
      else do
        let first ← value.dated?
        let others ← datedEntries? rest
        return .table ⟨(key, first) :: others⟩
  | .arr items => (datedItems? items).map .arr
  | value => some value

def datedItems? : List Toml → Option (List Toml)
  | [] => some []
  | item :: rest => do
      let first ← item.dated?
      let others ← datedItems? rest
      return first :: others

def datedEntries? : List (String × Toml) → Option (List (String × Toml))
  | [] => some []
  | (key, value) :: rest => do
      let first ← value.dated?
      let others ← datedEntries? rest
      return (key, first) :: others

end

-- The outermost table never stands for a date.
def Table.dated? (table : Table) : Option Table :=
  (datedEntries? table.entries).map fun entries => ⟨entries⟩

end ContentTypes.Toml
