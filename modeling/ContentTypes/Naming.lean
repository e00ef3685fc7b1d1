import ContentTypes.Event
import ContentTypes.Path
import ContentTypes.Text.Words

namespace ContentTypes

-- The words that a step gives to a name.
def Step.words : Step → List String
  | .customType model => [model.id, "Document", "Data"]
  | .sharedSlice model => [model.id, "Slice"]
  | .variation inner => [inner.id]
  | .field id _ => [id]
  | .choice id _ => [id, "Slice"]
  | .role .primary => ["Primary"]
  | .role .items => ["Item"]

namespace Naming

-- The canonical name follows from the path alone. Different paths can have the same canonical name,
-- so a compilation claims its names from a table that keeps them apart.
def declarationName (path : Path) (suffix : List String) : String :=
  Text.Words.pascal (" ".intercalate (path.flatMap Step.words ++ suffix))

def documentName (customTypeId : String) : String :=
  Text.Words.pascal (customTypeId ++ " Document")

-- Slice zones refer to a shared slice by this name, and it is the name of the slice itself.
def sharedSliceName (sharedSliceId : String) : String :=
  Text.Words.pascal (sharedSliceId ++ " Slice")

end Naming

-- The names that are taken within one compilation.
structure NameTable where
  taken : List String
  deriving DecidableEq, Repr

namespace NameTable

def empty : NameTable := ⟨[]⟩

instance : Inhabited NameTable := ⟨empty⟩

-- Takes a name that is declared elsewhere.
def reserve (table : NameTable) (name : String) : NameTable :=
  if table.taken.contains name then table else ⟨name :: table.taken⟩

def numbered (name : String) (n : Nat) : String := name ++ toString n

-- The first number from `n` on that makes the name free, however large it is. A taken name stands in
-- the way of one number only, so it can be struck out.
def firstFree (name : String) (n : Nat) (taken : List String) : Nat :=
  if numbered name n ∈ taken then firstFree name (n + 1) (taken.erase (numbered name n)) else n
  termination_by taken.length
  decreasing_by
    rename_i h
    have := List.length_pos_of_mem h
    rw [List.length_erase_of_mem h]
    omega

-- The name that is free: the name itself or the first numbered one, from two on.
def free (table : NameTable) (name : String) : String :=
  if table.taken.contains name then numbered name (firstFree name 2 table.taken) else name

end NameTable

-- Work that claims names and reports what happens.
abbrev Naming := StateT NameTable Logged

namespace Naming

def report (event : Event) : Naming Unit := fun table => do
  Logged.report event
  return ((), table)

def claim (name : String) : Naming String := fun table =>
  let claimed := table.free name
  ⟨(claimed, ⟨claimed :: table.taken⟩), if claimed = name then [] else [.renamed name claimed]⟩

def claimFor (path : Path) (suffix : List String) : Naming String :=
  claim (declarationName path suffix)

def reserve (name : String) : Naming Unit := modify (·.reserve name)

end Naming

end ContentTypes
