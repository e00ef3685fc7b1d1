import ContentTypes.OrderedMap

namespace ContentTypes

-- What reading a file gives.
inductive FileState where
  | missing
  | directory
  -- The bytes of the file are not text.
  | notText
  | text (content : String)
  deriving DecidableEq, Repr

inductive FileContent where
  | directory
  | bytes (content : List UInt8)
  deriving DecidableEq, Repr

def FileContent.state : FileContent → FileState
  | .directory => .directory
  | .bytes content =>
      match String.fromUTF8? ⟨content.toArray⟩ with
      | some content => .text content
      | none => .notText

namespace FilePath

-- A slash parts the two, unless there is one or nothing stands before it.
def join (base child : String) : String :=
  if base = "" || base.endsWith "/" then base ++ child else base ++ "/" ++ child

end FilePath

-- Where a path leads: so many directories up from the tree, and by these names down from there.
structure FilePlace where
  above : Nat
  names : List String
  deriving DecidableEq, Repr

namespace FilePlace

-- The directory of the tree.
def base : FilePlace := ⟨0, []⟩

def parent (place : FilePlace) : FilePlace :=
  if place.names.isEmpty then ⟨place.above + 1, []⟩ else ⟨place.above, place.names.dropLast⟩

def child (place : FilePlace) (name : String) : FilePlace := ⟨place.above, place.names ++ [name]⟩

-- One part of a path. Empty parts and single dots stay where they are.
def step (place : FilePlace) (part : String) : FilePlace :=
  if part = ".." then place.parent
  else if part = "" || part = "." then place
  else place.child part

end FilePlace

-- What is known of files and directories, the latest first.
structure FileTree where
  files : List (FilePlace × FileContent)
  deriving DecidableEq, Repr

namespace FileTree

-- Every place that the path of a file goes through is a directory.
def entries (place : FilePlace) (content : FileContent) : List String → List (FilePlace × FileContent)
  | [] => [(place, content)]
  | part :: rest => (place, .directory) :: entries (place.step part) content rest

-- A later file of the same place replaces the earlier one.
def ofList (files : List (String × FileContent)) : FileTree :=
  ⟨(files.flatMap fun (path, content) => entries .base content (path.splitOn "/")).reverse⟩

-- There is a directory around every directory, even where nothing else is known.
def at? (tree : FileTree) (place : FilePlace) : Option FileContent :=
  if place.names.isEmpty then some .directory else tree.files.lookup place

-- Only a directory has something below it, or around it.
def follow (tree : FileTree) (place : FilePlace) : List String → Option FileContent
  | [] => tree.at? place
  | part :: rest =>
      if tree.at? place = some .directory then tree.follow (place.step part) rest else none

-- What is found under a path from the directory of the tree.
def look (tree : FileTree) (path : String) : FileState :=
  if path = "" || path.startsWith "/" then .missing
  else ((tree.follow .base (path.splitOn "/")).map FileContent.state).getD .missing

end FileTree

end ContentTypes
