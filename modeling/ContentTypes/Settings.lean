import ContentTypes.Reading.Record

namespace ContentTypes

structure LibrarySettings where
  -- The name under which the types of the library stand.
  spaceName : String
  -- Where that name is imported from.
  library : String
  deriving DecidableEq, Repr

structure OutputSettings where
  -- Whether every declaration is exported, or only the one that stands for its model.
  exportAll : Bool
  -- Whether the import and the helper type are written.
  header : Bool
  deriving DecidableEq, Repr

structure Settings where
  library : LibrarySettings
  output : OutputSettings
  deriving DecidableEq, Repr

def LibrarySettings.default : LibrarySettings := ⟨"prismicT", "@prismicio/types"⟩

def OutputSettings.default : OutputSettings := ⟨false, true⟩

def Settings.default : Settings := ⟨.default, .default⟩

instance : Inhabited Settings := ⟨.default⟩

section Reading

open Reading

variable {σ : Type} [Source σ]

def LibrarySettings.shape : Shape σ LibrarySettings where
  name := "TypesConfig"
  blank := .default
  slots :=
    [ slot "namespace" .defaulted text fun s spaceName => { s with spaceName }
    , slot "import" .defaulted text fun s library => { s with library } ]

def OutputSettings.shape : Shape σ OutputSettings where
  name := "TypeScriptConfig"
  blank := .default
  slots :=
    [ slot "export_all" .defaulted truth fun s exportAll => { s with exportAll }
    , slot "header" .defaulted truth fun s header => { s with header } ]

def Settings.shape : Shape σ Settings where
  name := "TypegenConfig"
  blank := .default
  slots :=
    [ slot "types" .defaulted LibrarySettings.shape.read fun s library => { s with library }
    , slot "typescript" .defaulted OutputSettings.shape.read fun s output => { s with output } ]

def Settings.read : Reader σ Settings := Settings.shape.read

end Reading

end ContentTypes
