import ContentTypes.Event
import ContentTypes.Settings
import ContentTypes.Settings.File
import ContentTypes.Toml.Text

namespace ContentTypes

-- Why settings are not loaded, beside the path of the file that is to blame.
inductive LoadFault where
  | unreadable (path : String) (cause : String)
  -- The text is not TOML.
  | malformed (path : String)
  -- The values in it are not what they should be.
  | unfit (path : String) (fault : Reading.Fault)

namespace LoadFault

def path : LoadFault → String
  | .unreadable path _ => path
  | .malformed path => path
  | .unfit path _ => path

-- What is wrong with the values, and under which keys.
def detail (fault : Reading.Fault) : String :=
  let place := match fault.place with
    | [] => ""
    | keys => "in `" ++ ".".intercalate keys ++ "`\n"
  fault.message ++ "\n" ++ place

-- The message for text that is not TOML ends where the report of its lines would begin.
def message : LoadFault → String
  | .unreadable path cause => s!"failed to read {path}: {cause}"
  | .malformed path => s!"failed to parse {path}"
  | .unfit path fault => s!"failed to parse {path}: {detail fault}"

end LoadFault

namespace Settings

-- The name of the file in the directory of a project.
def projectFile : String := "content-typegen.toml"

-- The variables that say where the settings of the user are.
structure Environment where
  configHome : Option String
  home : Option String
  deriving DecidableEq, Repr

-- A place for settings goes before the one in the home of the user, even if it is empty.
def Environment.globalPath? (environment : Environment) : Option String :=
  let base := environment.configHome <|>
    (environment.home.filter (· != "")).map (FilePath.join · ".config")
  base.map fun base => FilePath.join (FilePath.join base "content-typegen") "config.toml"

-- A file at its path.
structure File where
  path : String
  state : FileState

def File.at (look : String → FileState) (path : String) : File := ⟨path, look path⟩

-- The table of a file, if there is one.
def File.table (file : File) : Logged (Except LoadFault (Option Toml.Table)) :=
  match file.state with
  | .missing => return .ok none
  | .directory => return .error (.unreadable file.path "Is a directory (os error 21)")
  | .notText => return .error (.unreadable file.path "stream did not contain valid UTF-8")
  | .text content =>
      match Toml.ofText? content with
      | none => return .error (.malformed file.path)
      | some table => do
          Logged.report (.loadedSettings file.path)
          return .ok (some table)

def ofTable (table : Toml.Table) : Except Reading.Fault Settings := Settings.read (Toml.table table)

-- Faults of the merged values are told of the file of the project.
def ofFiles (global : Option File) (project : File) : Logged (Except LoadFault Settings) := do
  let globalTable ← match global with
    | none => pure (.ok none)
    | some file => file.table
  match globalTable with
  | .error fault => return .error fault
  | .ok globalTable =>
      match ← project.table with
      | .error fault => return .error fault
      | .ok projectTable =>
          let base := globalTable.getD .empty
          let merged := Toml.merge base (projectTable.getD .empty)
          return (ofTable merged).mapError (.unfit project.path)

-- The file of a project is merged over the file of the user, and the outcome is read over the
-- settings that hold by default.
def loadFrom (look : String → FileState) (globalPath : Option String) (root : String) :
    Logged (Except LoadFault Settings) :=
  ofFiles (globalPath.map (File.at look)) (File.at look (FilePath.join root projectFile))

def load (look : String → FileState) (environment : Environment) (root : String) :
    Logged (Except LoadFault Settings) :=
  loadFrom look environment.globalPath? root

end Settings

end ContentTypes
