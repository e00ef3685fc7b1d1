import ContentTypes.Model.Reading
import ContentTypes.Settings
import ContentTypes.TypeScript

namespace ContentTypes

-- Prints modules in some language.
structure Backend where
  name : String
  language : String
  -- The extension of the files that hold the output.
  extension : String
  print : Module → String

-- Why a document is not taken as a model.
inductive ModelFault where
  | invalid (fault : Reading.Fault)
  -- The document says that it is something else than a shared slice.
  | wrongModel (given : String)

def ModelFault.message : ModelFault → String
  | .invalid fault => "invalid model: " ++ fault.message
  | .wrongModel given => s!"expected SharedSlice model, got `type: {given}`"

def CustomType.ofJson (value : Json) : Except ModelFault CustomType :=
  (CustomType.read value).mapError .invalid

-- A document may leave out what it is, but it must not say that it is something else.
def SharedSlice.ofJson (value : Json) : Except ModelFault SharedSlice :=
  match (value.get? "type").bind Json.text? with
  | some given =>
      if given = "SharedSlice" then (SharedSlice.read value).mapError .invalid
      else .error (.wrongModel given)
  | none => (SharedSlice.read value).mapError .invalid

def TypeScript.Options.ofSettings (settings : Settings) : TypeScript.Options :=
  ⟨settings.library.spaceName, settings.library.library, settings.output.exportAll,
    settings.output.header⟩

def TypeScript.Options.default : TypeScript.Options := .ofSettings .default

def TypeScript.backend (options : TypeScript.Options) : Backend :=
  ⟨"typescript", "typescript", "ts", TypeScript.moduleText options⟩

namespace Emitter

variable {σ : Type}

def compileCustomType (emitter : Emitter σ) (settings : Settings) (model : CustomType) :
    StateT σ Logged AliasHandle := do
  let compilation ← StateT.lift (Compilation.ofCustomType model)
  emitter.emit compilation settings.library.spaceName

def compileSharedSlice (emitter : Emitter σ) (settings : Settings) (model : SharedSlice) :
    StateT σ Logged AliasHandle := do
  let compilation ← StateT.lift (Compilation.ofSharedSlice model)
  emitter.emit compilation settings.library.spaceName

def compileAll (emitter : Emitter σ) (settings : Settings) (customTypes : List CustomType)
    (sharedSlices : List SharedSlice) : StateT σ Logged Unit := do
  customTypes.forM fun model => do
    let _ ← emitter.compileCustomType settings model
  sharedSlices.forM fun model => do
    let _ ← emitter.compileSharedSlice settings model

end Emitter

-- One module for all models, the custom types first.
def Module.ofModels (settings : Settings) (customTypes : List CustomType)
    (sharedSlices : List SharedSlice) : Logged Module := do
  let (_, m) ← Module.emitter.compileAll settings customTypes sharedSlices .empty
  return m

def generateTypes (settings : Settings) (customTypes : List CustomType)
    (sharedSlices : List SharedSlice) : Logged String := do
  let m ← Module.ofModels settings customTypes sharedSlices
  return TypeScript.moduleText (.ofSettings settings) m

end ContentTypes
