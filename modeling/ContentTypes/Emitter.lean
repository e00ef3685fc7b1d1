import ContentTypes.Compilation

namespace ContentTypes

-- Refers to a record that an emitter created. What is added through a detached handle is dropped.
structure RecordHandle where
  name : String
  detached : Bool
  deriving DecidableEq, Repr

def RecordHandle.ofName (name : String) : RecordHandle := ⟨name, false⟩

-- Refers to an alias that an emitter created.
structure AliasHandle where
  name : String
  deriving DecidableEq, Repr

-- A parameter of an alias, its bounds rendered.
structure GenericParam where
  name : String
  bound : Option String
  default : Option String
  deriving DecidableEq, Repr

-- What holds the output, with a state of its own.
structure Emitter (σ : Type) where
  createRecord : String → Docs → StateT σ Logged RecordHandle
  addField : RecordHandle → String → String → Docs → StateT σ Logged Unit
  createAlias : String → String → Docs → List GenericParam → StateT σ Logged AliasHandle
  markExported : String → StateT σ Logged Unit

def TypeParam.render (spaceName : String) (param : TypeParam) : GenericParam :=
  ⟨param.name, param.bound.map (·.render spaceName), param.default.map (·.render spaceName)⟩

namespace Emitter

variable {σ : Type}

def addFields (emitter : Emitter σ) (spaceName : String) (handle : RecordHandle) :
    List Property → StateT σ Logged Unit
  | [] => return ()
  | property :: rest => do
      emitter.addField handle property.name (property.ty.render spaceName) property.docs
      emitter.addFields spaceName handle rest

-- A record gives no alias handle.
def emitKind (emitter : Emitter σ) (spaceName : String) (declaration : Declaration) :
    StateT σ Logged (Option AliasHandle) :=
  match declaration.kind with
  | .record properties => do
      let handle ← emitter.createRecord declaration.name declaration.docs
      emitter.addFields spaceName handle properties
      return none
  | .alias params ty => do
      let handle ← emitter.createAlias declaration.name (ty.render spaceName) declaration.docs
        (params.map (·.render spaceName))
      return some handle

def emitDeclaration (emitter : Emitter σ) (spaceName : String) (declaration : Declaration) :
    StateT σ Logged (Option AliasHandle) := do
  StateT.lift (Logged.report (.emitting declaration.name))
  let handle ← emitter.emitKind spaceName declaration
  if declaration.exported then emitter.markExported declaration.name
  return handle

-- The handle of the last alias that has the name of the root, if one of the declarations is one.
def emitAll (emitter : Emitter σ) (spaceName root : String) (handle : AliasHandle) :
    List Declaration → StateT σ Logged AliasHandle
  | [] => return handle
  | declaration :: rest => do
      let given ← emitter.emitDeclaration spaceName declaration
      let next := if declaration.name = root then given.getD handle else handle
      emitter.emitAll spaceName root next rest

def emit (emitter : Emitter σ) (compilation : Compilation) (spaceName : String) :
    StateT σ Logged AliasHandle :=
  emitter.emitAll spaceName compilation.root ⟨compilation.root⟩ compilation.declarations

end Emitter

end ContentTypes
