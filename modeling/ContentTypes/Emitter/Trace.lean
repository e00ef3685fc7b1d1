import ContentTypes.Emitter

namespace ContentTypes.Emitter

inductive Call where
  | createRecord (name : String) (docs : Docs)
  | addField (handle : RecordHandle) (name ty : String) (docs : Docs)
  | createAlias (name ty : String) (docs : Docs) (params : List GenericParam)
  | markExported (name : String)
  deriving DecidableEq, Repr

-- Puts a call behind the earlier ones.
def keep (call : Call) : StateT (List Call) Logged Unit := modify (· ++ [call])

-- `aliasHandle` chooses the handle for the name of an alias.
def trace (aliasHandle : String → AliasHandle) : Emitter (List Call) where
  createRecord name docs := do
    keep (.createRecord name docs)
    return .ofName name
  addField handle name ty docs := keep (.addField handle name ty docs)
  createAlias name ty docs params := do
    keep (.createAlias name ty docs params)
    return aliasHandle name
  markExported name := keep (.markExported name)

end ContentTypes.Emitter
