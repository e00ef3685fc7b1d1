import ContentTypes.Json.Basic

namespace ContentTypes

inductive Event where
  | renamed (name : String) (claimed : String)
  | repeatedField (model : String) (field : String)
  | unknownField (field : String) (kind : String)
  | unknownChoice (field : String) (choice : String)
  | compiledCustomType (model : String) (declarations : Nat)
  | compiledSharedSlice (model : String) (declarations : Nat)
  | emitting (name : String)
  | alreadyDeclared (name : String)
  | noSuchRecord (record : String) (field : String)
  | loadedSettings (path : String)
  deriving DecidableEq, Repr

namespace Event

inductive Level where
  | debug
  | warn
  deriving DecidableEq, Repr

def Level.name : Level → String
  | .debug => "debug"
  | .warn => "warn"

def level : Event → Level
  | .unknownField .. | .unknownChoice .. | .alreadyDeclared .. | .noSuchRecord .. => .warn
  | _ => .debug

def message : Event → String
  | .renamed .. => "declaration name collision"
  | .repeatedField .. => "field declared in several tabs, last wins"
  | .unknownField .. => "unrecognized field kind, typing as unknown"
  | .unknownChoice .. => "unrecognized slice choice kind, leaving it out of the zone"
  | .compiledCustomType .. => "compiled custom type"
  | .compiledSharedSlice .. => "compiled shared slice"
  | .emitting .. => "emitting declaration"
  | .alreadyDeclared .. => "declaration already exists, keeping the first"
  | .noSuchRecord .. => "no such record"
  | .loadedSettings .. => "loaded config"

def fields : Event → List (String × Json)
  | .renamed name claimed => [("name", name), ("renamed", claimed)]
  | .repeatedField model field => [("model", model), ("field", field)]
  | .unknownField field kind => [("field", field), ("kind", kind)]
  | .unknownChoice field choice => [("field", field), ("choice", choice)]
  | .compiledCustomType model declarations =>
      [("model", model), ("declarations", .ofNat declarations)]
  | .compiledSharedSlice model declarations =>
      [("model", model), ("declarations", .ofNat declarations)]
  | .emitting name => [("name", name)]
  | .alreadyDeclared name => [("name", name)]
  | .noSuchRecord record field => [("record", record), ("field", field)]
  | .loadedSettings path => [("path", path)]

end Event

-- A result with what is reported on the way to it.
structure Logged (α : Type) where
  value : α
  events : List Event

namespace Logged

instance : Monad Logged where
  pure value := ⟨value, []⟩
  bind first next := ⟨(next first.value).value, first.events ++ (next first.value).events⟩

def report (event : Event) : Logged Unit := ⟨(), [event]⟩

end Logged

end ContentTypes
