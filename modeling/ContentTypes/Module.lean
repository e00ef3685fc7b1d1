import ContentTypes.Emitter

namespace ContentTypes

structure RecordField where
  name : String
  ty : String
  docs : Docs
  deriving DecidableEq, Repr

structure RecordItem where
  name : String
  docs : Docs
  exported : Bool
  fields : List RecordField
  deriving DecidableEq, Repr

structure AliasItem where
  name : String
  docs : Docs
  exported : Bool
  params : List GenericParam
  ty : String
  deriving DecidableEq, Repr

inductive Item where
  | record (item : RecordItem)
  | alias (item : AliasItem)
  deriving DecidableEq, Repr

namespace Item

def name : Item → String
  | .record item => item.name
  | .alias item => item.name

def docs : Item → Docs
  | .record item => item.docs
  | .alias item => item.docs

def exported : Item → Bool
  | .record item => item.exported
  | .alias item => item.exported

def asExported : Item → Item
  | .record item => .record { item with exported := true }
  | .alias item => .alias { item with exported := true }

-- Only a record takes fields.
def addField (field : RecordField) : Item → Item
  | .record item => .record { item with fields := item.fields ++ [field] }
  | .alias item => .alias item

end Item

structure Module where
  items : List Item
  deriving DecidableEq, Repr

namespace Module

def empty : Module := ⟨[]⟩

instance : Inhabited Module := ⟨empty⟩

def names (m : Module) : List String := m.items.map Item.name

def get? (m : Module) (name : String) : Option Item := m.items.find? (·.name == name)

def record? (m : Module) (name : String) : Option RecordItem :=
  match m.get? name with
  | some (.record item) => some item
  | _ => none

def alias? (m : Module) (name : String) : Option AliasItem :=
  match m.get? name with
  | some (.alias item) => some item
  | _ => none

-- Changes the first item of a name.
def update (m : Module) (name : String) (change : Item → Item) : Module :=
  ⟨updateFirst m.items⟩
where
  updateFirst : List Item → List Item
    | [] => []
    | item :: rest => if item.name = name then change item :: rest else item :: updateFirst rest

def push (m : Module) (item : Item) : Module := ⟨m.items ++ [item]⟩

def reportDeclared (name : String) : Logged Unit := Logged.report (.alreadyDeclared name)

-- The first declaration of a name stays. A later one is dropped and reported.
def createRecord (name : String) (docs : Docs) : StateT Module Logged RecordHandle := fun m => do
  if (m.get? name).isSome then
    reportDeclared name
    return (⟨name, true⟩, m)
  else return (.ofName name, m.push (.record ⟨name, docs, false, []⟩))

def addField (handle : RecordHandle) (name ty : String) (docs : Docs) :
    StateT Module Logged Unit := fun m => do
  if handle.detached then return ((), m)
  else if (m.record? handle.name).isSome then
    return ((), m.update handle.name (·.addField ⟨name, ty, docs⟩))
  else
    Logged.report (.noSuchRecord handle.name name)
    return ((), m)

def createAlias (name ty : String) (docs : Docs) (params : List GenericParam) :
    StateT Module Logged AliasHandle := fun m => do
  if (m.get? name).isSome then
    reportDeclared name
    return (⟨name⟩, m)
  else return (⟨name⟩, m.push (.alias ⟨name, docs, false, params, ty⟩))

def markExported (name : String) : StateT Module Logged Unit :=
  modify (·.update name Item.asExported)

def emitter : Emitter Module := ⟨createRecord, addField, createAlias, markExported⟩

end Module

end ContentTypes
