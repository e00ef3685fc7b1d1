import ContentTypes.Model.Field

namespace ContentTypes

structure Variation where
  id : String
  name : Option String
  description : Option String
  primary : FieldSet
  items : FieldSet

structure SharedSlice where
  id : String
  name : Option String
  description : Option String
  variations : List Variation

def Variation.displayLabel (variation : Variation) : String :=
  (nonEmpty? variation.name).getD variation.id

def SharedSlice.displayLabel (model : SharedSlice) : String := (nonEmpty? model.name).getD model.id

end ContentTypes
