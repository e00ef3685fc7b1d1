import ContentTypes.Model.Field

namespace ContentTypes

structure CustomType where
  id : String
  label : Option String
  repeatable : Bool
  status : Option Bool
  -- The fields of each tab, by the name of the tab.
  tabs : OrderedMap FieldSet

namespace CustomType

def displayLabel (model : CustomType) : String := (nonEmpty? model.label).getD model.id

-- Every field of every tab, tab after tab.
def occurrences (model : CustomType) : List (String × Field) :=
  model.tabs.values.flatMap OrderedMap.toList

-- An id that several tabs have stands where it came first, with the field of the last such tab.
def fields (model : CustomType) : FieldSet := .ofList model.occurrences

-- Ids that came before, each at its second coming. `seen` holds the ids so far, `told` those told.
def repeatsAfter (seen told : List String) : List String → List String
  | [] => []
  | id :: rest =>
      if seen.contains id then
        if told.contains id then repeatsAfter seen told rest
        else id :: repeatsAfter seen (id :: told) rest
      else repeatsAfter (id :: seen) told rest

def repeatedIds (model : CustomType) : List String :=
  repeatsAfter [] [] (model.occurrences.map Prod.fst)

-- A later tab that gives the id to another kind takes the UID away.
def hasUid (model : CustomType) : Bool := model.fields.values.any Field.isUid

end CustomType

end ContentTypes
