import ContentTypes.Model.CustomType
import ContentTypes.Model.SharedSlice

namespace ContentTypes

-- Which of the two field sets of a slice a path goes into.
inductive Role where
  -- Content that stands once in a slice.
  | primary
  -- Content that each item of a slice repeats.
  | items
  deriving DecidableEq, Repr

def Role.id : Role → String
  | .primary => "primary"
  | .items => "items"

def Role.label : Role → String
  | .primary => "Primary"
  | .items => "Items"

inductive Step where
  | customType (model : CustomType)
  | sharedSlice (model : SharedSlice)
  | variation (variation : Variation)
  | field (id : String) (field : Field)
  | choice (id : String) (choice : SliceChoice)
  | role (role : Role)

-- The outermost step comes first.
abbrev Path := List Step

namespace Step

def id : Step → String
  | .customType model => model.id
  | .sharedSlice model => model.id
  | .variation inner => inner.id
  | .field id _ => id
  | .choice id _ => id
  | .role inner => inner.id

-- The friendliest label there is.
def label : Step → String
  | .customType model => model.displayLabel
  | .sharedSlice model => model.displayLabel
  | .variation inner => inner.displayLabel
  | .field id inner => inner.label?.getD id
  | .choice id inner => inner.label?.getD id
  | .role inner => inner.label

-- What a reader calls the thing that the step leads to.
def noun : Step → String
  | .customType _ => "document"
  | .sharedSlice _ => "shared slice"
  | .variation _ => "variation"
  | .field _ (.group ..) => "group"
  | .field _ (.slices ..) => "slice zone"
  | .field .. => "field"
  | .choice _ .shared => "shared slice"
  | .choice .. => "slice"
  | .role _ => "content"

def phrase (step : Step) : String := s!"the {step.label} {step.noun}"

-- The word between this step and the step around it.
def connective : Step → String
  | .role _ | .variation _ => "of"
  | _ => "in"

-- Whether the content below this step repeats.
def isRepeated : Step → Bool
  | .field _ inner => inner.isRepeatable
  | .role .items => true
  | _ => false

-- The step in a dotted path of ids.
def apiId (step : Step) : String := if step.isRepeated then step.id ++ "[]" else step.id

end Step

namespace Path

-- Steps from the innermost to the outermost. Each connective belongs to the step before it.
def describeOutward : List Step → String
  | [] => ""
  | [step] => step.phrase
  | step :: outer => step.phrase ++ " " ++ step.connective ++ " " ++ describeOutward outer

theorem describeOutward_cons_cons (step next : Step) (outer : List Step) :
    describeOutward (step :: next :: outer) =
      step.phrase ++ " " ++ step.connective ++ " " ++ describeOutward (next :: outer) := rfl

def describe (path : Path) : String := describeOutward path.reverse

def apiIdPath (path : Path) (fieldId : String) : String :=
  ".".intercalate (path.map Step.apiId ++ [fieldId])

end Path

end ContentTypes
