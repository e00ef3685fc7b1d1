import ContentTypes.Compilation
import ContentTypes.Proofs.OrderedMap.Entries

namespace ContentTypes

namespace OrderedMap

variable {V W : Type}

def mapValues (change : V → W) (map : OrderedMap V) : OrderedMap W :=
  ⟨map.entries.map fun entry => (entry.1, change entry.2)⟩

@[simp] theorem values_mapValues (change : V → W) (map : OrderedMap V) :
    (map.mapValues change).values = map.values.map change := by
  simp [values, mapValues]

-- Values may change in the same way before a map is made or after it.
theorem insertAll_mapValues (change : V → W) (map : OrderedMap V) (pairs : List (String × V)) :
    (map.mapValues change).insertAll (pairs.map fun pair => (pair.1, change pair.2)) =
      (map.insertAll pairs).mapValues change :=
  insertAll_mapEntries (fun _ => change) map pairs

end OrderedMap

mutual

-- Without labels, placeholders, catalogs, fieldsets, descriptions, and the names of slices and
-- variations.
def Field.wordless : Field → Field
  | .plain kind _ => .plain kind .none
  | .image config => .image { config with label := none }
  | .integration _ => .integration ⟨.none, none⟩
  | .link config => .link { config with caption := .none }
  | .richText config => .richText { config with caption := .none }
  | .select config => .select { config with caption := .none }
  | .group _ ⟨fields⟩ repeats => .group none ⟨Field.wordlessAll fields⟩ repeats
  | .slices _ ⟨choices⟩ => .slices none ⟨SliceChoice.wordlessAll choices⟩
  | .unknown kind _ => .unknown kind .none

def Field.wordlessAll : List (String × Field) → List (String × Field)
  | [] => []
  | (id, field) :: rest => (id, field.wordless) :: Field.wordlessAll rest

def SliceChoice.wordless : SliceChoice → SliceChoice
  | .slice _ _ ⟨nonRepeat⟩ ⟨repeated⟩ =>
      .slice none none ⟨Field.wordlessAll nonRepeat⟩ ⟨Field.wordlessAll repeated⟩
  | .shared => .shared
  | .unknown => .unknown

def SliceChoice.wordlessAll : List (String × SliceChoice) → List (String × SliceChoice)
  | [] => []
  | (id, choice) :: rest => (id, choice.wordless) :: SliceChoice.wordlessAll rest

end

def FieldSet.wordless (fields : FieldSet) : FieldSet := fields.mapValues Field.wordless

-- The tabs keep their names.
def CustomType.wordless (model : CustomType) : CustomType :=
  { model with label := none, tabs := model.tabs.mapValues FieldSet.wordless }

def Variation.wordless (variation : Variation) : Variation :=
  ⟨variation.id, none, none, variation.primary.wordless, variation.items.wordless⟩

def SharedSlice.wordless (model : SharedSlice) : SharedSlice :=
  ⟨model.id, none, none, model.variations.map Variation.wordless⟩

theorem Field.wordlessAll_eq (fields : List (String × Field)) :
    wordlessAll fields = fields.map fun entry => (entry.1, entry.2.wordless) := by
  induction fields with
  | nil => rfl
  | cons first rest ih => rw [wordlessAll, ih, List.map_cons]

theorem FieldSet.wordless_eq (fields : FieldSet) :
    fields.wordless = ⟨Field.wordlessAll fields.entries⟩ := by
  rw [Field.wordlessAll_eq]
  rfl

theorem Field.isUid_wordless (field : Field) : field.wordless.isUid = field.isUid := by
  cases field with
  | plain kind caption => cases kind <;> rfl
  | _ => rfl

namespace CustomType

-- Without their text the same fields stand in the same places.
theorem fields_wordless (model : CustomType) : model.wordless.fields = model.fields.wordless := by
  have hoccurrences : model.wordless.occurrences =
      model.occurrences.map fun entry => (entry.1, entry.2.wordless) := by
    simp only [occurrences, wordless, OrderedMap.values_mapValues, List.flatMap_map,
      List.map_flatMap]
    rfl
  rw [fields, hoccurrences]
  exact OrderedMap.insertAll_mapValues Field.wordless .empty model.occurrences

theorem hasUid_wordless (model : CustomType) : model.wordless.hasUid = model.hasUid := by
  rw [hasUid, fields_wordless, FieldSet.wordless, OrderedMap.values_mapValues, List.any_map]
  simp [hasUid, Function.comp_def, Field.isUid_wordless]

end CustomType

end ContentTypes
