import ContentTypes.Proofs.Reading.Edits

namespace ContentTypes

open Reading

mutual

-- A revision finds its field by the keys on the way, and the field gets the caption that can be
-- read from the new configuration.
def Field.revise : Change → Field → Field
  | change, .group label ⟨fields⟩ repeats =>
      .group label
        ⟨Field.reviseEach ((change.under (.key "config")).under (.key "fields")) fields⟩ repeats
  | change, .slices fieldset ⟨choices⟩ =>
      .slices fieldset
        ⟨SliceChoice.reviseEach ((change.under (.key "config")).under (.key "choices")) choices⟩
  | some ⟨[], config⟩, .unknown kind _ =>
      .unknown kind (Field.forgivingConfig Caption.shape config)
  | _, field => field

def Field.reviseEach : Change → List (String × Field) → List (String × Field)
  | _, [] => []
  | change, (id, field) :: rest =>
      (id, field.revise (change.under (.key id))) :: Field.reviseEach change rest

def SliceChoice.revise : Change → SliceChoice → SliceChoice
  | change, .slice fieldset description ⟨nonRepeat⟩ ⟨repeated⟩ =>
      .slice fieldset description ⟨Field.reviseEach (change.under (.key "non-repeat")) nonRepeat⟩
        ⟨Field.reviseEach (change.under (.key "repeat")) repeated⟩
  | _, .shared => .shared
  | _, .unknown => .unknown

def SliceChoice.reviseEach : Change → List (String × SliceChoice) → List (String × SliceChoice)
  | _, [] => []
  | change, (id, choice) :: rest =>
      (id, choice.revise (change.under (.key id))) :: SliceChoice.reviseEach change rest

end

def FieldSet.revise (change : Change) (fields : FieldSet) : FieldSet :=
  fields.mapEntries fun id => Field.revise (change.under (.key id))

def SliceChoice.reviseChoices (change : Change) (choices : OrderedMap SliceChoice) :
    OrderedMap SliceChoice :=
  choices.mapEntries fun id => SliceChoice.revise (change.under (.key id))

example : (Field.unknown "Mood" ⟨some "Old", none⟩).revise
    (some ⟨[], .record [("label", "New")]⟩) = .unknown "Mood" ⟨some "New", none⟩ := rfl

theorem Field.reviseEach_eq (change : Change) (fields : List (String × Field)) :
    (⟨Field.reviseEach change fields⟩ : FieldSet) = FieldSet.revise change ⟨fields⟩ := by
  induction fields with
  | nil => rfl
  | cons first rest ih =>
      rw [reviseEach, OrderedMap.mk.inj ih]
      rfl

theorem SliceChoice.reviseEach_eq (change : Change) (choices : List (String × SliceChoice)) :
    (⟨SliceChoice.reviseEach change choices⟩ : OrderedMap SliceChoice) =
      SliceChoice.reviseChoices change ⟨choices⟩ := by
  induction choices with
  | nil => rfl
  | cons first rest ih =>
      rw [reviseEach, OrderedMap.mk.inj ih]
      rfl

theorem Field.revise_group (change : Change) (label : Option String) (fields : FieldSet)
    (repeats : Option Bool) :
    (Field.group label fields repeats).revise change =
      .group label (fields.revise ((change.under (.key "config")).under (.key "fields")))
        repeats := by
  obtain ⟨fields⟩ := fields
  rw [Field.revise, Field.reviseEach_eq]

theorem Field.revise_slices (change : Change) (fieldset : Option String)
    (choices : OrderedMap SliceChoice) :
    (Field.slices fieldset choices).revise change =
      .slices fieldset
        (SliceChoice.reviseChoices ((change.under (.key "config")).under (.key "choices"))
          choices) := by
  obtain ⟨choices⟩ := choices
  rw [Field.revise, SliceChoice.reviseEach_eq]

def GroupConfig.revise (change : Change) (config : GroupConfig) : GroupConfig :=
  { config with fields := config.fields.revise (change.under (.key "fields")) }

def Field.reviseZone (change : Change) (choices : OrderedMap SliceChoice) :
    OrderedMap SliceChoice :=
  SliceChoice.reviseChoices (change.under (.key "choices")) choices

def LocalSlice.revise (change : Change) (slice : LocalSlice) : LocalSlice :=
  { slice with
    nonRepeat := slice.nonRepeat.revise (change.under (.key "non-repeat"))
    repeated := slice.repeated.revise (change.under (.key "repeat")) }

def CustomType.reviseTabs (change : Change) (tabs : OrderedMap FieldSet) : OrderedMap FieldSet :=
  tabs.mapEntries fun tab => FieldSet.revise (change.under (.key tab))

def CustomType.revise (change : Change) (model : CustomType) : CustomType :=
  { model with tabs := reviseTabs (change.under (.key "json")) model.tabs }

def Variation.revise (change : Change) (variation : Variation) : Variation :=
  { variation with
    primary := variation.primary.revise (change.under (.key "primary"))
    items := variation.items.revise (change.under (.key "items")) }

def SharedSlice.reviseVariations (change : Change) (variations : List Variation) :
    List Variation :=
  variations.zipIdx.map fun variation => variation.1.revise (change.under (.item variation.2))

def SharedSlice.revise (change : Change) (model : SharedSlice) : SharedSlice :=
  { model with
    variations := reviseVariations (change.under (.key "variations")) model.variations }

-- All revisions, one after another.
def reviseAll {α : Type} (revise : Change → α → α) (revisions : List Revision) (model : α) : α :=
  revisions.foldl (fun model revision => revise (some revision) model) model

-- A change that cannot be seen changes nothing.

mutual

theorem Field.revise_none : (field : Field) → field.revise none = field
  | .group label ⟨fields⟩ repeats => by
      rw [Field.revise, Change.under_none, Change.under_none, Field.reviseEach_none fields]
  | .slices fieldset ⟨choices⟩ => by
      rw [Field.revise, Change.under_none, Change.under_none, SliceChoice.reviseEach_none choices]
  | .plain .. => rfl
  | .image .. => rfl
  | .integration .. => rfl
  | .link .. => rfl
  | .richText .. => rfl
  | .select .. => rfl
  | .unknown .. => rfl

theorem Field.reviseEach_none :
    (fields : List (String × Field)) → Field.reviseEach none fields = fields
  | [] => rfl
  | (id, field) :: rest => by
      rw [Field.reviseEach, Change.under_none, Field.revise_none field, Field.reviseEach_none rest]

theorem SliceChoice.revise_none : (choice : SliceChoice) → choice.revise none = choice
  | .slice fieldset description ⟨nonRepeat⟩ ⟨repeated⟩ => by
      rw [SliceChoice.revise, Change.under_none, Change.under_none,
        Field.reviseEach_none nonRepeat, Field.reviseEach_none repeated]
  | .shared => rfl
  | .unknown => rfl

theorem SliceChoice.reviseEach_none :
    (choices : List (String × SliceChoice)) → SliceChoice.reviseEach none choices = choices
  | [] => rfl
  | (id, choice) :: rest => by
      rw [SliceChoice.reviseEach, Change.under_none, SliceChoice.revise_none choice,
        SliceChoice.reviseEach_none rest]

end

theorem FieldSet.revise_none (fields : FieldSet) : fields.revise none = fields :=
  OrderedMap.mapEntries_id (fun _ field => field.revise_none) fields

theorem CustomType.revise_none (model : CustomType) : model.revise none = model := by
  rw [revise, Change.under_none, reviseTabs, OrderedMap.mapEntries_id]
  exact fun _ fields => fields.revise_none

theorem Variation.revise_none (variation : Variation) : variation.revise none = variation := by
  rw [revise, Change.under_none, Change.under_none, FieldSet.revise_none, FieldSet.revise_none]

theorem SharedSlice.revise_none (model : SharedSlice) : model.revise none = model := by
  have hvariations : reviseVariations none model.variations = model.variations := by
    simp [reviseVariations, Variation.revise_none]
  rw [revise, Change.under_none, hvariations]

theorem Field.revise_unknown {change : Change} (h : ∀ config, change ≠ some ⟨[], config⟩)
    (kind : String) (caption : Caption) :
    (Field.unknown kind caption).revise change = .unknown kind caption := by
  match change with
  | none => rfl
  | some ⟨[], config⟩ => exact absurd rfl (h config)
  | some ⟨_ :: _, _⟩ => rfl

end ContentTypes
