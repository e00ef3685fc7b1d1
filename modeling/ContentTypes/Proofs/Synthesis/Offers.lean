import ContentTypes.Compilation
import ContentTypes.Proofs.Naming.Grants

namespace ContentTypes

open Naming (sharedSliceName)

mutual

-- A zone offers what its choices offer, a group what its fields offer.
inductive Field.Offers (slice : String) : Field → Prop
  | group {label : Option String} {fields : List (String × Field)} {repeats : Option Bool}
      {id : String} {field : Field} (hf : (id, field) ∈ fields) (h : field.Offers slice) :
      Field.Offers slice (.group label ⟨fields⟩ repeats)
  | zone {fieldset : Option String} {choices : List (String × SliceChoice)} {id : String}
      {choice : SliceChoice} (hc : (id, choice) ∈ choices) (h : choice.Offers slice id) :
      Field.Offers slice (.slices fieldset ⟨choices⟩)

-- A shared choice offers the slice of its own id, a local slice what its two field sets offer.
inductive SliceChoice.Offers (slice : String) : String → SliceChoice → Prop
  | shared : SliceChoice.Offers slice slice .shared
  | nonRepeat {choice : String} {fieldset description : Option String}
      {nonRepeat repeated : List (String × Field)} {id : String} {field : Field}
      (hf : (id, field) ∈ nonRepeat) (h : field.Offers slice) :
      SliceChoice.Offers slice choice (.slice fieldset description ⟨nonRepeat⟩ ⟨repeated⟩)
  | repeated {choice : String} {fieldset description : Option String}
      {nonRepeat repeated : List (String × Field)} {id : String} {field : Field}
      (hf : (id, field) ∈ repeated) (h : field.Offers slice) :
      SliceChoice.Offers slice choice (.slice fieldset description ⟨nonRepeat⟩ ⟨repeated⟩)

end

def OffersIn (slice : String) (fields : List (String × Field)) : Prop :=
  ∃ id field, (id, field) ∈ fields ∧ field.Offers slice

-- The zones of all tabs, as far as no later tab replaces them.
def CustomType.Offers (model : CustomType) (slice : String) : Prop :=
  OffersIn slice model.fields.entries

def SharedSlice.Offers (model : SharedSlice) (slice : String) : Prop :=
  ∃ variation ∈ model.variations,
    OffersIn slice variation.primary.entries ∨ OffersIn slice variation.items.entries

namespace Synthesis

theorem sharedNamesOfFields_eq (fields : List (String × Field)) :
    sharedNamesOfFields fields = fields.flatMap fun entry => sharedNames entry.2 := by
  induction fields with
  | nil => rfl
  | cons first rest ih => rw [sharedNamesOfFields, ih, List.flatMap_cons]

theorem sharedNamesOfChoices_eq (choices : List (String × SliceChoice)) :
    sharedNamesOfChoices choices =
      choices.flatMap fun entry => sharedNamesOfChoice entry.1 entry.2 := by
  induction choices with
  | nil => rfl
  | cons first rest ih => rw [sharedNamesOfChoices, ih, List.flatMap_cons]

mutual

theorem mem_sharedNames {slice : String} :
    {field : Field} → field.Offers slice → sharedSliceName slice ∈ sharedNames field
  | _, .group hf h => by
      rw [sharedNames, sharedNamesOfFields_eq]
      exact List.mem_flatMap.mpr ⟨_, hf, mem_sharedNames h⟩
  | _, .zone hc h => by
      rw [sharedNames, sharedNamesOfChoices_eq]
      exact List.mem_flatMap.mpr ⟨_, hc, mem_sharedNamesOfChoice h⟩

theorem mem_sharedNamesOfChoice {slice : String} : {id : String} → {choice : SliceChoice} →
    choice.Offers slice id → sharedSliceName slice ∈ sharedNamesOfChoice id choice
  | _, _, .shared => by
      rw [sharedNamesOfChoice]
      exact List.mem_singleton_self _
  | _, _, .nonRepeat hf h => by
      rw [sharedNamesOfChoice, sharedNamesOfFields_eq]
      exact List.mem_append_left _ (List.mem_flatMap.mpr ⟨_, hf, mem_sharedNames h⟩)
  | _, _, .repeated hf h => by
      rw [sharedNamesOfChoice, sharedNamesOfFields_eq, sharedNamesOfFields_eq]
      exact List.mem_append_right _ (List.mem_flatMap.mpr ⟨_, hf, mem_sharedNames h⟩)

end

theorem mem_sharedNames_of_offersIn {slice : String} {fields : List (String × Field)}
    (h : OffersIn slice fields) : sharedSliceName slice ∈ sharedNamesOfFields fields := by
  obtain ⟨id, field, hf, ho⟩ := h
  rw [sharedNamesOfFields_eq]
  exact List.mem_flatMap.mpr ⟨_, hf, mem_sharedNames ho⟩

theorem mem_sharedNames_of_sharedSlice {model : SharedSlice} {slice : String}
    (h : model.Offers slice) :
    sharedSliceName slice ∈ model.variations.flatMap fun variation =>
      sharedNamesOfFields variation.primary.entries ++
        sharedNamesOfFields variation.items.entries := by
  obtain ⟨variation, hv, ho⟩ := h
  apply List.mem_flatMap.mpr
  refine ⟨variation, hv, List.mem_append.mpr ?_⟩
  exact ho.imp mem_sharedNames_of_offersIn mem_sharedNames_of_offersIn

mutual

-- Every name that is gathered is the name of a slice that is offered.
theorem exists_offers {name : String} : (field : Field) → name ∈ sharedNames field →
    ∃ slice, field.Offers slice ∧ name = sharedSliceName slice
  | .group _ ⟨fields⟩ _, h => by
      rw [sharedNames] at h
      obtain ⟨slice, ⟨id, field, hf, ho⟩, hname⟩ := exists_offersIn fields h
      exact ⟨slice, .group hf ho, hname⟩
  | .slices _ ⟨choices⟩, h => by
      rw [sharedNames] at h
      obtain ⟨slice, ⟨id, choice, hc, ho⟩, hname⟩ := exists_offersOfChoices choices h
      exact ⟨slice, .zone hc ho, hname⟩
  | .plain _ _, h | .image _, h | .integration _, h | .link _, h | .richText _, h | .select _, h
  | .unknown _ _, h => by
      simp [sharedNames] at h

theorem exists_offersIn {name : String} : (fields : List (String × Field)) →
    name ∈ sharedNamesOfFields fields →
    ∃ slice, OffersIn slice fields ∧ name = sharedSliceName slice
  | [], h => by
      simp [sharedNamesOfFields] at h
  | (id, field) :: rest, h => by
      rw [sharedNamesOfFields, List.mem_append] at h
      rcases h with h | h
      · obtain ⟨slice, ho, hname⟩ := exists_offers field h
        exact ⟨slice, ⟨id, field, List.mem_cons_self, ho⟩, hname⟩
      · obtain ⟨slice, ⟨other, inner, hf, ho⟩, hname⟩ := exists_offersIn rest h
        exact ⟨slice, ⟨other, inner, List.mem_cons_of_mem _ hf, ho⟩, hname⟩

theorem exists_offersOfChoices {name : String} : (choices : List (String × SliceChoice)) →
    name ∈ sharedNamesOfChoices choices →
    ∃ slice, (∃ id choice, (id, choice) ∈ choices ∧ choice.Offers slice id) ∧
      name = sharedSliceName slice
  | [], h => by
      simp [sharedNamesOfChoices] at h
  | (id, choice) :: rest, h => by
      rw [sharedNamesOfChoices, List.mem_append] at h
      rcases h with h | h
      · obtain ⟨slice, ho, hname⟩ := exists_offersOfChoice id choice h
        exact ⟨slice, ⟨id, choice, List.mem_cons_self, ho⟩, hname⟩
      · obtain ⟨slice, ⟨other, inner, hc, ho⟩, hname⟩ := exists_offersOfChoices rest h
        exact ⟨slice, ⟨other, inner, List.mem_cons_of_mem _ hc, ho⟩, hname⟩

theorem exists_offersOfChoice {name : String} (id : String) : (choice : SliceChoice) →
    name ∈ sharedNamesOfChoice id choice →
    ∃ slice, choice.Offers slice id ∧ name = sharedSliceName slice
  | .shared, h => by
      rw [sharedNamesOfChoice, List.mem_singleton] at h
      exact ⟨id, .shared, h⟩
  | .slice _ _ ⟨nonRepeat⟩ ⟨repeated⟩, h => by
      rw [sharedNamesOfChoice, List.mem_append] at h
      rcases h with h | h
      · obtain ⟨slice, ⟨other, field, hf, ho⟩, hname⟩ := exists_offersIn nonRepeat h
        exact ⟨slice, .nonRepeat hf ho, hname⟩
      · obtain ⟨slice, ⟨other, field, hf, ho⟩, hname⟩ := exists_offersIn repeated h
        exact ⟨slice, .repeated hf ho, hname⟩
  | .unknown, h => by
      simp [sharedNamesOfChoice] at h

end

theorem mem_sharedNamesOfFields_iff {fields : List (String × Field)} {name : String} :
    name ∈ sharedNamesOfFields fields ↔
      ∃ slice, OffersIn slice fields ∧ name = sharedSliceName slice := by
  constructor
  · exact exists_offersIn fields
  · rintro ⟨slice, ho, rfl⟩
    exact mem_sharedNames_of_offersIn ho

theorem mem_reserveShared (field : Field) (table : NameTable) (name : String) :
    name ∈ (reserveShared field table).taken ↔ name ∈ sharedNames field ∨ name ∈ table.taken :=
  NameTable.mem_foldl_reserve (sharedNames field) table name

end Synthesis

-- Reserving the names below some fields takes just these names.
theorem Compilation.mem_reserveSharedOf (fields : FieldSet) (table : NameTable) (name : String) :
    name ∈ (Naming.run (reserveSharedOf fields) table).2.taken ↔
      name ∈ Synthesis.sharedNamesOfFields fields.entries ∨ name ∈ table.taken := by
  obtain ⟨entries⟩ := fields
  change name ∈ ((OrderedMap.values ⟨entries⟩).foldl
    (fun known field => Synthesis.reserveShared field known) table).taken ↔ _
  rw [OrderedMap.values, List.foldl_map]
  induction entries generalizing table with
  | nil => simp [Synthesis.sharedNamesOfFields]
  | cons first rest ih =>
      rw [List.foldl_cons, ih, Synthesis.mem_reserveShared, Synthesis.sharedNamesOfFields,
        List.mem_append, or_assoc, or_left_comm]

end ContentTypes
