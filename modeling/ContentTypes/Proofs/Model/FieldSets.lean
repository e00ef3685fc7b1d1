import ContentTypes.Proofs.Reading.Contents

namespace ContentTypes

-- The ids of a field set that live in its content. A UID lives on the document.
def FieldSet.contentIds (fields : FieldSet) : List String :=
  (fields.entries.filter fun entry => !entry.2.isUid).map Prod.fst

-- A set of a slice counts only if it has fields.
def FieldSet.filled (fields : FieldSet) : List FieldSet := if fields.isEmpty then [] else [fields]

mutual

-- The field sets inside a field, each before those inside of it.
def Field.fieldSets : Field → List FieldSet
  | .group _ ⟨fields⟩ _ => ⟨fields⟩ :: setsOfFields fields
  | .slices _ ⟨choices⟩ => setsOfChoices choices
  | _ => []

def setsOfFields : List (String × Field) → List FieldSet
  | [] => []
  | (_, field) :: rest => field.fieldSets ++ setsOfFields rest

def setsOfChoices : List (String × SliceChoice) → List FieldSet
  | [] => []
  | (_, choice) :: rest => choice.fieldSets ++ setsOfChoices rest

def SliceChoice.fieldSets : SliceChoice → List FieldSet
  | .slice _ _ ⟨nonRepeat⟩ ⟨repeated⟩ =>
      (FieldSet.filled ⟨nonRepeat⟩ ++ setsOfFields nonRepeat) ++
        (FieldSet.filled ⟨repeated⟩ ++ setsOfFields repeated)
  | .shared | .unknown => []

end

-- A set of a slice and the sets inside of it.
def FieldSet.withInner (fields : FieldSet) : List FieldSet :=
  fields.filled ++ setsOfFields fields.entries

theorem SliceChoice.fieldSets_slice (fieldset description : Option String)
    (nonRepeat repeated : FieldSet) :
    (SliceChoice.slice fieldset description nonRepeat repeated).fieldSets =
      nonRepeat.withInner ++ repeated.withInner := rfl

def CustomType.fieldSets (model : CustomType) : List FieldSet :=
  model.fields :: setsOfFields model.fields.entries

def Variation.fieldSets (variation : Variation) : List FieldSet :=
  variation.primary.withInner ++ variation.items.withInner

def SharedSlice.fieldSets (model : SharedSlice) : List FieldSet :=
  model.variations.flatMap Variation.fieldSets

mutual

-- No map inside a field has a key twice.
def Field.IsKeyed : Field → Prop
  | .group _ ⟨fields⟩ _ => FieldsKeyed fields
  | .slices _ ⟨choices⟩ => ChoicesKeyed choices
  | _ => True

def FieldsKeyed : List (String × Field) → Prop
  | [] => True
  | (id, field) :: rest => id ∉ rest.map Prod.fst ∧ field.IsKeyed ∧ FieldsKeyed rest

def ChoicesKeyed : List (String × SliceChoice) → Prop
  | [] => True
  | (id, choice) :: rest => id ∉ rest.map Prod.fst ∧ choice.IsKeyed ∧ ChoicesKeyed rest

def SliceChoice.IsKeyed : SliceChoice → Prop
  | .slice _ _ ⟨nonRepeat⟩ ⟨repeated⟩ => FieldsKeyed nonRepeat ∧ FieldsKeyed repeated
  | .shared | .unknown => True

end

def CustomType.IsKeyed (model : CustomType) : Prop :=
  model.tabs.keys.Nodup ∧ ∀ tab ∈ model.tabs.values, FieldsKeyed tab.entries

def SharedSlice.IsKeyed (model : SharedSlice) : Prop :=
  ∀ variation ∈ model.variations,
    FieldsKeyed variation.primary.entries ∧ FieldsKeyed variation.items.entries

theorem fieldsKeyed_iff {fields : List (String × Field)} :
    FieldsKeyed fields ↔ (fields.map Prod.fst).Nodup ∧ ∀ entry ∈ fields, entry.2.IsKeyed := by
  induction fields with
  | nil => simp [FieldsKeyed]
  | cons entry rest ih =>
      rw [FieldsKeyed, ih, List.map_cons, List.nodup_cons, List.forall_mem_cons]
      constructor
      · rintro ⟨hnew, hfield, hrest, hall⟩
        exact ⟨⟨hnew, hrest⟩, hfield, hall⟩
      · rintro ⟨⟨hnew, hrest⟩, hfield, hall⟩
        exact ⟨hnew, hfield, hrest, hall⟩

-- Different keys stay different without those of UIDs.
theorem FieldSet.nodup_contentIds {fields : FieldSet} (h : fields.keys.Nodup) :
    (FieldSet.contentIds fields).Nodup :=
  h.sublist (List.filter_sublist.map Prod.fst)

theorem FieldSet.nodup_withInner {fields : FieldSet} (h : FieldsKeyed fields.entries)
    (hinner : ∀ set ∈ setsOfFields fields.entries, set.keys.Nodup) :
    ∀ set ∈ fields.withInner, set.keys.Nodup := by
  rw [withInner, List.forall_mem_append]
  refine ⟨?_, hinner⟩
  unfold filled
  split
  · exact List.forall_mem_nil _
  · exact List.forall_mem_singleton.mpr (fieldsKeyed_iff.mp h).1

mutual

theorem Field.nodup_fieldSets : (field : Field) → field.IsKeyed →
    ∀ set ∈ field.fieldSets, set.keys.Nodup
  | .group _ ⟨fields⟩ _, h => by
      rw [Field.IsKeyed] at h
      rw [Field.fieldSets, List.forall_mem_cons]
      exact ⟨(fieldsKeyed_iff.mp h).1, nodup_setsOfFields fields h⟩
  | .slices _ ⟨choices⟩, h => by
      rw [Field.IsKeyed] at h
      rw [Field.fieldSets]
      exact nodup_setsOfChoices choices h
  | .plain .., _ | .image _, _ | .integration _, _ | .link _, _ | .richText _, _ | .select _, _
  | .unknown .., _ => List.forall_mem_nil _

theorem nodup_setsOfFields : (fields : List (String × Field)) → FieldsKeyed fields →
    ∀ set ∈ setsOfFields fields, set.keys.Nodup
  | [], _ => List.forall_mem_nil _
  | (id, field) :: rest, h => by
      rw [FieldsKeyed] at h
      rw [setsOfFields, List.forall_mem_append]
      exact ⟨field.nodup_fieldSets h.2.1, nodup_setsOfFields rest h.2.2⟩

theorem nodup_setsOfChoices : (choices : List (String × SliceChoice)) → ChoicesKeyed choices →
    ∀ set ∈ setsOfChoices choices, set.keys.Nodup
  | [], _ => List.forall_mem_nil _
  | (id, choice) :: rest, h => by
      rw [ChoicesKeyed] at h
      rw [setsOfChoices, List.forall_mem_append]
      exact ⟨choice.nodup_fieldSets h.2.1, nodup_setsOfChoices rest h.2.2⟩

theorem SliceChoice.nodup_fieldSets : (choice : SliceChoice) → choice.IsKeyed →
    ∀ set ∈ choice.fieldSets, set.keys.Nodup
  | .slice _ _ ⟨nonRepeat⟩ ⟨repeated⟩, h => by
      rw [SliceChoice.IsKeyed] at h
      rw [SliceChoice.fieldSets_slice, List.forall_mem_append]
      exact ⟨FieldSet.nodup_withInner h.1 (nodup_setsOfFields nonRepeat h.1),
        FieldSet.nodup_withInner h.2 (nodup_setsOfFields repeated h.2)⟩
  | .shared, _ | .unknown, _ => List.forall_mem_nil _

end

-- What a map is made from has all that the map holds.
theorem OrderedMap.mem_of_mem_ofList {V : Type} {pairs : List (String × V)} {entry : String × V}
    (h : entry ∈ (OrderedMap.ofList pairs).entries) : entry ∈ pairs := by
  have honce := List.nodup_iff_count_le_one.mp (nodup_ofList pairs) entry.1
  have hget : (OrderedMap.ofList pairs).get? entry.1 = some entry.2 :=
    lookup_eq_some_of_once honce h
  rw [get?_ofList] at hget
  exact List.mem_reverse.mp (mem_of_lookup_eq_some hget)

theorem CustomType.fieldsKeyed_fields {model : CustomType} (h : model.IsKeyed) :
    FieldsKeyed model.fields.entries := by
  refine fieldsKeyed_iff.mpr ⟨OrderedMap.nodup_ofList _, fun entry he => ?_⟩
  obtain ⟨tab, ht, he⟩ := List.mem_flatMap.mp (OrderedMap.mem_of_mem_ofList he)
  exact (fieldsKeyed_iff.mp (h.2 tab ht)).2 entry he

-- The fields of all tabs have different ids by the way they are put together.
theorem CustomType.nodup_fieldSets {model : CustomType} (h : model.IsKeyed) :
    ∀ set ∈ model.fieldSets, set.keys.Nodup := by
  rw [fieldSets, List.forall_mem_cons]
  exact ⟨OrderedMap.nodup_ofList _, nodup_setsOfFields _ (fieldsKeyed_fields h)⟩

theorem SharedSlice.nodup_fieldSets {model : SharedSlice} (h : model.IsKeyed) :
    ∀ set ∈ model.fieldSets, set.keys.Nodup := by
  rw [fieldSets, List.forall_mem_flatMap]
  intro variation hv
  obtain ⟨hprimary, hitems⟩ := h variation hv
  rw [Variation.fieldSets, List.forall_mem_append]
  exact ⟨FieldSet.nodup_withInner hprimary (nodup_setsOfFields _ hprimary),
    FieldSet.nodup_withInner hitems (nodup_setsOfFields _ hitems)⟩

section Reading

open Reading

theorem nodup_entriesOf {σ : Type} [Source σ] (value : σ) :
    ((entriesOf value).map Prod.fst).Nodup := by
  unfold entriesOf
  split
  · exact OrderedMap.nodup_ofList _
  · exact List.nodup_nil

theorem nodup_entriesUnder {σ : Type} [Source σ] (keys : List String) (key : String) (value : σ) :
    ((entriesUnder keys key value).map Prod.fst).Nodup := by
  unfold entriesUnder
  cases part? keys key value with
  | none => exact List.nodup_nil
  | some inner => exact nodup_entriesOf inner

theorem Field.keys_of_mirrorAll {fields : List (String × Field)} {entries : List (String × Json)}
    (h : MirrorAll fields entries) : fields.map Prod.fst = entries.map Prod.fst := by
  induction fields generalizing entries with
  | nil =>
      cases entries with
      | nil => rfl
      | cons entry entries => cases h
  | cons field fields ih =>
      cases entries with
      | nil => cases h
      | cons entry entries =>
          obtain ⟨⟨hid, -⟩, hrest⟩ := h
          rw [List.map_cons, List.map_cons, hid, ih hrest]

theorem SliceChoice.keys_of_mirrorAll {choices : List (String × SliceChoice)}
    {entries : List (String × Json)} (h : MirrorAll choices entries) :
    choices.map Prod.fst = entries.map Prod.fst := by
  induction choices generalizing entries with
  | nil =>
      cases entries with
      | nil => rfl
      | cons entry entries => cases h
  | cons choice choices ih =>
      cases entries with
      | nil => cases h
      | cons entry entries =>
          obtain ⟨⟨hid, -⟩, hrest⟩ := h
          rw [List.map_cons, List.map_cons, hid, ih hrest]

mutual

-- A document has no key twice once it is read, so neither has what holds the same.
theorem Field.isKeyed_of_holds : (field : Field) → (value : Json) → field.Holds value →
    field.IsKeyed
  | .group _ ⟨fields⟩ _, value, h => by
      rw [Field.Holds] at h
      rw [Field.IsKeyed]
      exact fieldsKeyed_of_mirrorAll fields _ (nodup_entriesUnder _ _ _) h
  | .slices _ ⟨choices⟩, value, h => by
      rw [Field.Holds] at h
      rw [Field.IsKeyed]
      exact choicesKeyed_of_mirrorAll choices _ (nodup_entriesUnder _ _ _) h
  | .plain .., _, _ | .image _, _, _ | .integration _, _, _ | .link _, _, _ | .richText _, _, _
  | .select _, _, _ | .unknown .., _, _ => trivial

theorem fieldsKeyed_of_mirrorAll : (fields : List (String × Field)) →
    (entries : List (String × Json)) → (entries.map Prod.fst).Nodup →
    Field.MirrorAll fields entries → FieldsKeyed fields
  | [], _, _, _ => trivial
  | (id, field) :: rest, [], _, h => by cases h
  | (id, field) :: rest, (key, value) :: entries, hn, h => by
      obtain ⟨⟨rfl, -, hholds⟩, hrest⟩ := h
      obtain ⟨hnew, hn⟩ := List.nodup_cons.mp hn
      rw [FieldsKeyed, Field.keys_of_mirrorAll hrest]
      exact ⟨hnew, field.isKeyed_of_holds value hholds,
        fieldsKeyed_of_mirrorAll rest entries hn hrest⟩

theorem choicesKeyed_of_mirrorAll : (choices : List (String × SliceChoice)) →
    (entries : List (String × Json)) → (entries.map Prod.fst).Nodup →
    SliceChoice.MirrorAll choices entries → ChoicesKeyed choices
  | [], _, _, _ => trivial
  | (id, choice) :: rest, [], _, h => by cases h
  | (id, choice) :: rest, (key, value) :: entries, hn, h => by
      obtain ⟨⟨rfl, hmirrors⟩, hrest⟩ := h
      obtain ⟨hnew, hn⟩ := List.nodup_cons.mp hn
      rw [ChoicesKeyed, SliceChoice.keys_of_mirrorAll hrest]
      exact ⟨hnew, choice.isKeyed_of_mirrors value hmirrors,
        choicesKeyed_of_mirrorAll rest entries hn hrest⟩

theorem SliceChoice.isKeyed_of_mirrors : (choice : SliceChoice) → (value : Json) →
    choice.Mirrors value → choice.IsKeyed
  | .slice _ _ ⟨nonRepeat⟩ ⟨repeated⟩, value, h => by
      obtain ⟨-, hnonRepeat, hrepeated⟩ := h
      rw [SliceChoice.IsKeyed]
      exact ⟨fieldsKeyed_of_mirrorAll nonRepeat _ (nodup_entriesUnder _ _ _) hnonRepeat,
        fieldsKeyed_of_mirrorAll repeated _ (nodup_entriesUnder _ _ _) hrepeated⟩
  | .shared, _, _ | .unknown, _, _ => trivial

end

variable {σ : Type} [JsonSource σ]

theorem forall_of_forall₂ {α β : Type} {related : α → β → Prop} {holds : α → Prop}
    (h : ∀ a b, related a b → holds a) {as : List α} {bs : List β}
    (hlists : List.Forall₂ related as bs) : ∀ a ∈ as, holds a :=
  ((List.forall₂_and_left as bs).mp (hlists.imp fun a b hab => ⟨h a b hab, hab⟩)).1

theorem FieldSet.fieldsKeyed_of_mirrors {fields : FieldSet} {entries : List (String × σ)}
    (hn : (entries.map Prod.fst).Nodup) (h : fields.Mirrors entries) :
    FieldsKeyed fields.entries := by
  have hkeys : entries.map Prod.fst = fields.entries.map Prod.fst :=
    map_eq_of_forall₂ (fun _ _ he => he.1.symm) h
  refine fieldsKeyed_iff.mpr ⟨hkeys ▸ hn, forall_of_forall₂ ?_ h⟩
  rintro entry _ ⟨-, value, -, hmirrors⟩
  exact entry.2.isKeyed_of_holds value hmirrors.2

theorem CustomType.isKeyed_of_mirrors {model : CustomType} {value : σ} (h : model.Mirrors value) :
    model.IsKeyed := by
  have hkeys : (entriesUnder keys "json" value).map Prod.fst = model.tabs.keys :=
    map_eq_of_forall₂ (fun _ _ he => he.1.symm) h.tabs
  refine ⟨hkeys ▸ nodup_entriesUnder _ _ _, List.forall_mem_map.mpr (forall_of_forall₂ ?_ h.tabs)⟩
  rintro entry _ ⟨-, hfields⟩
  exact FieldSet.fieldsKeyed_of_mirrors (nodup_entriesOf _) hfields

theorem SharedSlice.isKeyed_of_mirrors {model : SharedSlice} {value : σ} (h : model.Mirrors value) :
    model.IsKeyed := by
  refine forall_of_forall₂ ?_ h.variations
  intro variation _ hv
  exact ⟨FieldSet.fieldsKeyed_of_mirrors (nodup_entriesUnder _ _ _) hv.primary,
    FieldSet.fieldsKeyed_of_mirrors (nodup_entriesUnder _ _ _) hv.items⟩

end Reading

end ContentTypes
