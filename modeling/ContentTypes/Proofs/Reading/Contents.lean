import ContentTypes.Proofs.Reading.Levels
import ContentTypes.Proofs.Reading.Parts

namespace ContentTypes

open Reading

section Parts

variable {σ : Type} [Source σ]

def itemsOf (value : σ) : List σ :=
  match Source.look value with
  | .ok (.arr items) => items
  | _ => []

-- The entries of a map. A repeated key has its last value at its first place.
def entriesOf (value : σ) : List (String × σ) :=
  match Source.look value with
  | .ok (.obj members) =>
      (OrderedMap.ofList (members.filterMap fun (key, value) => key.map (·, value))).entries
  | _ => []

-- A map that is left out has no entries.
def entriesUnder (keys : List String) (key : String) (value : σ) : List (String × σ) :=
  ((part? keys key value).map entriesOf).getD []

end Parts

mutual

-- Whether a field holds what its value holds. Only a kind that is not known may be kept as such.
def Field.Holds : Field → Json → Prop
  | .group _ ⟨fields⟩ _, value =>
      Field.MirrorAll fields (entriesUnder GroupConfig.keys "fields" value.config)
  | .slices _ ⟨choices⟩, value =>
      SliceChoice.MirrorAll choices (entriesUnder ZoneConfig.keys "choices" value.config)
  | .unknown kind _, _ => kind ∉ Field.knownKinds
  | _, _ => True

def Field.MirrorAll : List (String × Field) → List (String × Json) → Prop
  | [], [] => True
  | (id, field) :: fields, (key, value) :: entries =>
      (id = key ∧ value.kind? = some field.kind ∧ field.Holds value) ∧
        Field.MirrorAll fields entries
  | _, _ => False

-- A choice is what its tag says.
def SliceChoice.Mirrors : SliceChoice → Json → Prop
  | .slice _ _ ⟨nonRepeat⟩ ⟨repeated⟩, value =>
      value.tag? = some "Slice" ∧
        Field.MirrorAll nonRepeat (entriesUnder SliceChoice.keys "non-repeat" value) ∧
        Field.MirrorAll repeated (entriesUnder SliceChoice.keys "repeat" value)
  | .shared, value => value.tag? = some "SharedSlice"
  | .unknown, value => ∃ tag, value.tag? = some tag ∧ tag ≠ "Slice" ∧ tag ≠ "SharedSlice"

def SliceChoice.MirrorAll : List (String × SliceChoice) → List (String × Json) → Prop
  | [], [] => True
  | (id, choice) :: choices, (key, value) :: entries =>
      (id = key ∧ choice.Mirrors value) ∧ SliceChoice.MirrorAll choices entries
  | _, _ => False

end

def Field.Mirrors (field : Field) (value : Json) : Prop :=
  value.kind? = some field.kind ∧ field.Holds value

section Models

variable {σ : Type} [JsonSource σ]

-- Fields are read from values, whatever the source around them is.
def FieldSet.Mirrors (fields : FieldSet) (entries : List (String × σ)) : Prop :=
  List.Forall₂
    (OrderedMap.Entry fun field item => ∃ value, JsonSource.value item = .ok value ∧
      Field.Mirrors field value)
    fields.entries entries

structure CustomType.Mirrors (model : CustomType) (value : σ) : Prop where
  id : (part? keys "id" value).bind textOf? = some model.id
  tabs : List.Forall₂ (OrderedMap.Entry fun fields tab => FieldSet.Mirrors fields (entriesOf tab))
    model.tabs.entries (entriesUnder keys "json" value)

structure Variation.Mirrors (variation : Variation) (value : σ) : Prop where
  id : (part? keys "id" value).bind textOf? = some variation.id
  primary : variation.primary.Mirrors (entriesUnder keys "primary" value)
  items : variation.items.Mirrors (entriesUnder keys "items" value)

structure SharedSlice.Mirrors (model : SharedSlice) (value : σ) : Prop where
  id : (part? keys "id" value).bind textOf? = some model.id
  variations : List.Forall₂ Variation.Mirrors model.variations
    (((part? keys "variations" value).map itemsOf).getD [])

end Models

section Reading

variable {σ α ρ : Type} [Source σ]

theorem itemsOf_of_read {read : Reader σ α} {value : σ} {results : List α}
    (h : list read value = .ok results) :
    List.Forall₂ (fun result item => read item = .ok result) results (itemsOf value) := by
  obtain ⟨items, hlook, hitems⟩ := list_eq_ok_iff.mp h
  rw [itemsOf, hlook]
  exact hitems.flip

theorem entriesOf_of_read {read : Reader σ α} {value : σ} {result : OrderedMap α}
    (h : orderedMap read value = .ok result) :
    List.Forall₂ (OrderedMap.Entry fun content item => read item = .ok content) result.entries
      (entriesOf value) := by
  obtain ⟨members, contents, hlook, hcontents, rfl⟩ := orderedMap_eq_ok_iff.mp h
  rw [entriesOf, hlook]
  apply OrderedMap.forall₂_ofList
  clear hlook h
  induction hcontents with
  | nil => exact .nil
  | @cons member content _ _ hfirst _ ih =>
      obtain ⟨key, item⟩ := member
      obtain ⟨rfl, hread⟩ := hfirst
      exact .cons ⟨rfl, hread⟩ ih

variable {shape : Reading.Shape σ ρ} {key : String} {need : Need} {value : σ} {result : ρ}

-- The entries of a map that one slot of a record sets.
theorem entriesOf_of_fill {given : String → Option σ} {slots : List (Slot σ ρ)} {record : ρ}
    {read : Reader σ α} {set : ρ → OrderedMap α → ρ} (get : ρ → OrderedMap α)
    (hnodup : (slots.map Slot.key).Nodup) (hslot : slot key need (orderedMap read) set ∈ slots)
    (hset : ∀ record content, get (set record content) = content)
    (hothers : ∀ s ∈ slots, s.key ≠ key → s.Keeps get) (hblank : get record = .empty)
    (h : fillFrom given slots record = .ok result) :
    List.Forall₂ (OrderedMap.Entry fun content item => read item = .ok content)
      (get result).entries (((given key).map entriesOf).getD []) := by
  obtain ⟨habsent, hpresent⟩ := fillFrom_sets hnodup hslot hset hothers h
  cases hgiven : given key with
  | none =>
      rw [habsent hgiven, hblank]
      exact .nil
  | some inner => exact entriesOf_of_read (hpresent inner hgiven)

theorem entriesUnder_of_read {read : Reader σ α} {set : ρ → OrderedMap α → ρ}
    (get : ρ → OrderedMap α) (hs : shape.Independent)
    (hslot : slot key need (orderedMap read) set ∈ shape.slots)
    (hset : ∀ record content, get (set record content) = content)
    (hothers : ∀ s ∈ shape.slots, s.key ≠ key → s.Keeps get) (hblank : get shape.blank = .empty)
    (h : shape.read value = .ok result) :
    List.Forall₂ (OrderedMap.Entry fun content item => read item = .ok content)
      (get result).entries (entriesUnder shape.keys key value) := by
  obtain ⟨glance, hlook, -, hfill⟩ := (Reading.Shape.read_eq_ok_iff hs).mp h
  rw [entriesUnder, ← given_eq_part? hlook]
  exact entriesOf_of_fill get hs.nodup hslot hset hothers hblank hfill

-- The text of a slot that has to be given.
theorem textOf?_of_fields {set : ρ → String → ρ} (get : ρ → String) (hs : shape.Independent)
    (hslot : slot key .required Reading.text set ∈ shape.slots)
    (hset : ∀ record content, get (set record content) = content)
    (hothers : ∀ s ∈ shape.slots, s.key ≠ key → s.Keeps get) (h : shape.read value = .ok result) :
    (part? shape.keys key value).bind textOf? = some (get result) := by
  obtain ⟨glance, hlook, -, hfill⟩ := (Reading.Shape.read_eq_ok_iff hs).mp h
  rw [← given_eq_part? hlook]
  obtain ⟨inner, hinner⟩ := Option.isSome_iff_exists.mp (fillFrom_required hslot rfl hfill)
  rw [key_slot] at hinner
  rw [hinner]
  exact textOf?_of_read ((fillFrom_sets hs.nodup hslot hset hothers hfill).2 inner hinner)

theorem itemsOf_of_fields {read : Reader σ α} {set : ρ → List α → ρ} (get : ρ → List α)
    (hs : shape.Independent) (hslot : slot key need (list read) set ∈ shape.slots)
    (hset : ∀ record content, get (set record content) = content)
    (hothers : ∀ s ∈ shape.slots, s.key ≠ key → s.Keeps get) (hblank : get shape.blank = [])
    (h : shape.read value = .ok result) :
    List.Forall₂ (fun content item => read item = .ok content) (get result)
      (((part? shape.keys key value).map itemsOf).getD []) := by
  obtain ⟨glance, hlook, -, hfill⟩ := (Reading.Shape.read_eq_ok_iff hs).mp h
  rw [← given_eq_part? hlook]
  obtain ⟨habsent, hpresent⟩ := fillFrom_sets hs.nodup hslot hset hothers hfill
  cases hgiven : shape.given glance key with
  | none =>
      rw [habsent hgiven, hblank]
      exact .nil
  | some inner => exact itemsOf_of_read (hpresent inner hgiven)

end Reading

theorem Field.mirrorAll_of_forall₂ {fields : List (String × Field)}
    {entries : List (String × Json)}
    (h : List.Forall₂ (OrderedMap.Entry Field.Mirrors) fields entries) :
    Field.MirrorAll fields entries := by
  induction h with
  | nil => exact trivial
  | cons hfirst _ ih => exact ⟨hfirst, ih⟩

theorem SliceChoice.mirrorAll_of_forall₂ {choices : List (String × SliceChoice)}
    {entries : List (String × Json)}
    (h : List.Forall₂ (OrderedMap.Entry SliceChoice.Mirrors) choices entries) :
    SliceChoice.MirrorAll choices entries := by
  induction h with
  | nil => exact trivial
  | cons hfirst _ ih => exact ⟨hfirst, ih⟩

theorem OrderedMap.Entry.imp {V W : Type} {related other : V → W → Prop}
    (h : ∀ v w, related v w → other v w) {first : String × V} {second : String × W}
    (he : Entry related first second) : Entry other first second :=
  ⟨he.1, h _ _ he.2⟩

section Fields

variable {readField : Reader Json Field}

namespace SliceChoice

theorem mirrors_of_readWith
    (h : ∀ value field, readField value = .ok field → field.Mirrors value) {value : Json}
    {choice : SliceChoice} (hread : readWith readField value = .ok choice) :
    choice.Mirrors value := by
  obtain ⟨_, first, content, tag, hlook, hparted, htag, -, hmade⟩ := readWith_eq_ok_iff.mp hread
  have htold := tag?_of_parted hlook hparted htag
  by_cases hslice : tag = "Slice"
  · subst hslice
    obtain ⟨slice, -, hfill, rfl⟩ := hmade
    have hnodup := (independent_localShape readField).nodup
    have hmirror : ∀ {key fields}, key ≠ "type" →
        List.Forall₂ (OrderedMap.Entry fun field item => readField item = .ok field) fields
          ((((localShape readField).given content key).map entriesOf).getD []) →
        Field.MirrorAll fields (entriesUnder keys key value) := by
      intro key fields hkey hfields
      rw [entriesUnder, ← given_eq_part? hlook hparted hkey]
      exact Field.mirrorAll_of_forall₂
        (hfields.imp fun _ _ he => he.imp fun field value => h value field)
    refine ⟨htold, hmirror (by decide) ?_, hmirror (by decide) ?_⟩
    · exact entriesOf_of_fill LocalSlice.nonRepeat hnodup (List.mem_of_getElem? (i := 2) rfl)
        (fun _ _ => rfl) (by simp [localShape]) rfl hfill
    · exact entriesOf_of_fill LocalSlice.repeated hnodup (List.mem_of_getElem? (i := 3) rfl)
        (fun _ _ => rfl) (by simp [localShape]) rfl hfill
  · rw [Made, if_neg hslice] at hmade
    obtain ⟨-, rfl⟩ := hmade
    by_cases hshared : tag = "SharedSlice"
    · subst hshared
      exact htold
    · rw [if_neg hshared]
      exact ⟨tag, htold, hslice, hshared⟩

end SliceChoice

-- The entries of a map inside a configuration.
theorem Field.entriesUnder_of_readConfig {α ρ : Type} {shape : Reading.Shape Json ρ}
    {key : String} {need : Need} {read : Reader Json α} {set : ρ → OrderedMap α → ρ}
    (get : ρ → OrderedMap α) (hs : shape.Independent)
    (hslot : slot key need (orderedMap read) set ∈ shape.slots)
    (hset : ∀ record content, get (set record content) = content)
    (hothers : ∀ s ∈ shape.slots, s.key ≠ key → s.Keeps get) (hblank : get shape.blank = .empty)
    {value : Json} {result : ρ} (h : readConfig shape value = .ok result) :
    List.Forall₂ (OrderedMap.Entry fun content item => read item = .ok content)
      (get result).entries (entriesUnder shape.keys key value) := by
  by_cases hnull : value = .null
  · subst hnull
    cases (readConfig_null shape).symm.trans h
    rw [hblank]
    exact .nil
  · rw [readConfig_of_ne shape hnull] at h
    exact entriesUnder_of_read get hs hslot hset hothers hblank h

theorem Field.mirrors_of_readLevel
    (h : ∀ value field, readField value = .ok field → field.Mirrors value) {value : Json}
    {field : Field} (hread : readLevel readField value = .ok field) : field.Mirrors value := by
  obtain ⟨members, kind, rfl, htype, hparts⟩ := readLevel_eq_ok_iff.mp hread
  have hkind : (Json.obj members).kind? = some kind := by
    rw [Json.kind?, Json.get?, htype]
    rfl
  change ofParts readField kind (Json.config (.obj members)) _ = _ at hparts
  generalize (members.get? "fieldset").getD .null = fieldset at hparts
  generalize Json.obj members = value at *
  cases kindCase kind with
  | plain known =>
      rw [ofParts_plain] at hparts
      obtain ⟨caption, -, rfl⟩ := map_eq_ok_iff.mp hparts
      exact ⟨hkind, trivial⟩
  | image | integration | link | richText | select =>
      obtain ⟨config, -, rfl⟩ := map_eq_ok_iff.mp hparts
      exact ⟨hkind, trivial⟩
  | group =>
      obtain ⟨config, hconfig, rfl⟩ := map_eq_ok_iff.mp hparts
      have hfields := entriesUnder_of_readConfig GroupConfig.fields
        (GroupConfig.independent readField) (List.mem_of_getElem? (i := 1) rfl) (fun _ _ => rfl)
        (by simp [GroupConfig.shape]) rfl hconfig
      refine ⟨hkind, Field.mirrorAll_of_forall₂ ?_⟩
      exact hfields.imp fun _ _ he => he.imp fun field value => h value field
  | slices =>
      obtain ⟨name, -, hrest⟩ := bind_eq_ok_iff.mp hparts
      obtain ⟨choices, hzone, he⟩ := bind_eq_ok_iff.mp hrest
      cases he
      have hchoices := entriesUnder_of_readConfig id
        (independent_zoneShape readField) (List.mem_of_getElem? (i := 0) rfl) (fun _ _ => rfl)
        (by simp [zoneShape]) rfl hzone
      refine ⟨hkind, SliceChoice.mirrorAll_of_forall₂ ?_⟩
      exact hchoices.imp fun _ _ he => he.imp fun choice value => SliceChoice.mirrors_of_readWith h
  | unknown hunknown =>
      rw [ofParts_unknown _ _ _ hunknown] at hparts
      cases hparts
      exact ⟨hkind, hunknown⟩

theorem Field.mirrors_of_readLevels {levels : Nat} {value : Json} {field : Field}
    (h : readLevels levels value = .ok field) : field.Mirrors value := by
  induction levels generalizing value field with
  | zero => cases h
  | succ levels ih => exact mirrors_of_readLevel (fun value field => ih) h

end Fields

section Models

variable {σ : Type} [JsonSource σ]

theorem Field.mirrors_of_read {item : σ} {field : Field} (h : Field.read item = .ok field) :
    ∃ value, JsonSource.value item = .ok value ∧ field.Mirrors value := by
  obtain ⟨glance, -, hfield⟩ := bind_eq_ok_iff.mp h
  cases glance with
  | obj members =>
      obtain ⟨value, hvalue, hjson⟩ := bind_eq_ok_iff.mp hfield
      exact ⟨value, hvalue, mirrors_of_readLevels hjson⟩
  | _ => cases hfield

theorem FieldSet.mirrors_of_entries {fields : FieldSet} {entries : List (String × σ)}
    (h : List.Forall₂ (OrderedMap.Entry fun field item => Field.read item = .ok field)
      fields.entries entries) : fields.Mirrors entries :=
  h.imp fun _ _ he => he.imp fun _ _ => Field.mirrors_of_read

theorem CustomType.mirrors_of_read {value : σ} {model : CustomType}
    (h : CustomType.read value = .ok model) : model.Mirrors value where
  id := textOf?_of_fields CustomType.id CustomType.independent (List.mem_of_getElem? (i := 0) rfl)
    (fun _ _ => rfl) (by simp [CustomType.shape]) h
  tabs := by
    have htabs := entriesUnder_of_read CustomType.tabs CustomType.independent
      (List.mem_of_getElem? (i := 4) rfl) (fun _ _ => rfl) (by simp [CustomType.shape]) rfl h
    exact htabs.imp fun _ _ he => he.imp fun fields tab hfields =>
      FieldSet.mirrors_of_entries (entriesOf_of_read hfields)

theorem Variation.mirrors_of_read {value : σ} {variation : Variation}
    (h : Variation.read value = .ok variation) : variation.Mirrors value where
  id := textOf?_of_fields Variation.id Variation.independent (List.mem_of_getElem? (i := 0) rfl)
    (fun _ _ => rfl) (by simp [Variation.shape]) h
  primary :=
    FieldSet.mirrors_of_entries <| entriesUnder_of_read Variation.primary Variation.independent
      (List.mem_of_getElem? (i := 3) rfl) (fun _ _ => rfl) (by simp [Variation.shape]) rfl h
  items :=
    FieldSet.mirrors_of_entries <| entriesUnder_of_read Variation.items Variation.independent
      (List.mem_of_getElem? (i := 4) rfl) (fun _ _ => rfl) (by simp [Variation.shape]) rfl h

theorem SharedSlice.mirrors_of_read {value : σ} {model : SharedSlice}
    (h : SharedSlice.read value = .ok model) : model.Mirrors value where
  id := textOf?_of_fields SharedSlice.id SharedSlice.independent
    (List.mem_of_getElem? (i := 0) rfl) (fun _ _ => rfl) (by simp [SharedSlice.shape]) h
  variations := by
    have hvariations := itemsOf_of_fields SharedSlice.variations SharedSlice.independent
      (List.mem_of_getElem? (i := 3) rfl) (fun _ _ => rfl) (by simp [SharedSlice.shape]) rfl h
    exact hvariations.imp fun _ _ => Variation.mirrors_of_read

-- Whatever is read as a model has the same ids in the same order, and the same kinds.
theorem read_mirrors_source {value : σ} :
    (∀ model, CustomType.read value = .ok model → CustomType.Mirrors model value) ∧
      ∀ model, SharedSlice.read value = .ok model → SharedSlice.Mirrors model value :=
  ⟨fun _ => CustomType.mirrors_of_read, fun _ => SharedSlice.mirrors_of_read⟩

end Models

-- A group in a local slice, beside other choices and a kind that is not known.
def Json.layeredFields : Json :=
  .record
    [ ("uid", .record [("type", "UID")])
    , ("blob", .record [("type", "Blob"), ("config", .arr [])])
    , ("body", .record
        [ ("type", "Slices")
        , ("config", .record
            [ ("choices", .record
                [ ("quote", .record
                    [ ("non-repeat", .record
                        [ ("lines", .record
                            [ ("config", .record
                                [("fields", .record [("line", .record [("type", "Text")])])])
                            , ("type", "Group") ]) ])
                    , ("type", "Slice") ])
                , ("banner", .record [("type", "SharedSlice")])
                , ("other", .record [("type", "Widget")]) ]) ]) ]) ]

theorem read_mirrors_source_layeredFields :
    (∃ model,
      CustomType.read (Json.record
        [("json", .record [("Main", Json.layeredFields)]), ("id", "page")]) = .ok model ∧
      model.Mirrors (Json.record
        [("json", .record [("Main", Json.layeredFields)]), ("id", "page")])) ∧
    ∃ model,
      SharedSlice.read (Json.record
        [("id", "hero"), ("variations", .arr
          [.record [("id", "default"), ("primary", Json.layeredFields)]])]) = .ok model ∧
      model.Mirrors (Json.record
        [("id", "hero"), ("variations", .arr
          [.record [("id", "default"), ("primary", Json.layeredFields)]])]) :=
  ⟨⟨_, rfl, read_mirrors_source.1 _ rfl⟩, ⟨_, rfl, read_mirrors_source.2 _ rfl⟩⟩

end ContentTypes
