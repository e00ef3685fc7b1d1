import ContentTypes.Proofs.Compilation.Names
import ContentTypes.Proofs.Model.FieldSets
import ContentTypes.Proofs.Module.Emission
import ContentTypes.Proofs.TypeScript.Keys

namespace ContentTypes

-- The names of the properties of a record.
def Declaration.propertyNames? (declaration : Declaration) : Option (List String) :=
  match declaration.kind with
  | .record properties => some (properties.map Property.name)
  | .alias _ _ => none

def recordNames (declarations : List Declaration) : List (List String) :=
  declarations.filterMap Declaration.propertyNames?

theorem recordNames_append (first second : List Declaration) :
    recordNames (first ++ second) = recordNames first ++ recordNames second :=
  List.filterMap_append

namespace Synthesis

open Naming (run)

theorem recordNames_recordFirst (name : String) (docs : Docs)
    (inner : List Property × List Declaration) :
    recordNames (recordFirst name docs inner) =
      inner.1.map Property.name :: recordNames inner.2 := rfl

variable (path : Path) (table : NameTable)

-- A field has the property of its id, and a UID has none.
theorem names_property (id : String) (field : Field) :
    (run (ofField path id field) table).1.property.toList.map Property.name =
      if field.isUid then [] else [id] := by
  cases field with
  | plain kind caption =>
      rw [run_plain]
      cases kind <;> rfl
  | group label fields repeats =>
      obtain ⟨fields⟩ := fields
      rw [run_group]
      rfl
  | slices fieldset choices =>
      obtain ⟨choices⟩ := choices
      rw [run_slices]
      rfl
  | _ => rfl

theorem names_ofFields (fields : List (String × Field)) :
    (run (ofFields path fields) table).1.1.map Property.name = FieldSet.contentIds ⟨fields⟩ := by
  induction fields generalizing table with
  | nil => rfl
  | cons entry rest ih =>
      obtain ⟨id, field⟩ := entry
      rw [run_ofFields_cons, List.map_append, names_property, ih]
      by_cases hu : field.isUid <;> simp [FieldSet.contentIds, hu]

-- A role without fields has no record.
theorem recordNames_role {fields : FieldSet}
    (ih : ∀ inside known, recordNames (run (ofFields inside fields.entries) known).1.2 =
      (setsOfFields fields.entries).map FieldSet.contentIds)
    (role : Role) (lead : String) (emptyTy : Ty) :
    recordNames (run (ofRole path role lead emptyTy fields) table).1.2 =
      fields.withInner.map FieldSet.contentIds := by
  obtain ⟨_ | ⟨first, rest⟩⟩ := fields
  · rfl
  · rw [run_ofRole_cons, recordNames_recordFirst, names_ofFields, ih]
    rfl

theorem recordNames_variant {primary items : FieldSet}
    (hprimary : ∀ inside known, recordNames (run (ofFields inside primary.entries) known).1.2 =
      (setsOfFields primary.entries).map FieldSet.contentIds)
    (hitems : ∀ inside known, recordNames (run (ofFields inside items.entries) known).1.2 =
      (setsOfFields items.entries).map FieldSet.contentIds)
    (libraryName : String) (docs : Docs) :
    recordNames (run (ofVariant path libraryName docs primary items) table).1.2 =
      (primary.withInner ++ items.withInner).map FieldSet.contentIds := by
  have hp := recordNames_role path (table.taking [table.free (Naming.declarationName path [])])
    hprimary .primary "Primary content in" emptyRecordTy
  have hi := fun known => recordNames_role path known hitems .items "Item in" .never
  rw [run_ofVariant, recordNames_append, recordNames_append, hp, hi, ← List.map_append]
  exact List.append_nil _

mutual

theorem recordNames_ofField (path : Path) (id : String) : (field : Field) → (table : NameTable) →
    recordNames (run (ofField path id field) table).1.declarations =
      field.fieldSets.map FieldSet.contentIds
  | .group label ⟨fields⟩ repeats, table => by
      have hinner := recordNames_ofFields
        (path ++ [.field id (.group label ⟨fields⟩ repeats)]) fields
      rw [run_group, Field.fieldSets, List.map_cons, recordNames_recordFirst, names_ofFields,
        hinner]
  | .slices fieldset ⟨choices⟩, table => by
      have hinner := recordNames_ofChoices
        (path ++ [.field id (.slices fieldset ⟨choices⟩)]) id choices
      rw [run_slices, Field.fieldSets, recordNames_append, hinner]
      exact List.append_nil _
  | .plain kind caption, table => by
      rw [run_plain]
      cases kind <;> rfl
  | .image config, table => rfl
  | .integration config, table => rfl
  | .link config, table => rfl
  | .richText config, table => rfl
  | .select config, table => rfl
  | .unknown kind caption, table => rfl

theorem recordNames_ofFields (path : Path) : (fields : List (String × Field)) →
    (table : NameTable) →
    recordNames (run (ofFields path fields) table).1.2 =
      (setsOfFields fields).map FieldSet.contentIds
  | [], table => rfl
  | (id, field) :: rest, table => by
      rw [run_ofFields_cons, recordNames_append, setsOfFields, List.map_append,
        recordNames_ofField path id field table, recordNames_ofFields path rest]

theorem recordNames_ofChoices (path : Path) (zone : String) :
    (choices : List (String × SliceChoice)) → (table : NameTable) →
    recordNames (run (ofChoices path zone choices) table).1.2 =
      (setsOfChoices choices).map FieldSet.contentIds
  | [], table => rfl
  | (id, choice) :: rest, table => by
      rw [run_ofChoices_cons, recordNames_append, setsOfChoices, List.map_append,
        recordNames_ofChoice path zone id choice table, recordNames_ofChoices path zone rest]

theorem recordNames_ofChoice (path : Path) (zone id : String) : (choice : SliceChoice) →
    (table : NameTable) →
    recordNames (run (ofChoice path zone id choice) table).1.2 =
      choice.fieldSets.map FieldSet.contentIds
  | .shared, table => rfl
  | .unknown, table => rfl
  | .slice fieldset description ⟨nonRepeat⟩ ⟨repeated⟩, table => by
      rw [run_slice, SliceChoice.fieldSets_slice]
      exact recordNames_variant _ _ (recordNames_ofFields · nonRepeat)
        (recordNames_ofFields · repeated) _ _

end

end Synthesis

namespace Compilation

open Naming (run sharedSliceName)

theorem recordNames_ofCustomType (model : CustomType) :
    recordNames (ofCustomType model).value.declarations =
      model.fieldSets.map FieldSet.contentIds := by
  have hcontent : recordNames (content model) = model.fieldSets.map FieldSet.contentIds := by
    rw [content, Synthesis.recordNames_recordFirst, innerContent, Synthesis.names_ofFields,
      Synthesis.recordNames_ofFields]
    rfl
  rw [ofCustomType_value, recordNames_append, hcontent]
  exact List.append_nil _

theorem recordNames_variations (model : SharedSlice) (variations : List Variation)
    (table : NameTable) :
    recordNames (run (variationsNaming model variations) table).1.2 =
      (variations.flatMap Variation.fieldSets).map FieldSet.contentIds := by
  induction variations generalizing table with
  | nil => rfl
  | cons variation rest ih =>
      rw [run_variationsNaming_cons, recordNames_append, ih, List.flatMap_cons, List.map_append,
        Synthesis.recordNames_variant _ _ (Synthesis.recordNames_ofFields · _)
          (Synthesis.recordNames_ofFields · _)]
      rfl

theorem recordNames_ofSharedSlice (model : SharedSlice) :
    recordNames (ofSharedSlice model).value.declarations =
      model.fieldSets.map FieldSet.contentIds := by
  have hvariants : recordNames (variants model).2 = model.fieldSets.map FieldSet.contentIds :=
    recordNames_variations model model.variations _
  rw [ofSharedSlice_value, recordNames_append, hvariants]
  exact List.append_nil _

end Compilation

-- The keys in the texts of the fields of a record, read back.
def RecordItem.keys (item : RecordItem) : List (Option String) :=
  item.fields.map fun field => TypeScript.keyOf? (TypeScript.fieldText field)

theorem RecordItem.keys_eq (item : RecordItem) :
    item.keys = (item.fields.map RecordField.name).map some := by
  rw [keys, List.map_map]
  exact List.map_congr_left fun field _ => TypeScript.keyOf?_fieldText field

namespace Item

def record? : Item → Option RecordItem
  | .record item => some item
  | .alias _ => none

theorem keys_exportedBy (declarations : List Declaration) (item : Item) :
    (item.exportedBy declarations).record?.map RecordItem.keys =
      item.record?.map RecordItem.keys := by
  unfold exportedBy
  split
  · cases item <;> rfl
  · rfl

theorem keys_ofDeclaration (spaceName : String) (declaration : Declaration) :
    (ofDeclaration spaceName declaration).record?.map RecordItem.keys =
      declaration.propertyNames?.map fun names => names.map some := by
  obtain ⟨name, docs, exported, properties | ⟨params, ty⟩⟩ := declaration
  · simp only [ofDeclaration, record?, Option.map_some, RecordItem.keys_eq, List.map_map,
      Declaration.propertyNames?]
    rfl
  · rfl

end Item

namespace Module

def records (m : Module) : List RecordItem := m.items.filterMap Item.record?

-- With different names every declaration has its item.
theorem items_extended_of_nodup {declarations : List Declaration}
    (h : (declarations.map Declaration.name).Nodup) (spaceName : String) :
    (Module.empty.extended spaceName declarations).items =
      declarations.map fun declaration =>
        (Item.ofDeclaration spaceName declaration).exportedBy declarations := by
  have hnew : Module.empty.newItems spaceName declarations =
      declarations.map (.ofDeclaration spaceName) := by
    induction declarations using List.reverseRecOn with
    | nil => rfl
    | append_singleton declarations last ih =>
        rw [List.map_append, List.nodup_append] at h
        have hlast : last.name ∉ declarations.map Declaration.name := fun hm =>
          h.2.2 _ hm _ (List.mem_singleton_self _) rfl
        rw [newItems_concat, if_neg (by simpa [names, empty] using hlast), ih h.1, List.map_append,
          List.map_singleton]
  rw [extended, hnew]
  simp [empty]

theorem keys_records {declarations : List Declaration}
    (h : (declarations.map Declaration.name).Nodup) (spaceName : String) :
    (Module.empty.extended spaceName declarations).records.map RecordItem.keys =
      (recordNames declarations).map fun names => names.map some := by
  rw [records, items_extended_of_nodup h, List.filterMap_map, List.map_filterMap, recordNames,
    List.map_filterMap]
  apply List.filterMap_congr
  intro declaration _
  rw [← Item.keys_ofDeclaration spaceName, ← Item.keys_exportedBy declarations]
  rfl

-- One record for each set of fields, whose keys say the ids of the set and say each of them once.
structure HasRecordsOf (m : Module) (sets : List FieldSet) : Prop where
  keys : m.records.map RecordItem.keys = sets.map fun set => set.contentIds.map some
  distinct : ∀ set ∈ sets, set.contentIds.Nodup

theorem hasRecordsOf_of_names {declarations : List Declaration} {sets : List FieldSet}
    (hn : (declarations.map Declaration.name).Nodup)
    (hnames : recordNames declarations = sets.map FieldSet.contentIds)
    (hsets : ∀ set ∈ sets, set.keys.Nodup) (spaceName : String) :
    HasRecordsOf (Module.empty.extended spaceName declarations) sets where
  keys := by
    rw [keys_records hn, hnames, List.map_map]
    rfl
  distinct set hs := FieldSet.nodup_contentIds (hsets set hs)

end Module

-- What the records of a model are made from is read back from what is written for them. All that is
-- asked of a model is that no map has a key twice, and that is so of every model that is read.
theorem keys_read_as_ids (settings : Settings) :
    (∀ model : CustomType, model.IsKeyed →
      (Module.ofModels settings [model] []).value.HasRecordsOf model.fieldSets) ∧
    (∀ model : SharedSlice, model.IsKeyed →
      (Module.ofModels settings [] [model]).value.HasRecordsOf model.fieldSets) ∧
    ∀ (σ : Type) [Reading.JsonSource σ] (value : σ),
      (∀ model, CustomType.read value = .ok model → model.IsKeyed) ∧
        ∀ model, SharedSlice.read value = .ok model → model.IsKeyed := by
  refine ⟨?_, ?_, ?_⟩
  · intro model h
    rw [Module.ofModels_eq_extended]
    simp only [Compilation.ofModels, List.map_cons, List.map_nil, List.append_nil,
      List.flatMap_singleton]
    exact Module.hasRecordsOf_of_names (Compilation.nodup_ofCustomType model)
      (Compilation.recordNames_ofCustomType model) (CustomType.nodup_fieldSets h) _
  · intro model h
    rw [Module.ofModels_eq_extended]
    simp only [Compilation.ofModels, List.map_cons, List.map_nil, List.nil_append,
      List.flatMap_singleton]
    exact Module.hasRecordsOf_of_names (Compilation.nodup_ofSharedSlice model)
      (Compilation.recordNames_ofSharedSlice model) (SharedSlice.nodup_fieldSets h) _
  · intro σ _ value
    exact ⟨fun model h => CustomType.isKeyed_of_mirrors (CustomType.mirrors_of_read h),
      fun model h => SharedSlice.isKeyed_of_mirrors (SharedSlice.mirrors_of_read h)⟩

-- Ids that need quotes, a UID, and an id that two tabs have.
def accentedType : CustomType :=
  ⟨"página", none, true, none, ⟨[
    ("Main", ⟨[("uid", .plain .uid .none), ("título", .plain .text .none),
      ("a: b", .group none ⟨[("\"x\"", .plain .text .none), ("$_9", .plain .number .none),
        ("\t\\", .plain .uid .none)]⟩ none)]⟩),
    ("More", ⟨[("título", .plain .number .none), ("9\n", .plain .date .none)]⟩)]⟩⟩

def layeredSlice : Json :=
  Json.record
    [("id", "hero"), ("variations", .arr
      [.record [("id", "default"), ("primary", Json.layeredFields)]])]

theorem keys_read_as_ids_accentedType :
    accentedType.IsKeyed ∧
      (Module.ofModels .default [accentedType] []).value.records.map RecordItem.keys =
        [[some "título", some "a: b", some "9\n"], [some "\"x\"", some "$_9"]] ∧
      ∃ model, SharedSlice.read layeredSlice = .ok model ∧
        (Module.ofModels .default [] [model]).value.HasRecordsOf model.fieldSets := by
  have hkeyed : accentedType.IsKeyed := by
    simp [accentedType, CustomType.IsKeyed, FieldsKeyed, Field.IsKeyed, OrderedMap.keys,
      OrderedMap.values]
  have hslice : ∃ model, SharedSlice.read layeredSlice = .ok model := ⟨_, rfl⟩
  obtain ⟨htypes, hslices, hread⟩ := keys_read_as_ids .default
  obtain ⟨model, hmodel⟩ := hslice
  exact ⟨hkeyed, (htypes accentedType hkeyed).keys.trans rfl, model, hmodel,
    hslices model ((hread Json layeredSlice).2 model hmodel)⟩

end ContentTypes
