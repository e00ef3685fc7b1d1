import ContentTypes.Proofs.Compilation.Names
import ContentTypes.Proofs.OrderedMap.Entries
import ContentTypes.Proofs.Synthesis.Accounting
import ContentTypes.Proofs.Synthesis.Places
import ContentTypes.Proofs.Synthesis.Stability

namespace ContentTypes

-- The second type has a field more, at the end of the last tab or in a new tab after it.
inductive CustomType.Appended (id : String) (field : Field) : CustomType → CustomType → Prop
  | lastTab {model : CustomType} {tabs : List (String × FieldSet)} {tab : String}
      {fields : List (String × Field)} (h : model.tabs = ⟨tabs ++ [(tab, ⟨fields⟩)]⟩) :
      Appended id field model
        { model with tabs := ⟨tabs ++ [(tab, ⟨fields ++ [(id, field)]⟩)]⟩ }
  | newTab (model : CustomType) (tab : String) :
      Appended id field model
        { model with tabs := ⟨model.tabs.entries ++ [(tab, ⟨[(id, field)]⟩)]⟩ }

namespace CustomType.Appended

variable {id : String} {field : Field} {model grown : CustomType}

theorem id_eq (h : Appended id field model grown) : grown.id = model.id := by
  cases h <;> rfl

theorem displayLabel_eq (h : Appended id field model grown) :
    grown.displayLabel = model.displayLabel := by
  cases h <;> rfl

theorem occurrences_eq (h : Appended id field model grown) :
    grown.occurrences = model.occurrences ++ [(id, field)] := by
  cases h with
  | lastTab ht => simp [occurrences, ht, OrderedMap.values, OrderedMap.toList]
  | newTab tab => simp [occurrences, OrderedMap.values, OrderedMap.toList]

theorem entries_eq (h : Appended id field model grown)
    (hnew : ∀ tab ∈ model.tabs.values, id ∉ tab.keys) :
    grown.fields.entries = model.fields.entries ++ [(id, field)] := by
  have hid : id ∉ model.occurrences.map Prod.fst := by
    intro hm
    obtain ⟨entry, he, rfl⟩ := List.mem_map.mp hm
    obtain ⟨tab, ht, he⟩ := List.mem_flatMap.mp he
    exact hnew tab ht (List.mem_map_of_mem he)
  rw [fields, h.occurrences_eq, OrderedMap.ofList_concat_of_notMem field hid, fields]

theorem hasUid_eq (h : Appended id field model grown)
    (hnew : ∀ tab ∈ model.tabs.values, id ∉ tab.keys) :
    grown.hasUid = (model.hasUid || field.isUid) := by
  simp [hasUid, OrderedMap.values, h.entries_eq hnew]

-- The whole model stands at the head of each path, but only its id and its label are read.
theorem interchangeable (h : Appended id field model grown) :
    Path.Interchangeable [.customType model] [.customType grown] :=
  .cons (Step.interchangeable_customType h.id_eq h.displayLabel_eq) .nil

end CustomType.Appended

namespace Compilation

open Naming (run declarationName documentName sharedSliceName)

-- What a field adds to the compilation of a custom type. The alias of the document changes in the
-- type of the library alone, and only for a UID.
inductive GainsField (added : Synthesis) (isUid : Bool) : Compilation → Compilation → Prop
  | intro (root contentName library : String) (contentDocs rootDocs : Docs)
      (properties : List Property) (nested : List Declaration) (params : List TypeParam)
      (args : List Ty) :
      GainsField added isUid
        ⟨root, ⟨contentName, contentDocs, false, .record properties⟩ :: nested ++
          [⟨root, rootDocs, true, .alias params (.library library args)⟩]⟩
        ⟨root, ⟨contentName, contentDocs, false,
            .record (properties ++ added.property.toList)⟩ :: (nested ++ added.declarations) ++
          [⟨root, rootDocs, true, .alias params
            (.library (if isUid then "PrismicDocumentWithUID" else library) args)⟩]⟩

variable {id : String} {field : Field} {model grown : CustomType}

theorem mem_contentTable_of_appended (h : CustomType.Appended id field model grown)
    (hnew : ∀ tab ∈ model.tabs.values, id ∉ tab.keys) (name : String) :
    name ∈ (contentTable grown).taken ↔
      name ∈ (contentTable model).taken ∨ name ∈ Synthesis.sharedNames field := by
  rw [mem_contentTable, mem_contentTable, h.entries_eq hnew, h.id_eq,
    Synthesis.sharedNamesOfFields_eq, List.flatMap_append, ← Synthesis.sharedNamesOfFields_eq,
    List.flatMap_singleton, List.mem_append, or_right_comm]

-- What is asked for below the first model is granted the same when the second one is compiled.
def KeepsNames (model grown : CustomType) : Prop :=
  (contentTable grown).grants (contentRequests model) =
    (contentTable model).grants (contentRequests model)

-- The names that the field reserves are taken before those of the content are claimed. None of
-- these is among them.
theorem keepsNames_of_appended (h : CustomType.Appended id field model grown)
    (hnew : ∀ tab ∈ model.tabs.values, id ∉ tab.keys)
    (hclear : ∀ slice, field.Offers slice →
      sharedSliceName slice ∉ (ofCustomType model).value.names) : KeepsNames model grown := by
  obtain ⟨after, hc⟩ := claimed_content model
  apply NameTable.grants_wider
  · intro name hn
    exact (mem_contentTable_of_appended h hnew name).mpr (Or.inl hn)
  · intro name hn hm
    rcases (mem_contentTable_of_appended h hnew name).mp hm with hold | hshared
    · exact NameTable.grants_notMem _ _ hn hold
    · obtain ⟨slice, ho, rfl⟩ := Synthesis.exists_offers field hshared
      apply hclear slice ho
      rw [names_ofCustomType]
      exact List.mem_append_left _ ((hc.mem_names _).mpr hn)

theorem contentName_of_appended (h : CustomType.Appended id field model grown)
    (hk : KeepsNames model grown) :
    contentName grown = contentName model := by
  rw [contentName, h.interchangeable.declarationName_eq]
  exact (List.cons.inj hk).1

-- The fields that were there before, synthesized from a table that has the new names besides.
def earlierFields (model grown : CustomType) : (List Property × List Declaration) × NameTable :=
  run (Synthesis.ofFields [.customType model] model.fields.entries)
    ((contentTable grown).taking [contentName model])

theorem earlierFields_eq (hk : KeepsNames model grown) :
    (earlierFields model grown).1 = innerContent model := by
  have hinner := (List.cons.inj hk).2
  rw [(List.cons.inj hk).1] at hinner
  exact Synthesis.stable_ofFields model.fields.entries _ _ _ hinner

theorem innerContent_of_appended (h : CustomType.Appended id field model grown)
    (hnew : ∀ tab ∈ model.tabs.values, id ∉ tab.keys)
    (hk : KeepsNames model grown) :
    innerContent grown =
      let added := (run (Synthesis.ofField [.customType grown] id field)
        (earlierFields model grown).2).1
      ((innerContent model).1 ++ added.property.toList,
        (innerContent model).2 ++ added.declarations) := by
  rw [innerContent, h.entries_eq hnew, contentName_of_appended h hk,
    Synthesis.run_ofFields_append,
    Synthesis.fields_interchange model.fields.entries h.interchangeable]
  simp only [Synthesis.run_ofFields_singleton, ← earlierFields_eq hk]
  rfl

-- The new field starts from the names of all earlier declarations and of all shared slices.
theorem mem_earlierFields (h : CustomType.Appended id field model grown)
    (hnew : ∀ tab ∈ model.tabs.values, id ∉ tab.keys)
    (hk : KeepsNames model grown) (name : String) :
    name ∈ (earlierFields model grown).2.taken ↔
      name ∈ (ofCustomType model).value.names ∨
        ∃ slice, (model.Offers slice ∨ field.Offers slice) ∧ name = sharedSliceName slice := by
  have hgrowth : ((contentTable grown).taking [contentName model]).GrowsBy
      (earlierFields model grown).2 ((earlierFields model grown).1.2.map Declaration.name) :=
    (Synthesis.claimed_ofFields [.customType model] model.fields.entries _).growsBy
  have hdeclared : name ∈ (earlierFields model grown).2.taken ↔
      name ∈ (innerContent model).2.map Declaration.name ∨ name = contentName model ∨
        name ∈ (contentTable grown).taken := by
    rw [hgrowth.taken, earlierFields_eq hk, NameTable.mem_taking, List.mem_singleton]
  have hshared : name ∈ Synthesis.sharedNamesOfFields model.fields.entries ∨
      name ∈ Synthesis.sharedNames field ↔
        ∃ slice, (model.Offers slice ∨ field.Offers slice) ∧ name = sharedSliceName slice := by
    constructor
    · rintro (hn | hn)
      · obtain ⟨slice, ho, hname⟩ := Synthesis.exists_offersIn _ hn
        exact ⟨slice, Or.inl ho, hname⟩
      · obtain ⟨slice, ho, hname⟩ := Synthesis.exists_offers _ hn
        exact ⟨slice, Or.inr ho, hname⟩
    · rintro ⟨slice, ho, rfl⟩
      exact ho.imp Synthesis.mem_sharedNames_of_offersIn Synthesis.mem_sharedNames
  rw [hdeclared, mem_contentTable_of_appended h hnew, mem_contentTable, mem_names_ofCustomType,
    ← hshared]
  simp only [or_assoc, or_comm, or_left_comm]

theorem documentAlias_of_appended (h : CustomType.Appended id field model grown)
    (hnew : ∀ tab ∈ model.tabs.values, id ∉ tab.keys) (root name : String) :
    documentAlias grown root name =
      { documentAlias model root name with
        kind := .alias [langParam] (.library
          (if field.isUid then "PrismicDocumentWithUID"
            else if model.hasUid then "PrismicDocumentWithUID" else "PrismicDocumentWithoutUID")
          [.simplified name, .literal model.id, .named "Lang" []]) } := by
  rw [documentAlias, documentAlias, documentTy, h.hasUid_eq hnew, h.id_eq, h.displayLabel_eq]
  cases model.hasUid <;> cases field.isUid <;> rfl

-- Nothing but the new field's own part is new, wherever its canonical names fall.
theorem gains_appended_field {model grown : CustomType} {id : String} {field : Field}
    (h : model.Appended id field grown)
    (hnew : ∀ tab ∈ model.tabs.values, id ∉ tab.keys)
    (hclear : ∀ slice, field.Offers slice →
      sharedSliceName slice ∉ (ofCustomType model).value.names) :
    ∃ table : NameTable,
      (∀ name, name ∈ table.taken ↔ name ∈ (ofCustomType model).value.names ∨
        ∃ slice, (model.Offers slice ∨ field.Offers slice) ∧ name = sharedSliceName slice) ∧
      GainsField (run (Synthesis.ofField [.customType grown] id field) table).1 field.isUid
        (ofCustomType model).value (ofCustomType grown).value := by
  have hk := keepsNames_of_appended h hnew hclear
  refine ⟨(earlierFields model grown).2, mem_earlierFields h hnew hk, ?_⟩
  rw [ofCustomType_value, ofCustomType_value, content, content, innerContent_of_appended h hnew hk,
    contentName_of_appended h hk, documentAlias_of_appended h hnew, h.id_eq, h.displayLabel_eq]
  exact .intro ..

-- The zone that comes second has the canonical name of the local slice of the first one.
def crowdedZone : Field :=
  .slices none ⟨[("y", .slice none none ⟨[]⟩ ⟨[]⟩), ("cta", .shared)]⟩

def slicedType : CustomType :=
  ⟨"a", none, true, none, ⟨[("Main", ⟨[("body",
    .slices none ⟨[("x", .slice none none ⟨[]⟩ ⟨[]⟩)]⟩)]⟩)]⟩⟩

def crowdedType : CustomType :=
  { slicedType with tabs := ⟨[("Main", ⟨[("body",
    .slices none ⟨[("x", .slice none none ⟨[]⟩ ⟨[]⟩)]⟩), ("body_x", crowdedZone)]⟩)]⟩ }

theorem gains_crowdedZone :
    (slicedType.Appended "body_x" crowdedZone crowdedType ∧
      (∀ tab ∈ slicedType.tabs.values, "body_x" ∉ tab.keys) ∧
      ∀ slice, crowdedZone.Offers slice →
        sharedSliceName slice ∉ (ofCustomType slicedType).value.names) ∧
    (∃ table : NameTable,
      (∀ name, name ∈ table.taken ↔ name ∈ (ofCustomType slicedType).value.names ∨
        ∃ slice, (slicedType.Offers slice ∨ crowdedZone.Offers slice) ∧
          name = sharedSliceName slice) ∧
      GainsField (run (Synthesis.ofField [.customType crowdedType] "body_x" crowdedZone) table).1
        crowdedZone.isUid (ofCustomType slicedType).value (ofCustomType crowdedType).value) ∧
    (ofCustomType slicedType).value.names =
      ["ADocumentData", "ADocumentDataBodyXSlice", "ADocumentDataBodySlice", "ADocument"] ∧
    (ofCustomType crowdedType).value.names =
      ["ADocumentData", "ADocumentDataBodyXSlice", "ADocumentDataBodySlice",
        "ADocumentDataBodyXYSlice", "ADocumentDataBodyXSlice2", "ADocument"] := by
  have happended : slicedType.Appended "body_x" crowdedZone crowdedType :=
    @CustomType.Appended.lastTab _ _ slicedType [] "Main" _ rfl
  have hnew : ∀ tab ∈ slicedType.tabs.values, "body_x" ∉ tab.keys := by decide
  have hreserved : ∀ name ∈ Synthesis.sharedNames crowdedZone,
      name ∉ (ofCustomType slicedType).value.names := by decide +kernel
  have hclear : ∀ slice, crowdedZone.Offers slice →
      sharedSliceName slice ∉ (ofCustomType slicedType).value.names := fun _ ho =>
    hreserved _ (Synthesis.mem_sharedNames ho)
  exact ⟨⟨happended, hnew, hclear⟩, gains_appended_field happended hnew hclear,
    by decide +kernel, by decide +kernel⟩

end Compilation

end ContentTypes
