import ContentTypes.Proofs.Naming.Letters
import ContentTypes.Proofs.Synthesis.Offers
import ContentTypes.Proofs.Synthesis.Requests

namespace ContentTypes.Compilation

open Naming (run declarationName documentName sharedSliceName)
open Synthesis (Claimed Under)

-- The names that are gone before the content of a document gets any: the one of the document and
-- those of the shared slices that its zones offer.
def contentTable (model : CustomType) : NameTable :=
  (run (reserveSharedOf model.fields) (NameTable.empty.taking [documentName model.id])).2

def contentName (model : CustomType) : String :=
  (contentTable model).free (declarationName [.customType model] [])

-- The properties of a document and what their fields declare.
def innerContent (model : CustomType) : List Property × List Declaration :=
  (run (Synthesis.ofFields [.customType model] model.fields.entries)
    ((contentTable model).taking [contentName model])).1

def content (model : CustomType) : List Declaration :=
  Synthesis.recordFirst (contentName model)
    (.line s!"Content for {model.displayLabel} documents") (innerContent model)

theorem ofCustomType_value (model : CustomType) :
    (ofCustomType model).value = ⟨documentName model.id,
      content model ++ [documentAlias model (documentName model.id) (contentName model)]⟩ := rfl

def contentRequests (model : CustomType) : List String :=
  declarationName [.customType model] [] ::
    Synthesis.requestsOfFields [.customType model] model.fields.entries

theorem under_contentRequests {model : CustomType} {name : String}
    (hn : name ∈ contentRequests model) : Under [.customType model] name := by
  rcases List.mem_cons.mp hn with rfl | hn
  · exact Synthesis.under_self _ []
  · exact Synthesis.hereditary_under.of_fields _ _ name hn

theorem claimed_content (model : CustomType) :
    ∃ after, Claimed (contentTable model) after (contentRequests model) (content model) :=
  ⟨_, (Claimed.one (contentTable model) _ rfl).append
    (Synthesis.claimed_ofFields [.customType model] model.fields.entries _)⟩

theorem names_ofCustomType (model : CustomType) :
    (ofCustomType model).value.names =
      (content model).map Declaration.name ++ [documentName model.id] := by
  rw [ofCustomType_value, names, List.map_append]
  rfl

theorem mem_names_ofCustomType (model : CustomType) (name : String) :
    name ∈ (ofCustomType model).value.names ↔
      name ∈ (innerContent model).2.map Declaration.name ∨ name = contentName model ∨
        name = documentName model.id := by
  rw [names_ofCustomType, List.mem_append, List.mem_singleton]
  change name ∈ contentName model :: _ ∨ _ ↔ _
  rw [List.mem_cons, or_comm (a := name = contentName model), or_assoc]

theorem mem_contentTable (model : CustomType) (name : String) :
    name ∈ (contentTable model).taken ↔
      name ∈ Synthesis.sharedNamesOfFields model.fields.entries ∨ name = documentName model.id := by
  rw [contentTable, mem_reserveSharedOf]
  simp [NameTable.empty]

theorem nodup_ofCustomType (model : CustomType) : (ofCustomType model).value.names.Nodup := by
  obtain ⟨after, hc⟩ := claimed_content model
  rw [names_ofCustomType]
  exact hc.nodup_concat ((mem_contentTable model _).mpr (Or.inr rfl))

-- The name of the document was taken first, but no shared slice has such a name.
theorem ofCustomType_spares (model : CustomType) {slice : String} (ho : model.Offers slice) :
    sharedSliceName slice ∉ (ofCustomType model).value.names := by
  obtain ⟨after, hc⟩ := claimed_content model
  rw [names_ofCustomType, List.mem_append, List.mem_singleton, not_or]
  constructor
  · intro hm
    exact hc.names_notMem hm ((mem_contentTable model _).mpr
      (Or.inl (Synthesis.mem_sharedNames_of_offersIn ho)))
  · exact Naming.sharedSliceName_ne_documentName slice model.id

theorem claimed_ofFieldAlone (path : Path) (id : String) (field : Field) :
    ∃ after, Claimed (Synthesis.reserveShared field .empty) after
      (Synthesis.requests path id field)
      (Synthesis.ofFieldAlone path id field).value.declarations :=
  ⟨_, Synthesis.claimed_ofField path id field _⟩

theorem nodup_ofFieldAlone (path : Path) (id : String) (field : Field) :
    ((Synthesis.ofFieldAlone path id field).value.declarations.map Declaration.name).Nodup := by
  obtain ⟨after, hc⟩ := claimed_ofFieldAlone path id field
  exact hc.names_nodup

theorem ofFieldAlone_spares (path : Path) (id : String) {field : Field} {slice : String}
    (ho : field.Offers slice) : sharedSliceName slice ∉
      (Synthesis.ofFieldAlone path id field).value.declarations.map Declaration.name := by
  obtain ⟨after, hc⟩ := claimed_ofFieldAlone path id field
  intro hm
  apply hc.names_notMem hm
  rw [Synthesis.mem_reserveShared]
  exact Or.inl (Synthesis.mem_sharedNames ho)

-- The names that are gone before the variations of a shared slice get any.
def sliceTable (model : SharedSlice) : NameTable :=
  NameTable.empty.taking [sharedSliceName model.id]

def unionName (model : SharedSlice) : String :=
  (sliceTable model).free (declarationName [.sharedSlice model] ["Variation"])

-- The names of the variants of a shared slice and what they declare.
def variants (model : SharedSlice) : List String × List Declaration :=
  (run (variationsNaming model model.variations) ((sliceTable model).taking [unionName model])).1

def unionAlias (model : SharedSlice) : Declaration :=
  (Declaration.ofAlias (unionName model)
    (.unionOrNever ((variants model).1.map fun name => .named name []))).withDocs
      (.ofPosition "Slice variation for" [.sharedSlice model])

theorem name_unionAlias (model : SharedSlice) : (unionAlias model).name = unionName model := by
  rw [unionAlias, Declaration.name_withDocs, Declaration.name_ofAlias]

theorem ofSharedSlice_value (model : SharedSlice) :
    (ofSharedSlice model).value = ⟨sharedSliceName model.id, (variants model).2 ++
      [unionAlias model, sliceAlias model (sharedSliceName model.id) (unionName model)]⟩ := rfl

def variationDocs (model : SharedSlice) (variation : Variation) : Docs :=
  .line s!"{variation.displayLabel} variation for {model.displayLabel} Slice"

theorem run_variationsNaming_nil (model : SharedSlice) (table : NameTable) :
    run (variationsNaming model []) table = (([], []), table) := rfl

theorem run_variationsNaming_cons (model : SharedSlice) (variation : Variation)
    (rest : List Variation) (table : NameTable) :
    run (variationsNaming model (variation :: rest)) table =
      let one := run (Synthesis.ofVariant [.sharedSlice model, .variation variation]
        "SharedSliceVariation" (variationDocs model variation) variation.primary variation.items)
        table
      let more := run (variationsNaming model rest) one.2
      ((one.1.1 :: more.1.1, one.1.2 ++ more.1.2), more.2) := rfl

-- The canonical names that the variations of a shared slice ask for.
def variationRequests (model : SharedSlice) (variation : Variation) : List String :=
  let path := [.sharedSlice model, .variation variation]
  Synthesis.variantRequests path variation.primary variation.items
    (Synthesis.requestsOfFields (path ++ [.role .primary]) variation.primary.entries)
    (Synthesis.requestsOfFields (path ++ [.role .items]) variation.items.entries)

theorem claimed_variations (model : SharedSlice) (variations : List Variation)
    (table : NameTable) :
    Claimed table (run (variationsNaming model variations) table).2
      (variations.flatMap (variationRequests model))
      (run (variationsNaming model variations) table).1.2 := by
  induction variations generalizing table with
  | nil => exact .nil table
  | cons variation rest ih =>
      rw [run_variationsNaming_cons, List.flatMap_cons]
      exact (Synthesis.claimed_variant _ "SharedSliceVariation" (variationDocs model variation)
        variation.primary variation.items table
        (fun inside known => Synthesis.claimed_ofFields inside _ known)
        (fun inside known => Synthesis.claimed_ofFields inside _ known)).append (ih _)

-- The canonical names below a shared slice, the one of its own alias left out.
def sliceRequests (model : SharedSlice) : List String :=
  declarationName [.sharedSlice model] ["Variation"] ::
    model.variations.flatMap (variationRequests model)

theorem under_sliceRequests {model : SharedSlice} {name : String}
    (hn : name ∈ sliceRequests model) : Under [.sharedSlice model] name := by
  rcases List.mem_cons.mp hn with rfl | hn
  · exact Synthesis.under_self _ ["Variation"]
  · obtain ⟨variation, hv, hn⟩ := List.mem_flatMap.mp hn
    have hu : Under ([.sharedSlice model] ++ [.variation variation]) name :=
      Synthesis.hereditary_under.of_variant (Synthesis.under_self _ [])
        (Synthesis.hereditary_under.of_fields _ _) (Synthesis.hereditary_under.of_fields _ _)
        name hn
    exact hu.of_append

-- All declarations but the alias of the slice itself.
theorem claimed_slice (model : SharedSlice) :
    ∃ after, Claimed (sliceTable model) after (sliceRequests model)
      ((variants model).2 ++ [unionAlias model]) := by
  have hunion : Claimed (sliceTable model) ((sliceTable model).taking [unionName model])
      [declarationName [.sharedSlice model] ["Variation"]] [unionAlias model] :=
    .one _ _ (name_unionAlias model)
  have hvariants := claimed_variations model model.variations
    ((sliceTable model).taking [unionName model])
  exact ⟨_, (hunion.append hvariants).perm List.perm_append_comm⟩

theorem declarations_ofSharedSlice (model : SharedSlice) :
    (ofSharedSlice model).value.declarations = ((variants model).2 ++ [unionAlias model]) ++
      [sliceAlias model (sharedSliceName model.id) (unionName model)] := by
  rw [ofSharedSlice_value]
  simp

theorem names_ofSharedSlice (model : SharedSlice) :
    (ofSharedSlice model).value.names =
      ((variants model).2 ++ [unionAlias model]).map Declaration.name ++
        [sharedSliceName model.id] := by
  rw [names, declarations_ofSharedSlice, List.map_append]
  rfl

theorem nodup_ofSharedSlice (model : SharedSlice) : (ofSharedSlice model).value.names.Nodup := by
  obtain ⟨after, hc⟩ := claimed_slice model
  rw [names_ofSharedSlice]
  exact hc.nodup_concat (by simp [sliceTable])

-- Names are different within a compilation, whatever ids meet, and the two compilations that
-- reserve the names of shared slices have no declaration of such a name.
theorem names_distinct :
    (∀ model : CustomType, (ofCustomType model).value.names.Nodup ∧
      ∀ slice, model.Offers slice → sharedSliceName slice ∉ (ofCustomType model).value.names) ∧
    (∀ (path : Path) (id : String) (field : Field),
      ((Synthesis.ofFieldAlone path id field).value.declarations.map Declaration.name).Nodup ∧
      ∀ slice, field.Offers slice → sharedSliceName slice ∉
        (Synthesis.ofFieldAlone path id field).value.declarations.map Declaration.name) ∧
    ∀ model : SharedSlice, (ofSharedSlice model).value.names.Nodup := by
  refine ⟨?_, ?_, nodup_ofSharedSlice⟩
  · intro model
    exact ⟨nodup_ofCustomType model, fun slice ho => ofCustomType_spares model ho⟩
  · intro path id field
    exact ⟨nodup_ofFieldAlone path id field, fun slice ho => ofFieldAlone_spares path id ho⟩

-- A choice of this zone and the slice that the zone offers ask for one name.
def meetingType : CustomType :=
  ⟨"a", none, true, none, ⟨[("Main", ⟨[("body", .slices none ⟨[
    ("x", .slice none none ⟨[]⟩ ⟨[]⟩), ("a_document_data_body_x", .shared)]⟩)]⟩)]⟩⟩

theorem names_distinct_meetingType :
    meetingType.Offers "a_document_data_body_x" ∧
      declarationName [.customType meetingType, .field "body" default, .choice "x" default] [] =
        sharedSliceName "a_document_data_body_x" ∧
      sharedSliceName "a_document_data_body_x" ∉ (ofCustomType meetingType).value.names := by
  have ho : meetingType.Offers "a_document_data_body_x" :=
    ⟨"body", _, List.mem_singleton_self _, .zone (.tail _ (.head _)) .shared⟩
  exact ⟨ho, by decide +kernel, (names_distinct.1 meetingType).2 _ ho⟩

-- A name that no number ends is declared only where it is asked for.
theorem mem_names_of_sharedSlice_iff (model : SharedSlice) {name : String}
    (hu : ∀ request n, name ≠ NameTable.numbered request n) :
    name ∈ (ofSharedSlice model).value.names ↔
      name = sharedSliceName model.id ∨ name ∈ sliceRequests model := by
  obtain ⟨after, hc⟩ := claimed_slice model
  rw [names_ofSharedSlice, List.mem_append, List.mem_singleton, hc.mem_names,
    NameTable.mem_grants_iff _ _ hu]
  by_cases hr : name = sharedSliceName model.id
  · simp [hr]
  · simp [hr, sliceTable, NameTable.empty]

theorem mem_names_of_customType_iff (model : CustomType) {name : String}
    (hu : ∀ request n, name ≠ NameTable.numbered request n) :
    name ∈ (ofCustomType model).value.names ↔
      name = documentName model.id ∨ name ∈ contentRequests model ∧
        ∀ slice, model.Offers slice → name ≠ sharedSliceName slice := by
  obtain ⟨after, hc⟩ := claimed_content model
  rw [names_ofCustomType, List.mem_append, List.mem_singleton, hc.mem_names,
    NameTable.mem_grants_iff _ _ hu, mem_contentTable, Synthesis.mem_sharedNamesOfFields_iff]
  by_cases hr : name = documentName model.id
  · simp [hr]
  · simp [hr, CustomType.Offers]

theorem mem_names_ofSharedSlice (model : SharedSlice) (slice : String) :
    sharedSliceName slice ∈ (ofSharedSlice model).value.names ↔
      sharedSliceName slice = sharedSliceName model.id ∨
        sharedSliceName slice ∈ sliceRequests model :=
  mem_names_of_sharedSlice_iff model (Naming.sharedSliceName_ne_numbered slice)

-- A shared slice reserves nothing. Its own declarations keep clear of the slices that its zones
-- offer just when no canonical name below it is the name of such a slice.
theorem clear_of_offered_iff (model : SharedSlice) :
    (∀ slice, model.Offers slice → ∀ declaration ∈ (ofSharedSlice model).value.declarations,
        declaration.name ≠ (ofSharedSlice model).value.root →
          declaration.name ≠ sharedSliceName slice) ↔
      ∀ slice, model.Offers slice → sharedSliceName slice = sharedSliceName model.id ∨
        sharedSliceName slice ∉ sliceRequests model := by
  have hroot : (ofSharedSlice model).value.root = sharedSliceName model.id := by
    rw [ofSharedSlice_value]
  rw [hroot]
  constructor
  · intro h slice ho
    by_cases hr : sharedSliceName slice = sharedSliceName model.id
    · exact Or.inl hr
    · right
      intro hm
      have hn := (mem_names_ofSharedSlice model slice).mpr (Or.inr hm)
      obtain ⟨declaration, hd, hname⟩ := List.mem_map.mp hn
      exact h slice ho declaration hd (hname ▸ hr) hname
  · intro h slice ho declaration hd hr hname
    have hn : sharedSliceName slice ∈ (ofSharedSlice model).value.names :=
      hname ▸ List.mem_map_of_mem hd
    have hrequest := (mem_names_ofSharedSlice model slice).mp hn
    rw [hname] at hr
    exact (h slice ho).resolve_left hr (hrequest.resolve_left hr)

-- The zone of this variation offers a slice that has the canonical name of the zone.
def meetingSlice : SharedSlice :=
  ⟨"a", none, none, [⟨"b", none, none,
    ⟨[("z", .slices none ⟨[("a_slice_b_primary_z", .shared)]⟩)]⟩, ⟨[]⟩⟩]⟩

theorem meetingSlice_not_clear :
    ¬ ∀ slice, meetingSlice.Offers slice →
      ∀ declaration ∈ (ofSharedSlice meetingSlice).value.declarations,
        declaration.name ≠ (ofSharedSlice meetingSlice).value.root →
          declaration.name ≠ sharedSliceName slice := by
  intro h
  have ho : meetingSlice.Offers "a_slice_b_primary_z" :=
    ⟨_, List.mem_singleton_self _,
      Or.inl ⟨"z", _, List.mem_singleton_self _, .zone (List.mem_singleton_self _) .shared⟩⟩
  have hm : sharedSliceName "a_slice_b_primary_z" ∈ (ofSharedSlice meetingSlice).value.names := by
    decide +kernel
  have hr : sharedSliceName "a_slice_b_primary_z" ≠ (ofSharedSlice meetingSlice).value.root := by
    decide +kernel
  obtain ⟨declaration, hd, hname⟩ := List.mem_map.mp hm
  exact h _ ho declaration hd (hname ▸ hr) hname

end ContentTypes.Compilation
