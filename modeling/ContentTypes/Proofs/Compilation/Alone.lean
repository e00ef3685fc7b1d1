import ContentTypes.Proofs.Compilation.Names
import ContentTypes.Proofs.Synthesis.Endings
import ContentTypes.Proofs.Synthesis.Stability

namespace ContentTypes.Compilation

open Naming (run declarationName documentName)
open Synthesis (hereditary_endsInside ne_of_granted)

-- No shared slice and no document is named like a content, so the content has its canonical name.
theorem contentName_eq (model : CustomType) :
    contentName model = declarationName [.customType model] [] := by
  apply NameTable.free_of_notMem
  have hlast := Naming.getLast?_contentName model
  rw [mem_contentTable]
  rintro (hshared | hdocument)
  · obtain ⟨slice, -, hname⟩ := Synthesis.exists_offersIn _ hshared
    rw [hname, Naming.getLast?_sharedSliceName] at hlast
    exact absurd hlast (by decide)
  · rw [hdocument, Naming.getLast?_documentName] at hlast
    exact absurd hlast (by decide)

-- The document and the content take their names from nothing that the fields ask for.
theorem notMem_content_of_granted (model : CustomType) {table : NameTable}
    (fields : List (String × Field)) {name : String}
    (hn : name ∈ table.grants (Synthesis.requestsOfFields [.customType model] fields)) :
    name ≠ documentName model.id ∧ name ≠ contentName model := by
  have hends := hereditary_endsInside.of_fields [.customType model] fields
  rw [contentName_eq]
  exact ⟨ne_of_granted hends hn (Naming.getLast?_documentName _) (by decide) (by decide),
    ne_of_granted hends hn (Naming.getLast?_contentName _) (by decide) (by decide)⟩

theorem grants_contentTable (model : CustomType) {id : String} {field : Field}
    (h : model.fields = ⟨[(id, field)]⟩) :
    ((contentTable model).taking [contentName model]).grants
        (Synthesis.requestsOfFields [.customType model] [(id, field)]) =
      (Synthesis.reserveShared field .empty).grants
        (Synthesis.requestsOfFields [.customType model] [(id, field)]) := by
  have htaken : ∀ name, name ∈ ((contentTable model).taking [contentName model]).taken ↔
      name ∈ (Synthesis.reserveShared field .empty).taken ∨
        name = documentName model.id ∨ name = contentName model := by
    intro name
    rw [NameTable.mem_taking, mem_contentTable, Synthesis.mem_reserveShared, h]
    simp only [Synthesis.sharedNamesOfFields, List.append_nil, List.mem_singleton,
      NameTable.empty, List.not_mem_nil, or_false]
    rw [or_comm, or_assoc]
  apply NameTable.grants_wider
  · intro name hn
    exact (htaken name).mpr (Or.inl hn)
  · intro name hn
    obtain ⟨hdocument, hcontent⟩ := notMem_content_of_granted model _ hn
    rw [htaken, not_or, not_or]
    exact ⟨NameTable.grants_notMem _ _ hn, hdocument, hcontent⟩

theorem innerContent_single (model : CustomType) {id : String} {field : Field}
    (h : model.fields = ⟨[(id, field)]⟩) :
    innerContent model =
      let alone := (Synthesis.ofFieldAlone [.customType model] id field).value
      (alone.property.toList, alone.declarations) := by
  have hstable := Synthesis.stable_ofFields [(id, field)] [.customType model] _ _
    (grants_contentTable model h)
  rw [innerContent, h, hstable, Synthesis.run_ofFields_singleton, Synthesis.ofFieldAlone_value]

-- The record of the content with the property of the field, then what the field declares by itself,
-- then the alias of the document.
theorem declarations_of_single_field (model : CustomType) {id : String} {field : Field}
    (h : model.fields = ⟨[(id, field)]⟩) :
    (ofCustomType model).value.declarations =
      let alone := (Synthesis.ofFieldAlone [.customType model] id field).value
      let contentName := declarationName [.customType model] []
      (Declaration.ofRecord contentName alone.property.toList).withDocs
          (.line s!"Content for {model.displayLabel} documents") ::
        alone.declarations ++ [documentAlias model (documentName model.id) contentName] := by
  rw [ofCustomType_value, content, innerContent_single model h, contentName_eq]
  rfl

-- Two tabs give the field of this type. A local slice of its zone meets the shared one.
def retabbedZone : Field :=
  .slices none ⟨[("x", .slice none none ⟨[("t", .plain .text .none)]⟩ ⟨[]⟩),
    ("a_document_data_body_x", .shared)]⟩

def retabbedType : CustomType :=
  ⟨"a", none, true, none, ⟨[("Main", ⟨[("body", .plain .text .none)]⟩),
    ("More", ⟨[("body", retabbedZone)]⟩)]⟩⟩

theorem declarations_of_retabbedType :
    retabbedType.fields = ⟨[("body", retabbedZone)]⟩ ∧
      (ofCustomType retabbedType).value.declarations =
        (let alone := (Synthesis.ofFieldAlone [.customType retabbedType] "body" retabbedZone).value
        let contentName := declarationName [.customType retabbedType] []
        (Declaration.ofRecord contentName alone.property.toList).withDocs
            (.line s!"Content for {retabbedType.displayLabel} documents") ::
          alone.declarations ++
            [documentAlias retabbedType (documentName retabbedType.id) contentName]) ∧
      (ofCustomType retabbedType).value.names = ["ADocumentData", "ADocumentDataBodyXSlicePrimary",
        "ADocumentDataBodyXSlice2", "ADocumentDataBodySlice", "ADocument"] := by
  have hsingle : retabbedType.fields = ⟨[("body", retabbedZone)]⟩ := rfl
  exact ⟨hsingle, declarations_of_single_field retabbedType hsingle, by decide +kernel⟩

end ContentTypes.Compilation
