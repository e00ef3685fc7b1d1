import ContentTypes.Proofs.Compilation.Names
import ContentTypes.Proofs.Wording.Synthesis

namespace ContentTypes.Compilation

open Naming (run declarationName documentName sharedSliceName)
open Synthesis (Alike)

def undocumented (compilation : Compilation) : Compilation :=
  ⟨compilation.root, compilation.declarations.map Declaration.undocumented⟩

theorem reserveShared_wordless (field : Field) :
    Synthesis.reserveShared field.wordless = Synthesis.reserveShared field := by
  funext table
  rw [Synthesis.reserveShared, Synthesis.reserveShared, Synthesis.sharedNames_wordless]

theorem run_reserveSharedOf_wordless (fields : FieldSet) (table : NameTable) :
    (run (reserveSharedOf fields.wordless) table).2 = (run (reserveSharedOf fields) table).2 := by
  have hfold : fields.wordless.values.foldl
      (fun known field => Synthesis.reserveShared field known) table =
      fields.values.foldl (fun known field => Synthesis.reserveShared field known) table := by
    rw [FieldSet.wordless, OrderedMap.values_mapValues, List.foldl_map]
    simp only [reserveShared_wordless]
  exact hfold

theorem contentTable_wordless (model : CustomType) :
    contentTable model.wordless = contentTable model := by
  rw [contentTable, CustomType.fields_wordless, run_reserveSharedOf_wordless]
  rfl

theorem contentName_wordless (model : CustomType) :
    contentName model.wordless = contentName model := by
  rw [contentName, contentTable_wordless]
  rfl

theorem content_wordless (model : CustomType) :
    (content model.wordless).map Declaration.undocumented =
      (content model).map Declaration.undocumented := by
  have hpath : Path.words [.customType model.wordless] = Path.words [.customType model] := rfl
  have hinner := Synthesis.alike_ofFields model.fields.entries hpath
    ((contentTable model).taking [contentName model])
  rw [content, content, innerContent, contentTable_wordless, contentName_wordless,
    CustomType.fields_wordless, FieldSet.wordless_eq]
  exact Synthesis.undocumented_recordFirst hinner _ _ _

theorem documentAlias_wordless (model : CustomType) (root contentName : String) :
    (documentAlias model.wordless root contentName).undocumented =
      (documentAlias model root contentName).undocumented := by
  have hty : documentTy model.wordless contentName = documentTy model contentName := by
    rw [documentTy, CustomType.hasUid_wordless]
    rfl
  rw [documentAlias, hty]
  rfl

theorem ofCustomType_wordless (model : CustomType) :
    (ofCustomType model.wordless).value.undocumented = (ofCustomType model).value.undocumented := by
  rw [ofCustomType_value, ofCustomType_value, contentName_wordless]
  simp only [undocumented, List.map_append, content_wordless, List.map_singleton,
    documentAlias_wordless]
  rfl

theorem alike_variations (model : SharedSlice) (variations : List Variation) (table : NameTable) :
    Alike Eq
      (run (variationsNaming model.wordless (variations.map Variation.wordless)) table)
      (run (variationsNaming model variations) table) := by
  induction variations generalizing table with
  | nil => exact ⟨rfl, rfl, rfl⟩
  | cons variation rest ih =>
      have hpath : Path.words [.sharedSlice model.wordless, .variation variation.wordless] =
          Path.words [.sharedSlice model, .variation variation] := rfl
      have hone := Synthesis.alike_variant hpath rfl "SharedSliceVariation"
        (variationDocs model variation) (variationDocs model.wordless variation.wordless)
        (Synthesis.alike_ofFields variation.primary.entries)
        (Synthesis.alike_ofFields variation.items.entries) table
      have hmore := ih (run (Synthesis.ofVariant [.sharedSlice model, .variation variation]
        "SharedSliceVariation" (variationDocs model variation) variation.primary variation.items)
        table).2
      rw [List.map_cons, run_variationsNaming_cons, run_variationsNaming_cons]
      simp only [Variation.wordless] at hone ⊢
      simp only [hone.table]
      refine ⟨?_, ?_, hmore.table⟩
      · simp only [hone.own, hmore.own]
      · rw [List.map_append, List.map_append, hone.declared, hmore.declared]

theorem ofSharedSlice_wordless (model : SharedSlice) :
    (ofSharedSlice model.wordless).value.undocumented =
      (ofSharedSlice model).value.undocumented := by
  have hvariants := alike_variations model model.variations
    ((sliceTable model).taking [unionName model])
  have hnames : (variants model.wordless).1 = (variants model).1 := hvariants.own
  have hdeclared : (variants model.wordless).2.map Declaration.undocumented =
      (variants model).2.map Declaration.undocumented := hvariants.declared
  have hunion : (unionAlias model.wordless).undocumented = (unionAlias model).undocumented := by
    rw [unionAlias, unionAlias, hnames]
    rfl
  rw [ofSharedSlice_value, ofSharedSlice_value]
  simp only [undocumented, List.map_append, List.map_cons, hdeclared, hunion]
  rfl

-- Models that differ only in descriptive text have the same declarations, but for the docs.
theorem undocumented_eq_of_wordless_eq :
    (∀ first second : CustomType, first.wordless = second.wordless →
      (ofCustomType first).value.undocumented = (ofCustomType second).value.undocumented) ∧
    ∀ first second : SharedSlice, first.wordless = second.wordless →
      (ofSharedSlice first).value.undocumented = (ofSharedSlice second).value.undocumented := by
  constructor
  · intro first second h
    rw [← ofCustomType_wordless first, h, ofCustomType_wordless]
  · intro first second h
    rw [← ofSharedSlice_wordless first, h, ofSharedSlice_wordless]

-- Models with one text wherever a text can stand. Two of their names meet.
def describedFields (text : Option String) : FieldSet :=
  ⟨[("product", .integration ⟨⟨text, text⟩, text⟩), ("uid", .plain .uid ⟨text, text⟩),
    ("body", .slices text ⟨[
      ("x", .slice text text ⟨[("g", .group text ⟨[("k", .unknown "New" ⟨text, text⟩)]⟩ none)]⟩ ⟨[]⟩),
      ("body_x", .shared)]⟩),
    ("body_x", .slices text ⟨[]⟩)]⟩

def describedType (text : Option String) : CustomType :=
  ⟨"page", text, true, none, ⟨[("Main", describedFields text)]⟩⟩

def describedSlice (text : Option String) : SharedSlice :=
  ⟨"call", text, text, [⟨"variation", text, text, describedFields text, ⟨[]⟩⟩]⟩

theorem undocumented_describedType :
    (describedType (some "X Slice")).wordless = (describedType none).wordless ∧
      (describedSlice (some "X Slice")).wordless = (describedSlice none).wordless ∧
      (ofCustomType (describedType (some "X Slice"))).value.undocumented =
        (ofCustomType (describedType none)).value.undocumented ∧
      (ofSharedSlice (describedSlice (some "X Slice"))).value.undocumented =
        (ofSharedSlice (describedSlice none)).value.undocumented ∧
      (ofCustomType (describedType (some "X Slice"))).value.declarations.map Declaration.docs ≠
        (ofCustomType (describedType none)).value.declarations.map Declaration.docs := by
  have htype : (describedType (some "X Slice")).wordless = (describedType none).wordless := rfl
  have hslice : (describedSlice (some "X Slice")).wordless = (describedSlice none).wordless := rfl
  exact ⟨htype, hslice, undocumented_eq_of_wordless_eq.1 _ _ htype,
    undocumented_eq_of_wordless_eq.2 _ _ hslice, by decide +kernel⟩

end ContentTypes.Compilation
