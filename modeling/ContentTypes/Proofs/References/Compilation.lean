import ContentTypes.Proofs.Compilation.Shape
import ContentTypes.Proofs.References.Fields

namespace ContentTypes.Compilation

open Naming (run documentName sharedSliceName)
open Declaration (Forest Ordered Reaches helperNames)

-- The content of a document under the two names by which the document refers to it.
theorem forest_content (model : CustomType) :
    Forest (Synthesis.sharedNamesOfFields model.fields.entries)
      (Ty.simplified (contentName model)).references (content model) :=
  Synthesis.forest_record (Synthesis.forest_ofFields _ _ _) _ _

theorem references_documentAlias (model : CustomType) (root contentName : String) :
    (documentAlias model root contentName).references = ["Simplify", contentName, "Lang"] := by
  simp [documentAlias, documentTy, Declaration.references, Declaration.withDocs,
    Declaration.withParams, Declaration.ofAlias, Declaration.asExported, langParam,
    TypeParam.references]

-- The names of the shared slices that some variations offer, in order and with repeats.
def offeredNames (variations : List Variation) : List String :=
  variations.flatMap fun variation =>
    Synthesis.sharedNamesOfFields variation.primary.entries ++
      Synthesis.sharedNamesOfFields variation.items.entries

-- The variants of a shared slice under their names.
theorem forest_variations (model : SharedSlice) (variations : List Variation)
    (table : NameTable) :
    Forest (offeredNames variations)
      (run (variationsNaming model variations) table).1.1
      (run (variationsNaming model variations) table).1.2 := by
  induction variations generalizing table with
  | nil =>
      rw [run_variationsNaming_nil]
      exact .helpers (by simp)
  | cons variation rest ih =>
      rw [run_variationsNaming_cons, offeredNames, List.flatMap_cons]
      have hone := Synthesis.forest_variant [.sharedSlice model, .variation variation]
        "SharedSliceVariation" (variationDocs model variation) variation.primary variation.items
        table (fun inside known => Synthesis.forest_ofFields inside _ known)
        (fun inside known => Synthesis.forest_ofFields inside _ known)
      exact hone.append (ih _)

theorem references_unionAlias (model : SharedSlice) :
    (unionAlias model).references = (variants model).1 := by
  simp [unionAlias, Declaration.references, Declaration.withDocs, Declaration.ofAlias,
    List.flatMap_map]

-- Everything but the alias of the slice itself, under the name of the union.
theorem forest_slice (model : SharedSlice) :
    Forest (offeredNames model.variations) [unionName model]
      ((variants model).2 ++ [unionAlias model]) := by
  have hvariants : Forest (offeredNames model.variations) (unionAlias model).references
      (variants model).2 := by
    rw [references_unionAlias]
    exact forest_variations model model.variations _
  rw [← name_unionAlias]
  exact hvariants.concat_alias (unionAlias model) ⟨_, _, rfl⟩ rfl

theorem references_sliceAlias (model : SharedSlice) (root unionName : String) :
    (sliceAlias model root unionName).references = [unionName] := by
  simp [sliceAlias, Declaration.references, Declaration.withDocs, Declaration.ofAlias,
    Declaration.asExported]

-- What a document mentions is declared beside it, or is a helper, its own parameter, or the name of
-- a shared slice that one of its zones offers.
theorem mention_ofCustomType (model : CustomType) {declaration : Declaration}
    (hd : declaration ∈ (ofCustomType model).value.declarations) {name : String}
    (hn : name ∈ declaration.references) :
    name ∈ (ofCustomType model).value.names ∨ name ∈ helperNames ∨
      (∃ slice, model.Offers slice ∧ name = sharedSliceName slice) ∨
      name = "Lang" ∧ name ∈ declaration.params.map TypeParam.name := by
  have hroot : (documentAlias model (documentName model.id) (contentName model)).references =
      (Ty.simplified (contentName model)).references ++ ["Lang"] := by
    rw [references_documentAlias, Ty.references_simplified]
    rfl
  rw [ofCustomType_value] at hd
  rcases (forest_content model).mention_cases hroot hd hn with hm | hm | hm | ⟨rfl, hm⟩
  · left
    rw [names_ofCustomType]
    exact List.mem_append_left _ hm
  · exact Or.inr (Or.inl hm)
  · exact Or.inr (Or.inr (Or.inl (Synthesis.exists_offersIn _ hm)))
  · obtain rfl := List.mem_singleton.mp hm
    exact Or.inr (Or.inr (Or.inr ⟨rfl, List.mem_singleton_self _⟩))

theorem mention_ofSharedSlice (model : SharedSlice) {declaration : Declaration}
    (hd : declaration ∈ (ofSharedSlice model).value.declarations) {name : String}
    (hn : name ∈ declaration.references) :
    name ∈ (ofSharedSlice model).value.names ∨ name ∈ helperNames ∨
      ∃ slice, model.Offers slice ∧ name = sharedSliceName slice := by
  have hroot : (sliceAlias model (sharedSliceName model.id) (unionName model)).references =
      [unionName model] ++ [] := references_sliceAlias _ _ _
  rw [declarations_ofSharedSlice] at hd
  rcases (forest_slice model).mention_cases hroot hd hn with hm | hm | hm | ⟨-, hm⟩
  · left
    rw [names_ofSharedSlice]
    exact List.mem_append_left _ hm
  · exact Or.inr (Or.inl hm)
  · right
    right
    obtain ⟨variation, hv, hm⟩ := List.mem_flatMap.mp hm
    rcases List.mem_append.mp hm with hm | hm
    · obtain ⟨slice, ho, hname⟩ := Synthesis.exists_offersIn _ hm
      exact ⟨slice, ⟨variation, hv, Or.inl ho⟩, hname⟩
    · obtain ⟨slice, ho, hname⟩ := Synthesis.exists_offersIn _ hm
      exact ⟨slice, ⟨variation, hv, Or.inr ho⟩, hname⟩
  · simp at hm

end ContentTypes.Compilation
