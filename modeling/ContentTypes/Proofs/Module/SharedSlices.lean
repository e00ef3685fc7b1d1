import ContentTypes.Proofs.Module.Resolution

namespace ContentTypes

open Naming (documentName sharedSliceName)
open Declaration (first?)

namespace Compilation

theorem ofModels_append (customTypes : List CustomType) (first second : List SharedSlice) :
    ofModels customTypes (first ++ second) = ofModels customTypes first ++ ofModels [] second := by
  simp [ofModels]

theorem root_ofCustomType (model : CustomType) :
    (ofCustomType model).value.root = documentName model.id := by
  rw [ofCustomType_value]

theorem root_ofSharedSlice (model : SharedSlice) :
    (ofSharedSlice model).value.root = sharedSliceName model.id := by
  rw [ofSharedSlice_value]

theorem sliceAlias_mem (model : SharedSlice) :
    sliceAlias model (sharedSliceName model.id) (unionName model) ∈
      (ofSharedSlice model).value.declarations := by
  rw [declarations_ofSharedSlice]
  exact List.mem_append_right _ (List.mem_singleton_self _)

theorem get?_root_ofSharedSlice (model : SharedSlice) :
    (ofSharedSlice model).value.get? (ofSharedSlice model).value.root =
      some (sliceAlias model (sharedSliceName model.id) (unionName model)) := by
  rw [root_ofSharedSlice]
  exact get?_of_mem (nodup_ofSharedSlice model) (sliceAlias_mem model)

-- No declaration is exported but the one that stands for the model.
theorem name_of_exported_ofSharedSlice (model : SharedSlice) {declaration : Declaration}
    (hd : declaration ∈ (ofSharedSlice model).value.declarations)
    (he : declaration.exported = true) : declaration.name = sharedSliceName model.id := by
  rw [declarations_ofSharedSlice] at hd
  rcases List.mem_append.mp hd with hd | hd
  · rw [(forest_slice model).hidden declaration hd] at he
    cases he
  · rw [List.mem_singleton.mp hd]
    rfl

theorem name_of_exported {customTypes : List CustomType} {sharedSlices : List SharedSlice}
    {compilation : Compilation} (hc : compilation ∈ ofModels customTypes sharedSlices)
    {declaration : Declaration} (hd : declaration ∈ compilation.declarations)
    (he : declaration.exported = true) : declaration.name = compilation.root := by
  rcases mem_ofModels.mp hc with ⟨model, -, rfl⟩ | ⟨model, -, rfl⟩
  · have hr := ((crowned_ofCustomType model).exported_iff hd).mp he
    rw [hr, root_ofCustomType]
    rfl
  · rw [root_ofSharedSlice]
    exact name_of_exported_ofSharedSlice model hd he

-- The names that stand for whole models.
def rootNames (customTypes : List CustomType) (sharedSlices : List SharedSlice) : List String :=
  customTypes.map (fun model => documentName model.id) ++
    sharedSlices.map fun model => sharedSliceName model.id

theorem roots_ofModels (customTypes : List CustomType) (sharedSlices : List SharedSlice) :
    (ofModels customTypes sharedSlices).map root = rootNames customTypes sharedSlices := by
  simp [ofModels, rootNames, Function.comp_def, root_ofCustomType, root_ofSharedSlice]

end Compilation

namespace Module

-- What stands before a shared slice and what comes from it on.
theorem declarations_split (customTypes : List CustomType) (before after : List SharedSlice)
    (slice : SharedSlice) :
    (Compilation.ofModels customTypes (before ++ slice :: after)).flatMap
        Compilation.declarations =
      (Compilation.ofModels customTypes before).flatMap Compilation.declarations ++
        ((Compilation.ofSharedSlice slice).value.declarations ++
          (Compilation.ofModels [] after).flatMap Compilation.declarations) := by
  rw [Compilation.ofModels_append, List.flatMap_append]
  simp [Compilation.ofModels]

theorem exports_root (customTypes : List CustomType) (before after : List SharedSlice)
    (slice : SharedSlice) :
    Declaration.exports ((Compilation.ofModels customTypes (before ++ slice :: after)).flatMap
      Compilation.declarations) (sharedSliceName slice.id) = true := by
  rw [declarations_split, Declaration.exports, List.any_eq_true]
  refine ⟨_, List.mem_append_right _ (List.mem_append_left _
    (Compilation.sliceAlias_mem slice)), ?_⟩
  exact Bool.and_eq_true_iff.mpr ⟨rfl, beq_self_eq_true _⟩

-- Unless something before it has the name, the alias of the slice is the first of its name.
theorem first?_of_clear (customTypes : List CustomType) (before after : List SharedSlice)
    (slice : SharedSlice)
    (hclear : ∀ compilation ∈ Compilation.ofModels customTypes before,
      sharedSliceName slice.id ∉ compilation.names) :
    first? ((Compilation.ofModels customTypes (before ++ slice :: after)).flatMap
        Compilation.declarations) (sharedSliceName slice.id) =
      some (Compilation.sliceAlias slice (sharedSliceName slice.id)
        (Compilation.unionName slice)) := by
  have hnone : first? ((Compilation.ofModels customTypes before).flatMap Compilation.declarations)
      (sharedSliceName slice.id) = none := by
    rw [Declaration.first?_eq_none_iff, List.map_flatMap, List.mem_flatMap]
    rintro ⟨compilation, hc, hn⟩
    exact hclear compilation hc hn
  have hown := Compilation.get?_root_ofSharedSlice slice
  rw [Compilation.root_ofSharedSlice] at hown
  rw [declarations_split, Declaration.first?_append, hnone, Option.none_or,
    Declaration.first?_append_of_mem (Compilation.root_mem_names_ofSharedSlice slice)]
  exact hown

-- The alias of the slice is exported, and what another model declares under its name is not.
theorem first?_ne_of_declared {customTypes : List CustomType} {before after : List SharedSlice}
    {slice : SharedSlice}
    (hroots : (Compilation.rootNames customTypes (before ++ slice :: after)).Nodup)
    {compilation : Compilation} (hc : compilation ∈ Compilation.ofModels customTypes before)
    (hn : sharedSliceName slice.id ∈ compilation.names) :
    first? ((Compilation.ofModels customTypes (before ++ slice :: after)).flatMap
        Compilation.declarations) (sharedSliceName slice.id) ≠
      some (Compilation.sliceAlias slice (sharedSliceName slice.id)
        (Compilation.unionName slice)) := by
  intro hfirst
  have hmem : sharedSliceName slice.id ∈
      ((Compilation.ofModels customTypes before).flatMap Compilation.declarations).map
        Declaration.name := by
    rw [List.map_flatMap, List.mem_flatMap]
    exact ⟨compilation, hc, hn⟩
  rw [declarations_split, Declaration.first?_append_of_mem hmem] at hfirst
  obtain ⟨other, ho, hd⟩ := List.mem_flatMap.mp (List.mem_of_find?_eq_some hfirst)
  -- so the alias is the root of a model before the slice
  have hroot : sharedSliceName slice.id = other.root :=
    Compilation.name_of_exported ho hd rfl
  have hearlier : sharedSliceName slice.id ∈
      (Compilation.ofModels customTypes before).map Compilation.root :=
    hroot ▸ List.mem_map_of_mem ho
  rw [Compilation.roots_ofModels] at hearlier
  rw [Compilation.rootNames, List.map_append, List.map_cons, ← List.append_assoc,
    List.nodup_append] at hroots
  exact hroots.2.2 _ hearlier _ List.mem_cons_self rfl

-- The item under the name of a shared slice, to which all zones that offer the slice refer. It is
-- the first declaration of the name, and that is the alias of the slice unless a custom type or an
-- earlier slice declares the name.
theorem kept_eq_root_iff (settings : Settings) (customTypes : List CustomType)
    (before after : List SharedSlice) (slice : SharedSlice)
    (hroots : (Compilation.rootNames customTypes (before ++ slice :: after)).Nodup) :
    let sharedSlices := before ++ slice :: after
    let declarations :=
      (Compilation.ofModels customTypes sharedSlices).flatMap Compilation.declarations
    let m := (ofModels settings customTypes sharedSlices).value
    (∃ root kept,
      (Compilation.ofSharedSlice slice).value.get? (Compilation.ofSharedSlice slice).value.root =
        some root ∧
      first? declarations (sharedSliceName slice.id) = some kept ∧
      m.get? (sharedSliceName slice.id) =
        some (Item.ofDeclaration settings.library.spaceName kept).asExported ∧
      (kept = root ↔ ∀ compilation ∈ Compilation.ofModels customTypes before,
        sharedSliceName slice.id ∉ compilation.names)) ∧
    m.names.Nodup ∧
    ∀ path id fieldset choices table, (slice.id, SliceChoice.shared) ∈ choices →
      ∃ zone, (Naming.run (Synthesis.ofField path id (.slices fieldset ⟨choices⟩))
          table).1.declarations.getLast? = some zone ∧
        sharedSliceName slice.id ∈ zone.references := by
  intro sharedSlices declarations m
  have hm : m = Module.empty.extended settings.library.spaceName declarations :=
    ofModels_eq_extended settings customTypes sharedSlices
  have hdeclared : sharedSliceName slice.id ∈ declarations.map Declaration.name := by
    simp only [declarations, sharedSlices, declarations_split, List.map_append]
    exact List.mem_append_right _ (List.mem_append_left _
      (Compilation.root_mem_names_ofSharedSlice slice))
  obtain ⟨kept, hkept⟩ : ∃ kept, first? declarations (sharedSliceName slice.id) = some kept :=
    Option.ne_none_iff_exists'.mp fun h => Declaration.first?_eq_none_iff.mp h hdeclared
  have hname : kept.name = sharedSliceName slice.id := by
    simpa using List.find?_some hkept
  refine ⟨⟨_, kept, Compilation.get?_root_ofSharedSlice slice, hkept, ?_, ?_⟩, ?_, ?_⟩
  · have hexports := exports_root customTypes before after slice
    rw [hm, get?_extended (by simp [names, empty]), hkept, Option.map_some, Item.exportedBy,
      Item.name_ofDeclaration, hname, if_pos hexports]
  · constructor
    · rintro rfl compilation hc hn
      exact first?_ne_of_declared hroots hc hn hkept
    · intro hclear
      have hfirst := first?_of_clear customTypes before after slice hclear
      exact Option.some.inj (hkept.symm.trans hfirst)
  · rw [hm]
    exact nodup_extended (m := .empty) List.nodup_nil _ _
  · intro path id fieldset choices table hc
    exact Synthesis.zone_mentions path id fieldset choices hc table

theorem kept_offeredSlice :
    (Compilation.rootNames [offeringType] [offeredSlice]).Nodup ∧
      (∀ compilation ∈ Compilation.ofModels [offeringType] [],
        sharedSliceName offeredSlice.id ∉ compilation.names) ∧
      (ofModels .default [offeringType] [offeredSlice]).value.get? "SSlice" =
        some (.alias ⟨"SSlice", .line "s Shared Slice", true, [],
          "prismicT.SharedSlice<\"s\", SSliceVariation>"⟩) := by
  have hroots : (Compilation.rootNames [offeringType] [offeredSlice]).Nodup := by
    decide +kernel
  have hclear : ∀ compilation ∈ Compilation.ofModels [offeringType] [],
      sharedSliceName offeredSlice.id ∉ compilation.names := by
    decide +kernel
  obtain ⟨⟨root, kept, hroot, -, hitem, hiff⟩, -⟩ :=
    kept_eq_root_iff .default [offeringType] [] [] offeredSlice hroots
  have hname : sharedSliceName offeredSlice.id = "SSlice" := by decide +kernel
  have hrendered : (Item.ofDeclaration Settings.default.library.spaceName root).asExported =
      .alias ⟨"SSlice", .line "s Shared Slice", true, [],
        "prismicT.SharedSlice<\"s\", SSliceVariation>"⟩ := by
    rw [← Option.some.inj ((Compilation.get?_root_ofSharedSlice offeredSlice).symm.trans hroot)]
    decide +kernel
  refine ⟨hroots, hclear, ?_⟩
  rw [hname, hiff.mpr hclear, hrendered] at hitem
  exact hitem

-- A local slice of one type has the name of a shared slice that only another type offers.
def localType : CustomType :=
  ⟨"a", none, true, none, ⟨[("Main", ⟨[("body", .slices none ⟨[
    ("x", .slice none none ⟨[]⟩ ⟨[]⟩)]⟩)]⟩)]⟩⟩

def distantType : CustomType :=
  ⟨"b", none, true, none, ⟨[("Main", ⟨[("body", .slices none ⟨[
    ("a_document_data_body_x", .shared)]⟩)]⟩)]⟩⟩

def shadowedSlice : SharedSlice := ⟨"a_document_data_body_x", none, none, []⟩

-- The item under its name is the local slice.
theorem shadowedSlice_not_kept :
    (Compilation.rootNames [localType, distantType] [shadowedSlice]).Nodup ∧
      distantType.Offers shadowedSlice.id ∧
      ¬ ∃ root,
        (Compilation.ofSharedSlice shadowedSlice).value.get?
            (Compilation.ofSharedSlice shadowedSlice).value.root = some root ∧
          (ofModels .default [localType, distantType] [shadowedSlice]).value.get?
              (sharedSliceName shadowedSlice.id) =
            some (Item.ofDeclaration Settings.default.library.spaceName root).asExported := by
  refine ⟨by decide +kernel, ?_, ?_⟩
  · exact ⟨"body", _, List.mem_singleton_self _, .zone (List.mem_singleton_self _) .shared⟩
  · rintro ⟨root, hroot, hitem⟩
    have hne : (ofModels .default [localType, distantType] [shadowedSlice]).value.get?
        (sharedSliceName shadowedSlice.id) ≠
        ((Compilation.ofSharedSlice shadowedSlice).value.get?
          (Compilation.ofSharedSlice shadowedSlice).value.root).map fun root =>
            (Item.ofDeclaration Settings.default.library.spaceName root).asExported := by
      decide +kernel
    rw [hroot] at hne
    exact hne hitem

end Module

end ContentTypes
