import ContentTypes.Proofs.Module.Emission
import ContentTypes.Proofs.References.Tree

namespace ContentTypes

open Naming (sharedSliceName)
open Declaration (helperNames)

namespace Compilation

theorem mem_ofModels {customTypes : List CustomType} {sharedSlices : List SharedSlice}
    {compilation : Compilation} :
    compilation ∈ ofModels customTypes sharedSlices ↔
      (∃ model ∈ customTypes, (ofCustomType model).value = compilation) ∨
        ∃ model ∈ sharedSlices, (ofSharedSlice model).value = compilation := by
  simp [ofModels]

theorem root_mem_names_ofSharedSlice (model : SharedSlice) :
    sharedSliceName model.id ∈ (ofSharedSlice model).value.names := by
  rw [names_ofSharedSlice]
  exact List.mem_append_right _ (List.mem_singleton_self _)

end Compilation

namespace Module

theorem mem_names_ofModels {settings : Settings} {customTypes : List CustomType}
    {sharedSlices : List SharedSlice} {name : String} :
    name ∈ (ofModels settings customTypes sharedSlices).value.names ↔
      ∃ compilation ∈ Compilation.ofModels customTypes sharedSlices, name ∈ compilation.names := by
  rw [ofModels_eq_extended, mem_names_extended, List.map_flatMap, List.mem_flatMap]
  simp [names, empty, Compilation.names]

-- A reference of any declaration, be it kept or not, finds an item, a helper or a parameter.
theorem mention_cases_ofModels (settings : Settings) (customTypes : List CustomType)
    (sharedSlices : List SharedSlice)
    (htypes : ∀ model ∈ customTypes, ∀ slice, model.Offers slice →
      ∃ shared ∈ sharedSlices, shared.id = slice)
    (hslices : ∀ model ∈ sharedSlices, ∀ slice, model.Offers slice →
      ∃ shared ∈ sharedSlices, shared.id = slice) :
    ∀ declaration ∈
        (Compilation.ofModels customTypes sharedSlices).flatMap Compilation.declarations,
      ∀ name ∈ declaration.references,
        name ∈ (ofModels settings customTypes sharedSlices).value.names ∨
          name = "Simplify" ∨ name = "Record" ∨
            name = "Lang" ∧ name ∈ declaration.params.map TypeParam.name := by
  intro declaration hd name hn
  have hoffered : (∃ shared ∈ sharedSlices, sharedSliceName shared.id = name) →
      name ∈ (ofModels settings customTypes sharedSlices).value.names := by
    rintro ⟨shared, hs, rfl⟩
    exact mem_names_ofModels.mpr ⟨_, Compilation.mem_ofModels.mpr (Or.inr ⟨shared, hs, rfl⟩),
      Compilation.root_mem_names_ofSharedSlice shared⟩
  have hhelper : name ∈ helperNames → name = "Simplify" ∨ name = "Record" := by
    simp [helperNames]
  obtain ⟨compilation, hc, hd⟩ := List.mem_flatMap.mp hd
  have hown : name ∈ compilation.names →
      name ∈ (ofModels settings customTypes sharedSlices).value.names :=
    fun hm => mem_names_ofModels.mpr ⟨compilation, hc, hm⟩
  rcases Compilation.mem_ofModels.mp hc with ⟨model, hmodel, rfl⟩ | ⟨model, hmodel, rfl⟩
  · rcases Compilation.mention_ofCustomType model hd hn with
      hm | hm | ⟨slice, ho, rfl⟩ | hm
    · exact Or.inl (hown hm)
    · exact Or.inr ((hhelper hm).imp_right Or.inl)
    · obtain ⟨shared, hs, rfl⟩ := htypes model hmodel slice ho
      exact Or.inl (hoffered ⟨shared, hs, rfl⟩)
    · exact Or.inr (Or.inr (Or.inr hm))
  · rcases Compilation.mention_ofSharedSlice model hd hn with hm | hm | ⟨slice, ho, rfl⟩
    · exact Or.inl (hown hm)
    · exact Or.inr ((hhelper hm).imp_right Or.inl)
    · obtain ⟨shared, hs, rfl⟩ := hslices model hmodel slice ho
      exact Or.inl (hoffered ⟨shared, hs, rfl⟩)

-- Two models that refer to one slice, which refers to itself.
def offeringType : CustomType :=
  ⟨"b", none, true, none, ⟨[("Main", ⟨[("body", .slices none ⟨[("s", .shared)]⟩)]⟩)]⟩⟩

def offeredSlice : SharedSlice :=
  ⟨"s", none, none, [⟨"v", none, none,
    ⟨[("g", .group none ⟨[("z", .slices none ⟨[("s", .shared)]⟩)]⟩ none)]⟩, ⟨[]⟩⟩]⟩

theorem mention_cases_offeringType :
    offeringType.Offers "s" ∧
      (∀ slice, offeringType.Offers slice → ∃ shared ∈ [offeredSlice], shared.id = slice) ∧
      (∀ slice, offeredSlice.Offers slice → ∃ shared ∈ [offeredSlice], shared.id = slice) ∧
      ∀ declaration ∈
          (Compilation.ofModels [offeringType] [offeredSlice]).flatMap Compilation.declarations,
        ∀ name ∈ declaration.references,
          name ∈ (ofModels .default [offeringType] [offeredSlice]).value.names ∨
            name = "Simplify" ∨ name = "Record" ∨
              name = "Lang" ∧ name ∈ declaration.params.map TypeParam.name := by
  have ho : offeringType.Offers "s" :=
    ⟨"body", _, List.mem_singleton_self _, .zone (List.mem_singleton_self _) .shared⟩
  have hzone : ∀ slice, Field.Offers slice (.slices none ⟨[("s", .shared)]⟩) → "s" = slice := by
    intro slice h
    cases h with
    | zone hc hoffer =>
        cases List.mem_singleton.mp hc
        cases hoffer with
        | shared => rfl
  have htype : ∀ slice, offeringType.Offers slice →
      ∃ shared ∈ [offeredSlice], shared.id = slice := by
    rintro slice ⟨id, field, hf, hoffer⟩
    cases List.mem_singleton.mp hf
    exact ⟨offeredSlice, List.mem_singleton_self _, hzone slice hoffer⟩
  have hslice : ∀ slice, offeredSlice.Offers slice →
      ∃ shared ∈ [offeredSlice], shared.id = slice := by
    rintro slice ⟨variation, hv, h⟩
    cases List.mem_singleton.mp hv
    rcases h with ⟨id, field, hf, hoffer⟩ | ⟨id, field, hf, -⟩
    · cases List.mem_singleton.mp hf
      cases hoffer with
      | group hg hinner =>
          cases List.mem_singleton.mp hg
          exact ⟨offeredSlice, List.mem_singleton_self _, hzone slice hinner⟩
    · cases hf
  refine ⟨ho, htype, hslice, ?_⟩
  exact mention_cases_ofModels .default [offeringType] [offeredSlice]
    (fun model hm => List.mem_singleton.mp hm ▸ htype)
    (fun model hm => List.mem_singleton.mp hm ▸ hslice)

end Module

end ContentTypes
