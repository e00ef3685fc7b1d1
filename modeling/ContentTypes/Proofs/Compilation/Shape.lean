import ContentTypes.Proofs.Compilation.Names
import ContentTypes.Proofs.Shape.Fields

namespace ContentTypes.Compilation

open Naming (run declarationName documentName sharedSliceName)
open Synthesis (Opens Spares)

-- The letters that all names have are not all in the names of the helpers.
theorem mem_name_ofCustomType {model : CustomType} {name : String}
    (hn : name ∈ (ofCustomType model).value.names) : 'u' ∈ name.toList := by
  obtain ⟨after, hc⟩ := claimed_content model
  rw [names_ofCustomType, List.mem_append, List.mem_singleton] at hn
  rcases hn with hn | rfl
  · apply NameTable.mem_of_mem_grants _ ((hc.mem_names name).mp hn)
    intro request hr
    obtain ⟨more, suffix, rfl⟩ := under_contentRequests hr
    have hp : .customType model ∈ [.customType model] ++ more := List.mem_cons_self
    exact Naming.mem_declarationName_customType hp suffix
  · exact Naming.mem_documentName model.id

theorem wellNamed_ofCustomType (model : CustomType) : (ofCustomType model).value.WellNamed where
  nodup := nodup_ofCustomType model
  simplify hm := absurd (mem_name_ofCustomType hm) (by decide)
  record hm := absurd (mem_name_ofCustomType hm) (by decide)

theorem opens_fields_ofCustomType (model : CustomType) :
    Opens (ofCustomType model).value model.fields.entries :=
  Synthesis.opens_ofFields (wellNamed_ofCustomType model) _ fun _ ho => ofCustomType_spares model ho

theorem opened_content (model : CustomType) (depth : Nat) (hl : (content model).length ≤ depth) :
    (Ty.simplified (contentName model)).opened? ((ofCustomType model).value.meaning depth) =
      some (Shape.simplified (Shape.ofFields model.fields.entries)) := by
  have hd : content model ⊆ (ofCustomType model).value.declarations := by
    rw [ofCustomType_value]
    exact List.subset_append_left _ _
  exact Synthesis.opened_record (wellNamed_ofCustomType model) (opens_fields_ofCustomType model)
    _ _ _ _ depth hd hl

theorem opened_lang (model : CustomType) (depth : Nat) :
    (Ty.named "Lang" []).opened? ((ofCustomType model).value.meaning depth) =
      some (.named "Lang" []) := by
  apply opened?_undeclared _ rfl
  intro hn
  exact absurd (mem_name_ofCustomType hn) (by decide)

-- Each declaration is opened inside others at most once, so the depth that is needed is no more
-- than their number, and a greater one changes nothing.
theorem opened_ofCustomType (model : CustomType) (extra : Nat) :
    (ofCustomType model).value.opened? ((ofCustomType model).value.declarations.length + extra) =
      some (Shape.ofCustomType model) := by
  have hm : documentAlias model (documentName model.id) (contentName model) ∈
      (ofCustomType model).value.declarations := by
    rw [ofCustomType_value]
    exact List.mem_append_right _ (List.mem_singleton_self _)
  have hl : (ofCustomType model).value.declarations.length + extra =
      (content model).length + extra + 1 := by
    rw [ofCustomType_value, List.length_append, List.length_singleton]
    omega
  have hcontent := opened_content model ((content model).length + extra) (Nat.le_add_right _ _)
  have hlang := opened_lang model ((content model).length + extra)
  rw [hl, opened?_root (nodup_ofCustomType model) hm rfl rfl]
  apply Ty.opened?_library
  exact Ty.openedAll?_cons hcontent (Ty.openedAll?_cons rfl (Ty.openedAll?_singleton hlang))

theorem mem_name_ofSharedSlice {model : SharedSlice} {name : String}
    (hn : name ∈ (ofSharedSlice model).value.names) : 'i' ∈ name.toList ∧ 'c' ∈ name.toList := by
  obtain ⟨after, hc⟩ := claimed_slice model
  rw [names_ofSharedSlice, List.mem_append, List.mem_singleton] at hn
  rcases hn with hn | rfl
  · have hall : ∀ request ∈ sliceRequests model,
        'i' ∈ request.toList ∧ 'c' ∈ request.toList := by
      intro request hr
      obtain ⟨more, suffix, rfl⟩ := under_sliceRequests hr
      have hp : .sharedSlice model ∈ [.sharedSlice model] ++ more := List.mem_cons_self
      exact Naming.mem_declarationName_sharedSlice hp suffix
    have hg := (hc.mem_names name).mp hn
    exact ⟨NameTable.mem_of_mem_grants (fun request hr => (hall request hr).1) hg,
      NameTable.mem_of_mem_grants (fun request hr => (hall request hr).2) hg⟩
  · exact Naming.mem_sharedSliceName model.id

theorem wellNamed_ofSharedSlice (model : SharedSlice) :
    (ofSharedSlice model).value.WellNamed where
  nodup := nodup_ofSharedSlice model
  simplify hm := absurd (mem_name_ofSharedSlice hm).2 (by decide)
  record hm := absurd (mem_name_ofSharedSlice hm).1 (by decide)

-- The names of the variants open to the shapes of the variations, in their order.
theorem opened_variations {compilation : Compilation} (hw : compilation.WellNamed)
    (model : SharedSlice) (variations : List Variation) (table : NameTable) (depth : Nat)
    (hs : ∀ variation ∈ variations, Spares compilation variation.primary.entries ∧
      Spares compilation variation.items.entries)
    (hd : (run (variationsNaming model variations) table).1.2 ⊆ compilation.declarations)
    (hl : (run (variationsNaming model variations) table).1.2.length ≤ depth) :
    Ty.openedAll? (compilation.meaning depth)
        ((run (variationsNaming model variations) table).1.1.map fun name => .named name []) =
      some (variations.map Shape.ofVariation) := by
  induction variations generalizing table with
  | nil => rfl
  | cons variation rest ih =>
      rw [run_variationsNaming_cons] at hd hl ⊢
      obtain ⟨hone, hmore⟩ := List.append_subset.mp hd
      simp only [List.length_append] at hl
      obtain ⟨hprimary, hitems⟩ := hs variation List.mem_cons_self
      have hvariant := Synthesis.opened_variant hw [.sharedSlice model, .variation variation]
        "SharedSliceVariation" (variationDocs model variation)
        (Synthesis.opens_ofFields hw _ hprimary) (Synthesis.opens_ofFields hw _ hitems)
        table depth hone (by omega)
      have hrest := ih _ (fun other hm => hs other (List.mem_cons_of_mem _ hm)) hmore (by omega)
      exact Ty.openedAll?_cons hvariant hrest

theorem opened_union (model : SharedSlice) (depth : Nat)
    (hs : ∀ slice, model.Offers slice →
      sharedSliceName slice ∉ (ofSharedSlice model).value.names)
    (hl : (variants model).2.length < depth) :
    (Ty.named (unionName model) []).opened? ((ofSharedSlice model).value.meaning depth) =
      some (Shape.unionOrNever (model.variations.map Shape.ofVariation)) := by
  have hw := wellNamed_ofSharedSlice model
  have hd : (variants model).2 ⊆ (ofSharedSlice model).value.declarations := by
    rw [ofSharedSlice_value]
    exact List.subset_append_left _ _
  have hm : unionAlias model ∈ (ofSharedSlice model).value.declarations := by
    rw [ofSharedSlice_value]
    exact List.mem_append_right _ List.mem_cons_self
  obtain _ | depth := depth
  · cases hl
  · have hvariants := opened_variations hw model model.variations
      ((sliceTable model).taking [unionName model]) depth
      (fun variation hv => ⟨fun slice ho => hs slice ⟨variation, hv, Or.inl ho⟩,
        fun slice ho => hs slice ⟨variation, hv, Or.inr ho⟩⟩) hd (Nat.le_of_lt_succ hl)
    rw [← name_unionAlias, opened?_alias hw.nodup hm rfl]
    exact Ty.opened?_unionOrNever hvariants

-- As for a custom type, but a slice that the model offers under the name of a declaration would be
-- taken for that declaration.
theorem opened_ofSharedSlice (model : SharedSlice) (extra : Nat)
    (hs : ∀ slice, model.Offers slice →
      sharedSliceName slice ∉ (ofSharedSlice model).value.names) :
    (ofSharedSlice model).value.opened? ((ofSharedSlice model).value.declarations.length + extra) =
      some (Shape.ofSharedSlice model) := by
  have hm : sliceAlias model (sharedSliceName model.id) (unionName model) ∈
      (ofSharedSlice model).value.declarations := by
    rw [declarations_ofSharedSlice]
    exact List.mem_append_right _ (List.mem_singleton_self _)
  have hl : (ofSharedSlice model).value.declarations.length + extra =
      (variants model).2.length + 1 + extra + 1 := by
    rw [ofSharedSlice_value, List.length_append]
    simp only [List.length_cons, List.length_nil]
    omega
  have hunion := opened_union model ((variants model).2.length + 1 + extra) hs (by omega)
  rw [hl, opened?_root (nodup_ofSharedSlice model) hm rfl rfl]
  apply Ty.opened?_library
  exact Ty.openedAll?_cons rfl (Ty.openedAll?_singleton hunion)

-- Two variations ask for the name of the union, one has no id, and a zone offers another slice.
def lookAlikeSlice : SharedSlice :=
  let text : FieldSet := ⟨[("t", .plain .text .none)]⟩
  let zone : Field := .slices none ⟨[("b", .shared), ("c", .slice none none text ⟨[]⟩)]⟩
  ⟨"a", none, none, [⟨"variation", none, none, text, ⟨[]⟩⟩,
    ⟨"variation", none, none, ⟨[]⟩, ⟨[("g", .group none ⟨[("z", zone)]⟩ none)]⟩⟩,
    ⟨"", none, none, ⟨[]⟩, ⟨[]⟩⟩]⟩

theorem opened_lookAlikeSlice :
    lookAlikeSlice.Offers "b" ∧
      (∀ slice, lookAlikeSlice.Offers slice →
        sharedSliceName slice ∉ (ofSharedSlice lookAlikeSlice).value.names) ∧
      (ofSharedSlice lookAlikeSlice).value.opened?
          ((ofSharedSlice lookAlikeSlice).value.declarations.length + 0) =
        some (Shape.ofSharedSlice lookAlikeSlice) := by
  have ho : lookAlikeSlice.Offers "b" :=
    ⟨_, .tail _ (.head _), Or.inr ⟨"g", _, List.mem_singleton_self _,
      .group (List.mem_singleton_self _) (.zone List.mem_cons_self .shared)⟩⟩
  have hclear : ∀ name ∈ lookAlikeSlice.variations.flatMap fun variation =>
      Synthesis.sharedNamesOfFields variation.primary.entries ++
        Synthesis.sharedNamesOfFields variation.items.entries,
      name ∉ (ofSharedSlice lookAlikeSlice).value.names := by
    decide +kernel
  have hs : ∀ slice, lookAlikeSlice.Offers slice →
      sharedSliceName slice ∉ (ofSharedSlice lookAlikeSlice).value.names := fun slice h =>
    hclear _ (Synthesis.mem_sharedNames_of_sharedSlice h)
  exact ⟨ho, hs, opened_ofSharedSlice lookAlikeSlice 0 hs⟩

end ContentTypes.Compilation
