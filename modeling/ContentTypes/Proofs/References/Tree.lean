import Mathlib.Data.List.Nodup
import ContentTypes.Proofs.References.Compilation

namespace ContentTypes

open Declaration (Forest Ordered Reaches helperNames)

-- References go by names, so the names have to be different in the first place.
structure ReferenceTree (compilation : Compilation) (root : Declaration) : Prop where
  nodup : compilation.names.Nodup
  last : compilation.declarations.getLast? = some root
  name : root.name = compilation.root
  isAlias : root.IsAlias
  exported_iff : ∀ declaration ∈ compilation.declarations,
    declaration.exported = true ↔ declaration = root
  unmentioned : ∀ declaration ∈ compilation.declarations, root.name ∉ declaration.references
  mentioned_once : ∀ declaration ∈ compilation.declarations, declaration ≠ root →
    (compilation.declarations.flatMap Declaration.references).count declaration.name = 1
  reached : ∀ declaration ∈ compilation.declarations,
    Reaches compilation.declarations root declaration
  ordered : ∀ before source after, compilation.declarations = before ++ source :: after →
    ∀ target ∈ compilation.declarations, target.name ∈ source.references →
      (source.IsRecord → target ∈ after) ∧ (source.IsAlias → target ∈ before)

theorem Declaration.mem_of_mem_names {part declarations : List Declaration}
    (hn : (declarations.map Declaration.name).Nodup) (hp : part ⊆ declarations)
    {declaration : Declaration} (hd : declaration ∈ declarations)
    (hm : declaration.name ∈ part.map Declaration.name) : declaration ∈ part := by
  obtain ⟨other, ho, hname⟩ := List.mem_map.mp hm
  have he := List.inj_on_of_nodup_map hn (hp ho) hd hname
  exact he ▸ ho

-- A forest under an alias, which mentions the heads of the forest and its own `extra` names. It
-- alone is exported, and no declared name is one that is mentioned for something else.
structure Crowned (compilation : Compilation) (root : Declaration) (below : List Declaration)
    (shared heads extra : List String) : Prop where
  forest : Forest shared heads below
  declared : compilation.declarations = below ++ [root]
  mentions : root.references = heads ++ extra
  name : root.name = compilation.root
  isAlias : root.IsAlias
  exported : root.exported = true
  nodup : compilation.names.Nodup
  clear : ∀ name ∈ compilation.names, name ∉ helperNames ++ shared ++ extra

namespace Crowned

variable {compilation : Compilation} {root : Declaration} {below : List Declaration}
variable {shared heads extra : List String}

theorem mem_iff (h : Crowned compilation root below shared heads extra)
    (declaration : Declaration) :
    declaration ∈ compilation.declarations ↔ declaration ∈ below ∨ declaration = root := by
  rw [h.declared, List.mem_append, List.mem_singleton]

theorem below_subset (h : Crowned compilation root below shared heads extra) :
    below ⊆ compilation.declarations :=
  fun declaration hd => (h.mem_iff declaration).mpr (Or.inl hd)

theorem root_mem (h : Crowned compilation root below shared heads extra) :
    root ∈ compilation.declarations :=
  (h.mem_iff root).mpr (Or.inr rfl)

theorem nodup_below (h : Crowned compilation root below shared heads extra) :
    (below.map Declaration.name).Nodup ∧ root.name ∉ below.map Declaration.name := by
  have hn := h.nodup
  rw [Compilation.names, h.declared, List.map_append, List.map_singleton, List.nodup_append] at hn
  exact ⟨hn.1, fun hm => hn.2.2 _ hm _ (List.mem_singleton_self _) rfl⟩

-- All mentions of a declared name are references to the declaration.
theorem count_mentions (h : Crowned compilation root below shared heads extra)
    {declaration : Declaration} (hd : declaration ∈ compilation.declarations) :
    (compilation.declarations.flatMap Declaration.references).count declaration.name =
      (below.map Declaration.name).count declaration.name := by
  have hclear := h.clear _ (List.mem_map_of_mem hd)
  simp only [List.mem_append, not_or] at hclear
  have hcounted := h.forest.counted _ hclear.1.1
  have hshared : shared.count declaration.name = 0 := List.count_eq_zero.mpr hclear.1.2
  have hextra : extra.count declaration.name = 0 := List.count_eq_zero.mpr hclear.2
  simp only [h.declared, List.flatMap_append, List.flatMap_singleton, h.mentions,
    List.count_append]
  omega

theorem exported_iff (h : Crowned compilation root below shared heads extra)
    {declaration : Declaration} (hd : declaration ∈ compilation.declarations) :
    declaration.exported = true ↔ declaration = root := by
  constructor
  · intro he
    rcases (h.mem_iff declaration).mp hd with hb | hr
    · rw [h.forest.hidden declaration hb] at he
      cases he
    · exact hr
  · rintro rfl
    exact h.exported

theorem unmentioned (h : Crowned compilation root below shared heads extra)
    {declaration : Declaration} (hd : declaration ∈ compilation.declarations) :
    root.name ∉ declaration.references := by
  intro hm
  have hzero := (h.count_mentions h.root_mem).trans (List.count_eq_zero.mpr h.nodup_below.2)
  exact List.count_eq_zero.mp hzero (List.mem_flatMap.mpr ⟨declaration, hd, hm⟩)

theorem mentioned_once (h : Crowned compilation root below shared heads extra)
    {declaration : Declaration} (hd : declaration ∈ compilation.declarations)
    (hne : declaration ≠ root) :
    (compilation.declarations.flatMap Declaration.references).count declaration.name = 1 := by
  have hb := ((h.mem_iff declaration).mp hd).resolve_right hne
  rw [h.count_mentions hd]
  exact List.count_eq_one_of_mem h.nodup_below.1 (List.mem_map_of_mem hb)

-- The forest reaches each declaration from a head, and the root mentions all heads.
theorem reached (h : Crowned compilation root below shared heads extra)
    {declaration : Declaration} (hd : declaration ∈ compilation.declarations) :
    Reaches compilation.declarations root declaration := by
  rcases (h.mem_iff declaration).mp hd with hb | rfl
  · obtain ⟨source, hs, hhead, hpath⟩ := h.forest.reached declaration hb
    have hfirst : source.name ∈ root.references := by
      rw [h.mentions]
      exact List.mem_append_left _ hhead
    exact .head ⟨h.root_mem, h.below_subset hs, hfirst⟩ (hpath.mono h.below_subset)
  · exact .refl

theorem ordered_names (h : Crowned compilation root below shared heads extra) :
    Ordered (helperNames ++ shared ++ extra) compilation.declarations := by
  rw [h.declared]
  refine (h.forest.ordered.mono (List.subset_append_left _ _)).concat_alias h.isAlias ?_
  intro name hm ho
  simp only [List.mem_append, not_or] at ho
  rw [h.mentions] at hm
  have hhead := (List.mem_append.mp hm).resolve_right ho.2
  exact h.forest.mem_names (List.mem_append_left _ hhead) ho.1.1 ho.1.2

theorem ordered (h : Crowned compilation root below shared heads extra)
    {before after : List Declaration} {source target : Declaration}
    (he : compilation.declarations = before ++ source :: after)
    (ht : target ∈ compilation.declarations) (hm : target.name ∈ source.references) :
    (source.IsRecord → target ∈ after) ∧ (source.IsAlias → target ∈ before) := by
  have hsides := h.ordered_names before source after he _ hm (h.clear _ (List.mem_map_of_mem ht))
  have hbefore : before ⊆ compilation.declarations := by
    rw [he]
    exact List.subset_append_left _ _
  have hafter : after ⊆ compilation.declarations := by
    rw [he]
    exact fun _ hd => List.mem_append_right _ (List.mem_cons_of_mem _ hd)
  constructor
  · intro hr
    exact Declaration.mem_of_mem_names h.nodup hafter ht (hsides.1 hr)
  · intro ha
    exact Declaration.mem_of_mem_names h.nodup hbefore ht (hsides.2 ha)

theorem referenceTree (h : Crowned compilation root below shared heads extra) :
    ReferenceTree compilation root where
  nodup := h.nodup
  last := by simp [h.declared]
  name := h.name
  isAlias := h.isAlias
  exported_iff _ := h.exported_iff
  unmentioned _ := h.unmentioned
  mentioned_once _ := h.mentioned_once
  reached _ := h.reached
  ordered _ _ _ he _ := h.ordered he

end Crowned

namespace Compilation

open Naming (documentName sharedSliceName)

-- No declaration of a document is taken for a helper, a shared slice or the parameter.
theorem names_ofCustomType_clear (model : CustomType) {name : String}
    (hn : name ∈ (ofCustomType model).value.names) :
    name ∉ helperNames ++ Synthesis.sharedNamesOfFields model.fields.entries ++ ["Lang"] := by
  have hu := mem_name_ofCustomType hn
  simp only [helperNames, List.mem_append, List.mem_cons, List.not_mem_nil, or_false]
  rintro (((rfl | rfl) | hs) | rfl)
  · exact absurd hu (by decide)
  · exact absurd hu (by decide)
  · obtain ⟨slice, ho, rfl⟩ := Synthesis.exists_offersIn _ hs
    exact ofCustomType_spares model ho hn
  · exact absurd hu (by decide)

theorem crowned_ofCustomType (model : CustomType) :
    Crowned (ofCustomType model).value
      (documentAlias model (documentName model.id) (contentName model)) (content model)
      (Synthesis.sharedNamesOfFields model.fields.entries)
      (Ty.simplified (contentName model)).references ["Lang"] where
  forest := forest_content model
  declared := by rw [ofCustomType_value]
  mentions := by
    rw [references_documentAlias, Ty.references_simplified]
    rfl
  name := rfl
  isAlias := ⟨_, _, rfl⟩
  exported := rfl
  nodup := nodup_ofCustomType model
  clear _ := names_ofCustomType_clear model

-- However deep the groups and zones are, and whatever ids meet in them.
theorem referenceTree_ofCustomType (model : CustomType) :
    ReferenceTree (ofCustomType model).value
      (documentAlias model (documentName model.id) (contentName model)) :=
  (crowned_ofCustomType model).referenceTree

end Compilation

end ContentTypes
