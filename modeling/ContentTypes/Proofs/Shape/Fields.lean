import ContentTypes.Proofs.Shape.Opening

namespace ContentTypes.Synthesis

open Naming (run sharedSliceName)

variable {compilation : Compilation}

-- No declaration takes the name of a shared slice that these fields offer.
def Spares (compilation : Compilation) (fields : List (String × Field)) : Prop :=
  ∀ slice, OffersIn slice fields → sharedSliceName slice ∉ compilation.names

-- Wherever the fields are synthesized, the properties open to the shapes of the fields if the
-- compilation has what they declare. A depth of one for each declaration is enough.
def Opens (compilation : Compilation) (fields : List (String × Field)) : Prop :=
  ∀ path table depth, (run (ofFields path fields) table).1.2 ⊆ compilation.declarations →
    (run (ofFields path fields) table).1.2.length ≤ depth →
    Property.openedAll? (compilation.meaning depth) (run (ofFields path fields) table).1.1 =
      some (Shape.ofFields fields)

theorem opened_record (hw : compilation.WellNamed) {fields : List (String × Field)}
    (ho : Opens compilation fields) (path : Path) (name : String) (docs : Docs)
    (table : NameTable) (depth : Nat)
    (hd : recordFirst name docs (run (ofFields path fields) table).1 ⊆ compilation.declarations)
    (hl : (recordFirst name docs (run (ofFields path fields) table).1).length ≤ depth) :
    (Ty.simplified name).opened? (compilation.meaning depth) =
      some (Shape.simplified (Shape.ofFields fields)) := by
  obtain ⟨hrecord, hinner⟩ := List.cons_subset.mp hd
  cases depth with
  | zero => cases hl
  | succ depth =>
      have hprops := ho path table depth hinner (Nat.le_of_succ_le_succ hl)
      exact Compilation.opened?_simplified hw hrecord rfl hprops

theorem opened_role (hw : compilation.WellNamed) (path : Path) (role : Role) (lead : String)
    {emptyTy : Ty} {empty : Shape} {fields : FieldSet} (ho : Opens compilation fields.entries)
    (table : NameTable) (depth : Nat)
    (he : emptyTy.opened? (compilation.meaning depth) = some empty)
    (hd : (run (ofRole path role lead emptyTy fields) table).1.2 ⊆ compilation.declarations)
    (hl : (run (ofRole path role lead emptyTy fields) table).1.2.length ≤ depth) :
    (run (ofRole path role lead emptyTy fields) table).1.1.opened? (compilation.meaning depth) =
      some (Shape.ofRole empty fields (Shape.ofFields fields.entries)) := by
  obtain ⟨_ | ⟨first, rest⟩⟩ := fields
  · rw [run_ofRole_empty]
    exact he
  · rw [run_ofRole_cons] at hd hl ⊢
    exact opened_record hw ho _ _ _ _ depth hd hl

-- The shape of a slice with these field sets.
theorem opened_variant (hw : compilation.WellNamed) (path : Path) (libraryName : String)
    (docs : Docs) {primary items : FieldSet} (hp : Opens compilation primary.entries)
    (hi : Opens compilation items.entries) (table : NameTable) (depth : Nat)
    (hd : (run (ofVariant path libraryName docs primary items) table).1.2 ⊆
      compilation.declarations)
    (hl : (run (ofVariant path libraryName docs primary items) table).1.2.length ≤ depth) :
    (Ty.named (run (ofVariant path libraryName docs primary items) table).1.1 []).opened?
        (compilation.meaning depth) =
      some (.library libraryName [.literal ((path.getLast?.map Step.id).getD ""),
        Shape.ofRole Shape.emptyRecord primary (Shape.ofFields primary.entries),
        Shape.ofRole .never items (Shape.ofFields items.entries)]) := by
  rw [run_ofVariant] at hd hl ⊢
  obtain ⟨hroles, halias⟩ := List.append_subset.mp hd
  obtain ⟨hprimary, hitems⟩ := List.append_subset.mp hroles
  simp only [List.length_append, List.length_singleton] at hl
  cases depth with
  | zero => omega
  | succ depth =>
      have hopened :=
        Compilation.opened?_alias hw.nodup (halias (List.mem_singleton_self _)) rfl depth
      have hprimary := opened_role hw path .primary "Primary content in" hp _ depth
        (Compilation.opened?_emptyRecord hw depth) hprimary (by omega)
      have hitems := opened_role hw path .items "Item in" hi _ depth rfl hitems (by omega)
      apply hopened.trans
      apply Ty.opened?_library
      exact Ty.openedAll?_cons rfl (Ty.openedAll?_cons hprimary (Ty.openedAll?_singleton hitems))

theorem opened_plain (path : Path) (id : String) (kind : PlainKind) (caption : Caption)
    (table : NameTable) (depth : Nat) :
    Property.openedAll? (compilation.meaning depth)
        (run (ofField path id (.plain kind caption)) table).1.property.toList =
      some ((Shape.ofPlain? kind).map (id, ·)).toList := by
  cases kind <;> rfl

theorem opened_image (config : ImageConfig) (depth : Nat) :
    (imageTy config).opened? (compilation.meaning depth) = some (Shape.ofImage config) := by
  obtain ⟨label, _ | ⟨first, rest⟩⟩ := config
  · rfl
  · exact Ty.opened?_library (Ty.openedAll?_singleton (Ty.opened?_literalUnion _))

theorem opened_link (config : LinkConfig) (depth : Nat) :
    (linkTy config).opened? (compilation.meaning depth) = some (Shape.ofLink config) := by
  obtain ⟨caption, target, customTypes⟩ := config
  cases target with
  | none => rfl
  | some target =>
      cases target with
      | document =>
          cases customTypes with
          | nil => rfl
          | cons first rest =>
              exact Ty.opened?_library (Ty.openedAll?_singleton (Ty.opened?_literalUnion _))
      | media => rfl
      | web => rfl
      | other => rfl

theorem opened_richText (config : RichTextConfig) (depth : Nat) :
    (richTextTy config).opened? (compilation.meaning depth) = some (Shape.ofRichText config) := by
  by_cases ht : config.isTitle <;>
    simp [richTextTy, Shape.ofRichText, ht, Ty.opened?, Ty.openedAll?]

theorem opened_select (config : SelectConfig) (depth : Nat) :
    (selectTy config).opened? (compilation.meaning depth) = some (Shape.ofSelect config) := by
  apply Ty.opened?_library
  by_cases hf : config.hasDefault <;>
    simp [hf, Ty.openedAll?, Ty.opened?_literalUnion, Ty.opened?]

mutual

-- The type of a group takes the record that comes first, the type of a zone the alias that comes
-- last. What lies inside has one step less to go.
theorem opened_ofField (hw : compilation.WellNamed) (path : Path) (id : String) :
    (field : Field) → (table : NameTable) → (depth : Nat) →
    (hs : ∀ slice, field.Offers slice → sharedSliceName slice ∉ compilation.names) →
    (hd : (run (ofField path id field) table).1.declarations ⊆ compilation.declarations) →
    (hl : (run (ofField path id field) table).1.declarations.length ≤ depth) →
    Property.openedAll? (compilation.meaning depth)
        (run (ofField path id field) table).1.property.toList =
      some ((Shape.ofField? field).map (id, ·)).toList
  | .group label ⟨fields⟩ repeats, table, depth, hs, hd, hl => by
      have ho : Opens compilation fields := opens_ofFields hw fields fun slice hm => by
        obtain ⟨inner, field, hf, hoffers⟩ := hm
        exact hs slice (.group hf hoffers)
      rw [run_group] at hd hl ⊢
      have hrecord := opened_record hw ho _ _ _ _ depth hd hl
      apply Property.openedAll?_singleton
      exact Ty.opened?_library (Ty.openedAll?_singleton hrecord)
  | .slices fieldset ⟨choices⟩, table, depth, hs, hd, hl => by
      rw [run_slices] at hd hl ⊢
      obtain ⟨hinner, hzone⟩ := List.append_subset.mp hd
      simp only [List.length_append, List.length_singleton] at hl
      cases depth with
      | zero => omega
      | succ depth =>
          have hchoices := opened_ofChoices hw _ id choices _ depth
            (fun slice ⟨inner, choice, hc, ho⟩ => hs slice (.zone hc ho)) hinner (by omega)
          have halias :=
            Compilation.opened?_alias hw.nodup (hzone (List.mem_singleton_self _)) rfl depth
          have hunion := halias.trans (Ty.opened?_unionOrNever hchoices)
          apply Property.openedAll?_singleton
          exact Ty.opened?_library (Ty.openedAll?_singleton hunion)
  | .plain kind caption, table, depth, _, _, _ => opened_plain path id kind caption table depth
  | .image config, _, depth, _, _, _ => Property.openedAll?_singleton (opened_image config depth)
  | .integration _, _, _, _, _, _ => rfl
  | .link config, _, depth, _, _, _ => Property.openedAll?_singleton (opened_link config depth)
  | .richText config, _, depth, _, _, _ =>
      Property.openedAll?_singleton (opened_richText config depth)
  | .select config, _, depth, _, _, _ => Property.openedAll?_singleton (opened_select config depth)
  | .unknown _ _, _, _, _, _, _ => rfl

theorem opens_ofFields (hw : compilation.WellNamed) : (fields : List (String × Field)) →
    Spares compilation fields → Opens compilation fields
  | [], _ => fun path table depth _ _ => by
      rw [run_ofFields_nil]
      rfl
  | (id, field) :: rest, hs => fun path table depth hd hl => by
      rw [run_ofFields_cons] at hd hl ⊢
      obtain ⟨hone, hmore⟩ := List.append_subset.mp hd
      simp only [List.length_append] at hl
      have hfirst := opened_ofField hw path id field table depth
        (fun slice ho => hs slice ⟨id, field, List.mem_cons_self, ho⟩) hone (by omega)
      have hrest := opens_ofFields hw rest
        (fun slice ⟨other, inner, hm, ho⟩ => hs slice ⟨other, inner, List.mem_cons_of_mem _ hm, ho⟩)
        path _ depth hmore (by omega)
      exact Property.openedAll?_append hfirst hrest

theorem opened_ofChoices (hw : compilation.WellNamed) (path : Path) (zone : String) :
    (choices : List (String × SliceChoice)) → (table : NameTable) → (depth : Nat) →
    (hs : ∀ slice, (∃ id choice, (id, choice) ∈ choices ∧ choice.Offers slice id) →
      sharedSliceName slice ∉ compilation.names) →
    (hd : (run (ofChoices path zone choices) table).1.2 ⊆ compilation.declarations) →
    (hl : (run (ofChoices path zone choices) table).1.2.length ≤ depth) →
    Ty.openedAll? (compilation.meaning depth) (run (ofChoices path zone choices) table).1.1 =
      some (Shape.ofChoices choices)
  | [], table, depth, _, _, _ => by
      rw [run_ofChoices_nil]
      rfl
  | (id, choice) :: rest, table, depth, hs, hd, hl => by
      rw [run_ofChoices_cons] at hd hl ⊢
      obtain ⟨hone, hmore⟩ := List.append_subset.mp hd
      simp only [List.length_append] at hl
      have hfirst := opened_ofChoice hw path zone id choice table depth
        (fun slice ho => hs slice ⟨id, choice, List.mem_cons_self, ho⟩) hone (by omega)
      have hrest := opened_ofChoices hw path zone rest _ depth
        (fun slice ⟨other, inner, hm, ho⟩ => hs slice ⟨other, inner, List.mem_cons_of_mem _ hm, ho⟩)
        hmore (by omega)
      exact Ty.openedAll?_append hfirst hrest

theorem opened_ofChoice (hw : compilation.WellNamed) (path : Path) (zone id : String) :
    (choice : SliceChoice) → (table : NameTable) → (depth : Nat) →
    (hs : ∀ slice, choice.Offers slice id → sharedSliceName slice ∉ compilation.names) →
    (hd : (run (ofChoice path zone id choice) table).1.2 ⊆ compilation.declarations) →
    (hl : (run (ofChoice path zone id choice) table).1.2.length ≤ depth) →
    Ty.openedAll? (compilation.meaning depth) (run (ofChoice path zone id choice) table).1.1 =
      some (Shape.ofChoice? id choice).toList
  | .shared, table, depth, hs, _, _ => by
      rw [run_shared]
      exact Ty.openedAll?_singleton (Compilation.opened?_undeclared (hs id .shared) rfl)
  | .slice fieldset description ⟨nonRepeat⟩ ⟨repeated⟩, table, depth, hs, hd, hl => by
      have hn : Opens compilation nonRepeat := opens_ofFields hw nonRepeat
        fun slice ⟨other, field, hm, ho⟩ => hs slice (.nonRepeat hm ho)
      have hr : Opens compilation repeated := opens_ofFields hw repeated
        fun slice ⟨other, field, hm, ho⟩ => hs slice (.repeated hm ho)
      rw [run_slice] at hd hl ⊢
      have hvariant := opened_variant hw _ "Slice" .empty hn hr table depth hd hl
      simpa [Shape.ofChoice?, Step.id] using Ty.openedAll?_singleton hvariant
  | .unknown, _, _, _, _, _ => by
      rw [run_unknownChoice]
      rfl

end

end ContentTypes.Synthesis
