import ContentTypes.Proofs.References.Forest
import ContentTypes.Proofs.Synthesis.Run

namespace ContentTypes.Synthesis

open Naming (run)
open Declaration (Forest helperNames)

-- The names that the types of some properties mention.
def mentions (properties : List Property) : List String :=
  properties.flatMap (·.ty.references)

theorem mentions_append (first second : List Property) :
    mentions (first ++ second) = mentions first ++ mentions second :=
  List.flatMap_append

theorem references_plain (kind : PlainKind) (path : Path) (id : String) (caption : Caption)
    (table : NameTable) :
    mentions (run (ofField path id (.plain kind caption)) table).1.property.toList = [] := by
  rw [run_plain]
  split <;> simp [scalar, mentions]

theorem references_imageTy (config : ImageConfig) : (imageTy config).references = [] := by
  unfold imageTy
  split <;> simp

theorem references_linkTy (config : LinkConfig) : (linkTy config).references = [] := by
  unfold linkTy
  split <;> simp

theorem references_richTextTy (config : RichTextConfig) : (richTextTy config).references = [] := by
  simp [richTextTy]

theorem references_selectTy (config : SelectConfig) : (selectTy config).references = [] := by
  unfold selectTy
  split <;> simp

theorem references_emptyRecordTy : emptyRecordTy.references = ["Record"] := by
  simp [emptyRecordTy]

theorem references_zoneAlias (inside : Path) (name : String) (members : List Ty) :
    (zoneAlias inside name members).references = members.flatMap Ty.references :=
  Ty.references_unionOrNever members

-- The members of a zone are there for all of its shared choices.
theorem mem_members {slice : String} (path : Path) (zone : String)
    (choices : List (String × SliceChoice)) (hc : (slice, .shared) ∈ choices)
    (table : NameTable) :
    Ty.named (Naming.sharedSliceName slice) [] ∈
      (run (ofChoices path zone choices) table).1.1 := by
  induction choices generalizing table with
  | nil => cases hc
  | cons first rest ih =>
      obtain ⟨id, choice⟩ := first
      rw [run_ofChoices_cons]
      rcases List.mem_cons.mp hc with he | hr
      · obtain ⟨rfl, rfl⟩ := Prod.mk.inj he
        rw [run_shared]
        exact List.mem_append_left _ (List.mem_singleton_self _)
      · exact List.mem_append_right _ (ih hr _)

-- So the alias of the zone, which is declared last, refers to them.
theorem zone_mentions {slice : String} (path : Path) (id : String) (fieldset : Option String)
    (choices : List (String × SliceChoice)) (hc : (slice, .shared) ∈ choices)
    (table : NameTable) :
    ∃ zone, (run (ofField path id (.slices fieldset ⟨choices⟩)) table).1.declarations.getLast? =
      some zone ∧ Naming.sharedSliceName slice ∈ zone.references := by
  rw [run_slices]
  refine ⟨zoneAlias _ _ _, List.getLast?_concat .., ?_⟩
  rw [references_zoneAlias, List.mem_flatMap]
  refine ⟨_, mem_members _ id choices hc _, ?_⟩
  simp

theorem references_variantAlias (path : Path) (libraryName : String) (docs : Docs) (name : String)
    (primary items : Ty) :
    (variantAlias path libraryName docs name primary items).references =
      primary.references ++ items.references := by
  simp [Declaration.references, variantAlias, Declaration.withDocs, Declaration.ofAlias]

-- A field that brings nothing but a property of the library.
theorem forest_scalar (path : Path) (id : String) (field : Field) {ty : Ty}
    (ht : ty.references = []) :
    Forest [] (mentions (scalar path id field ty).property.toList)
      (scalar path id field ty).declarations := by
  have hm : mentions (scalar path id field ty).property.toList = [] := by
    simp [mentions, scalar, ht]
  rw [hm]
  exact .helpers (by simp)

theorem forest_record {shared : List String} {inner : List Property × List Declaration}
    (h : Forest shared (mentions inner.1) inner.2) (name : String) (docs : Docs) :
    Forest shared (Ty.simplified name).references (recordFirst name docs inner) := by
  have hr := Forest.cons_record ((Declaration.ofRecord name inner.1).withDocs docs) h
    ⟨inner.1, rfl⟩ rfl
  exact hr.simplified

theorem forest_role (path : Path) (role : Role) (lead : String) (emptyTy : Ty)
    (he : ∀ name ∈ emptyTy.references, name ∈ helperNames) (fields : FieldSet)
    (table : NameTable)
    (ih : ∀ inside known, Forest (sharedNamesOfFields fields.entries)
      (mentions (run (ofFields inside fields.entries) known).1.1)
      (run (ofFields inside fields.entries) known).1.2) :
    Forest (sharedNamesOfFields fields.entries)
      (run (ofRole path role lead emptyTy fields) table).1.1.references
      (run (ofRole path role lead emptyTy fields) table).1.2 := by
  obtain ⟨_ | ⟨first, rest⟩⟩ := fields
  · rw [run_ofRole_empty, sharedNamesOfFields]
    exact .helpers he
  · rw [run_ofRole_cons]
    exact forest_record (ih _ _) _ _

-- A variant is an alias behind the records of its two roles.
theorem forest_variant (path : Path) (libraryName : String) (docs : Docs)
    (primary items : FieldSet) (table : NameTable)
    (hprimary : ∀ inside known, Forest (sharedNamesOfFields primary.entries)
      (mentions (run (ofFields inside primary.entries) known).1.1)
      (run (ofFields inside primary.entries) known).1.2)
    (hitems : ∀ inside known, Forest (sharedNamesOfFields items.entries)
      (mentions (run (ofFields inside items.entries) known).1.1)
      (run (ofFields inside items.entries) known).1.2) :
    Forest (sharedNamesOfFields primary.entries ++ sharedNamesOfFields items.entries)
      [(run (ofVariant path libraryName docs primary items) table).1.1]
      (run (ofVariant path libraryName docs primary items) table).1.2 := by
  rw [run_ofVariant]
  refine Forest.concat_alias (variantAlias path libraryName docs _ _ _) ?_ ⟨_, _, rfl⟩ rfl
  rw [references_variantAlias]
  have hempty : ∀ name ∈ emptyRecordTy.references, name ∈ helperNames := by
    simp [references_emptyRecordTy, helperNames]
  have hp := fun known => forest_role path .primary "Primary content in" emptyRecordTy hempty
    primary known hprimary
  have hi := fun known => forest_role path .items "Item in" .never (by simp) items known hitems
  exact (hp _).append (hi _)

mutual

theorem forest_ofField (path : Path) (id : String) : (field : Field) → (table : NameTable) →
    Forest (sharedNames field) (mentions (run (ofField path id field) table).1.property.toList)
      (run (ofField path id field) table).1.declarations
  | .group label ⟨fields⟩ repeats, table => by
      rw [run_group, sharedNames]
      simpa [mentions] using forest_record (forest_ofFields _ fields _) _ _
  | .slices fieldset ⟨choices⟩, table => by
      rw [run_slices, sharedNames]
      have hone : ∀ name docs, mentions [⟨id, .library "SliceZone" [.named name []], docs⟩] =
          [name] := by simp [mentions]
      rw [Option.toList_some, hone]
      refine Forest.concat_alias (zoneAlias _ _ _) ?_ ⟨_, _, rfl⟩ rfl
      rw [references_zoneAlias]
      exact forest_ofChoices _ id choices _
  | .plain kind caption, table => by
      rw [references_plain]
      cases kind <;> exact .helpers (by simp)
  | .image config, table => forest_scalar _ _ _ (references_imageTy config)
  | .integration config, table => forest_scalar _ _ _ (by simp)
  | .link config, table => forest_scalar _ _ _ (references_linkTy config)
  | .richText config, table => forest_scalar _ _ _ (references_richTextTy config)
  | .select config, table => forest_scalar _ _ _ (references_selectTy config)
  | .unknown kind caption, table => forest_scalar _ _ _ (by simp)

theorem forest_ofFields (path : Path) : (fields : List (String × Field)) → (table : NameTable) →
    Forest (sharedNamesOfFields fields) (mentions (run (ofFields path fields) table).1.1)
      (run (ofFields path fields) table).1.2
  | [], table => by
      rw [run_ofFields_nil]
      exact .helpers (by simp [mentions])
  | (id, field) :: rest, table => by
      rw [run_ofFields_cons, sharedNamesOfFields, mentions_append]
      exact (forest_ofField path id field table).append (forest_ofFields path rest _)

theorem forest_ofChoices (path : Path) (zone : String) :
    (choices : List (String × SliceChoice)) → (table : NameTable) →
    Forest (sharedNamesOfChoices choices)
      ((run (ofChoices path zone choices) table).1.1.flatMap Ty.references)
      (run (ofChoices path zone choices) table).1.2
  | [], table => by
      rw [run_ofChoices_nil]
      exact .helpers (by simp)
  | (id, choice) :: rest, table => by
      rw [run_ofChoices_cons, sharedNamesOfChoices, List.flatMap_append]
      exact (forest_ofChoice path zone id choice table).append (forest_ofChoices path zone rest _)

theorem forest_ofChoice (path : Path) (zone id : String) : (choice : SliceChoice) →
    (table : NameTable) →
    Forest (sharedNamesOfChoice id choice)
      ((run (ofChoice path zone id choice) table).1.1.flatMap Ty.references)
      (run (ofChoice path zone id choice) table).1.2
  | .shared, table => by
      rw [run_shared, sharedNamesOfChoice]
      simpa using Declaration.Forest.offer (Naming.sharedSliceName id)
  | .unknown, table => by
      rw [run_unknownChoice, sharedNamesOfChoice]
      exact .helpers (by simp)
  | .slice fieldset description ⟨nonRepeat⟩ ⟨repeated⟩, table => by
      rw [run_slice, sharedNamesOfChoice]
      simpa using forest_variant _ "Slice" .empty ⟨nonRepeat⟩ ⟨repeated⟩ table
        (fun inside known => forest_ofFields inside nonRepeat known)
        (fun inside known => forest_ofFields inside repeated known)

end

end ContentTypes.Synthesis
