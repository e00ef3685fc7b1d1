import ContentTypes.Proofs.Compilation.Names
import ContentTypes.Proofs.Reports.Accounts

namespace ContentTypes

mutual

-- How many fields and choices are of no known kind, the field itself and all that lies inside it.
def Field.unknowns : Field → Nat
  | .group _ ⟨fields⟩ _ => Field.unknownsOfAll fields
  | .slices _ ⟨choices⟩ => SliceChoice.unknownsOfAll choices
  | .unknown _ _ => 1
  | _ => 0

def Field.unknownsOfAll : List (String × Field) → Nat
  | [] => 0
  | (_, field) :: rest => field.unknowns + Field.unknownsOfAll rest

def SliceChoice.unknownsOfAll : List (String × SliceChoice) → Nat
  | [] => 0
  | (_, choice) :: rest => choice.unknowns + SliceChoice.unknownsOfAll rest

def SliceChoice.unknowns : SliceChoice → Nat
  | .slice _ _ ⟨nonRepeat⟩ ⟨repeated⟩ =>
      Field.unknownsOfAll nonRepeat + Field.unknownsOfAll repeated
  | .shared => 0
  | .unknown => 1

end

-- The fields of a custom type are those that are left when its tabs are put together.
def CustomType.unknowns (model : CustomType) : Nat := Field.unknownsOfAll model.fields.entries

def Variation.unknowns (variation : Variation) : Nat :=
  Field.unknownsOfAll variation.primary.entries + Field.unknownsOfAll variation.items.entries

def SharedSlice.unknowns (model : SharedSlice) : Nat :=
  (model.variations.map Variation.unknowns).sum

-- Claiming names has no size, and nothing is handed over in it.
abbrev Naming.Meets {α : Type} (unknown : Nat) (work : Naming α) : Prop :=
  Accounts (fun _ => 0) unknown 0 work

theorem Naming.meets_claim (name : String) : Meets 0 (claim name) := by
  intro table
  refine .of_debug ?_ 0
  intro event he
  have hevents : (claim name table).events =
      if table.free name = name then [] else [.renamed name (table.free name)] := rfl
  rw [hevents] at he
  split at he
  · cases he
  · rw [List.mem_singleton.mp he]
    rfl

namespace Synthesis

open Naming (Meets meets_claim)

theorem meets_role {fields : FieldSet}
    (ih : ∀ inside, Meets (Field.unknownsOfAll fields.entries) (ofFields inside fields.entries))
    (path : Path) (role : Role) (lead : String) (emptyTy : Ty) :
    Meets (Field.unknownsOfAll fields.entries) (ofRole path role lead emptyTy fields) := by
  obtain ⟨_ | ⟨first, rest⟩⟩ := fields
  · exact .pure _
  · have hname := meets_claim (Naming.declarationName (path ++ [.role role]) [])
    have hinner := ih (path ++ [.role role])
    refine (hname.bind fun _ => hinner.bind fun _ => .pure _).congr ?_ rfl
    omega

theorem meets_variant (primary items : FieldSet)
    (hprimary : ∀ inside,
      Meets (Field.unknownsOfAll primary.entries) (ofFields inside primary.entries))
    (hitems : ∀ inside, Meets (Field.unknownsOfAll items.entries) (ofFields inside items.entries))
    (path : Path) (libraryName : String) (docs : Docs) :
    Meets (Field.unknownsOfAll primary.entries + Field.unknownsOfAll items.entries)
      (ofVariant path libraryName docs primary items) := by
  have hname := meets_claim (Naming.declarationName path [])
  have hcontent := meets_role hprimary path .primary "Primary content in" emptyRecordTy
  have hrepeated := meets_role hitems path .items "Item in" .never
  refine (hname.bind fun _ => hcontent.bind fun _ => hrepeated.bind fun _ => .pure _).congr ?_ rfl
  omega

mutual

theorem meets_ofField (path : Path) (id : String) : (field : Field) →
    Meets field.unknowns (ofField path id field)
  | .group label ⟨fields⟩ repeats => by
      have hname := meets_claim (Naming.declarationName
        (path ++ [.field id (.group label ⟨fields⟩ repeats)]) ["Item"])
      have hinner := meets_ofFields (path ++ [.field id (.group label ⟨fields⟩ repeats)]) fields
      refine (hname.bind fun _ => hinner.bind fun _ => .pure _).congr ?_ rfl
      rw [Field.unknowns, Nat.zero_add, Nat.add_zero]
  | .slices fieldset ⟨choices⟩ => by
      have hname := meets_claim (Naming.declarationName
        (path ++ [.field id (.slices fieldset ⟨choices⟩)]) ["Slice"])
      have hinner := meets_ofChoices (path ++ [.field id (.slices fieldset ⟨choices⟩)]) id choices
      refine (hname.bind fun _ => hinner.bind fun _ => .pure _).congr ?_ rfl
      rw [Field.unknowns, Nat.zero_add, Nat.add_zero]
  | .unknown kind caption => fun _ => ⟨rfl, rfl, rfl⟩
  | .plain _ _ | .image _ | .integration _ | .link _ | .richText _ | .select _ => .pure _

theorem meets_ofFields (path : Path) : (fields : List (String × Field)) →
    Meets (Field.unknownsOfAll fields) (ofFields path fields)
  | [] => .pure _
  | (id, field) :: rest => by
      have hone := meets_ofField path id field
      have hmore := meets_ofFields path rest
      exact hone.bind fun _ => hmore.bind fun _ => .pure _

theorem meets_ofChoices (path : Path) (zone : String) : (choices : List (String × SliceChoice)) →
    Meets (SliceChoice.unknownsOfAll choices) (ofChoices path zone choices)
  | [] => .pure _
  | (id, choice) :: rest => by
      have hone := meets_ofChoice path zone id choice
      have hmore := meets_ofChoices path zone rest
      exact hone.bind fun _ => hmore.bind fun _ => .pure _

theorem meets_ofChoice (path : Path) (zone id : String) : (choice : SliceChoice) →
    Meets choice.unknowns (ofChoice path zone id choice)
  | .shared => .pure _
  | .unknown => fun _ => ⟨rfl, rfl, rfl⟩
  | .slice fieldset description ⟨nonRepeat⟩ ⟨repeated⟩ => by
      have hvariant := meets_variant ⟨nonRepeat⟩ ⟨repeated⟩
        (fun inside => meets_ofFields inside nonRepeat)
        (fun inside => meets_ofFields inside repeated)
        (path ++ [.choice id (.slice fieldset description ⟨nonRepeat⟩ ⟨repeated⟩)]) "Slice" .empty
      exact hvariant.bind fun _ => .pure _

end

end Synthesis

namespace Compilation

open Naming (Meets meets_claim)

theorem meets_customTypeNaming (model : CustomType) :
    Meets model.unknowns (customTypeNaming model) := by
  have hreserve : Meets 0 (reserveSharedOf model.fields) := fun _ => ⟨rfl, rfl, rfl⟩
  have hfields := Synthesis.meets_ofFields [.customType model] model.fields.entries
  have hcontent : ∀ name docs,
      Meets model.unknowns (Synthesis.ofRecord [.customType model] name docs model.fields) :=
    fun _ _ => hfields.bind fun _ => .pure _
  refine Accounts.congr ((meets_claim _).bind fun _ => hreserve.bind fun _ =>
    (meets_claim _).bind fun _ => (hcontent _ _).bind fun _ => .pure _) ?_ rfl
  omega

theorem meets_variationsNaming (model : SharedSlice) : (variations : List Variation) →
    Meets (variations.map Variation.unknowns).sum (variationsNaming model variations)
  | [] => .pure _
  | variation :: rest => by
      have hvariant := Synthesis.meets_variant variation.primary variation.items
        (fun inside => Synthesis.meets_ofFields inside variation.primary.entries)
        (fun inside => Synthesis.meets_ofFields inside variation.items.entries)
      have hmore := meets_variationsNaming model rest
      exact (hvariant _ _ _).bind fun _ => hmore.bind fun _ => .pure _

theorem meets_sharedSliceNaming (model : SharedSlice) :
    Meets model.unknowns (sharedSliceNaming model) := by
  have hvariations : Meets model.unknowns (variationsNaming model model.variations) :=
    meets_variationsNaming model model.variations
  refine Accounts.congr ((meets_claim _).bind fun _ => (meets_claim _).bind fun _ =>
    hvariations.bind fun _ => .pure _) ?_ rfl
  omega

theorem repeatedField_debug (model : String) (ids : List String) :
    ∀ event ∈ (ids.forM fun id => Logged.report (.repeatedField model id)).events,
      event.level = .debug := by
  induction ids with
  | nil =>
      intro event he
      cases he
  | cons id rest ih =>
      intro event he
      rcases List.mem_cons.mp he with rfl | he
      · rfl
      · exact ih event he

theorem accounted_ofCustomType (model : CustomType) :
    Accounted model.unknowns 0 0 0 (ofCustomType model).events := by
  have hrepeated := Accounted.of_debug (repeatedField_debug model.id model.repeatedIds) 0
  have hnaming := meets_customTypeNaming model .empty
  have hcompiled : Accounted 0 0 0 0
      [.compiledCustomType model.id (ofCustomType model).value.declarations.length] :=
    .of_debug (by simp [Event.level]) 0
  have hall := hrepeated.append (hnaming.append hcompiled)
  rwa [Nat.zero_add, Nat.add_zero] at hall

theorem accounted_ofSharedSlice (model : SharedSlice) :
    Accounted model.unknowns 0 0 0 (ofSharedSlice model).events := by
  have hnaming := meets_sharedSliceNaming model .empty
  have hcompiled : Accounted 0 0 0 0
      [.compiledSharedSlice model.id (ofSharedSlice model).value.declarations.length] :=
    .of_debug (by simp [Event.level]) 0
  have hall := hnaming.append hcompiled
  rwa [Nat.add_zero] at hall

end Compilation

end ContentTypes
