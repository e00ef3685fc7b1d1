import ContentTypes.Proofs.Naming.Wider
import ContentTypes.Proofs.Synthesis.Requests

namespace ContentTypes.Synthesis

open Naming (run declarationName)

variable {table other : NameTable}

-- These fields are synthesized the same from tables that grant them the same names.
def Stable (fields : List (String × Field)) : Prop :=
  ∀ (path : Path) (table other : NameTable),
    other.grants (requestsOfFields path fields) = table.grants (requestsOfFields path fields) →
      (run (ofFields path fields) other).1 = (run (ofFields path fields) table).1

theorem stable_role (path : Path) (role : Role) (lead : String) (emptyTy : Ty) {fields : FieldSet}
    (ih : Stable fields.entries)
    (h : other.grants (roleRequests path role fields
        (requestsOfFields (path ++ [.role role]) fields.entries)) =
      table.grants (roleRequests path role fields
        (requestsOfFields (path ++ [.role role]) fields.entries))) :
    (run (ofRole path role lead emptyTy fields) other).1 =
      (run (ofRole path role lead emptyTy fields) table).1 := by
  obtain ⟨_ | ⟨first, rest⟩⟩ := fields
  · rfl
  · obtain ⟨hname, hinner⟩ := List.cons.inj h
    rw [hname] at hinner
    have hfields := ih _ _ _ hinner
    rw [run_ofRole_cons, run_ofRole_cons]
    simp only [hname, hfields]

-- The second role starts from the table that the first one leaves.
theorem stable_variant (path : Path) (libraryName : String) (docs : Docs)
    (primary items : FieldSet) (hprimary : Stable primary.entries) (hitems : Stable items.entries)
    (h : other.grants (variantRequests path primary items
        (requestsOfFields (path ++ [.role .primary]) primary.entries)
        (requestsOfFields (path ++ [.role .items]) items.entries)) =
      table.grants (variantRequests path primary items
        (requestsOfFields (path ++ [.role .primary]) primary.entries)
        (requestsOfFields (path ++ [.role .items]) items.entries))) :
    (run (ofVariant path libraryName docs primary items) other).1 =
      (run (ofVariant path libraryName docs primary items) table).1 := by
  obtain ⟨hname, hroles⟩ := List.cons.inj h
  obtain ⟨hfirst, hsecond⟩ := NameTable.grants_append_inj hroles
  have hcontent := stable_role path .primary "Primary content in" emptyRecordTy hprimary hfirst
  have hclaimed := fun known => claimed_role path .primary "Primary content in" emptyRecordTy
    primary known fun inside known => claimed_ofFields inside _ known
  have hrepeated := stable_role path .items "Item in" .never hitems hsecond
  rw [← (hclaimed _).table, ← (hclaimed _).table] at hrepeated
  rw [run_ofVariant, run_ofVariant]
  simp only [hname] at hcontent hrepeated ⊢
  simp only [hcontent, hrepeated]

mutual

theorem stable_ofField (path : Path) (id : String) : (field : Field) → (table other : NameTable) →
    other.grants (requests path id field) = table.grants (requests path id field) →
    (run (ofField path id field) other).1 = (run (ofField path id field) table).1
  | .group label ⟨fields⟩ repeats, table, other, h => by
      obtain ⟨hname, hinner⟩ := List.cons.inj h
      rw [hname] at hinner
      have hfields := stable_ofFields fields _ _ _ hinner
      rw [run_group, run_group]
      simp only [hname, hfields]
  | .slices fieldset ⟨choices⟩, table, other, h => by
      obtain ⟨hname, hinner⟩ := List.cons.inj h
      rw [hname] at hinner
      have hchoices := stable_ofChoices _ id choices _ _ hinner
      rw [run_slices, run_slices]
      simp only [hname, hchoices]
  | .plain _ _, _, _, _ | .image _, _, _, _ | .integration _, _, _, _ | .link _, _, _, _
  | .richText _, _, _, _ | .select _, _, _, _ | .unknown _ _, _, _, _ => rfl

theorem stable_ofFields : (fields : List (String × Field)) → Stable fields
  | [], _, _, _, _ => rfl
  | (id, field) :: rest, path, table, other, h => by
      obtain ⟨hfirst, hrest⟩ := NameTable.grants_append_inj h
      have hone := stable_ofField path id field table other hfirst
      have hclaimed := fun known => claimed_ofField path id field known
      rw [← (hclaimed _).table, ← (hclaimed _).table] at hrest
      rw [run_ofFields_cons, run_ofFields_cons]
      simp only [hone, stable_ofFields rest path _ _ hrest]

theorem stable_ofChoices (path : Path) (zone : String) : (choices : List (String × SliceChoice)) →
    (table other : NameTable) →
    other.grants (requestsOfChoices path choices) = table.grants (requestsOfChoices path choices) →
    (run (ofChoices path zone choices) other).1 = (run (ofChoices path zone choices) table).1
  | [], _, _, _ => rfl
  | (id, choice) :: rest, table, other, h => by
      obtain ⟨hfirst, hrest⟩ := NameTable.grants_append_inj h
      have hone := stable_ofChoice path zone id choice table other hfirst
      have hclaimed := fun known => claimed_ofChoice path zone id choice known
      rw [← (hclaimed _).table, ← (hclaimed _).table] at hrest
      rw [run_ofChoices_cons, run_ofChoices_cons]
      simp only [hone, stable_ofChoices path zone rest _ _ hrest]

theorem stable_ofChoice (path : Path) (zone id : String) : (choice : SliceChoice) →
    (table other : NameTable) →
    other.grants (requestsOfChoice path id choice) =
      table.grants (requestsOfChoice path id choice) →
    (run (ofChoice path zone id choice) other).1 = (run (ofChoice path zone id choice) table).1
  | .shared, _, _, _ | .unknown, _, _, _ => rfl
  | .slice fieldset description ⟨nonRepeat⟩ ⟨repeated⟩, table, other, h => by
      have hvariant := stable_variant _ "Slice" .empty ⟨nonRepeat⟩ ⟨repeated⟩
        (stable_ofFields nonRepeat) (stable_ofFields repeated) h
      rw [run_slice, run_slice]
      simp only [hvariant]

end

end ContentTypes.Synthesis
