import ContentTypes.Proofs.Synthesis.Offers
import ContentTypes.Proofs.Synthesis.Requests

namespace ContentTypes

-- The names that stand bare in a row of types.
def Ty.bareNames (tys : List Ty) : List String :=
  tys.filterMap fun
    | .named name _ => some name
    | _ => none

theorem Ty.mem_bareNames {tys : List Ty} {name : String} :
    name ∈ bareNames tys ↔ ∃ args, .named name args ∈ tys := by
  rw [bareNames, List.mem_filterMap]
  constructor
  · rintro ⟨ty, ht, he⟩
    cases ty <;> cases he
    exact ⟨_, ht⟩
  · rintro ⟨args, hm⟩
    exact ⟨_, hm, rfl⟩

theorem Ty.bareNames_append (first second : List Ty) :
    bareNames (first ++ second) = bareNames first ++ bareNames second :=
  List.filterMap_append

namespace Declaration

-- The declaration is the alias of a union that has the name among its members.
def Unites (declaration : Declaration) (name : String) : Prop :=
  ∃ members args, declaration.aliased? = some (.union members) ∧ .named name args ∈ members

theorem unites_ofAlias_unionOrNever {name other : String} {docs : Docs} {members : List Ty} :
    ((ofAlias other (.unionOrNever members)).withDocs docs).Unites name ↔
      name ∈ Ty.bareNames members := by
  rw [Ty.mem_bareNames]
  cases members with
  | nil =>
      constructor
      · rintro ⟨members, args, he, -⟩
        cases he
      · rintro ⟨args, hm⟩
        cases hm
  | cons first rest =>
      constructor
      · rintro ⟨members, args, he, hm⟩
        cases he
        exact ⟨args, hm⟩
      · rintro ⟨args, hm⟩
        exact ⟨_, args, rfl, hm⟩

-- `heads` are the names that wait for a union further out. Apart from what is declared, they and
-- the members of all unions are the names of the shared slices that are offered.
def Covers (shared heads : List String) (declarations : List Declaration) : Prop :=
  ∀ name, name ∉ declarations.map Declaration.name →
    ((name ∈ heads ∨ ∃ declaration ∈ declarations, declaration.Unites name) ↔ name ∈ shared)

namespace Covers

variable {shared heads more names : List String} {declarations others all : List Declaration}
variable {one : Declaration}

theorem nothing : Covers [] [] [] := by
  intro name _
  simp

theorem offer (name : String) : Covers [name] [name] [] := by
  intro other _
  simp

theorem append (hfirst : Covers shared heads declarations) (hsecond : Covers names more others) :
    Covers (shared ++ names) (heads ++ more) (declarations ++ others) := by
  intro name hn
  rw [List.map_append, List.mem_append, not_or] at hn
  have hf := hfirst name hn.1
  have hs := hsecond name hn.2
  simp only [List.mem_append, or_and_right, exists_or]
  rw [or_or_or_comm, hf, hs]

-- One more declaration, wherever it stands, turns heads into members or is a head itself.
theorem insert (h : Covers shared heads declarations) (hp : all.Perm (one :: declarations))
    (hone : ∀ name, name ≠ one.name → ((name ∈ more ∨ one.Unites name) ↔ name ∈ heads)) :
    Covers shared more all := by
  intro name hn
  rw [(hp.map Declaration.name).mem_iff, List.map_cons, List.mem_cons, not_or] at hn
  rw [← h name hn.2, ← hone name hn.1]
  simp only [hp.mem_iff, List.mem_cons, or_and_right, exists_or, exists_eq_left, or_assoc]

theorem record (h : Covers shared [] declarations) (name : String) (docs : Docs)
    (properties : List Property) :
    Covers shared [] ((Declaration.ofRecord name properties).withDocs docs :: declarations) := by
  refine h.insert (List.Perm.refl _) fun other _ => ?_
  have hu : ¬ ((Declaration.ofRecord name properties).withDocs docs).Unites other := by
    rintro ⟨members, args, he, -⟩
    cases he
  simp [hu]

end Covers

end Declaration

namespace Synthesis

open Naming (run)
open Declaration (Covers)

theorem covers_role {fields : FieldSet}
    (ih : ∀ inside known, Covers (sharedNamesOfFields fields.entries) []
      (run (ofFields inside fields.entries) known).1.2)
    (path : Path) (role : Role) (lead : String) (emptyTy : Ty) (table : NameTable) :
    Covers (sharedNamesOfFields fields.entries) []
      (run (ofRole path role lead emptyTy fields) table).1.2 := by
  obtain ⟨_ | ⟨first, rest⟩⟩ := fields
  · exact .nothing
  · rw [run_ofRole_cons]
    exact (ih _ _).record _ _ _

-- The alias of a variant is no union. Its name waits for the zone around it.
theorem covers_variant (primary items : FieldSet)
    (hprimary : ∀ inside known, Covers (sharedNamesOfFields primary.entries) []
      (run (ofFields inside primary.entries) known).1.2)
    (hitems : ∀ inside known, Covers (sharedNamesOfFields items.entries) []
      (run (ofFields inside items.entries) known).1.2)
    (path : Path) (libraryName : String) (docs : Docs) (table : NameTable) :
    Covers (sharedNamesOfFields primary.entries ++ sharedNamesOfFields items.entries)
      [(run (ofVariant path libraryName docs primary items) table).1.1]
      (run (ofVariant path libraryName docs primary items) table).1.2 := by
  rw [run_ofVariant]
  have hp := covers_role hprimary path .primary "Primary content in" emptyRecordTy
  have hi := covers_role hitems path .items "Item in" .never
  refine ((hp _).append (hi _)).insert List.perm_append_comm fun other hne => ?_
  have hu : ∀ name content repeated,
      ¬ (variantAlias path libraryName docs name content repeated).Unites other := by
    rintro name content repeated ⟨members, args, he, -⟩
    cases he
  have hname : other ≠ table.free (Naming.declarationName path []) := hne
  simp [hu, hname]

mutual

theorem covers_ofField (path : Path) (id : String) : (field : Field) → (table : NameTable) →
    Covers (sharedNames field) [] (run (ofField path id field) table).1.declarations
  | .group label ⟨fields⟩ repeats, table => by
      rw [run_group, sharedNames]
      exact (covers_ofFields _ fields _).record _ _ _
  | .slices fieldset ⟨choices⟩, table => by
      rw [run_slices, sharedNames]
      refine (covers_ofChoices _ id choices _).insert List.perm_append_comm fun other _ => ?_
      rw [zoneAlias, Declaration.unites_ofAlias_unionOrNever]
      simp
  | .plain kind caption, table => by
      cases kind <;> exact .nothing
  | .image _, _ | .integration _, _ | .link _, _ | .richText _, _ | .select _, _
  | .unknown _ _, _ => .nothing

theorem covers_ofFields (path : Path) : (fields : List (String × Field)) → (table : NameTable) →
    Covers (sharedNamesOfFields fields) [] (run (ofFields path fields) table).1.2
  | [], table => .nothing
  | (id, field) :: rest, table => by
      rw [run_ofFields_cons, sharedNamesOfFields]
      exact (covers_ofField path id field table).append (covers_ofFields path rest _)

theorem covers_ofChoices (path : Path) (zone : String) :
    (choices : List (String × SliceChoice)) → (table : NameTable) →
    Covers (sharedNamesOfChoices choices)
      (Ty.bareNames (run (ofChoices path zone choices) table).1.1)
      (run (ofChoices path zone choices) table).1.2
  | [], table => .nothing
  | (id, choice) :: rest, table => by
      rw [run_ofChoices_cons, sharedNamesOfChoices, Ty.bareNames_append]
      exact (covers_ofChoice path zone id choice table).append (covers_ofChoices path zone rest _)

theorem covers_ofChoice (path : Path) (zone id : String) : (choice : SliceChoice) →
    (table : NameTable) →
    Covers (sharedNamesOfChoice id choice)
      (Ty.bareNames (run (ofChoice path zone id choice) table).1.1)
      (run (ofChoice path zone id choice) table).1.2
  | .shared, table => .offer (Naming.sharedSliceName id)
  | .unknown, table => .nothing
  | .slice fieldset description ⟨nonRepeat⟩ ⟨repeated⟩, table => by
      rw [run_slice, sharedNamesOfChoice]
      exact covers_variant ⟨nonRepeat⟩ ⟨repeated⟩ (covers_ofFields · nonRepeat)
        (covers_ofFields · repeated) _ "Slice" .empty table

end

-- What is reserved for a field is what its unions refer to without declaring it, however deep they
-- are. No reserved name is declared, because the table had it when the declarations got theirs.
theorem reserved_iff_undeclared_member (path : Path) (id : String) (field : Field)
    (name : String) :
    name ∈ (reserveShared field .empty).taken ↔
      (∃ declaration ∈ (ofFieldAlone path id field).value.declarations,
        declaration.Unites name) ∧
      name ∉ (ofFieldAlone path id field).value.declarations.map Declaration.name := by
  have htaken : name ∈ (reserveShared field .empty).taken ↔ name ∈ sharedNames field := by
    rw [mem_reserveShared]
    simp [NameTable.empty]
  have hcovers := covers_ofField path id field (reserveShared field .empty) name
  have hclaimed := claimed_ofField path id field (reserveShared field .empty)
  rw [ofFieldAlone_value]
  constructor
  · intro hm
    have hn : name ∉ (run (ofField path id field)
        (reserveShared field .empty)).1.declarations.map Declaration.name :=
      fun hd => hclaimed.names_notMem hd hm
    exact ⟨((hcovers hn).mpr (htaken.mp hm)).resolve_left List.not_mem_nil, hn⟩
  · rintro ⟨hu, hn⟩
    exact htaken.mpr ((hcovers hn).mp (Or.inr hu))

end Synthesis

end ContentTypes
