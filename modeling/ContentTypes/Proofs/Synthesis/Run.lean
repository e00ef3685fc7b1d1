import ContentTypes.Compilation
import ContentTypes.Proofs.Naming.Grants

namespace ContentTypes.Synthesis

open Naming (run)

variable (path : Path) (id : String) (table : NameTable)

theorem run_plain (kind : PlainKind) (caption : Caption) :
    run (ofField path id (.plain kind caption)) table =
      (match libraryName? kind with
        | none => ⟨none, []⟩
        | some name => scalar path id (.plain kind caption) (.library name []), table) := rfl

theorem run_group (label : Option String) (fields : List (String × Field))
    (repeats : Option Bool) :
    run (ofField path id (.group label ⟨fields⟩ repeats)) table =
      let inside := path ++ [.field id (.group label ⟨fields⟩ repeats)]
      let name := table.free (Naming.declarationName inside ["Item"])
      let inner := run (ofFields inside fields) (table.taking [name])
      (⟨some ⟨id, .library "GroupField" [.simplified name],
          .ofField path id (.group label ⟨fields⟩ repeats)⟩,
        recordFirst name (.ofPosition "Item in" inside) inner.1⟩, inner.2) := rfl

-- The alias of a zone under the name that it was given.
def zoneAlias (inside : Path) (name : String) (members : List Ty) : Declaration :=
  (Declaration.ofAlias name (.unionOrNever members)).withDocs (.ofPosition "Slice for" inside)

theorem run_slices (fieldset : Option String) (choices : List (String × SliceChoice)) :
    run (ofField path id (.slices fieldset ⟨choices⟩)) table =
      let inside := path ++ [.field id (.slices fieldset ⟨choices⟩)]
      let name := table.free (Naming.declarationName inside ["Slice"])
      let inner := run (ofChoices inside id choices) (table.taking [name])
      (⟨some ⟨id, .library "SliceZone" [.named name []],
          .ofField path id (.slices fieldset ⟨choices⟩)⟩,
        inner.1.2 ++ [zoneAlias inside name inner.1.1]⟩, inner.2) := rfl

theorem run_ofFields_nil : run (ofFields path []) table = (([], []), table) := rfl

theorem run_ofFields_cons (field : Field) (rest : List (String × Field)) :
    run (ofFields path ((id, field) :: rest)) table =
      let one := run (ofField path id field) table
      let more := run (ofFields path rest) one.2
      ((one.1.property.toList ++ more.1.1, one.1.declarations ++ more.1.2), more.2) := rfl

theorem run_ofFields_singleton (field : Field) :
    run (ofFields path [(id, field)]) table =
      let one := run (ofField path id field) table
      ((one.1.property.toList, one.1.declarations), one.2) := by
  rw [run_ofFields_cons]
  simp only [run_ofFields_nil, List.append_nil]

-- Fields that come later start from the table that the earlier ones leave.
theorem run_ofFields_append (first second : List (String × Field)) :
    run (ofFields path (first ++ second)) table =
      let one := run (ofFields path first) table
      let more := run (ofFields path second) one.2
      ((one.1.1 ++ more.1.1, one.1.2 ++ more.1.2), more.2) := by
  induction first generalizing table with
  | nil => rfl
  | cons entry rest ih =>
      obtain ⟨id, field⟩ := entry
      rw [List.cons_append, run_ofFields_cons, run_ofFields_cons]
      simp only [ih, List.append_assoc]

theorem run_ofChoices_nil (zone : String) :
    run (ofChoices path zone []) table = (([], []), table) := rfl

theorem run_ofChoices_cons (zone : String) (choice : SliceChoice)
    (rest : List (String × SliceChoice)) :
    run (ofChoices path zone ((id, choice) :: rest)) table =
      let one := run (ofChoice path zone id choice) table
      let more := run (ofChoices path zone rest) one.2
      ((one.1.1 ++ more.1.1, one.1.2 ++ more.1.2), more.2) := rfl

theorem run_shared (zone : String) :
    run (ofChoice path zone id .shared) table =
      (([.named (Naming.sharedSliceName id) []], []), table) := rfl

-- A local slice is a variant that its own choice leads to.
theorem run_slice (zone : String) (fieldset description : Option String)
    (nonRepeat repeated : List (String × Field)) :
    run (ofChoice path zone id (.slice fieldset description ⟨nonRepeat⟩ ⟨repeated⟩)) table =
      let inside := path ++ [.choice id (.slice fieldset description ⟨nonRepeat⟩ ⟨repeated⟩)]
      let one := run (ofVariant inside "Slice" .empty ⟨nonRepeat⟩ ⟨repeated⟩) table
      (([.named one.1.1 []], one.1.2), one.2) := rfl

theorem run_unknownChoice (zone : String) :
    run (ofChoice path zone id .unknown) table = (([], []), table) := rfl

-- The field set of one role of a slice.
abbrev ofRole (role : Role) (lead : String) (emptyTy : Ty) (fields : FieldSet) :
    Naming (Ty × List Declaration) :=
  roleTy path role lead emptyTy
    (if fields.isEmpty then none else some fun path => ofFields path fields.entries)

theorem run_ofRole_empty (role : Role) (lead : String) (emptyTy : Ty) :
    run (ofRole path role lead emptyTy ⟨[]⟩) table = ((emptyTy, []), table) := rfl

theorem run_ofRole_cons (role : Role) (lead : String) (emptyTy : Ty) (first : String × Field)
    (rest : List (String × Field)) :
    run (ofRole path role lead emptyTy ⟨first :: rest⟩) table =
      let inside := path ++ [.role role]
      let name := table.free (Naming.declarationName inside [])
      let inner := run (ofFields inside (first :: rest)) (table.taking [name])
      ((.simplified name, recordFirst name (.ofPosition lead path) inner.1), inner.2) := rfl

-- The alias of a variant under the name that it was given.
def variantAlias (libraryName : String) (docs : Docs) (name : String) (primary items : Ty) :
    Declaration :=
  (Declaration.ofAlias name (.library libraryName
    [.literal ((path.getLast?.map Step.id).getD ""), primary, items])).withDocs docs

theorem run_ofVariant (libraryName : String) (docs : Docs) (primary items : FieldSet) :
    run (ofVariant path libraryName docs primary items) table =
      let name := table.free (Naming.declarationName path [])
      let content := run (ofRole path .primary "Primary content in" emptyRecordTy primary)
        (table.taking [name])
      let repeated := run (ofRole path .items "Item in" .never items) content.2
      ((name, content.1.2 ++ repeated.1.2 ++
        [variantAlias path libraryName docs name content.1.1 repeated.1.1]), repeated.2) := rfl

theorem ofFieldAlone_value (field : Field) :
    (ofFieldAlone path id field).value =
      (run (ofField path id field) (reserveShared field .empty)).1 := rfl

end ContentTypes.Synthesis
