import ContentTypes.Proofs.Synthesis.Run

namespace ContentTypes.Synthesis

open Naming (run declarationName)

-- What a field set asks for in one role of a slice. A set without fields asks for nothing.
def roleRequests (path : Path) (role : Role) (fields : FieldSet) (inner : List String) :
    List String :=
  if fields.isEmpty then [] else declarationName (path ++ [.role role]) [] :: inner

-- What the variant of a slice asks for, by what its two field sets ask for.
def variantRequests (path : Path) (primary items : FieldSet) (content repeated : List String) :
    List String :=
  declarationName path [] ::
    (roleRequests path .primary primary content ++ roleRequests path .items items repeated)

mutual

-- The canonical names that a field asks for, in the order in which it asks.
def requests (path : Path) (id : String) : Field → List String
  | .group label ⟨fields⟩ repeats =>
      let inside := path ++ [.field id (.group label ⟨fields⟩ repeats)]
      declarationName inside ["Item"] :: requestsOfFields inside fields
  | .slices fieldset ⟨choices⟩ =>
      let inside := path ++ [.field id (.slices fieldset ⟨choices⟩)]
      declarationName inside ["Slice"] :: requestsOfChoices inside choices
  | _ => []

def requestsOfFields (path : Path) : List (String × Field) → List String
  | [] => []
  | (id, field) :: rest => requests path id field ++ requestsOfFields path rest

def requestsOfChoices (path : Path) : List (String × SliceChoice) → List String
  | [] => []
  | (id, choice) :: rest => requestsOfChoice path id choice ++ requestsOfChoices path rest

def requestsOfChoice (path : Path) (id : String) : SliceChoice → List String
  | .slice fieldset description ⟨nonRepeat⟩ ⟨repeated⟩ =>
      let inside := path ++ [.choice id (.slice fieldset description ⟨nonRepeat⟩ ⟨repeated⟩)]
      variantRequests inside ⟨nonRepeat⟩ ⟨repeated⟩
        (requestsOfFields (inside ++ [.role .primary]) nonRepeat)
        (requestsOfFields (inside ++ [.role .items]) repeated)
  | _ => []

end

-- What holds of the names that groups, zones, choices and roles ask for, and at a path once it
-- holds further in.
structure Hereditary (holds : Path → String → Prop) : Prop where
  item (path : Path) : holds path (declarationName path ["Item"])
  zone (path : Path) : holds path (declarationName path ["Slice"])
  choice (path : Path) (id : String) (choice : SliceChoice) :
    let inside := path ++ [.choice id choice]
    holds inside (declarationName inside [])
  role (path : Path) (role : Role) :
    let inside := path ++ [.role role]
    holds inside (declarationName inside [])
  outward {path : Path} {step : Step} {name : String} (h : holds (path ++ [step]) name) :
    holds path name

namespace Hereditary

variable {holds : Path → String → Prop}

theorem of_role (h : Hereditary holds) {path : Path} {role : Role} {fields : FieldSet}
    {inner : List String} (hi : ∀ name ∈ inner, holds (path ++ [.role role]) name) :
    ∀ name ∈ roleRequests path role fields inner, holds path name := by
  intro name hn
  unfold roleRequests at hn
  split at hn
  · cases hn
  · rcases List.mem_cons.mp hn with rfl | hn
    · exact h.outward (h.role path role)
    · exact h.outward (hi name hn)

theorem of_variant (h : Hereditary holds) {path : Path} {primary items : FieldSet}
    {content repeated : List String} (hself : holds path (declarationName path []))
    (hp : ∀ name ∈ content, holds (path ++ [.role .primary]) name)
    (hi : ∀ name ∈ repeated, holds (path ++ [.role .items]) name) :
    ∀ name ∈ variantRequests path primary items content repeated, holds path name := by
  intro name hn
  rcases List.mem_cons.mp hn with rfl | hn
  · exact hself
  · rcases List.mem_append.mp hn with hn | hn
    · exact h.of_role hp name hn
    · exact h.of_role hi name hn

mutual

theorem of_field (h : Hereditary holds) (path : Path) (id : String) : (field : Field) →
    ∀ name ∈ requests path id field, holds path name
  | .group label ⟨fields⟩ repeats => by
      intro name hn
      rcases List.mem_cons.mp hn with rfl | hn
      · exact h.outward (h.item _)
      · exact h.outward (h.of_fields _ fields name hn)
  | .slices fieldset ⟨choices⟩ => by
      intro name hn
      rcases List.mem_cons.mp hn with rfl | hn
      · exact h.outward (h.zone _)
      · exact h.outward (h.of_choices _ choices name hn)
  | .plain _ _ | .image _ | .integration _ | .link _ | .richText _ | .select _ | .unknown _ _ => by
      intro name hn
      cases hn

theorem of_fields (h : Hereditary holds) (path : Path) : (fields : List (String × Field)) →
    ∀ name ∈ requestsOfFields path fields, holds path name
  | [] => by
      intro name hn
      cases hn
  | (id, field) :: rest => by
      intro name hn
      rcases List.mem_append.mp hn with hn | hn
      · exact h.of_field path id field name hn
      · exact h.of_fields path rest name hn

theorem of_choices (h : Hereditary holds) (path : Path) :
    (choices : List (String × SliceChoice)) →
    ∀ name ∈ requestsOfChoices path choices, holds path name
  | [] => by
      intro name hn
      cases hn
  | (id, choice) :: rest => by
      intro name hn
      rcases List.mem_append.mp hn with hn | hn
      · exact h.of_choice path id choice name hn
      · exact h.of_choices path rest name hn

theorem of_choice (h : Hereditary holds) (path : Path) (id : String) : (choice : SliceChoice) →
    ∀ name ∈ requestsOfChoice path id choice, holds path name
  | .shared | .unknown => by
      intro name hn
      cases hn
  | .slice fieldset description ⟨nonRepeat⟩ ⟨repeated⟩ => by
      intro name hn
      exact h.outward (h.of_variant (h.choice path id _) (h.of_fields _ nonRepeat)
        (h.of_fields _ repeated) name hn)

end

end Hereditary

-- The name of something at a path or further in.
def Under (path : Path) (name : String) : Prop :=
  ∃ more suffix, name = declarationName (path ++ more) suffix

theorem Under.of_append {path more : Path} {name : String} (h : Under (path ++ more) name) :
    Under path name := by
  obtain ⟨rest, suffix, rfl⟩ := h
  exact ⟨more ++ rest, suffix, by rw [List.append_assoc]⟩

theorem under_self (path : Path) (suffix : List String) :
    Under path (declarationName path suffix) :=
  ⟨[], suffix, by rw [List.append_nil]⟩

theorem hereditary_under : Hereditary Under where
  item path := under_self path ["Item"]
  zone path := under_self path ["Slice"]
  choice _ _ _ := under_self _ []
  role _ _ := under_self _ []
  outward h := h.of_append

-- Some work took the table `before` to the table `after`, asked for these names and declared
-- what it was granted for them.
structure Claimed (before after : NameTable) (requests : List String)
    (declarations : List Declaration) : Prop where
  table : after = before.taking (before.grants requests)
  names : (declarations.map Declaration.name).Perm (before.grants requests)

namespace Claimed

variable {before between after : NameTable} {first second : List String}
variable {declared others : List Declaration}

theorem nil (table : NameTable) : Claimed table table [] [] := ⟨rfl, List.Perm.nil⟩

theorem one (table : NameTable) (request : String) {declaration : Declaration}
    (hname : declaration.name = table.free request) :
    Claimed table (table.taking [table.free request]) [request] [declaration] :=
  ⟨rfl, by simp [NameTable.grants, hname]⟩

theorem append (hfirst : Claimed before between first declared)
    (hsecond : Claimed between after second others) :
    Claimed before after (first ++ second) (declared ++ others) := by
  obtain ⟨rfl, hfirst⟩ := hfirst
  refine ⟨?_, ?_⟩
  · rw [hsecond.table, NameTable.grants_append, NameTable.taking_append]
  · rw [List.map_append, NameTable.grants_append]
    exact hfirst.append hsecond.names

theorem perm (h : Claimed before after first declared) (hp : others.Perm declared) :
    Claimed before after first others :=
  ⟨h.table, (hp.map Declaration.name).trans h.names⟩

theorem names_nodup (h : Claimed before after first declared) :
    (declared.map Declaration.name).Nodup :=
  h.names.nodup_iff.mpr (NameTable.grants_nodup before first)

theorem mem_names (h : Claimed before after first declared) (name : String) :
    name ∈ declared.map Declaration.name ↔ name ∈ before.grants first :=
  h.names.mem_iff

theorem names_notMem (h : Claimed before after first declared) {name : String}
    (hn : name ∈ declared.map Declaration.name) : name ∉ before.taken :=
  NameTable.grants_notMem before first ((h.mem_names name).mp hn)

-- A name that was taken before can go with them.
theorem nodup_concat (h : Claimed before after first declared) {name : String}
    (hn : name ∈ before.taken) : (declared.map Declaration.name ++ [name]).Nodup := by
  refine List.nodup_append.mpr ⟨h.names_nodup, by simp, ?_⟩
  rintro other ho _ hs rfl
  rw [List.mem_singleton.mp hs] at ho
  exact h.names_notMem ho hn

end Claimed

theorem claimed_role (path : Path) (role : Role) (lead : String) (emptyTy : Ty) (fields : FieldSet)
    (table : NameTable)
    (ih : ∀ inside known, Claimed known (run (ofFields inside fields.entries) known).2
      (requestsOfFields inside fields.entries) (run (ofFields inside fields.entries) known).1.2) :
    Claimed table (run (ofRole path role lead emptyTy fields) table).2
      (roleRequests path role fields
        (requestsOfFields (path ++ [.role role]) fields.entries))
      (run (ofRole path role lead emptyTy fields) table).1.2 := by
  obtain ⟨_ | ⟨first, rest⟩⟩ := fields
  · rw [run_ofRole_empty]
    exact .nil table
  · rw [run_ofRole_cons]
    exact (Claimed.one table _ rfl).append (ih _ _)

theorem claimed_variant (path : Path) (libraryName : String) (docs : Docs)
    (primary items : FieldSet) (table : NameTable)
    (hprimary : ∀ inside known, Claimed known (run (ofFields inside primary.entries) known).2
      (requestsOfFields inside primary.entries) (run (ofFields inside primary.entries) known).1.2)
    (hitems : ∀ inside known, Claimed known (run (ofFields inside items.entries) known).2
      (requestsOfFields inside items.entries) (run (ofFields inside items.entries) known).1.2) :
    Claimed table (run (ofVariant path libraryName docs primary items) table).2
      (variantRequests path primary items
        (requestsOfFields (path ++ [.role .primary]) primary.entries)
        (requestsOfFields (path ++ [.role .items]) items.entries))
      (run (ofVariant path libraryName docs primary items) table).1.2 := by
  rw [run_ofVariant]
  have hp := claimed_role path .primary "Primary content in" emptyRecordTy primary
    (table.taking [table.free (declarationName path [])]) hprimary
  have hroles := hp.append (claimed_role path .items "Item in" .never items _ hitems)
  exact ((Claimed.one table _ rfl).append hroles).perm List.perm_append_comm

mutual

-- The declarations of a group start with its own record, those of a zone end with its own alias.
theorem claimed_ofField (path : Path) (id : String) : (field : Field) → (table : NameTable) →
    Claimed table (run (ofField path id field) table).2 (requests path id field)
      (run (ofField path id field) table).1.declarations
  | .group label ⟨fields⟩ repeats, table => by
      rw [run_group]
      exact (Claimed.one table _ rfl).append (claimed_ofFields _ fields _)
  | .slices fieldset ⟨choices⟩, table => by
      rw [run_slices]
      exact ((Claimed.one table _ rfl).append (claimed_ofChoices _ id choices _)).perm
        List.perm_append_comm
  | .plain kind caption, table => by
      cases kind <;> exact .nil table
  | .image _, table | .integration _, table | .link _, table | .richText _, table
  | .select _, table | .unknown _ _, table => .nil table

theorem claimed_ofFields (path : Path) : (fields : List (String × Field)) → (table : NameTable) →
    Claimed table (run (ofFields path fields) table).2 (requestsOfFields path fields)
      (run (ofFields path fields) table).1.2
  | [], table => by
      rw [run_ofFields_nil]
      exact .nil table
  | (id, field) :: rest, table => by
      rw [run_ofFields_cons]
      exact (claimed_ofField path id field table).append (claimed_ofFields path rest _)

theorem claimed_ofChoices (path : Path) (zone : String) :
    (choices : List (String × SliceChoice)) → (table : NameTable) →
    Claimed table (run (ofChoices path zone choices) table).2 (requestsOfChoices path choices)
      (run (ofChoices path zone choices) table).1.2
  | [], table => by
      rw [run_ofChoices_nil]
      exact .nil table
  | (id, choice) :: rest, table => by
      rw [run_ofChoices_cons]
      exact (claimed_ofChoice path zone id choice table).append (claimed_ofChoices path zone rest _)

theorem claimed_ofChoice (path : Path) (zone id : String) : (choice : SliceChoice) →
    (table : NameTable) →
    Claimed table (run (ofChoice path zone id choice) table).2 (requestsOfChoice path id choice)
      (run (ofChoice path zone id choice) table).1.2
  | .shared, table => by
      rw [run_shared]
      exact .nil table
  | .unknown, table => by
      rw [run_unknownChoice]
      exact .nil table
  | .slice fieldset description ⟨nonRepeat⟩ ⟨repeated⟩, table => by
      rw [run_slice]
      exact claimed_variant _ "Slice" .empty ⟨nonRepeat⟩ ⟨repeated⟩ table
        (fun inside known => claimed_ofFields inside nonRepeat known)
        (fun inside known => claimed_ofFields inside repeated known)

end

end ContentTypes.Synthesis
