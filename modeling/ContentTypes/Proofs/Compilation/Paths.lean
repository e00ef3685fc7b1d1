import ContentTypes.Proofs.Compilation.Names
import ContentTypes.Proofs.Model.Positions

namespace ContentTypes

-- Whether a line of documentation tells an API ID path.
def tellsPath (line : String) : Bool := "API ID Path: ".toList.isPrefixOf line.toList

theorem tellsPath_append (lead text : String) :
    tellsPath (lead ++ text) = "API ID Path: ".toList.isPrefixOf (lead.toList ++ text.toList) := by
  rw [tellsPath, String.toList_append]

def Docs.pathLines (docs : Docs) : List String := docs.lines.filter tellsPath

-- A property by its name, with the paths that its docs tell.
def Property.located (property : Property) : String × List String :=
  (property.name, property.docs.pathLines)

-- The properties of all records.
def Declaration.located (declarations : List Declaration) : List (String × List String) :=
  (declarations.flatMap Declaration.properties).map Property.located

theorem Declaration.located_append (first second : List Declaration) :
    located (first ++ second) = located first ++ located second := by
  rw [located, List.flatMap_append, List.map_append]
  rfl

-- What the property of a field ought to tell.
def Position.located (position : Position) : String × List String :=
  (position.id, ["API ID Path: " ++ position.dotted])

-- Labels, placeholders and catalogs have leads of their own, whatever they say.
theorem Docs.pathLines_ofField (path : Path) (id : String) (field : Field) :
    (Docs.ofField path id field).pathLines = ["API ID Path: " ++ path.apiIdPath id] := by
  have hcaption : ∀ (lead : String) (text? : Option String),
      (∀ text : String, tellsPath (lead ++ text) = false) →
      (text?.map (lead ++ ·)).toList.filter tellsPath = [] := by
    intro lead text? h
    cases text? with
    | none => rfl
    | some text => exact List.filter_cons_of_neg (by simpa using h text)
  have hlabel := hcaption "Label: " field.label? fun text => by rw [tellsPath_append]; rfl
  have hplaceholder := hcaption "Placeholder: " field.placeholder? fun text => by
    rw [tellsPath_append]; rfl
  have hcatalog := hcaption "Catalog: " field.catalog? fun text => by rw [tellsPath_append]; rfl
  have hsentence : tellsPath s!"A field in {path.describe}." = false := by
    rw [String.append_assoc, tellsPath_append]
    rfl
  have hpath : tellsPath ("API ID Path: " ++ path.apiIdPath id) = true := by
    rw [tellsPath_append]
    rfl
  rw [pathLines, ofField, List.filter_append, List.filter_append, List.filter_append, hlabel,
    hplaceholder, hcatalog]
  simp [hsentence, hpath]

namespace Synthesis

open Naming (run)

variable (path : Path) (table : NameTable)

-- A field has the property of its id with the docs of its place, and a UID has none.
theorem located_property (id : String) (field : Field) :
    (run (ofField path id field) table).1.property.toList.map Property.located =
      if field.isUid then [] else [Position.located ⟨path.map Step.apiId, id⟩] := by
  have hdocs : (id, (Docs.ofField path id field).pathLines) =
      Position.located ⟨path.map Step.apiId, id⟩ := by
    rw [Docs.pathLines_ofField]
    rfl
  have hproperty : ∀ ty : Ty, [(⟨id, ty, .ofField path id field⟩ : Property)].map Property.located =
      [Position.located ⟨path.map Step.apiId, id⟩] := by
    intro ty
    rw [← hdocs]
    rfl
  cases field with
  | plain kind caption =>
      rw [run_plain]
      cases kind <;> first | exact hproperty _ | rfl
  | group label fields repeats =>
      obtain ⟨fields⟩ := fields
      rw [run_group]
      exact hproperty _
  | slices fieldset choices =>
      obtain ⟨choices⟩ := choices
      rw [run_slices]
      exact hproperty _
  | _ => exact hproperty _

theorem located_own (fields : List (String × Field)) :
    (run (ofFields path fields) table).1.1.map Property.located =
      (FieldSet.ownPositions (path.map Step.apiId) ⟨fields⟩).map Position.located := by
  induction fields generalizing table with
  | nil => rfl
  | cons entry rest ih =>
      obtain ⟨id, field⟩ := entry
      rw [run_ofFields_cons, List.map_append, located_property, ih]
      by_cases hu : field.isUid <;> simp [FieldSet.ownPositions, FieldSet.contentIds, hu]

theorem located_recordFirst (name : String) (docs : Docs)
    (inner : List Property × List Declaration) :
    Declaration.located (recordFirst name docs inner) =
      inner.1.map Property.located ++ Declaration.located inner.2 := List.map_append

-- The declarations inside these fields tell the positions there, wherever the fields are.
def LocatesInner (fields : List (String × Field)) : Prop :=
  ∀ (inside : Path) (known : NameTable),
    Declaration.located (run (ofFields inside fields) known).1.2 =
      (innerPositions (inside.map Step.apiId) fields).map Position.located

-- The record of a set tells the positions of the set.
theorem located_record {fields : FieldSet} (h : LocatesInner fields.entries) (name : String)
    (docs : Docs) :
    Declaration.located (recordFirst name docs (run (ofFields path fields.entries) table).1) =
      (fields.positions (path.map Step.apiId)).map Position.located := by
  rw [located_recordFirst, located_own, h, FieldSet.positions, List.map_append]

-- A role without fields has no record, and there are no positions in it.
theorem located_role {fields : FieldSet} (h : LocatesInner fields.entries) (role : Role)
    (lead : String) (emptyTy : Ty) :
    Declaration.located (run (ofRole path role lead emptyTy fields) table).1.2 =
      (fields.positions (path.map Step.apiId ++ [(Step.role role).apiId])).map Position.located := by
  obtain ⟨_ | ⟨first, rest⟩⟩ := fields
  · rfl
  · have hinside : (path ++ [Step.role role]).map Step.apiId =
        path.map Step.apiId ++ [(Step.role role).apiId] := List.map_append
    rw [run_ofRole_cons, ← hinside]
    exact located_record _ _ h _ _

theorem located_variant {primary items : FieldSet} (hprimary : LocatesInner primary.entries)
    (hitems : LocatesInner items.entries) (libraryName : String) (docs : Docs) :
    Declaration.located (run (ofVariant path libraryName docs primary items) table).1.2 =
      (primary.positions (path.map Step.apiId ++ ["primary"]) ++
        items.positions (path.map Step.apiId ++ ["items[]"])).map Position.located := by
  have hp := fun known =>
    located_role path known hprimary .primary "Primary content in" emptyRecordTy
  have hi := fun known => located_role path known hitems .items "Item in" .never
  rw [run_ofVariant, Declaration.located_append, Declaration.located_append, hp, hi, List.map_append]
  exact List.append_nil _

mutual

theorem located_ofField (path : Path) (id : String) : (field : Field) → (table : NameTable) →
    Declaration.located (run (ofField path id field) table).1.declarations =
      (field.positions (path.map Step.apiId) id).map Position.located
  | .group label ⟨fields⟩ repeats, table => by
      have hinside : (path ++ [Step.field id (.group label ⟨fields⟩ repeats)]).map Step.apiId =
          path.map Step.apiId ++ [id ++ "[]"] := List.map_append
      rw [run_group, Field.positions_group, ← hinside]
      exact located_record _ _ (located_ofFields fields) _ _
  | .slices fieldset ⟨choices⟩, table => by
      have hinside : (path ++ [Step.field id (.slices fieldset ⟨choices⟩)]).map Step.apiId =
          path.map Step.apiId ++ [id ++ "[]"] := List.map_append
      rw [run_slices, Field.positions, ← hinside, Declaration.located_append, located_ofChoices]
      exact List.append_nil _
  | .plain kind caption, table => by
      rw [run_plain]
      cases kind <;> rfl
  | .image _, _ | .integration _, _ | .link _, _ | .richText _, _ | .select _, _
  | .unknown _ _, _ => rfl

theorem located_ofFields : (fields : List (String × Field)) → LocatesInner fields
  | [], _, _ => rfl
  | (id, field) :: rest, inside, known => by
      rw [run_ofFields_cons, Declaration.located_append, innerPositions, List.map_append,
        located_ofField inside id field known, located_ofFields rest]

theorem located_ofChoices (path : Path) (zone : String) : (choices : List (String × SliceChoice)) →
    (table : NameTable) →
    Declaration.located (run (ofChoices path zone choices) table).1.2 =
      (choicePositions (path.map Step.apiId) choices).map Position.located
  | [], _ => rfl
  | (id, choice) :: rest, table => by
      rw [run_ofChoices_cons, Declaration.located_append, choicePositions, List.map_append,
        located_ofChoice path zone id choice table, located_ofChoices path zone rest]

theorem located_ofChoice (path : Path) (zone id : String) : (choice : SliceChoice) →
    (table : NameTable) →
    Declaration.located (run (ofChoice path zone id choice) table).1.2 =
      (choice.positions (path.map Step.apiId ++ [id])).map Position.located
  | .shared, _ | .unknown, _ => rfl
  | .slice fieldset description ⟨nonRepeat⟩ ⟨repeated⟩, table => by
      have hinside :
          (path ++ [Step.choice id (.slice fieldset description ⟨nonRepeat⟩ ⟨repeated⟩)]).map
            Step.apiId = path.map Step.apiId ++ [id] := List.map_append
      rw [run_slice, SliceChoice.positions_slice, ← hinside]
      exact located_variant _ _ (located_ofFields nonRepeat) (located_ofFields repeated) _ _

end

end Synthesis

namespace Compilation

theorem located_ofCustomType (model : CustomType) :
    Declaration.located (ofCustomType model).value.declarations =
      model.positions.map Position.located := by
  have hcontent : Declaration.located (content model) = model.positions.map Position.located :=
    Synthesis.located_record [.customType model] _ (Synthesis.located_ofFields _) _ _
  rw [ofCustomType_value, Declaration.located_append, hcontent]
  exact List.append_nil _

-- Each property tells one path, and that is where its field is in the model. Without dots in the
-- ids no path is told twice. No map of a model that is read has a key twice.
theorem paths_identify_fields (model : CustomType) :
    Declaration.located (ofCustomType model).value.declarations =
      model.positions.map Position.located ∧
    (model.IsKeyed → (∀ id ∈ model.ids, '.' ∉ id.toList) →
      ((Declaration.located (ofCustomType model).value.declarations).flatMap Prod.snd).Nodup) ∧
    ∀ (σ : Type) [Reading.JsonSource σ] (value : σ), CustomType.read value = .ok model →
      model.IsKeyed := by
  have hlocated := located_ofCustomType model
  refine ⟨hlocated, ?_, ?_⟩
  · intro hkeyed hids
    have hlines : (model.positions.map Position.located).flatMap Prod.snd =
        (model.positions.map Position.dotted).map ("API ID Path: " ++ ·) := by
      simp only [List.flatMap_map, Position.located, List.map_map]
      exact List.map_eq_flatMap.symm
    rw [hlocated, hlines]
    exact (CustomType.nodup_dotted hkeyed hids).map fun _ _ => (String.append_right_inj _).mp
  · intro σ _ value h
    exact CustomType.isKeyed_of_mirrors (CustomType.mirrors_of_read h)

-- One id at every level, and a slice that has it in both of its roles.
def nestedType : CustomType :=
  ⟨"page", none, true, none, ⟨[
    ("Main", ⟨[("uid", .plain .uid .none), ("x", .plain .text .none),
      ("g", .group none ⟨[("x", .plain .text .none),
        ("g", .group none ⟨[("x", .plain .number .none)]⟩ none)]⟩ none)]⟩),
    ("More", ⟨[("body", .slices none ⟨[
      ("hero", .shared),
      ("x", .slice none none ⟨[("x", .plain .date .none)]⟩ ⟨[("x", .plain .text .none)]⟩)]⟩)]⟩)]⟩⟩

def layeredPage : Json :=
  Json.record [("json", .record [("Main", Json.layeredFields)]), ("id", "page")]

theorem paths_identify_fields_nestedType :
    nestedType.IsKeyed ∧ (∀ id ∈ nestedType.ids, '.' ∉ id.toList) ∧
      Declaration.located (ofCustomType nestedType).value.declarations =
        nestedType.positions.map Position.located ∧
      nestedType.positions.map Position.dotted =
        ["page.x", "page.g", "page.body", "page.g[].x", "page.g[].g", "page.g[].g[].x",
          "page.body[].x.primary.x", "page.body[].x.items[].x"] ∧
      ((Declaration.located (ofCustomType nestedType).value.declarations).flatMap Prod.snd).Nodup ∧
      ∃ model, CustomType.read layeredPage = .ok model ∧ model.IsKeyed := by
  have hkeyed : nestedType.IsKeyed := by
    simp [nestedType, CustomType.IsKeyed, FieldsKeyed, ChoicesKeyed, Field.IsKeyed,
      SliceChoice.IsKeyed, OrderedMap.keys, OrderedMap.values]
  have hids : ∀ id ∈ nestedType.ids, '.' ∉ id.toList := by decide +kernel
  have hread : ∃ model, CustomType.read layeredPage = .ok model := ⟨_, rfl⟩
  obtain ⟨hlocated, hnodup, -⟩ := paths_identify_fields nestedType
  obtain ⟨model, hmodel⟩ := hread
  obtain ⟨-, -, hkeys⟩ := paths_identify_fields model
  exact ⟨hkeyed, hids, hlocated, by decide +kernel, hnodup hkeyed hids, model, hmodel,
    hkeys Json layeredPage hmodel⟩

end Compilation

end ContentTypes
