import ContentTypes.Proofs.Model.FieldSets
import ContentTypes.Proofs.Synthesis.Ids

namespace ContentTypes

-- A field, by the ids that lead to it from the outermost one. The id of a group or of a zone is
-- marked as repeated, and a slice puts the role of the field behind its own id.
@[ext] structure Position where
  -- What leads to the field set that the field is in.
  outer : List String
  id : String
  deriving DecidableEq

namespace Position

def parts (position : Position) : List String := position.outer ++ [position.id]

def dotted (position : Position) : String := ".".intercalate position.parts

end Position

-- The fields of a set that lives at `outer`. UIDs are left out.
def FieldSet.ownPositions (outer : List String) (fields : FieldSet) : List Position :=
  fields.contentIds.map (Position.mk outer)

mutual

-- The positions inside a field with a given id, where `outer` leads to its own set.
def Field.positions (outer : List String) (id : String) : Field → List Position
  | .group _ ⟨fields⟩ _ =>
      FieldSet.ownPositions (outer ++ [id ++ "[]"]) ⟨fields⟩ ++
        innerPositions (outer ++ [id ++ "[]"]) fields
  | .slices _ ⟨choices⟩ => choicePositions (outer ++ [id ++ "[]"]) choices
  | _ => []

-- The positions inside the fields of a set.
def innerPositions (outer : List String) : List (String × Field) → List Position
  | [] => []
  | (id, field) :: rest => field.positions outer id ++ innerPositions outer rest

-- The positions inside the choices of a zone that `outer` leads into.
def choicePositions (outer : List String) : List (String × SliceChoice) → List Position
  | [] => []
  | (id, choice) :: rest => choice.positions (outer ++ [id]) ++ choicePositions outer rest

def SliceChoice.positions (outer : List String) : SliceChoice → List Position
  | .slice _ _ ⟨nonRepeat⟩ ⟨repeated⟩ =>
      (FieldSet.ownPositions (outer ++ ["primary"]) ⟨nonRepeat⟩ ++
        innerPositions (outer ++ ["primary"]) nonRepeat) ++
      (FieldSet.ownPositions (outer ++ ["items[]"]) ⟨repeated⟩ ++
        innerPositions (outer ++ ["items[]"]) repeated)
  | .shared | .unknown => []

end

-- All positions at and below a set.
def FieldSet.positions (outer : List String) (fields : FieldSet) : List Position :=
  fields.ownPositions outer ++ innerPositions outer fields.entries

def CustomType.positions (model : CustomType) : List Position := model.fields.positions [model.id]

theorem SliceChoice.positions_slice (outer : List String) (fieldset description : Option String)
    (nonRepeat repeated : FieldSet) :
    (SliceChoice.slice fieldset description nonRepeat repeated).positions outer =
      nonRepeat.positions (outer ++ ["primary"]) ++ repeated.positions (outer ++ ["items[]"]) := rfl

theorem Field.positions_group (outer : List String) (id : String) (label : Option String)
    (fields : FieldSet) (repeats : Option Bool) :
    (Field.group label fields repeats).positions outer id =
      fields.positions (outer ++ [id ++ "[]"]) := rfl

namespace Position

-- A kind of words that the words between ids and the mark of repeated ones belong to.
structure Admits (kind : String → Prop) : Prop where
  primary : kind "primary"
  items : kind "items[]"
  repeated : ∀ id, kind id → kind (id ++ "[]")

-- A position that goes on from some point, through parts of a kind.
def GoesOn (kind : String → Prop) (lead : List String) (position : Position) : Prop :=
  ∃ rest, rest ≠ [] ∧ (∀ part ∈ rest, kind part) ∧ position.parts = lead ++ rest

variable {kind : String → Prop} {lead : List String} {position : Position}

theorem GoesOn.back {part : String} (hpart : kind part) (h : GoesOn kind (lead ++ [part]) position) :
    GoesOn kind lead position := by
  obtain ⟨rest, -, hrest, hparts⟩ := h
  refine ⟨part :: rest, List.cons_ne_nil _ _, List.forall_mem_cons.mpr ⟨hpart, hrest⟩, ?_⟩
  rw [hparts, List.append_assoc, List.singleton_append]

-- Positions that go on from two neighbours are different.
theorem GoesOn.part_eq {part other : String} (h : GoesOn kind (lead ++ [part]) position)
    (ho : GoesOn kind (lead ++ [other]) position) : part = other := by
  obtain ⟨rest, -, -, hparts⟩ := h
  obtain ⟨more, -, -, hmore⟩ := ho
  rw [hparts, List.append_assoc, List.append_assoc, List.append_cancel_left_eq] at hmore
  exact (List.cons.inj hmore).1

-- A position of a set goes on no further.
theorem GoesOn.ne_own {part id : String} (h : GoesOn kind (lead ++ [part]) position) :
    position ≠ ⟨lead, id⟩ := by
  rintro rfl
  obtain ⟨rest, hne, -, hparts⟩ := h
  rw [parts, List.append_assoc, List.append_cancel_left_eq] at hparts
  exact hne (List.cons.inj hparts).2.symm

end Position

open Position (Admits GoesOn)

theorem mem_idsOfFields_of_mem_keys {fields : List (String × Field)} {id : String}
    (h : id ∈ fields.map Prod.fst) : id ∈ idsOfFields fields := by
  induction fields with
  | nil => cases h
  | cons first rest ih =>
      rw [idsOfFields]
      rcases List.mem_cons.mp h with rfl | h
      · exact List.mem_cons_self
      · exact List.mem_cons_of_mem _ (List.mem_append_right _ (ih h))

section GoingOn

variable {kind : String → Prop}

-- The positions of a set go on from where it lives, if those inside go on from one of its fields.
theorem FieldSet.goesOn_of_inner (hkind : Admits kind) (outer : List String) {fields : FieldSet}
    (hids : ∀ id ∈ idsOfFields fields.entries, kind id)
    (hinner : ∀ p ∈ innerPositions outer fields.entries,
      ∃ id ∈ fields.keys, kind id ∧ GoesOn kind (outer ++ [id ++ "[]"]) p) :
    ∀ p ∈ fields.positions outer, GoesOn kind outer p := by
  intro p hp
  rcases List.mem_append.mp hp with hp | hp
  · obtain ⟨id, hid, rfl⟩ := List.mem_map.mp hp
    have hkey : id ∈ fields.keys := (List.filter_sublist.map Prod.fst).subset hid
    have hpart : kind id := hids id (mem_idsOfFields_of_mem_keys hkey)
    exact ⟨[id], List.cons_ne_nil _ _, List.forall_mem_singleton.mpr hpart, rfl⟩
  · obtain ⟨id, -, hid, hgoes⟩ := hinner p hp
    exact hgoes.back (hkind.repeated id hid)

mutual

theorem Field.goesOn_positions (hkind : Admits kind) (outer : List String) (id : String) :
    (field : Field) →
    (∀ inner ∈ field.innerIds, kind inner) →
    ∀ p ∈ field.positions outer id, GoesOn kind (outer ++ [id ++ "[]"]) p
  | .group _ ⟨fields⟩ _, hids => by
      rw [Field.innerIds] at hids
      exact FieldSet.goesOn_of_inner hkind _ hids (goesOn_innerPositions hkind _ fields hids)
  | .slices _ ⟨choices⟩, hids => by
      rw [Field.innerIds] at hids
      intro p hp
      rw [Field.positions] at hp
      obtain ⟨choice, -, hchoice, hgoes⟩ := goesOn_choicePositions hkind _ choices hids p hp
      exact hgoes.back hchoice
  | .plain .., _ | .image _, _ | .integration _, _ | .link _, _ | .richText _, _ | .select _, _
  | .unknown .., _ => List.forall_mem_nil _

theorem goesOn_innerPositions (hkind : Admits kind) (outer : List String) :
    (fields : List (String × Field)) →
    (∀ id ∈ idsOfFields fields, kind id) →
    ∀ p ∈ innerPositions outer fields,
      ∃ id ∈ fields.map Prod.fst, kind id ∧ GoesOn kind (outer ++ [id ++ "[]"]) p
  | [], _ => List.forall_mem_nil _
  | (id, field) :: rest, hids => by
      rw [idsOfFields, List.forall_mem_cons, List.forall_mem_append] at hids
      intro p hp
      rcases List.mem_append.mp hp with hp | hp
      · exact ⟨id, List.mem_cons_self, hids.1, field.goesOn_positions hkind outer id hids.2.1 p hp⟩
      · obtain ⟨other, ho, hgoes⟩ := goesOn_innerPositions hkind outer rest hids.2.2 p hp
        exact ⟨other, List.mem_cons_of_mem _ ho, hgoes⟩

theorem goesOn_choicePositions (hkind : Admits kind) (outer : List String) :
    (choices : List (String × SliceChoice)) →
    (∀ id ∈ idsOfChoices choices, kind id) →
    ∀ p ∈ choicePositions outer choices,
      ∃ id ∈ choices.map Prod.fst, kind id ∧ GoesOn kind (outer ++ [id]) p
  | [], _ => List.forall_mem_nil _
  | (id, choice) :: rest, hids => by
      rw [idsOfChoices, List.forall_mem_cons, List.forall_mem_append] at hids
      intro p hp
      rcases List.mem_append.mp hp with hp | hp
      · have hgoes := choice.goesOn_positions hkind (outer ++ [id]) hids.2.1 p hp
        exact ⟨id, List.mem_cons_self, hids.1, hgoes⟩
      · obtain ⟨other, ho, hgoes⟩ := goesOn_choicePositions hkind outer rest hids.2.2 p hp
        exact ⟨other, List.mem_cons_of_mem _ ho, hgoes⟩

theorem SliceChoice.goesOn_positions (hkind : Admits kind) (outer : List String) :
    (choice : SliceChoice) →
    (∀ inner ∈ choice.innerIds, kind inner) →
    ∀ p ∈ choice.positions outer, GoesOn kind outer p
  | .slice _ _ ⟨nonRepeat⟩ ⟨repeated⟩, hids => by
      rw [SliceChoice.innerIds, List.forall_mem_append] at hids
      rw [SliceChoice.positions_slice, List.forall_mem_append]
      constructor
      · intro p hp
        exact (FieldSet.goesOn_of_inner hkind _ hids.1
          (goesOn_innerPositions hkind _ nonRepeat hids.1) p hp).back hkind.primary
      · intro p hp
        exact (FieldSet.goesOn_of_inner hkind _ hids.2
          (goesOn_innerPositions hkind _ repeated hids.2) p hp).back hkind.items
  | .shared, _ | .unknown, _ => List.forall_mem_nil _

end

theorem FieldSet.goesOn_positions (hkind : Admits kind) (outer : List String) {fields : FieldSet}
    (hids : ∀ id ∈ idsOfFields fields.entries, kind id) :
    ∀ p ∈ fields.positions outer, GoesOn kind outer p :=
  FieldSet.goesOn_of_inner hkind outer hids (goesOn_innerPositions hkind outer fields.entries hids)

end GoingOn

section Distinct

-- Any words at all.
theorem Position.admits_true : Admits fun _ => True := ⟨trivial, trivial, fun _ _ => trivial⟩

theorem goesOn_inner (outer : List String) (fields : List (String × Field)) :
    ∀ p ∈ innerPositions outer fields,
      ∃ id ∈ fields.map Prod.fst, GoesOn (fun _ => True) (outer ++ [id ++ "[]"]) p := by
  intro p hp
  obtain ⟨id, hid, -, hgoes⟩ :=
    goesOn_innerPositions Position.admits_true outer fields (fun _ _ => trivial) p hp
  exact ⟨id, hid, hgoes⟩

-- The positions of a set itself end where those inside of it go on.
theorem FieldSet.nodup_positions (outer : List String) {fields : FieldSet}
    (hkeys : fields.keys.Nodup) (hinner : (innerPositions outer fields.entries).Nodup) :
    (fields.positions outer).Nodup := by
  refine List.nodup_append.mpr ⟨?_, hinner, ?_⟩
  · exact (FieldSet.nodup_contentIds hkeys).map fun _ _ he => (Position.mk.inj he).2
  · intro own hown p hp
    obtain ⟨id, -, rfl⟩ := List.mem_map.mp hown
    obtain ⟨other, -, hgoes⟩ := goesOn_inner outer fields.entries p hp
    exact hgoes.ne_own.symm

mutual

theorem Field.nodup_positions (outer : List String) (id : String) : (field : Field) →
    field.IsKeyed → (field.positions outer id).Nodup
  | .group _ ⟨fields⟩ _, h => by
      rw [Field.IsKeyed] at h
      exact FieldSet.nodup_positions _ (fieldsKeyed_iff.mp h).1 (nodup_innerPositions _ fields h)
  | .slices _ ⟨choices⟩, h => by
      rw [Field.IsKeyed] at h
      rw [Field.positions]
      exact nodup_choicePositions _ choices h
  | .plain .., _ | .image _, _ | .integration _, _ | .link _, _ | .richText _, _ | .select _, _
  | .unknown .., _ => List.nodup_nil

theorem nodup_innerPositions (outer : List String) : (fields : List (String × Field)) →
    FieldsKeyed fields → (innerPositions outer fields).Nodup
  | [], _ => List.nodup_nil
  | (id, field) :: rest, h => by
      rw [FieldsKeyed] at h
      obtain ⟨hnew, hfield, hrest⟩ := h
      rw [innerPositions, List.nodup_append]
      refine ⟨field.nodup_positions outer id hfield, nodup_innerPositions outer rest hrest, ?_⟩
      rintro p hp q hq rfl
      have hhere := field.goesOn_positions Position.admits_true outer id (fun _ _ => trivial) p hp
      obtain ⟨other, ho, hthere⟩ := goesOn_inner outer rest p hq
      rw [(String.append_left_inj "[]").mp (hhere.part_eq hthere)] at hnew
      exact hnew ho

theorem nodup_choicePositions (outer : List String) : (choices : List (String × SliceChoice)) →
    ChoicesKeyed choices → (choicePositions outer choices).Nodup
  | [], _ => List.nodup_nil
  | (id, choice) :: rest, h => by
      rw [ChoicesKeyed] at h
      obtain ⟨hnew, hchoice, hrest⟩ := h
      rw [choicePositions, List.nodup_append]
      refine ⟨choice.nodup_positions _ hchoice, nodup_choicePositions outer rest hrest, ?_⟩
      rintro p hp q hq rfl
      have hhere := choice.goesOn_positions Position.admits_true (outer ++ [id])
        (fun _ _ => trivial) p hp
      obtain ⟨other, ho, -, hthere⟩ :=
        goesOn_choicePositions Position.admits_true outer rest (fun _ _ => trivial) p hq
      rw [hhere.part_eq hthere] at hnew
      exact hnew ho

theorem SliceChoice.nodup_positions (outer : List String) : (choice : SliceChoice) →
    choice.IsKeyed → (choice.positions outer).Nodup
  | .slice _ _ ⟨nonRepeat⟩ ⟨repeated⟩, h => by
      rw [SliceChoice.IsKeyed] at h
      obtain ⟨hprimary, hitems⟩ := h
      have hgoes : ∀ (role : String) (fields : FieldSet), ∀ p ∈ fields.positions (outer ++ [role]),
          GoesOn (fun _ => True) (outer ++ [role]) p := fun _ _ =>
        FieldSet.goesOn_positions Position.admits_true _ fun _ _ => trivial
      rw [SliceChoice.positions_slice, List.nodup_append]
      refine ⟨?_, ?_, ?_⟩
      · exact FieldSet.nodup_positions _ (fieldsKeyed_iff.mp hprimary).1
          (nodup_innerPositions _ nonRepeat hprimary)
      · exact FieldSet.nodup_positions _ (fieldsKeyed_iff.mp hitems).1
          (nodup_innerPositions _ repeated hitems)
      · rintro p hp q hq rfl
        exact absurd ((hgoes "primary" _ p hp).part_eq (hgoes "items[]" _ p hq)) (by decide)
  | .shared, _ | .unknown, _ => List.nodup_nil

end

end Distinct

theorem CustomType.nodup_positions {model : CustomType} (h : model.IsKeyed) :
    model.positions.Nodup := by
  have hfields : FieldsKeyed model.fields.entries := CustomType.fieldsKeyed_fields h
  exact FieldSet.nodup_positions _ (fieldsKeyed_iff.mp hfields).1 (nodup_innerPositions _ _ hfields)

-- Parts without a dot are told from their dotted text.
theorem Position.dotted_inj {position other : Position}
    (h : ∀ part ∈ position.parts, '.' ∉ part.toList) (ho : ∀ part ∈ other.parts, '.' ∉ part.toList)
    (he : position.dotted = other.dotted) : position = other := by
  have hsplit : ∀ p : Position, (∀ part ∈ p.parts, '.' ∉ part.toList) →
      p.dotted.toList.splitOn '.' = p.parts.map String.toList := by
    intro p hp
    have hparts : p.parts.map String.toList ≠ [] := by simp [parts]
    rw [dotted, String.toList_intercalate]
    exact List.splitOn_intercalate '.' (List.forall_mem_map.mpr hp) hparts
  have hchars : position.parts.map String.toList = other.parts.map String.toList := by
    rw [← hsplit position h, ← hsplit other ho, he]
  have hparts : position.outer = other.outer ∧ position.id = other.id :=
    List.append_singleton_inj.mp
      (List.map_injective_iff.mpr (fun _ _ => String.toList_injective) hchars)
  exact Position.ext hparts.1 hparts.2

theorem CustomType.dotless_of_mem_positions {model : CustomType}
    (hids : ∀ id ∈ model.ids, '.' ∉ id.toList) {position : Position}
    (hp : position ∈ model.positions) : ∀ part ∈ position.parts, '.' ∉ part.toList := by
  have hkind : Admits fun part => '.' ∉ part.toList := by
    refine ⟨by decide, by decide, fun id hid => ?_⟩
    rw [String.toList_append, List.mem_append, not_or]
    exact ⟨hid, by decide⟩
  rw [CustomType.ids, List.forall_mem_cons] at hids
  obtain ⟨rest, -, hrest, hparts⟩ := FieldSet.goesOn_positions hkind [model.id] hids.2 position hp
  rw [hparts, List.forall_mem_append, List.forall_mem_singleton]
  exact ⟨hids.1, hrest⟩

theorem CustomType.nodup_dotted {model : CustomType} (h : model.IsKeyed)
    (hids : ∀ id ∈ model.ids, '.' ∉ id.toList) : (model.positions.map Position.dotted).Nodup := by
  refine (CustomType.nodup_positions h).map_on fun p hp q hq he => ?_
  exact Position.dotted_inj (dotless_of_mem_positions hids hp) (dotless_of_mem_positions hids hq) he

end ContentTypes
