import ContentTypes.Proofs.Reading.Levels
import ContentTypes.Proofs.Reading.Parts

namespace ContentTypes

open Reading

-- What is read from a value. The keys of records, but not those of maps, stand in any order.
inductive Part where
  | whole
  -- A record with its keys, in their order where it is written as an array. The keys `beside` them
  -- are looked at as well.
  | record (slots : List (String × Part)) (beside : List String)
  | items (each : Part)
  | members (each : Part)
  | field
  | choice

namespace Part

def flat (keys : List String) : Part := .record (keys.map fun key => (key, .whole)) []

def fields : Part := .members .field

def thumbnail : Part := flat ["name", "width", "height"]

-- The configuration of a field of some kind.
def ofConfig : String → Part
  | "Image" => .record [("label", .whole), ("thumbnails", .items thumbnail)] []
  | "IntegrationFields" => flat ["label", "placeholder", "catalog"]
  | "Link" => flat ["label", "placeholder", "select", "customtypes"]
  | "StructuredText" => flat ["label", "placeholder", "single", "multi"]
  | "Select" => flat ["label", "placeholder", "options", "default_value"]
  | "Group" => .record [("label", .whole), ("fields", fields), ("repeat", .whole)] []
  | "Slices" => .record [("choices", .members .choice)] []
  | _ => flat ["label", "placeholder"]

-- The name of a slice zone stands beside its configuration.
def ofKind (kind : String) : List (String × Part) :=
  ("type", .whole) :: ("config", ofConfig kind) ::
    if kind = "Slices" then [("fieldset", .whole)] else []

def localSlice : List (String × Part) :=
  [("fieldset", .whole), ("description", .whole), ("non-repeat", fields), ("repeat", fields)]

def ofTag (tag : String) : List (String × Part) :=
  ("type", .whole) :: if tag = "Slice" then localSlice else []

def customType : Part :=
  .record [("id", .whole), ("label", .whole), ("repeatable", .whole), ("status", .whole),
    ("json", .members fields)] []

def variation : Part :=
  .record [("id", .whole), ("name", .whole), ("description", .whole), ("primary", fields),
    ("items", fields)] []

def sharedSlice (beside : List String) : Part :=
  .record [("id", .whole), ("name", .whole), ("description", .whole),
    ("variations", .items variation)] beside

end Part

-- A turn on the way into a model, by key or by number.
inductive Turn where
  | key (name : String)
  | item (index : Nat)
  deriving DecidableEq

-- A field of a kind that is not known gets another configuration.
structure Revision where
  place : List Turn
  config : Json

-- What can be seen of an edit.
abbrev Change := Option Revision

namespace Change

-- The change as it is seen from one turn above.
def above (turn : Turn) (change : Change) : Change :=
  change.map fun revision => { revision with place := turn :: revision.place }

-- What of a change lies under a turn.
def under (turn : Turn) : Change → Change
  | some ⟨first :: rest, config⟩ => if first = turn then some ⟨rest, config⟩ else none
  | _ => none

@[simp] theorem under_none (turn : Turn) : under turn none = none := rfl

theorem under_above (change : Change) (first turn : Turn) :
    (change.above first).under turn = if first = turn then change else none := by
  cases change with
  | none => exact (ite_self _).symm
  | some revision => rfl

end Change

-- One edit of a value, at any depth. The keys of JSON objects differ, so those of the new value do.
inductive Edit : Part → Change → Json → Json → Prop
  | same (part : Part) (value : Json) : Edit part none value value
  | added {slots : List (String × Part)} {beside : List String}
      {before after : List (String × Json)} {key : String} (value : Json)
      (hkey : key ∉ slots.map Prod.fst) (hbeside : key ∉ beside)
      (hnodup : ((before ++ (key, value) :: after).map Prod.fst).Nodup) :
      Edit (.record slots beside) none (.obj ⟨before ++ after⟩)
        (.obj ⟨before ++ (key, value) :: after⟩)
  | permuted {slots : List (String × Part)} {beside : List String}
      {members members' : List (String × Json)} (hperm : members.Perm members')
      (hnodup : (members.map Prod.fst).Nodup) :
      Edit (.record slots beside) none (.obj ⟨members⟩) (.obj ⟨members'⟩)
  | inMember {slots : List (String × Part)} {beside : List String}
      {before after : List (String × Json)} {key : String} {part : Part} {change : Change}
      {old new : Json} (hpart : (key, part) ∈ slots)
      (hnodup : ((before ++ (key, new) :: after).map Prod.fst).Nodup)
      (hedit : Edit part change old new) :
      Edit (.record slots beside) (change.above (.key key)) (.obj ⟨before ++ (key, old) :: after⟩)
        (.obj ⟨before ++ (key, new) :: after⟩)
  | inPlace {slots : List (String × Part)} {beside : List String} {before after : List Json}
      {key : String} {part : Part} {change : Change} {old new : Json}
      (hpart : slots[before.length]? = some (key, part)) (hedit : Edit part change old new) :
      Edit (.record slots beside) (change.above (.key key)) (.arr (before ++ old :: after))
        (.arr (before ++ new :: after))
  | inItem {each : Part} {before after : List Json} {change : Change} {old new : Json}
      (hedit : Edit each change old new) :
      Edit (.items each) (change.above (.item before.length)) (.arr (before ++ old :: after))
        (.arr (before ++ new :: after))
  | inEntry {each : Part} {before after : List (String × Json)} {key : String} {change : Change}
      {old new : Json} (hnodup : ((before ++ (key, new) :: after).map Prod.fst).Nodup)
      (hedit : Edit each change old new) :
      Edit (.members each) (change.above (.key key)) (.obj ⟨before ++ (key, old) :: after⟩)
        (.obj ⟨before ++ (key, new) :: after⟩)
  -- The kind of a field and the tag of a choice decide which keys are read.
  | inField {kind : String} {change : Change} {value value' : Json}
      (hkind : value.kind? = some kind)
      (hedit : Edit (.record (Part.ofKind kind) []) change value value') :
      Edit .field change value value'
  | configured {kind : String} {members : OrderedMap Json} (config : Json)
      (hkind : (Json.obj members).kind? = some kind) (hunknown : kind ∉ Field.knownKinds) :
      Edit .field (some ⟨[], config⟩) (.obj members) (.obj (members.insert "config" config))
  | inChoice {tag : String} {change : Change} {value value' : Json} (htag : value.tag? = some tag)
      (hedit : Edit (.record (Part.ofTag tag) []) change value value') :
      Edit .choice change value value'
  | besideTag {tag : String} {members members' : List (String × Json)}
      (htag : (Json.obj ⟨members⟩).tag? = some tag) (htag' : (Json.obj ⟨members'⟩).tag? = some tag)
      (hslice : tag ≠ "Slice") (hshared : tag ≠ "SharedSlice")
      (hnodup : (members'.map Prod.fst).Nodup) :
      Edit .choice none (.obj ⟨members⟩) (.obj ⟨members'⟩)

-- Any number of edits, one after another, and what can be seen of them.
inductive Edits (part : Part) : List Revision → Json → Json → Prop
  | nil (value : Json) : Edits part [] value value
  | cons {change : Change} {revisions : List Revision} {value next last : Json}
      (hedit : Edit part change value next) (hrest : Edits part revisions next last) :
      Edits part (change.toList ++ revisions) value last

-- Items that stand in the places of keys, one of them picked out.
theorem zip_middle {before after : List Json} (value : Json) {keys : List String} {name : String}
    (hname : keys[before.length]? = some name) :
    keys.zip (before ++ value :: after) =
      (keys.take before.length).zip before ++
        (name, value) :: (keys.drop (before.length + 1)).zip after := by
  induction before generalizing keys with
  | nil =>
      cases keys with
      | nil => cases hname
      | cons first rest =>
          cases hname
          rfl
  | cons item before ih =>
      cases keys with
      | nil => cases hname
      | cons first rest =>
          rw [List.length_cons, List.getElem?_cons_succ] at hname
          rw [List.cons_append, List.zip_cons_cons, ih hname]
          rfl

-- What an edit of a record does to one of its parts.
inductive PartEdited (part : Part) : Change → Option Json → Option Json → Prop
  | absent : PartEdited part none none none
  | present {change : Change} {old new : Json} (h : Edit part change old new) :
      PartEdited part change (some old) (some new)

theorem partEdited_same (part : Part) (value : Option Json) :
    PartEdited part none value value := by
  cases value with
  | none => exact .absent
  | some value => exact .present (.same part value)

theorem PartEdited.of_none {part : Part} {change : Change} {new : Option Json}
    (h : PartEdited part change none new) : new = none := by
  cases h
  rfl

theorem PartEdited.of_some {part : Part} {change : Change} {old : Json} {new : Option Json}
    (h : PartEdited part change (some old) new) :
    ∃ inner, new = some inner ∧ Edit part change old inner := by
  cases h with
  | present hedit => exact ⟨_, rfl, hedit⟩

theorem PartEdited.whole {change : Change} {old new : Option Json}
    (h : PartEdited .whole change old new) : new = old := by
  cases h with
  | absent => rfl
  | present hedit =>
      cases hedit
      rfl

theorem PartEdited.getD {part : Part} {change : Change} {old new : Option Json}
    (h : PartEdited part change old new) :
    Edit part change (old.getD .null) (new.getD .null) := by
  cases h with
  | absent => exact .same part .null
  | present h => exact h

theorem partEdited_middle {before after : List (String × Json)} {name key : String}
    {part part' : Part} {change : Change} {old new : Json} (hnew : name ∉ before.map Prod.fst)
    (hpart : key = name → part' = part) (hedit : Edit part' change old new) :
    PartEdited part ((change.above (.key name)).under (.key key))
      ((before ++ (name, old) :: after).lookup key)
      ((before ++ (name, new) :: after).lookup key) := by
  rw [lookup_middle old hnew, lookup_middle new hnew, Change.under_above]
  by_cases hk : key = name
  · cases hpart hk
    rw [if_pos hk, if_pos hk, if_pos (congrArg Turn.key hk.symm)]
    exact .present hedit
  · rw [if_neg hk, if_neg hk, if_neg fun he => hk (Turn.key.inj he).symm]
    exact partEdited_same part _

namespace Edit

variable {slots : List (String × Part)} {beside : List String} {change : Change}
  {value value' : Json}

-- An edit of a record keeps its form.
theorem record_cases (h : Edit (.record slots beside) change value value') :
    value' = value ∨
      (∃ members members', value = .obj ⟨members⟩ ∧ value' = .obj ⟨members'⟩ ∧
        (members.map Prod.fst).Nodup ∧ (members'.map Prod.fst).Nodup) ∨
      ∃ items items', value = .arr items ∧ value' = .arr items' ∧
        items'.length = items.length := by
  cases h with
  | same => exact .inl rfl
  | added value hkey hbeside hnodup =>
      refine .inr (.inl ⟨_, _, rfl, rfl, ?_, hnodup⟩)
      rw [List.map_append, List.map_cons, List.nodup_middle] at hnodup
      rw [List.map_append]
      exact (List.nodup_cons.mp hnodup).2
  | permuted hperm hnodup =>
      exact .inr (.inl ⟨_, _, rfl, rfl, hnodup, (hperm.map Prod.fst).nodup_iff.mp hnodup⟩)
  | inMember hpart hnodup hedit =>
      refine .inr (.inl ⟨_, _, rfl, rfl, ?_, hnodup⟩)
      simpa only [List.map_append, List.map_cons] using hnodup
  | inPlace hpart hedit => exact .inr (.inr ⟨_, _, rfl, rfl, by simp⟩)

-- What can be seen of an edit of a record lies in one of its parts.
theorem place_ne_nil (h : Edit (.record slots beside) change value value') (config : Json) :
    change ≠ some ⟨[], config⟩ := by
  cases h with
  | inMember | inPlace =>
      rename_i change _ _ _ _
      cases change <;> simp [Change.above]
  | _ => exact fun h => (nomatch h)

theorem part? (h : Edit (.record slots beside) change value value')
    (hkeys : (slots.map Prod.fst).Nodup) {key : String} {part : Part}
    (hpart : (key, part) ∈ slots) :
    PartEdited part (change.under (.key key)) (part? (slots.map Prod.fst) key value)
      (ContentTypes.part? (slots.map Prod.fst) key value') := by
  have hkey : key ∈ slots.map Prod.fst := List.mem_map_of_mem hpart
  have hunique : ∀ {name part'}, (name, part') ∈ slots → key = name → part' = part := by
    rintro name part' hname rfl
    have hcount := List.nodup_iff_count_le_one.mp hkeys key
    have hfound := lookup_eq_some_of_once hcount hpart
    rw [lookup_eq_some_of_once hcount hname] at hfound
    exact Option.some.inj hfound
  have hobj : ∀ members : List (String × Json),
      ContentTypes.part? (slots.map Prod.fst) key (Json.obj ⟨members⟩) = members.lookup key :=
    fun members => memberUnder_named members key
  cases h with
  | same => exact partEdited_same part _
  | @added _ _ before after name value hnew hbeside hnodup =>
      have hne : key ≠ name := fun he => hnew (he ▸ hkey)
      rw [hobj, hobj, lookup_middle value (notMem_before_of_nodup hnodup), if_neg hne]
      exact partEdited_same part _
  | permuted hperm hnodup =>
      rw [hobj, hobj, lookup_perm hperm (List.nodup_iff_count_le_one.mp hnodup key)]
      exact partEdited_same part _
  | inMember hpart' hnodup hedit =>
      rw [hobj, hobj]
      exact partEdited_middle (notMem_before_of_nodup hnodup) (hunique hpart') hedit
  | @inPlace _ _ before after name part' _ old new hpart' hedit =>
      have hname : (slots.map Prod.fst)[before.length]? = some name := by
        rw [List.getElem?_map, hpart']
        rfl
      have hnew : name ∉ (((slots.map Prod.fst).take before.length).zip before).map Prod.fst := by
        intro hm
        obtain ⟨⟨_, item⟩, hp, rfl⟩ := List.mem_map.mp hm
        obtain ⟨index, hindex, he⟩ := List.mem_take_iff_getElem.mp (List.of_mem_zip hp).1
        have hlt : index < (slots.map Prod.fst).length := by omega
        have hsame := (List.getElem?_inj hlt hkeys).mp
          ((List.getElem?_eq_getElem hlt).trans ((congrArg some he).trans hname.symm))
        omega
      have harr : ∀ items : List Json,
          ContentTypes.part? (slots.map Prod.fst) key (Json.arr items) =
            ((slots.map Prod.fst).zip items).lookup key := fun _ => rfl
      rw [harr, harr, zip_middle old hname, zip_middle new hname]
      exact partEdited_middle hnew (hunique (List.mem_of_getElem? hpart')) hedit

-- Keys beside the slots have the values that they had.
theorem get?_beside (h : Edit (.record slots beside) change value value') {key : String}
    (hbeside : key ∈ beside) (hkey : key ∉ slots.map Prod.fst) :
    value'.get? key = value.get? key := by
  cases h with
  | same => rfl
  | @added _ _ before after name content hnew hnot hnodup =>
      have hne : key ≠ name := fun he => hnot (he ▸ hbeside)
      exact (lookup_middle content (notMem_before_of_nodup hnodup) key).trans (if_neg hne)
  | permuted hperm hnodup =>
      exact (lookup_perm hperm (List.nodup_iff_count_le_one.mp hnodup key)).symm
  | @inMember _ _ before after name part _ old new hpart hnodup hedit =>
      have hne : key ≠ name := fun he => hkey (he ▸ List.mem_map_of_mem hpart)
      have hnew := notMem_before_of_nodup hnodup
      exact ((lookup_middle new hnew key).trans (if_neg hne)).trans
        ((lookup_middle old hnew key).trans (if_neg hne)).symm
  | inPlace => rfl

theorem whole_cases (h : Edit .whole change value value') : change = none ∧ value' = value := by
  cases h
  exact ⟨rfl, rfl⟩

variable {each : Part}

-- Each item of an edited list is edited, by what of the change lies under its number.
theorem items_cases {items : List Json} (h : Edit (.items each) change (.arr items) value') :
    ∃ items', value' = .arr items' ∧
      List.Forall₂ (fun item item' => Edit each (change.under (.item item.2)) item.1 item')
        items.zipIdx items' := by
  have hsame : ∀ (change : Change) (part : List Json) (start : Nat),
      (∀ item ∈ part.zipIdx start, change.under (.item item.2) = none) →
      List.Forall₂ (fun item item' => Edit each (change.under (.item item.2)) item.1 item')
        (part.zipIdx start) part := by
    intro change part start hnone
    have hrefl : List.Forall₂
        (fun item item' => Edit each (change.under (.item item.2)) item.1 item')
        (part.zipIdx start) ((part.zipIdx start).map Prod.fst) := by
      refine List.forall₂_map_right_iff.mpr (List.forall₂_same.mpr fun item hm => ?_)
      rw [hnone item hm]
      exact .same each item.1
    rwa [List.zipIdx_map_fst] at hrefl
  cases h with
  | same => exact ⟨items, rfl, hsame none items 0 fun _ _ => rfl⟩
  | @inItem _ before after change old new hedit =>
      refine ⟨_, rfl, ?_⟩
      rw [List.zipIdx_append, List.zipIdx_cons, Nat.zero_add]
      have hother : ∀ {index : Nat}, index ≠ before.length →
          (change.above (.item before.length)).under (.item index) = none := by
        intro index hne
        rw [Change.under_above, if_neg fun he => hne (Turn.item.inj he).symm]
      refine List.rel_append (hsame _ before 0 fun item hm => hother ?_) (.cons ?_
        (hsame _ after _ fun item hm => hother ?_))
      · have := List.snd_lt_of_mem_zipIdx hm
        omega
      · rw [Change.under_above, if_pos rfl]
        exact hedit
      · have := List.le_snd_of_mem_zipIdx hm
        omega

-- Each entry of an edited map is edited, by what of the change lies under its key.
theorem members_cases {entries : List (String × Json)}
    (h : Edit (.members each) change (.obj ⟨entries⟩) value') :
    ∃ entries', value' = .obj ⟨entries'⟩ ∧
      List.Forall₂ (fun entry entry' => entry.1 = entry'.1 ∧
        Edit each (change.under (.key entry.1)) entry.2 entry'.2) entries entries' := by
  have hsame : ∀ (change : Change) (part : List (String × Json)),
      (∀ entry ∈ part, change.under (.key entry.1) = none) →
      List.Forall₂ (fun entry entry' => entry.1 = entry'.1 ∧
        Edit each (change.under (.key entry.1)) entry.2 entry'.2) part part := by
    intro change part hnone
    refine List.forall₂_same.mpr fun entry hm => ⟨rfl, ?_⟩
    rw [hnone entry hm]
    exact .same each entry.2
  cases h with
  | same => exact ⟨entries, rfl, hsame none entries fun _ _ => rfl⟩
  | @inEntry _ before after name change old new hnodup hedit =>
      refine ⟨_, rfl, ?_⟩
      rw [List.map_append, List.map_cons, List.nodup_middle, List.nodup_cons,
        ← List.map_append] at hnodup
      have hother : ∀ entry ∈ before ++ after,
          (change.above (.key name)).under (.key entry.1) = none := by
        intro entry hm
        have hne : entry.1 ≠ name := fun he => hnodup.1 (List.mem_map.mpr ⟨entry, hm, he⟩)
        rw [Change.under_above, if_neg fun he => hne (Turn.key.inj he).symm]
      refine List.rel_append (hsame _ before fun entry hm => ?_) (.cons ⟨rfl, ?_⟩
        (hsame _ after fun entry hm => ?_))
      · exact hother entry (List.mem_append_left _ hm)
      · rw [Change.under_above, if_pos rfl]
        exact hedit
      · exact hother entry (List.mem_append_right _ hm)

end Edit

end ContentTypes
