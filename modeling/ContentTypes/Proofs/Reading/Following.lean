import ContentTypes.Proofs.Reading.Revisions

namespace ContentTypes

open Reading

namespace Json

theorem depth_lt_of_mem_items {item : Json} {items : List Json} (h : item ∈ items) :
    item.depth < (Json.arr items).depth := by
  rw [depth, Nat.lt_succ_iff]
  induction items with
  | nil => cases h
  | cons first rest ih =>
      rw [depthItems]
      rcases List.mem_cons.mp h with rfl | h
      · exact Nat.le_max_left _ _
      · exact Nat.le_trans (ih h) (Nat.le_max_right _ _)

theorem depth_lt_of_mem_entries {entry : String × Json} {entries : List (String × Json)}
    (h : entry ∈ entries) : entry.2.depth < (Json.obj ⟨entries⟩).depth := by
  rw [depth, Nat.lt_succ_iff]
  induction entries with
  | nil => cases h
  | cons first rest ih =>
      obtain ⟨key, value⟩ := first
      rw [depthMembers]
      rcases List.mem_cons.mp h with rfl | h
      · exact Nat.le_max_left _ _
      · exact Nat.le_trans (ih h) (Nat.le_max_right _ _)

theorem depth_lt_of_part? {keys : List String} {key : String} {value inner : Json}
    (h : part? keys key value = some inner) : inner.depth < value.depth := by
  cases value with
  | obj members =>
      obtain ⟨entries⟩ := members
      have hinner : entries.lookup key = some inner := (memberUnder_named entries key).symm.trans h
      exact depth_lt_of_mem_entries (mem_of_lookup_eq_some hinner)
  | arr items => exact depth_lt_of_mem_items (List.of_mem_zip (mem_of_lookup_eq_some h)).2
  | num n => cases n <;> cases h
  | _ => cases h

end Json

variable {α ρ : Type}

-- Whatever `read` makes of a value, `read'` makes of the edited value, up to the change. The edited
-- value is not to be deeper than `read'` can go.
def Follows (bound : Nat) (part : Part) (read read' : Reader Json α) (revise : Change → α → α) :
    Prop :=
  ∀ ⦃change : Change⦄ ⦃value value' : Json⦄ ⦃result : α⦄, Edit part change value value' →
    value'.depth < bound → read value = .ok result → read' value' = .ok (revise change result)

variable {bound : Nat}

theorem follows_whole (read : Reader Json α) :
    Follows bound .whole read read fun _ content => content := by
  intro change value value' result hedit _ hread
  obtain ⟨-, rfl⟩ := hedit.whole_cases
  exact hread

theorem eq_arr_of_look {value : Json} {items : List Json}
    (h : Source.look value = .ok (.arr items)) : value = .arr items := by
  cases value with
  | arr _ =>
      cases h
      rfl
  | num n => cases n <;> cases h
  | _ => cases h

theorem eq_obj_of_look {value : Json} {members : List (Option String × Json)}
    (h : Source.look value = .ok (.obj members)) :
    ∃ entries, value = .obj ⟨entries⟩ ∧ members = named entries := by
  cases value with
  | obj map =>
      cases h
      exact ⟨map.entries, rfl, rfl⟩
  | num n => cases n <;> cases h
  | _ => cases h

theorem forall₂_zipIdx {σ : Type} {related : σ → α → Prop} {items : List σ} {results : List α}
    (h : List.Forall₂ related items results) (start : Nat) :
    List.Forall₂ (fun item result => item.2 = result.2 ∧ related item.1 result.1)
      (items.zipIdx start) (results.zipIdx start) := by
  induction h generalizing start with
  | nil => exact .nil
  | cons hfirst _ ih =>
      rw [List.zipIdx_cons, List.zipIdx_cons]
      exact .cons ⟨rfl, hfirst⟩ (ih (start + 1))

theorem follows_list {each : Part} {read read' : Reader Json α} {revise : Change → α → α}
    (h : Follows bound each read read' revise) :
    Follows bound (.items each) (list read) (list read') fun change contents =>
      contents.zipIdx.map fun content => revise (change.under (.item content.2)) content.1 := by
  intro change value value' results hedit hdepth hread
  obtain ⟨items, hlook, hitems⟩ := list_eq_ok_iff.mp hread
  cases eq_arr_of_look hlook
  obtain ⟨items', rfl, hedits⟩ := hedit.items_cases
  have hshallow : ∀ item ∈ items', item.depth < bound := fun item hm =>
    Nat.lt_trans (Json.depth_lt_of_mem_items hm) hdepth
  have hboth : List.Forall₂ (fun item' result => item'.depth < bound →
      read' item' = .ok (revise (change.under (.item result.2)) result.1)) items'
      results.zipIdx := by
    refine forall₂_join (fun item item' result hedit hitem hlow => ?_) hedits
      (forall₂_zipIdx hitems 0)
    rw [← hitem.1]
    exact h hedit hlow hitem.2
  refine list_eq_ok_iff.mpr ⟨items', rfl, List.forall₂_map_right_iff.mpr ?_⟩
  exact ((List.forall₂_and_left _ _).mpr ⟨hshallow, hboth⟩).imp fun _ _ hitem => hitem.2 hitem.1

theorem follows_orderedMap {each : Part} {read read' : Reader Json α} {revise : Change → α → α}
    (h : Follows bound each read read' revise) :
    Follows bound (.members each) (orderedMap read) (orderedMap read') fun change contents =>
      contents.mapEntries fun key => revise (change.under (.key key)) := by
  intro change value value' result hedit hdepth hread
  obtain ⟨members, contents, hlook, hcontents, rfl⟩ := orderedMap_eq_ok_iff.mp hread
  obtain ⟨entries, rfl, rfl⟩ := eq_obj_of_look hlook
  obtain ⟨entries', rfl, hedits⟩ := hedit.members_cases
  have hshallow : ∀ entry ∈ entries', entry.2.depth < bound := fun entry hm =>
    Nat.lt_trans (Json.depth_lt_of_mem_entries hm) hdepth
  have hboth : List.Forall₂ (fun entry' content => entry'.2.depth < bound →
      entry'.1 = content.1 ∧
        read' entry'.2 = .ok (revise (change.under (.key content.1)) content.2)) entries'
      contents := by
    rw [named, List.forall₂_map_left_iff] at hcontents
    refine forall₂_join (fun entry entry' content hedit hcontent hlow => ?_) hedits hcontents
    have hkey : entry.1 = content.1 := Option.some.inj hcontent.1
    rw [← hkey]
    exact ⟨hedit.1.symm, h hedit.2 hlow hcontent.2⟩
  refine orderedMap_eq_ok_iff.mpr ⟨named entries', _, rfl, ?_, OrderedMap.ofList_mapEntries _ _⟩
  rw [named, List.forall₂_map_left_iff, List.forall₂_map_right_iff]
  refine ((List.forall₂_and_left _ _).mpr ⟨hshallow, hboth⟩).imp fun _ _ hentry => ?_
  exact ⟨congrArg some (hentry.2 hentry.1).1, (hentry.2 hentry.1).2⟩

-- A slot of a record before and after an edit of its part.
structure SlotFollows (bound : Nat) (revise : Change → ρ → ρ) (part : String × Part)
    (s t : Slot Json ρ) : Prop where
  key : s.key = part.1
  key' : t.key = part.1
  need : t.need = s.need
  fill : ∀ {change : Change} {value value' : Json} {record next : ρ},
    Edit part.2 (change.under (.key part.1)) value value' → value'.depth < bound →
      s.fill record value = .ok next →
      t.fill (revise change record) value' = .ok (revise change next)

theorem slotFollows_slot {key : String} {need : Need} {part : Part} {read read' : Reader Json α}
    {set : ρ → α → ρ} {revise : Change → ρ → ρ} {reviseContent : Change → α → α}
    (h : Follows bound part read read' reviseContent)
    (hset : ∀ change record content, set (revise change record)
      (reviseContent (change.under (.key key)) content) = revise change (set record content)) :
    SlotFollows bound revise (key, part) (slot key need read set) (slot key need read' set) where
  key := rfl
  key' := rfl
  need := rfl
  fill := by
    intro change value value' record next hedit hdepth hfill
    obtain ⟨content, hread, rfl⟩ := fill_slot_eq_ok_iff.mp hfill
    exact fill_slot_eq_ok_iff.mpr ⟨_, h hedit hdepth hread, hset change record content⟩

-- The slots of two records, one by one.
inductive SlotsFollow (bound : Nat) (revise : Change → ρ → ρ) :
    List (String × Part) → List (Slot Json ρ) → List (Slot Json ρ) → Prop
  | nil : SlotsFollow bound revise [] [] []
  | cons {part : String × Part} {parts : List (String × Part)} {s t : Slot Json ρ}
      {ss ts : List (Slot Json ρ)} (hslot : SlotFollows bound revise part s t)
      (hslots : SlotsFollow bound revise parts ss ts) :
      SlotsFollow bound revise (part :: parts) (s :: ss) (t :: ts)

section Records

variable {slots : List (String × Part)} {beside : List String} {shape shape' : Reading.Shape Json ρ}
  {revise : Change → ρ → ρ} {change : Change} {value value' : Json}

theorem SlotsFollow.keys {ss ts : List (Slot Json ρ)} (h : SlotsFollow bound revise slots ss ts) :
    ss.map Slot.key = slots.map Prod.fst ∧ ts.map Slot.key = slots.map Prod.fst := by
  induction h with
  | nil => exact ⟨rfl, rfl⟩
  | cons hslot _ ih => simp [hslot.key, hslot.key', ih]

theorem SlotsFollow.needs {ss ts : List (Slot Json ρ)} (h : SlotsFollow bound revise slots ss ts) :
    ts.map Slot.need = ss.map Slot.need := by
  induction h with
  | nil => rfl
  | cons hslot _ ih => simp [hslot.need, ih]

theorem SlotsFollow.forall₂ {ss ts : List (Slot Json ρ)}
    (h : SlotsFollow bound revise slots ss ts) {before now : String → Option Json}
    (hparts : ∀ part ∈ slots,
      PartEdited part.2 (change.under (.key part.1)) (before part.1) (now part.1))
    (hshallow : ∀ part ∈ slots, ∀ inner, now part.1 = some inner → inner.depth < bound) :
    List.Forall₂ (Slot.Follows before now (revise change)) ss ts := by
  induction h with
  | nil => exact .nil
  | @cons part parts s t _ _ hslot _ ih =>
      refine .cons ?_ (ih (fun other hm => hparts other (List.mem_cons_of_mem _ hm))
        fun other hm => hshallow other (List.mem_cons_of_mem _ hm))
      have hpart := hparts part List.mem_cons_self
      have hlow := hshallow part List.mem_cons_self
      rw [← hslot.key] at hpart hlow
      refine ⟨hslot.key'.trans hslot.key.symm, hslot.need, fun hnone => ?_, fun value hsome => ?_⟩
      · rw [hnone] at hpart
        exact hpart.of_none
      · rw [hsome] at hpart
        obtain ⟨inner, hnow, hedit⟩ := hpart.of_some
        rw [hslot.key] at hedit
        exact ⟨inner, hnow, fun record next => hslot.fill hedit (hlow inner hnow)⟩

-- A record that may be read from a value may be read from the edited value.
theorem admits_of_edit (hkeys : shape'.keys = shape.keys)
    (hneeds : shape'.slots.map Slot.need = shape.slots.map Slot.need)
    (hedit : Edit (.record slots beside) change value value')
    (hadmits : shape.Admits (glanceJson value)) : shape'.Admits (glanceJson value') := by
  rcases hedit.record_cases with rfl | ⟨_, members', rfl, rfl, -, hnodup⟩ |
    ⟨items, items', rfl, rfl, hlength⟩
  · exact Reading.Shape.admits_congr hkeys hneeds hadmits
  · exact Reading.Shape.admits_named hnodup
  · rw [glanceJson, Reading.Shape.admits_arr_iff] at hadmits ⊢
    rwa [hneeds, hlength]

theorem follows_read (hs : shape.Independent) (hs' : shape'.Independent)
    (hslots : SlotsFollow bound revise slots shape.slots shape'.slots)
    (hblank : ∀ change, revise change shape.blank = shape'.blank) :
    Follows bound (.record slots beside) shape.read shape'.read revise := by
  intro change value value' result hedit hdepth hread
  obtain ⟨glance, hlook, hadmits, hfill⟩ := (Reading.Shape.read_eq_ok_iff hs).mp hread
  cases hlook
  have hkeys : shape'.keys = shape.keys := hslots.keys.2.trans hslots.keys.1.symm
  refine (Reading.Shape.read_eq_ok_iff hs').mpr
    ⟨_, rfl, admits_of_edit hkeys hslots.needs hedit hadmits, ?_⟩
  rw [← hblank change]
  have hnodup : (slots.map Prod.fst).Nodup := hslots.keys.1 ▸ hs.nodup
  refine fillFrom_follows (revise change) (hslots.forall₂ (fun part hpart => ?_) ?_) hfill
  · rw [given_eq_part? rfl, given_eq_part? rfl, hkeys, Reading.Shape.keys, hslots.keys.1]
    exact hedit.part? hnodup hpart
  · intro part _ inner hinner
    rw [given_eq_part? rfl] at hinner
    exact Nat.lt_trans (Json.depth_lt_of_part? hinner) hdepth

theorem null_of_edit (hedit : Edit (.record slots beside) change value value') :
    value' = .null ↔ value = .null := by
  rcases hedit.record_cases with rfl | ⟨_, _, rfl, rfl, -, -⟩ | ⟨_, _, rfl, rfl, -⟩
  · exact Iff.rfl
  · exact ⟨fun h => (nomatch h), fun h => (nomatch h)⟩
  · exact ⟨fun h => (nomatch h), fun h => (nomatch h)⟩

theorem follows_readConfig (h : Follows bound (.record slots beside) shape.read shape'.read revise)
    (hblank : ∀ change, revise change shape.blank = shape'.blank) :
    Follows bound (.record slots beside) (Field.readConfig shape) (Field.readConfig shape')
      revise := by
  intro change value value' result hedit hdepth hread
  by_cases hnull : value = .null
  · have hnull' := (null_of_edit hedit).mpr hnull
    subst hnull
    subst hnull'
    cases (Field.readConfig_null shape).symm.trans hread
    rw [hblank change]
    exact Field.readConfig_null shape'
  · rw [Field.readConfig_of_ne shape hnull] at hread
    rw [Field.readConfig_of_ne shape' fun hnull' => hnull ((null_of_edit hedit).mp hnull')]
    exact h hedit hdepth hread

-- Nothing can be seen of an edit of a record whose parts are all read as they are.
theorem read_flat_iff (hs : shape.Independent) {result : ρ}
    (hedit : Edit (Part.flat shape.keys) change value value') :
    shape.read value' = .ok result ↔ shape.read value = .ok result := by
  have hslots : (shape.keys.map fun key => (key, Part.whole)).map Prod.fst = shape.keys := by
    rw [List.map_map]
    exact List.map_id _
  have hgiven : ∀ s ∈ shape.slots, shape.given (glanceJson value') s.key =
      shape.given (glanceJson value) s.key := by
    intro s hm
    have hpart : (s.key, Part.whole) ∈ shape.keys.map fun key => (key, Part.whole) :=
      List.mem_map_of_mem (List.mem_map_of_mem hm)
    have hedited := hedit.part? (hslots.symm ▸ hs.nodup) hpart
    rw [hslots] at hedited
    rw [given_eq_part? rfl, given_eq_part? rfl]
    exact hedited.whole
  have hadmits : shape.Admits (glanceJson value') ↔ shape.Admits (glanceJson value) := by
    rcases hedit.record_cases with rfl | ⟨_, _, rfl, rfl, hnodup, hnodup'⟩ |
      ⟨_, _, rfl, rfl, hlength⟩
    · exact Iff.rfl
    · exact iff_of_true (Reading.Shape.admits_named hnodup') (Reading.Shape.admits_named hnodup)
    · rw [glanceJson, glanceJson, Reading.Shape.admits_arr_iff, Reading.Shape.admits_arr_iff,
        hlength]
  have hread : ∀ value, shape.read value = .ok result ↔ shape.Admits (glanceJson value) ∧
      fillFrom (shape.given (glanceJson value)) shape.slots shape.blank = .ok result := by
    intro value
    rw [Reading.Shape.read_eq_ok_iff hs]
    exact ⟨fun ⟨_, hlook, h⟩ => Except.ok.inj hlook ▸ h, fun h => ⟨_, rfl, h⟩⟩
  rw [hread, hread, hadmits, fillFrom_congr hgiven]

theorem readConfig_flat_iff (hs : shape.Independent) {result : ρ}
    (hedit : Edit (Part.flat shape.keys) change value value') :
    Field.readConfig shape value' = .ok result ↔ Field.readConfig shape value = .ok result := by
  by_cases hnull : value = .null
  · rw [hnull, (null_of_edit hedit).mpr hnull]
  · rw [Field.readConfig_of_ne shape hnull,
      Field.readConfig_of_ne shape fun hnull' => hnull ((null_of_edit hedit).mp hnull')]
    exact read_flat_iff hs hedit

end Records

end ContentTypes
