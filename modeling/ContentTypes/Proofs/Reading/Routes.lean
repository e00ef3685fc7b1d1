import Mathlib.Data.List.Count
import ContentTypes.Proofs.Reading.Choices

namespace ContentTypes

open Reading Document

namespace Document

theorem values?_eq_some_iff {items : List Document} {values : List Json} :
    values? items = some values ↔
      List.Forall₂ (fun item value => item.value? = some value) items values := by
  induction items generalizing values with
  | nil =>
      rw [values?, List.forall₂_nil_left_iff]
      exact ⟨fun h => (Option.some.inj h).symm, fun h => h ▸ rfl⟩
  | cons item rest ih =>
      rw [values?, List.forall₂_cons_left_iff]
      simp only [Option.bind_eq_bind, Option.bind_eq_some_iff, Option.pure_def, Option.some.injEq,
        ih]
      constructor
      · rintro ⟨value, hvalue, others, hothers, rfl⟩
        exact ⟨value, others, hvalue, hothers, rfl⟩
      · rintro ⟨value, others, hvalue, hothers, rfl⟩
        exact ⟨value, hvalue, others, hothers, rfl⟩

-- A member and the entry that it becomes.
def Becomes (member : Option String × Document) (entry : String × Json) : Prop :=
  member.1 = some entry.1 ∧ member.2.value? = some entry.2

theorem members?_eq_some_iff {members : List (Option String × Document)}
    {entries : List (String × Json)} :
    members? members = some entries ↔ List.Forall₂ Becomes members entries := by
  induction members generalizing entries with
  | nil =>
      rw [members?, List.forall₂_nil_left_iff]
      exact ⟨fun h => (Option.some.inj h).symm, fun h => h ▸ rfl⟩
  | cons member rest ih =>
      obtain ⟨key, item⟩ := member
      rw [members?, List.forall₂_cons_left_iff]
      simp only [Option.bind_eq_bind, Option.bind_eq_some_iff, Option.pure_def, Option.some.injEq,
        ih]
      constructor
      · rintro ⟨name, rfl, value, hvalue, others, hothers, rfl⟩
        exact ⟨(name, value), others, ⟨rfl, hvalue⟩, hothers, rfl⟩
      · rintro ⟨⟨name, value⟩, others, ⟨hname, hvalue⟩, hothers, rfl⟩
        exact ⟨name, hname, value, hvalue, others, hothers, rfl⟩

-- What a look at a document shows, and what a look at its value shows.
inductive Shows : Glance Document → Glance Json → Prop
  | null : Shows .null .null
  | bool (value : Bool) : Shows (.bool value) (.bool value)
  | int (value : Int) : Shows (.int value) (.int value)
  | real (shown : String) : Shows (.real shown) (.real shown)
  | str (value : String) : Shows (.str value) (.str value)
  | arr {items : List Document} {values : List Json}
      (h : List.Forall₂ (fun item value => item.value? = some value) items values) :
      Shows (.arr items) (.arr values)
  | obj {members : List (Option String × Document)} {entries : List (String × Json)}
      (h : List.Forall₂ Becomes members entries) :
      Shows (.obj members) (.obj (named (OrderedMap.ofList entries).entries))

theorem shows_of_value? {document : Document} {value : Json} (h : document.value? = some value) :
    ∃ glance, Source.look document = .ok glance ∧ Shows glance (glanceJson value) := by
  cases document with
  | null =>
      cases h
      exact ⟨_, rfl, .null⟩
  | bool truth =>
      cases h
      exact ⟨_, rfl, .bool truth⟩
  | num number =>
      cases number with
      | none => cases h
      | some number =>
          cases h
          cases number with
          | int n => exact ⟨_, rfl, .int n⟩
          | real bits => exact ⟨_, rfl, .real _⟩
  | str text =>
      cases text with
      | none => cases h
      | some text =>
          cases h
          exact ⟨_, rfl, .str text⟩
  | arr items =>
      rw [value?, Option.map_eq_some_iff] at h
      obtain ⟨values, hvalues, rfl⟩ := h
      exact ⟨_, rfl, .arr (values?_eq_some_iff.mp hvalues)⟩
  | obj members =>
      rw [value?, Option.map_eq_some_iff] at h
      obtain ⟨entries, hentries, rfl⟩ := h
      exact ⟨_, rfl, .obj (members?_eq_some_iff.mp hentries)⟩
  | deep inner => cases h
  | broken => cases h

end Document

namespace Reading

variable {α ρ : Type}

-- Whatever the first reader makes of a document, the second makes of its value.
def Agree (read : Reader Document α) (read' : Reader Json α) : Prop :=
  ∀ {document : Document} {value : Json} {result : α}, document.value? = some value →
    read document = .ok result → read' value = .ok result

-- It is enough to compare what follows the first look.
theorem agree_of_shows {next : Document → Glance Document → Except Fault α}
    {next' : Json → Glance Json → Except Fault α}
    (h : ∀ {document value glance glance' result}, document.value? = some value →
      Shows glance glance' → next document glance = .ok result →
      next' value glance' = .ok result) :
    Agree (fun document => Source.look document >>= next document)
      (fun value => Source.look value >>= next' value) := by
  intro document value result hvalue hread
  obtain ⟨glance, hlook, hshows⟩ := shows_of_value? hvalue
  obtain ⟨_, hlook', hnext⟩ := bind_eq_ok_iff.mp hread
  cases hlook.symm.trans hlook'
  exact bind_eq_ok_iff.mpr ⟨_, rfl, h hvalue hshows hnext⟩

theorem agree_text : Agree text text := by
  apply agree_of_shows
  intro _ _ _ _ _ _ hshows hnext
  cases hshows with
  | str value => exact hnext
  | _ => cases hnext

theorem agree_truth : Agree truth truth := by
  apply agree_of_shows
  intro _ _ _ _ _ _ hshows hnext
  cases hshows with
  | bool value => exact hnext
  | _ => cases hnext

theorem agree_optional {read : Reader Document α} {read' : Reader Json α} (h : Agree read read') :
    Agree (optional read) (optional read') := by
  apply agree_of_shows
  intro _ _ _ _ _ hvalue hshows hnext
  cases hshows with
  | null => exact hnext
  | _ =>
      obtain ⟨content, hread, rfl⟩ := map_eq_ok_iff.mp hnext
      exact map_eq_ok_iff.mpr ⟨content, h hvalue hread, rfl⟩

theorem agree_list {read : Reader Document α} {read' : Reader Json α} (h : Agree read read') :
    Agree (list read) (list read') := by
  intro document value results hvalue hread
  obtain ⟨items, hlook, hitems⟩ := list_eq_ok_iff.mp hread
  obtain ⟨glance, hlook', hshows⟩ := shows_of_value? hvalue
  cases hlook.symm.trans hlook'
  generalize hglance : glanceJson value = glance' at hshows
  cases hshows with
  | @arr _ values hvalues =>
      refine list_eq_ok_iff.mpr ⟨values, congrArg _ hglance, ?_⟩
      refine forall₂_join (fun item value content hvalue hread => ?_) hvalues hitems
      exact h hvalue hread

theorem agree_orderedMap {read : Reader Document α} {read' : Reader Json α}
    (h : Agree read read') : Agree (orderedMap read) (orderedMap read') := by
  intro document value result hvalue hread
  obtain ⟨members, contents, hlook, hcontents, rfl⟩ := orderedMap_eq_ok_iff.mp hread
  obtain ⟨glance, hlook', hshows⟩ := shows_of_value? hvalue
  cases hlook.symm.trans hlook'
  generalize hglance : glanceJson value = glance' at hshows
  cases hshows with
  | @obj _ entries hentries =>
      -- what is read from the entries before they are put together
      have hread' : List.Forall₂ (OrderedMap.Entry fun value content => read' value = .ok content)
          entries contents := by
        refine forall₂_join (fun member entry content hbecomes hcontent => ?_) hentries hcontents
        exact ⟨Option.some.inj (hbecomes.1.symm.trans hcontent.1), h hbecomes.2 hcontent.2⟩
      refine orderedMap_eq_ok_iff.mpr
        ⟨_, (OrderedMap.ofList contents).entries, congrArg _ hglance, ?_,
          OrderedMap.ofList_of_nodup (OrderedMap.nodup_ofList contents)⟩
      rw [named, List.forall₂_map_left_iff]
      exact (OrderedMap.forall₂_ofList hread').imp fun entry content he =>
        ⟨congrArg some he.1, he.2⟩

-- A slot of a record over documents, and the same slot over values.
structure SlotAgrees (s : Slot Document ρ) (t : Slot Json ρ) : Prop where
  key : t.key = s.key
  need : t.need = s.need
  fill : ∀ record, Agree (s.fill record) (t.fill record)

theorem slotAgrees_slot {key : String} {need : Need} {read : Reader Document α}
    {read' : Reader Json α} {set : ρ → α → ρ} (h : Agree read read') :
    SlotAgrees (slot key need read set) (slot key need read' set) where
  key := rfl
  need := rfl
  fill := by
    intro record document value result hvalue hfill
    obtain ⟨content, hread, rfl⟩ := fill_slot_eq_ok_iff.mp hfill
    exact fill_slot_eq_ok_iff.mpr ⟨content, h hvalue hread, rfl⟩

-- Entries that have what the members have, under every key that the members have once.
structure Recalls (members : List (Option String × Document)) (entries : List (String × Json)) :
    Prop where
  nodup : (entries.map Prod.fst).Nodup
  under : ∀ key, (members.map Prod.fst).count (some key) ≤ 1 →
    Option.Rel (fun member value => member.value? = some value)
      (memberUnder members key) (entries.lookup key)

theorem rel_memberUnder {members : List (Option String × Document)} {entries : List (String × Json)}
    (h : List.Forall₂ Becomes members entries) (key : String) :
    Option.Rel (fun member value => member.value? = some value)
      (memberUnder members key) (entries.lookup key) := by
  induction h with
  | nil => exact .none
  | @cons member entry rest rest' hfirst _ ih =>
      obtain ⟨name, value⟩ := member
      obtain ⟨rfl, hvalue⟩ := hfirst
      rw [memberUnder_cons, lookup_cons_eq]
      by_cases hk : key = entry.1
      · rw [if_pos hk, if_pos hk]
        exact .some hvalue
      · rw [if_neg hk, if_neg hk]
        exact ih

theorem recalls_ofList {members : List (Option String × Document)} {entries : List (String × Json)}
    (h : List.Forall₂ Becomes members entries) :
    Recalls members (OrderedMap.ofList entries).entries where
  nodup := OrderedMap.nodup_ofList entries
  under := by
    intro key hcount
    have hkeys : entries.map (fun entry => some entry.1) = members.map Prod.fst :=
      map_eq_of_forall₂ (fun _ _ hbecomes => hbecomes.1.symm) h
    have honce : (entries.map Prod.fst).count key ≤ 1 := by
      rwa [← List.count_map_of_injective _ some (fun _ _ => Option.some.inj), List.map_map,
        Function.comp_def, hkeys]
    have hlast : (OrderedMap.ofList entries).entries.lookup key = entries.lookup key :=
      (OrderedMap.get?_ofList entries key).trans
        (lookup_perm (List.reverse_perm entries) (by simpa using honce))
    rw [hlast]
    exact rel_memberUnder h key

-- What records are read from, in a document and in its value.
inductive Answers : Glance Document → Glance Json → Prop
  | obj {members : List (Option String × Document)} {entries : List (String × Json)}
      (h : Recalls members entries) : Answers (.obj members) (.obj (named entries))
  | arr {items : List Document} {values : List Json}
      (h : List.Forall₂ (fun item value => item.value? = some value) items values) :
      Answers (.arr items) (.arr values)

section

variable {shape : Shape Document ρ} {shape' : Shape Json ρ} {glance : Glance Document}
  {glance' : Glance Json}

theorem answers_of_shows (h : Shows glance glance') (hadmits : shape.Admits glance) :
    Answers glance glance' := by
  cases h with
  | obj hmembers => exact .obj (recalls_ofList hmembers)
  | arr hitems => exact .arr hitems
  | _ => exact hadmits.elim

theorem admits_of_answers (hslots : List.Forall₂ SlotAgrees shape.slots shape'.slots)
    (h : Answers glance glance') (hadmits : shape.Admits glance) : shape'.Admits glance' := by
  cases h with
  | obj hrecalls => exact Shape.admits_named hrecalls.nodup
  | @arr items values hitems =>
      have hneeds : shape'.slots.map Slot.need = shape.slots.map Slot.need :=
        map_eq_of_forall₂ (fun _ _ hagrees => hagrees.need) hslots
      rw [Shape.admits_arr_iff] at hadmits ⊢
      rwa [hneeds, ← hitems.length_eq]

theorem rel_given (hslots : List.Forall₂ SlotAgrees shape.slots shape'.slots)
    (h : Answers glance glance') (hadmits : shape.Admits glance) {key : String}
    (hkey : key ∈ shape.keys) :
    Option.Rel (fun member value => member.value? = some value)
      (shape.given glance key) (shape'.given glance' key) := by
  cases h with
  | @obj members entries hrecalls =>
      rw [Shape.given, Shape.given, memberUnder_named]
      exact hrecalls.under key (Shape.Accepts.count_le_one hadmits hkey)
  | @arr items values hitems =>
      have hkeys : shape'.slots.map Slot.key = shape.slots.map Slot.key :=
        map_eq_of_forall₂ (fun _ _ hagrees => hagrees.key) hslots
      rw [Shape.given, Shape.given, itemUnder, itemUnder, hkeys]
      clear hadmits hkey
      generalize shape.slots.map Slot.key = keys
      induction hitems generalizing keys with
      | nil =>
          rw [List.zip_nil_right, List.zip_nil_right]
          exact .none
      | cons hitem _ ih =>
          cases keys with
          | nil => exact .none
          | cons name rest =>
              rw [List.zip_cons_cons, List.zip_cons_cons, lookup_cons_eq, lookup_cons_eq]
              split
              · exact .some hitem
              · exact ih rest

theorem fill_of_answers (hslots : List.Forall₂ SlotAgrees shape.slots shape'.slots)
    (h : Answers glance glance') (hadmits : shape.Admits glance) {record result : ρ}
    (hfill : fillFrom (shape.given glance) shape.slots record = .ok result) :
    fillFrom (shape'.given glance') shape'.slots record = .ok result := by
  have hmem : ∀ s ∈ shape.slots, s.key ∈ shape.keys := fun s hm => List.mem_map_of_mem hm
  refine fillFrom_follows id ?_ hfill
  refine ((List.forall₂_and_left _ _).mpr ⟨hmem, hslots⟩).imp ?_
  rintro s t ⟨hkey, hagrees⟩
  have hgiven := rel_given hslots h hadmits hkey
  refine ⟨hagrees.key, hagrees.need, fun hnone => ?_, fun value hsome => ?_⟩
  · rw [hnone] at hgiven
    generalize shape'.given glance' s.key = other at hgiven ⊢
    cases hgiven
    rfl
  · rw [hsome] at hgiven
    generalize shape'.given glance' s.key = other at hgiven ⊢
    cases hgiven with
    | some hvalue => exact ⟨_, rfl, fun record next hfill => hagrees.fill record hvalue hfill⟩

theorem agree_read (hs : shape.Independent) (hs' : shape'.Independent)
    (hslots : List.Forall₂ SlotAgrees shape.slots shape'.slots)
    (hblank : shape'.blank = shape.blank) : Agree shape.read shape'.read := by
  intro document value result hvalue hread
  obtain ⟨glance, hlook, hadmits, hfill⟩ := (Shape.read_eq_ok_iff hs).mp hread
  obtain ⟨_, hlook', hshows⟩ := shows_of_value? hvalue
  cases hlook.symm.trans hlook'
  have hanswers := answers_of_shows hshows hadmits
  refine (Shape.read_eq_ok_iff hs').mpr ⟨_, rfl, admits_of_answers hslots hanswers hadmits, ?_⟩
  rw [hblank]
  exact fill_of_answers hslots hanswers hadmits hfill

end

end Reading

namespace SliceChoice

theorem recalls_untagged {members : List (Option String × Document)}
    {entries : List (String × Json)} (h : Recalls members entries) :
    Recalls (untagged members) (entries.filter (·.1 != "type")) where
  nodup := h.nodup.sublist (List.filter_sublist.map Prod.fst)
  under := by
    intro key hcount
    by_cases hk : key = "type"
    · subst hk
      rw [lookup_filter_self, untagged, memberUnder, lookup_filter_self]
      exact .none
    · have hkeys : (untagged members).map Prod.fst =
          (members.map Prod.fst).filter (· != some "type") := by
        rw [untagged, List.filter_map, Function.comp_def]
      rw [hkeys, List.count_filter (by simpa using hk)] at hcount
      rw [memberUnder_untagged hk, lookup_filter_ne hk]
      exact h.under key hcount

theorem parted_of_shows {glance : Glance Document} {glance' : Glance Json} {first : Document}
    {content : Glance Document} (h : Shows glance glance') (hwhole : Whole glance)
    (hparted : parted glance = some (first, content)) :
    ∃ first' content', parted glance' = some (first', content') ∧ Whole glance' ∧
      first.value? = some first' ∧ Answers content content' := by
  cases h with
  | @obj members entries hmembers =>
      obtain ⟨_, hfirst, he⟩ := Option.map_eq_some_iff.mp hparted
      cases he
      have hrecalls := recalls_ofList hmembers
      have hunder := hrecalls.under "type" hwhole.once
      rw [hfirst] at hunder
      generalize hfirst' : (OrderedMap.ofList entries).entries.lookup "type" = other at hunder
      cases hunder with
      | some hvalue =>
          refine ⟨_, .obj (untagged (named (OrderedMap.ofList entries).entries)), ?_,
            taken_named hrecalls.nodup, hvalue, ?_⟩
          · rw [parted, memberUnder_named, hfirst']
            rfl
          · rw [untagged_named]
            exact .obj (recalls_untagged hrecalls)
  | @arr items values hitems =>
      cases hitems with
      | nil => cases hparted
      | cons hitem hrest =>
          cases hparted
          exact ⟨_, _, rfl, fun _ _ => rfl, hitem, .arr hrest⟩
  | _ => cases hparted

theorem bare_of_answers {content : Glance Document} {content' : Glance Json}
    (h : Answers content content') (hbare : Bare content) : Bare content' := by
  cases h with
  | obj => trivial
  | arr hitems =>
      cases hbare
      exact (List.forall₂_nil_left_iff.mp hitems)

theorem agree_readTag : Agree (readTag : Reader Document String) readTag := by
  apply agree_of_shows
  intro _ _ _ _ _ _ hshows hnext
  cases hshows with
  | str value => exact hnext
  | _ => cases hnext

theorem slotAgrees_localShape {readField : Reader Document Field} {readField' : Reader Json Field}
    (h : Agree readField readField') :
    List.Forall₂ SlotAgrees (localShape readField).slots (localShape readField').slots :=
  .cons (slotAgrees_slot (agree_optional agree_text)) <|
  .cons (slotAgrees_slot (agree_optional agree_text)) <|
  .cons (slotAgrees_slot (agree_orderedMap h)) <|
  .cons (slotAgrees_slot (agree_orderedMap h)) .nil

theorem agree_readWith {readField : Reader Document Field} {readField' : Reader Json Field}
    (h : Agree readField readField') : Agree (readWith readField) (readWith readField') := by
  intro document value choice hvalue hread
  obtain ⟨glance, first, content, tag, hlook, hparted, htag, hwhole, hmade⟩ :=
    readWith_eq_ok_iff.mp hread
  obtain ⟨_, hlook', hshows⟩ := shows_of_value? hvalue
  cases hlook.symm.trans hlook'
  obtain ⟨first', content', hparted', hwhole', hfirst, hcontent⟩ :=
    parted_of_shows hshows hwhole hparted
  refine readWith_eq_ok_iff.mpr
    ⟨_, first', content', tag, rfl, hparted', agree_readTag hfirst htag, hwhole', ?_⟩
  by_cases hslice : tag = "Slice"
  · subst hslice
    obtain ⟨slice, hadmits, hfill, hchoice⟩ := hmade
    have hslots := slotAgrees_localShape h
    exact ⟨slice, admits_of_answers hslots hcontent hadmits,
      fill_of_answers hslots hcontent hadmits hfill, hchoice⟩
  · rw [Made, if_neg hslice] at hmade ⊢
    exact ⟨bare_of_answers hcontent hmade.1, hmade.2⟩

end SliceChoice

-- A field is read from the value on either route.
theorem Field.agree_read : Agree (Field.read : Reader Document Field) Field.read := by
  intro document value field hvalue hread
  obtain ⟨glance, hlook, hfield⟩ := bind_eq_ok_iff.mp hread
  obtain ⟨_, hlook', hshows⟩ := shows_of_value? hvalue
  cases hlook.symm.trans hlook'
  refine bind_eq_ok_iff.mpr ⟨_, rfl, ?_⟩
  have htaken : (JsonSource.value document : Except Fault Json) = .ok value :=
    congrArg (fun taken => Option.elim taken (Except.error Fault.malformed) Except.ok) hvalue
  generalize glanceJson value = glance' at hshows ⊢
  cases hshows with
  | obj hmembers =>
      obtain ⟨_, htaken', hfield⟩ := bind_eq_ok_iff.mp hfield
      cases htaken.symm.trans htaken'
      exact hfield
  | _ => cases hfield

theorem FieldSet.agree_read : Agree (FieldSet.read : Reader Document FieldSet) FieldSet.read :=
  agree_orderedMap Field.agree_read

theorem SliceChoice.agree_read :
    Agree (SliceChoice.read : Reader Document SliceChoice) SliceChoice.read :=
  agree_readWith Field.agree_read

theorem CustomType.agree_read :
    Agree (CustomType.read : Reader Document CustomType) CustomType.read := by
  refine Reading.agree_read CustomType.independent CustomType.independent ?_ rfl
  exact
    .cons (slotAgrees_slot agree_text) <|
    .cons (slotAgrees_slot (agree_optional agree_text)) <|
    .cons (slotAgrees_slot agree_truth) <|
    .cons (slotAgrees_slot (agree_optional agree_truth)) <|
    .cons (slotAgrees_slot (agree_orderedMap FieldSet.agree_read)) .nil

theorem Variation.agree_read :
    Agree (Variation.read : Reader Document Variation) Variation.read := by
  refine Reading.agree_read Variation.independent Variation.independent ?_ rfl
  exact
    .cons (slotAgrees_slot agree_text) <|
    .cons (slotAgrees_slot (agree_optional agree_text)) <|
    .cons (slotAgrees_slot (agree_optional agree_text)) <|
    .cons (slotAgrees_slot FieldSet.agree_read) <|
    .cons (slotAgrees_slot FieldSet.agree_read) .nil

theorem SharedSlice.agree_read :
    Agree (SharedSlice.read : Reader Document SharedSlice) SharedSlice.read := by
  refine Reading.agree_read SharedSlice.independent SharedSlice.independent ?_ rfl
  exact
    .cons (slotAgrees_slot agree_text) <|
    .cons (slotAgrees_slot (agree_optional agree_text)) <|
    .cons (slotAgrees_slot (agree_optional agree_text)) <|
    .cons (slotAgrees_slot (agree_list Variation.agree_read)) .nil

-- What is read straight from a document is read from its value, for every type that has a decoder.
theorem Document.routes_agree {document : Document} {value : Json}
    (hvalue : document.value? = some value) :
    (∀ model, CustomType.read document = .ok model → CustomType.read value = .ok model) ∧
      (∀ model, SharedSlice.read document = .ok model → SharedSlice.read value = .ok model) ∧
      (∀ field, Field.read document = .ok field → Field.read value = .ok field) ∧
      (∀ choice, SliceChoice.read document = .ok choice → SliceChoice.read value = .ok choice) :=
  ⟨fun _ => CustomType.agree_read hvalue, fun _ => SharedSlice.agree_read hvalue,
    fun _ => Field.agree_read hvalue, fun _ => SliceChoice.agree_read hvalue⟩

-- Notes, a tab, a field and a kind are given twice.
def Document.doubledKind : Document :=
  .obj [(some "type", .str (some "Text")), (some "type", .str (some "UID"))]

def Document.doubledFields : Document :=
  .obj
    [ (some "uid", .obj [(some "type", .str (some "Date"))])
    , (some "title", .obj [(some "type", .str (some "Text"))]), (some "uid", doubledKind) ]

def Document.doubledPage : Document :=
  .obj
    [ (some "id", .str (some "page")), (some "note", .null), (some "note", .bool true)
    , (some "json", .obj
        [(some "Main", .obj []), (some "Seo", .obj []), (some "Main", doubledFields)]) ]

def Document.doubledSlice : Document :=
  .obj
    [ (some "note", .null), (some "id", .str (some "hero")), (some "note", .null)
    , (some "variations", .arr
        [.obj [(some "id", .str (some "default")), (some "primary", doubledFields)]]) ]

def Document.doubledChoice : Document :=
  .obj
    [ (some "note", .null), (some "repeat", doubledFields), (some "note", .null)
    , (some "type", .str (some "Slice")) ]

theorem Document.routes_agree_doubled :
    (∃ value, doubledPage.value? = some value ∧
      ∃ model, CustomType.read doubledPage = .ok model ∧ CustomType.read value = .ok model) ∧
    (∃ value, doubledSlice.value? = some value ∧
      ∃ model, SharedSlice.read doubledSlice = .ok model ∧ SharedSlice.read value = .ok model) ∧
    (∃ value, doubledKind.value? = some value ∧
      ∃ field, Field.read doubledKind = .ok field ∧ Field.read value = .ok field) ∧
    ∃ value, doubledChoice.value? = some value ∧
      ∃ choice, SliceChoice.read doubledChoice = .ok choice ∧
        SliceChoice.read value = .ok choice :=
  ⟨⟨_, rfl, _, rfl, (@routes_agree doubledPage _ rfl).1 _ rfl⟩,
    ⟨_, rfl, _, rfl, (@routes_agree doubledSlice _ rfl).2.1 _ rfl⟩,
    ⟨_, rfl, _, rfl, (@routes_agree doubledKind _ rfl).2.2.1 _ rfl⟩,
    ⟨_, rfl, _, rfl, (@routes_agree doubledChoice _ rfl).2.2.2 _ rfl⟩⟩

end ContentTypes
