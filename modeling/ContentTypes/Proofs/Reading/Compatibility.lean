import ContentTypes.Generation
import ContentTypes.Proofs.Reading.FieldEdits

namespace ContentTypes

open Reading

variable {α : Type} {bound : Nat}

theorem Field.read_eq_ok_iff {value : Json} {field : Field} :
    Field.read value = .ok field ↔ Field.ofJson value = .ok field := by
  constructor
  · intro h
    obtain ⟨glance, -, hfield⟩ := bind_eq_ok_iff.mp h
    cases glance with
    | obj members => exact hfield
    | _ => cases hfield
  · intro h
    obtain ⟨members, _, rfl, -, -⟩ := Field.readLevel_eq_ok_iff.mp h
    exact h

theorem Field.follows_read : Follows bound .field Field.read Field.read Field.revise := by
  intro change value value' field hedit _ hread
  rw [Field.read_eq_ok_iff] at hread ⊢
  exact Field.follows_readLevels _ _ hedit (Nat.lt_succ_self _) hread

theorem CustomType.follows_read :
    Follows bound Part.customType CustomType.read CustomType.read CustomType.revise := by
  refine ContentTypes.follows_read CustomType.independent CustomType.independent ?_ fun _ => rfl
  exact
    .cons (slotFollows_slot (follows_whole _) fun _ _ _ => rfl) <|
    .cons (slotFollows_slot (follows_whole _) fun _ _ _ => rfl) <|
    .cons (slotFollows_slot (follows_whole _) fun _ _ _ => rfl) <|
    .cons (slotFollows_slot (follows_whole _) fun _ _ _ => rfl) <|
    .cons (slotFollows_slot (follows_orderedMap (follows_fields Field.follows_read))
      fun _ _ _ => rfl) .nil

theorem Variation.follows_read :
    Follows bound Part.variation Variation.read Variation.read Variation.revise := by
  refine ContentTypes.follows_read Variation.independent Variation.independent ?_ fun _ => rfl
  exact
    .cons (slotFollows_slot (follows_whole _) fun _ _ _ => rfl) <|
    .cons (slotFollows_slot (follows_whole _) fun _ _ _ => rfl) <|
    .cons (slotFollows_slot (follows_whole _) fun _ _ _ => rfl) <|
    .cons (slotFollows_slot (follows_fields Field.follows_read) fun _ _ _ => rfl) <|
    .cons (slotFollows_slot (follows_fields Field.follows_read) fun _ _ _ => rfl) .nil

theorem SharedSlice.follows_read (beside : List String) :
    Follows bound (Part.sharedSlice beside) SharedSlice.read SharedSlice.read
      SharedSlice.revise := by
  refine ContentTypes.follows_read SharedSlice.independent SharedSlice.independent ?_ fun _ => rfl
  exact
    .cons (slotFollows_slot (follows_whole _) fun _ _ _ => rfl) <|
    .cons (slotFollows_slot (follows_whole _) fun _ _ _ => rfl) <|
    .cons (slotFollows_slot (follows_whole _) fun _ _ _ => rfl) <|
    .cons (slotFollows_slot (follows_list Variation.follows_read) fun _ _ _ => rfl) .nil

-- What holds of one edit holds of any number of them.
theorem read_of_edits {ε : Type} {part : Part} {read : Json → Except ε α}
    {revise : Change → α → α} (hnone : ∀ model, revise none model = model)
    (hone : ∀ {change value value' model}, Edit part change value value' →
      read value = .ok model → read value' = .ok (revise change model))
    {revisions : List Revision} {value value' : Json} (hedits : Edits part revisions value value')
    {model : α} (hread : read value = .ok model) :
    read value' = .ok (reviseAll revise revisions model) := by
  induction hedits generalizing model with
  | nil => exact hread
  | @cons change revisions _ _ _ hedit _ ih =>
      have hnext := ih (hone hedit hread)
      cases change with
      | none => rwa [hnone] at hnext
      | some revision => exact hnext

theorem CustomType.ofJson_of_edit {change : Change} {value value' : Json} {model : CustomType}
    (hedit : Edit Part.customType change value value')
    (hread : CustomType.ofJson value = .ok model) :
    CustomType.ofJson value' = .ok (model.revise change) := by
  rw [ofJson, mapError_eq_ok_iff] at hread ⊢
  exact follows_read hedit (Nat.lt_succ_self _) hread

theorem SharedSlice.ofJson_eq_ok_iff {value : Json} {model : SharedSlice} :
    SharedSlice.ofJson value = .ok model ↔
      (∀ given, (value.get? "type").bind Json.text? = some given → given = "SharedSlice") ∧
        SharedSlice.read value = .ok model := by
  rw [ofJson]
  cases (value.get? "type").bind Json.text? with
  | none => simp [mapError_eq_ok_iff]
  | some given => by_cases hslice : given = "SharedSlice" <;> simp [hslice, mapError_eq_ok_iff]

theorem SharedSlice.ofJson_of_edit {change : Change} {value value' : Json} {model : SharedSlice}
    (hedit : Edit (Part.sharedSlice ["type"]) change value value')
    (hread : SharedSlice.ofJson value = .ok model) :
    SharedSlice.ofJson value' = .ok (model.revise change) := by
  have htype : value'.get? "type" = value.get? "type" :=
    hedit.get?_beside List.mem_cons_self (by decide)
  rw [ofJson_eq_ok_iff] at hread ⊢
  rw [htype]
  exact ⟨hread.1, follows_read _ hedit (Nat.lt_succ_self _) hread.2⟩

-- What is read survives the edits, but for the captions of the fields that they configured anew.
theorem read_after_edits {revisions : List Revision} {value value' : Json} :
    (∀ model, Edits Part.customType revisions value value' → CustomType.ofJson value = .ok model →
        CustomType.ofJson value' = .ok (reviseAll CustomType.revise revisions model)) ∧
      (∀ model, Edits (Part.sharedSlice ["type"]) revisions value value' →
        SharedSlice.ofJson value = .ok model →
        SharedSlice.ofJson value' = .ok (reviseAll SharedSlice.revise revisions model)) ∧
      (∀ model, Edits (Part.sharedSlice []) revisions value value' →
        SharedSlice.read value = .ok model →
        SharedSlice.read value' = .ok (reviseAll SharedSlice.revise revisions model)) ∧
      (∀ field, Edits .field revisions value value' → Field.read value = .ok field →
        Field.read value' = .ok (reviseAll Field.revise revisions field)) ∧
      ∀ choice, Edits .choice revisions value value' → SliceChoice.read value = .ok choice →
        SliceChoice.read value' = .ok (reviseAll SliceChoice.revise revisions choice) := by
  refine ⟨fun model hedits => ?_, fun model hedits => ?_, fun model hedits => ?_,
    fun field hedits => ?_, fun choice hedits => ?_⟩
  · exact read_of_edits CustomType.revise_none CustomType.ofJson_of_edit hedits
  · exact read_of_edits SharedSlice.revise_none SharedSlice.ofJson_of_edit hedits
  · exact read_of_edits SharedSlice.revise_none
      (fun hedit => SharedSlice.follows_read [] hedit (Nat.lt_succ_self _)) hedits
  · exact read_of_edits Field.revise_none
      (fun hedit => Field.follows_read hedit (Nat.lt_succ_self _)) hedits
  · exact read_of_edits SliceChoice.revise_none
      (fun hedit => SliceChoice.follows_readWith Field.follows_read hedit (Nat.lt_succ_self _))
      hedits

-- A field of a kind that is not known, and a choice with a tag that is not known.
def Json.moodyFields (mood odd : Json) : Json :=
  .record
    [ ("mood", mood)
    , ("body", .record
        [ ("type", "Slices")
        , ("config", .record [("choices", .record [("odd", odd)])]) ]) ]

def Json.mood (config : Json) : Json := .record [("type", "Mood"), ("config", config)]

def Json.oddChoice (size : Nat) : Json := .record [("size", .ofNat size), ("type", "Widget")]

theorem edit_mood (config config' : Json) :
    Edit .field (some ⟨[], config'⟩) (Json.mood config) (Json.mood config') :=
  .configured config' rfl (by decide)

theorem edit_oddChoice (size size' : Nat) :
    Edit .choice none (Json.oddChoice size) (Json.oddChoice size') :=
  .besideTag rfl rfl (by decide) (by decide) (by simp)

theorem edit_moodyFields (config config' odd : Json) :
    Edit Part.fields (some ⟨[.key "mood"], config'⟩) (Json.moodyFields (Json.mood config) odd)
      (Json.moodyFields (Json.mood config') odd) :=
  @Edit.inEntry _ [] _ "mood" _ _ _ (by simp) (edit_mood config config')

theorem edit_moodyFields_odd (mood : Json) (size size' : Nat) :
    Edit Part.fields none (Json.moodyFields mood (Json.oddChoice size))
      (Json.moodyFields mood (Json.oddChoice size')) :=
  @Edit.inEntry _ [_] [] "body" none _ _ (by simp) <|
    .inField rfl <|
      @Edit.inMember _ _ [_] [] "config" _ none _ _ (List.mem_cons_of_mem _ List.mem_cons_self)
        (by simp) <|
        @Edit.inMember _ _ [] [] "choices" _ none _ _ List.mem_cons_self (by simp) <|
          @Edit.inEntry _ [] [] "odd" none _ _ (by simp) (edit_oddChoice size size')

def Json.oldMood : Json := .mood (.record [("label", "Old")])

def Json.newMood : Json := .mood (.record [("label", "New")])

def Json.moodyPage (fields : Json) : Json :=
  .record [("id", "page"), ("json", .record [("Main", fields)])]

def Json.notedPage (fields : Json) : Json :=
  .record [("json", .record [("Main", fields)]), ("id", "page"), ("note", .null)]

def Json.moodySlice (fields : Json) : Json :=
  .record [("id", "hero"), ("variations", .arr [.record [("id", "default"), ("primary", fields)]])]

theorem edit_moodyPage {change : Change} {fields fields' : Json}
    (hedit : Edit Part.fields change fields fields') :
    Edit Part.customType ((change.above (.key "Main")).above (.key "json"))
      (Json.moodyPage fields) (Json.moodyPage fields') :=
  @Edit.inMember _ _ [_] [] "json" _ _ _ _ (List.mem_of_getElem? (i := 4) rfl) (by simp)
    (@Edit.inEntry _ [] [] "Main" _ _ _ (by simp) hedit)

-- The mood and the size of the odd choice change, a note is added, and the id goes behind.
theorem edits_moodyPage :
    Edits Part.customType
      [⟨[.key "json", .key "Main", .key "mood"], .record [("label", "New")]⟩]
      (Json.moodyPage (Json.moodyFields Json.oldMood (Json.oddChoice 1)))
      (Json.notedPage (Json.moodyFields Json.newMood (Json.oddChoice 2))) :=
  .cons (edit_moodyPage (edit_moodyFields _ (.record [("label", "New")]) _)) <|
  .cons (edit_moodyPage (edit_moodyFields_odd _ 1 2)) <|
  .cons (@Edit.added _ [] [_, _] [] "note" .null (by decide) (by decide) (by decide)) <|
  .cons (.permuted (.swap _ _ _) (by decide)) (.nil _)

theorem edits_moodySlice (beside : List String) :
    Edits (Part.sharedSlice beside)
      [⟨[.key "variations", .item 0, .key "primary", .key "mood"], .record [("label", "New")]⟩]
      (Json.moodySlice (Json.moodyFields Json.oldMood (Json.oddChoice 1)))
      (Json.moodySlice (Json.moodyFields Json.newMood (Json.oddChoice 1))) :=
  .cons (@Edit.inMember _ _ [_] [] "variations" _ _ _ _ (List.mem_of_getElem? (i := 3) rfl)
    (by decide) (@Edit.inItem _ [] [] _ _ _ (@Edit.inMember _ _ [_] [] "primary" _ _ _ _
      (List.mem_of_getElem? (i := 3) rfl) (by decide)
        (edit_moodyFields _ (.record [("label", "New")]) _)))) (.nil _)

theorem read_after_edits_mood :
    (∃ model,
      CustomType.ofJson (.moodyPage (.moodyFields .oldMood (.oddChoice 1))) = .ok model ∧
      CustomType.ofJson (.notedPage (.moodyFields .newMood (.oddChoice 2))) =
        .ok (reviseAll CustomType.revise
          [⟨[.key "json", .key "Main", .key "mood"], .record [("label", "New")]⟩] model)) ∧
    (∃ model,
      SharedSlice.ofJson (.moodySlice (.moodyFields .oldMood (.oddChoice 1))) = .ok model ∧
      SharedSlice.ofJson (.moodySlice (.moodyFields .newMood (.oddChoice 1))) =
        .ok (reviseAll SharedSlice.revise
          [⟨[.key "variations", .item 0, .key "primary", .key "mood"],
            .record [("label", "New")]⟩] model)) ∧
    (∃ model,
      SharedSlice.read (Json.moodySlice (.moodyFields .oldMood (.oddChoice 1))) = .ok model ∧
      SharedSlice.read (Json.moodySlice (.moodyFields .newMood (.oddChoice 1))) =
        .ok (reviseAll SharedSlice.revise
          [⟨[.key "variations", .item 0, .key "primary", .key "mood"],
            .record [("label", "New")]⟩] model)) ∧
    (∃ field, Field.read Json.oldMood = .ok field ∧
      Field.read Json.newMood =
        .ok (reviseAll Field.revise [⟨[], .record [("label", "New")]⟩] field)) ∧
    ∃ choice, SliceChoice.read (Json.oddChoice 1) = .ok choice ∧
      SliceChoice.read (Json.oddChoice 2) = .ok (reviseAll SliceChoice.revise [] choice) :=
  ⟨⟨_, rfl, read_after_edits.1 _ edits_moodyPage rfl⟩,
    ⟨_, rfl, read_after_edits.2.1 _ (edits_moodySlice _) rfl⟩,
    ⟨_, rfl, read_after_edits.2.2.1 _ (edits_moodySlice _) rfl⟩,
    ⟨_, rfl, read_after_edits.2.2.2.1 _ (.cons (edit_mood _ _) (.nil _)) rfl⟩,
    ⟨_, rfl, read_after_edits.2.2.2.2 _ (.cons (edit_oddChoice 1 2) (.nil _)) rfl⟩⟩

end ContentTypes
