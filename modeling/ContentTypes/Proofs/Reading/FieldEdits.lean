import ContentTypes.Proofs.Reading.Following

namespace ContentTypes

open Reading

variable {ρ : Type} {bound : Nat} {readField readField' : Reader Json Field}

theorem follows_fields (h : Follows bound .field readField readField' Field.revise) :
    Follows bound Part.fields (orderedMap readField) (orderedMap readField') FieldSet.revise :=
  follows_orderedMap h

theorem slotsFollow_localShape (h : Follows bound .field readField readField' Field.revise) :
    SlotsFollow bound LocalSlice.revise Part.localSlice
      (SliceChoice.localShape readField).slots (SliceChoice.localShape readField').slots :=
  .cons (slotFollows_slot (follows_whole _) fun _ _ _ => rfl) <|
  .cons (slotFollows_slot (follows_whole _) fun _ _ _ => rfl) <|
  .cons (slotFollows_slot (follows_fields h) fun _ _ _ => rfl) <|
  .cons (slotFollows_slot (follows_fields h) fun _ _ _ => rfl) .nil

namespace SliceChoice

variable {change : Change} {value value' first : Json} {content : Glance Json} {tag : String}

theorem revise_ofLocal (change : Change) (slice : LocalSlice) :
    (ofLocal slice).revise change = ofLocal (slice.revise change) := by
  obtain ⟨fieldset, description, ⟨nonRepeat⟩, ⟨repeated⟩⟩ := slice
  rw [ofLocal, SliceChoice.revise, Field.reviseEach_eq, Field.reviseEach_eq]
  rfl

theorem nodup_ofTag (tag : String) : ((Part.ofTag tag).map Prod.fst).Nodup := by
  unfold Part.ofTag
  split <;> decide

theorem ne_type_of_localSlice : ∀ part ∈ Part.localSlice, part.1 ≠ "type" := by
  simp [Part.localSlice]

-- What stands beside the tag keeps its form.
theorem parted_of_edit (hedit : Edit (.record (Part.ofTag tag) []) change value value')
    (hparted : parted (glanceJson value) = some (first, content))
    (hwhole : Whole (glanceJson value)) :
    ∃ content', parted (glanceJson value') = some (first, content') ∧
      Whole (glanceJson value') ∧ (Bare content → Bare content') ∧
      ((localShape readField).Admits content → (localShape readField').Admits content') := by
  have hfirst : part? ((Part.ofTag tag).map Prod.fst) "type" value = some first :=
    (part?_type_eq_some_iff rfl _).mpr ⟨content, hparted⟩
  have hmem : ("type", Part.whole) ∈ Part.ofTag tag := List.mem_cons_self
  have htype := hedit.part? (nodup_ofTag tag) hmem
  obtain ⟨content', hparted'⟩ :=
    (part?_type_eq_some_iff rfl _).mp (htype.whole.trans hfirst)
  refine ⟨content', hparted', ?_⟩
  rcases hedit.record_cases with rfl | ⟨members, members', rfl, rfl, -, hnodup⟩ |
    ⟨items, items', rfl, rfl, hlength⟩
  · cases hparted.symm.trans hparted'
    have hkeys : (localShape readField').keys = (localShape readField).keys := rfl
    exact ⟨hwhole, id, Reading.Shape.admits_congr hkeys rfl⟩
  · obtain ⟨_, -, he⟩ := Option.map_eq_some_iff.mp hparted'
    cases he
    refine ⟨taken_named hnodup, fun _ => trivial, fun _ => ?_⟩
    change (localShape readField').Admits (.obj (untagged (named members')))
    rw [untagged_named]
    exact Reading.Shape.admits_named (hnodup.sublist (List.filter_sublist.map Prod.fst))
  · cases items with
    | nil => cases hparted
    | cons _ others =>
        cases items' with
        | nil => cases hparted'
        | cons _ others' =>
            cases hparted
            cases hparted'
            have hothers : others'.length = others.length := Nat.succ.inj hlength
            refine ⟨fun _ _ => rfl, fun hbare => ?_, fun hadmits => ?_⟩
            · cases hbare
              exact List.length_eq_zero_iff.mp hothers
            · rw [Reading.Shape.admits_arr_iff] at hadmits ⊢
              rwa [hothers]

theorem made_of_edit (h : Follows bound .field readField readField' Field.revise)
    (hedit : Edit (.record (Part.ofTag tag) []) change value value')
    (hdepth : value'.depth < bound)
    {content' : Glance Json} (hparted : parted (glanceJson value) = some (first, content))
    (hparted' : parted (glanceJson value') = some (first, content'))
    (hbare : Bare content → Bare content')
    (hadmits : (localShape readField).Admits content → (localShape readField').Admits content')
    {choice : SliceChoice} (hmade : Made readField content tag choice) :
    Made readField' content' tag (choice.revise change) := by
  by_cases hslice : tag = "Slice"
  · subst hslice
    obtain ⟨slice, hadmitted, hfill, rfl⟩ := hmade
    refine ⟨slice.revise change, hadmits hadmitted, ?_, (revise_ofLocal change slice).symm⟩
    refine fillFrom_follows (LocalSlice.revise change)
      ((slotsFollow_localShape h).forall₂ (fun part hpart => ?_) ?_) hfill
    · have hkey := ne_type_of_localSlice part hpart
      rw [given_eq_part? rfl hparted hkey, given_eq_part? rfl hparted' hkey]
      exact hedit.part? (by decide) (List.mem_cons_of_mem _ hpart)
    · intro part hpart inner hinner
      rw [given_eq_part? rfl hparted' (ne_type_of_localSlice part hpart)] at hinner
      exact Nat.lt_trans (Json.depth_lt_of_part? hinner) hdepth
  · rw [Made, if_neg hslice] at hmade ⊢
    obtain ⟨hbare', rfl⟩ := hmade
    refine ⟨hbare hbare', ?_⟩
    split <;> rfl

theorem readTag_of_tag? {value : Json} (h : value.tag? = some tag) :
    ∃ first content, parted (glanceJson value) = some (first, content) ∧
      readTag first = .ok tag := by
  obtain ⟨first, hfirst, htext⟩ := Option.bind_eq_some_iff.mp h
  obtain ⟨content, hparted⟩ := (part?_type_eq_some_iff rfl _).mp hfirst
  exact ⟨first, content, hparted, textOf?_eq_some_iff.mp htext⟩

theorem follows_readWith (h : Follows bound .field readField readField' Field.revise) :
    Follows bound .choice (readWith readField) (readWith readField') SliceChoice.revise := by
  intro change value value' choice hedit hdepth hread
  obtain ⟨_, first, content, tag, hlook, hparted, htag, hwhole, hmade⟩ :=
    readWith_eq_ok_iff.mp hread
  cases hlook
  have htold : value.tag? = some tag := tag?_of_parted rfl hparted htag
  have hrecord : Edit (.record (Part.ofTag tag) []) change value value' →
      readWith readField' value' = .ok (choice.revise change) := by
    intro hedit
    obtain ⟨content', hparted', hwhole', hbare, hadmits⟩ :=
      @parted_of_edit readField readField' _ _ _ _ _ _ hedit hparted hwhole
    exact readWith_eq_ok_iff.mpr ⟨_, first, content', tag, rfl, hparted', htag, hwhole',
      made_of_edit h hedit hdepth hparted hparted' hbare hadmits hmade⟩
  cases hedit with
  | same => exact hrecord (.same _ value)
  | inChoice htag' hedit =>
      cases htold.symm.trans htag'
      exact hrecord hedit
  | besideTag htag' hnew hslice hshared hnodup =>
      cases htold.symm.trans htag'
      obtain ⟨first', content', hparted', htag''⟩ := readTag_of_tag? hnew
      refine readWith_eq_ok_iff.mpr
        ⟨_, first', content', tag, rfl, hparted', htag'', taken_named hnodup, ?_⟩
      rw [Made, if_neg hslice] at hmade ⊢
      obtain ⟨-, rfl⟩ := hmade
      obtain ⟨_, -, he⟩ := Option.map_eq_some_iff.mp hparted'
      cases he
      rw [if_neg hshared]
      exact ⟨trivial, rfl⟩

end SliceChoice

namespace Field

theorem follows_flat {shape : Reading.Shape Json ρ} (hs : shape.Independent) :
    Follows bound (Part.flat shape.keys) shape.read shape.read fun _ config => config :=
  fun _ _ _ _ hedit _ hread => (read_flat_iff hs hedit).mpr hread

theorem follows_image : Follows bound (Part.ofConfig "Image") (readConfig ImageConfig.shape)
    (readConfig ImageConfig.shape) fun _ config => config := by
  have hthumbnails : Follows bound (.items Part.thumbnail) (list Thumbnail.shape.read)
      (list Thumbnail.shape.read) fun _ thumbnails => thumbnails.zipIdx.map Prod.fst :=
    follows_list (follows_flat Thumbnail.independent)
  have hread : Follows bound (Part.ofConfig "Image") ImageConfig.shape.read
      ImageConfig.shape.read fun _ config => config := by
    refine follows_read ImageConfig.independent ImageConfig.independent ?_ fun _ => rfl
    refine .cons (slotFollows_slot (follows_whole _) fun _ _ _ => rfl) (.cons
      (slotFollows_slot hthumbnails fun _ config thumbnails => ?_) .nil)
    rw [List.zipIdx_map_fst]
  exact follows_readConfig hread fun _ => rfl

theorem follows_group (h : Follows bound .field readField readField' Field.revise) :
    Follows bound (Part.ofConfig "Group") (readConfig (GroupConfig.shape readField))
      (readConfig (GroupConfig.shape readField')) GroupConfig.revise := by
  have hread : Follows bound (Part.ofConfig "Group") (GroupConfig.shape readField).read
      (GroupConfig.shape readField').read GroupConfig.revise := by
    refine follows_read (GroupConfig.independent readField) (GroupConfig.independent readField')
      ?_ fun _ => rfl
    exact
      .cons (slotFollows_slot (follows_whole _) fun _ _ _ => rfl) <|
      .cons (slotFollows_slot (follows_fields h) fun _ _ _ => rfl) <|
      .cons (slotFollows_slot (follows_whole _) fun _ _ _ => rfl) .nil
  exact follows_readConfig hread fun _ => rfl

theorem follows_zone (h : Follows bound .field readField readField' Field.revise) :
    Follows bound (Part.ofConfig "Slices") (readConfig (zoneShape readField))
      (readConfig (zoneShape readField')) reviseZone := by
  have hread : Follows bound (Part.ofConfig "Slices") (zoneShape readField).read
      (zoneShape readField').read reviseZone := by
    refine follows_read (independent_zoneShape readField) (independent_zoneShape readField') ?_
      fun _ => rfl
    exact .cons (slotFollows_slot (follows_orderedMap (SliceChoice.follows_readWith h))
      fun _ _ _ => rfl) .nil
  exact follows_readConfig hread fun _ => rfl

-- Whether the configuration could be read or not, it can be read no better now.
theorem forgivingConfig_of_edit {shape : Reading.Shape Json ρ} (hs : shape.Independent)
    {change : Change} {config config' : Json}
    (hedit : Edit (Part.flat shape.keys) change config config') :
    forgivingConfig shape config' = forgivingConfig shape config := by
  rw [forgivingConfig, forgivingConfig]
  cases hread : readConfig shape config with
  | ok found => rw [(readConfig_flat_iff hs hedit).mpr hread]
  | error fault =>
      cases hread' : readConfig shape config' with
      | ok found =>
          rw [readConfig_flat_iff hs hedit, hread] at hread'
          cases hread'
      | error fault' => rfl

theorem ofConfig_plain (kind : PlainKind) :
    Part.ofConfig kind.name = Part.flat (Caption.shape : Reading.Shape Json Caption).keys := by
  cases kind <;> rfl

theorem ofConfig_unknown {kind : String} (h : kind ∉ knownKinds) :
    Part.ofConfig kind = Part.flat (Caption.shape : Reading.Shape Json Caption).keys := by
  simp only [knownKinds, List.mem_cons, not_or] at h
  unfold Part.ofConfig
  split <;> first | rfl | simp_all

-- The configuration of each kind.
theorem ofParts_of_edit (h : Follows bound .field readField readField' Field.revise) {kind : String}
    {change : Change} {config config' fieldset fieldset' : Json} {field : Field}
    (hedit : Edit (Part.ofConfig kind) (change.under (.key "config")) config config')
    (hdepth : config'.depth < bound) (hfieldset : kind = "Slices" → fieldset' = fieldset)
    (hplace : ∀ config, change ≠ some ⟨[], config⟩)
    (hparts : ofParts readField kind config fieldset = .ok field) :
    ofParts readField' kind config' fieldset' = .ok (field.revise change) := by
  cases kindCase kind with
  | plain known =>
      rw [ofParts_plain] at hparts ⊢
      obtain ⟨caption, hread, rfl⟩ := map_eq_ok_iff.mp hparts
      rw [ofConfig_plain] at hedit
      exact map_eq_ok_iff.mpr
        ⟨caption, (readConfig_flat_iff Caption.independent hedit).mpr hread, rfl⟩
  | image =>
      obtain ⟨found, hread, rfl⟩ := map_eq_ok_iff.mp hparts
      exact map_eq_ok_iff.mpr ⟨found, follows_image hedit hdepth hread, rfl⟩
  | integration =>
      obtain ⟨found, hread, rfl⟩ := map_eq_ok_iff.mp hparts
      exact map_eq_ok_iff.mpr
        ⟨found, (readConfig_flat_iff IntegrationConfig.independent hedit).mpr hread, rfl⟩
  | link =>
      obtain ⟨found, hread, rfl⟩ := map_eq_ok_iff.mp hparts
      exact map_eq_ok_iff.mpr
        ⟨found, (readConfig_flat_iff LinkConfig.independent hedit).mpr hread, rfl⟩
  | richText =>
      obtain ⟨found, hread, rfl⟩ := map_eq_ok_iff.mp hparts
      exact map_eq_ok_iff.mpr
        ⟨found, (readConfig_flat_iff RichTextConfig.independent hedit).mpr hread, rfl⟩
  | select =>
      obtain ⟨found, hread, rfl⟩ := map_eq_ok_iff.mp hparts
      exact map_eq_ok_iff.mpr
        ⟨found, (readConfig_flat_iff SelectConfig.independent hedit).mpr hread, rfl⟩
  | group =>
      obtain ⟨found, hread, rfl⟩ := map_eq_ok_iff.mp hparts
      rw [revise_group]
      exact map_eq_ok_iff.mpr ⟨_, follows_group h hedit hdepth hread, rfl⟩
  | slices =>
      obtain ⟨name, hname, hrest⟩ := bind_eq_ok_iff.mp hparts
      obtain ⟨choices, hread, he⟩ := bind_eq_ok_iff.mp hrest
      cases he
      rw [revise_slices, hfieldset rfl]
      exact bind_eq_ok_iff.mpr ⟨name, hname,
        bind_eq_ok_iff.mpr ⟨_, follows_zone h hedit hdepth hread, rfl⟩⟩
  | unknown hunknown =>
      rw [ofParts_unknown _ _ _ hunknown] at hparts ⊢
      cases hparts
      rw [ofConfig_unknown hunknown] at hedit
      rw [revise_unknown hplace, forgivingConfig_of_edit Caption.independent hedit]

theorem nodup_ofKind (kind : String) : ((Part.ofKind kind).map Prod.fst).Nodup := by
  unfold Part.ofKind
  split <;> simp

theorem depth_config_lt {members : OrderedMap Json} (h : (Json.obj members).depth < bound + 1) :
    ((members.get? "config").getD .null).depth < bound := by
  obtain ⟨entries⟩ := members
  cases hconfig : (⟨entries⟩ : OrderedMap Json).get? "config" with
  | none =>
      rw [Json.depth] at h
      exact Nat.lt_of_le_of_lt (Nat.zero_le _) (Nat.lt_of_succ_lt_succ h)
  | some config =>
      have hlow := Json.depth_lt_of_mem_entries (mem_of_lookup_eq_some hconfig)
      exact Nat.lt_of_lt_of_le hlow (Nat.le_of_lt_succ h)

theorem follows_readLevel (h : Follows bound .field readField readField' Field.revise) :
    Follows (bound + 1) .field (readLevel readField) (readLevel readField') Field.revise := by
  intro change value value' field hedit hdepth hread
  obtain ⟨members, kind, rfl, htype, hparts⟩ := readLevel_eq_ok_iff.mp hread
  have htold : (Json.obj members).kind? = some kind := by
    rw [Json.kind?, Json.get?, htype]
    rfl
  have hrecord : Edit (.record (Part.ofKind kind) []) change (.obj members) value' →
      readLevel readField' value' = .ok (field.revise change) := by
    intro hedit
    obtain ⟨members', rfl⟩ : ∃ members', value' = .obj members' := by
      rcases hedit.record_cases with rfl | ⟨_, members', -, rfl, -, -⟩ | ⟨_, _, he, -, -⟩
      · exact ⟨members, rfl⟩
      · exact ⟨_, rfl⟩
      · cases he
    have hget : ∀ {key part}, (key, part) ∈ Part.ofKind kind →
        PartEdited part (change.under (.key key)) (members.get? key) (members'.get? key) := by
      intro key part hpart
      rw [OrderedMap.get?, OrderedMap.get?, ← memberUnder_named, ← memberUnder_named]
      exact hedit.part? (nodup_ofKind kind) hpart
    have htype' : members'.get? "type" = some (.str kind) :=
      (hget List.mem_cons_self).whole.trans htype
    refine readLevel_eq_ok_iff.mpr ⟨members', kind, rfl, htype', ?_⟩
    refine ofParts_of_edit h (hget (List.mem_cons_of_mem _ List.mem_cons_self)).getD
      (depth_config_lt hdepth) (fun hslices => ?_) hedit.place_ne_nil hparts
    subst hslices
    have hfieldset : PartEdited .whole (change.under (.key "fieldset")) (members.get? "fieldset")
        (members'.get? "fieldset") :=
      hget (List.mem_cons_of_mem _ (List.mem_cons_of_mem _ List.mem_cons_self))
    rw [hfieldset.whole]
  cases hedit with
  | same => exact hrecord (.same _ _)
  | inField hkind hedit =>
      cases htold.symm.trans hkind
      exact hrecord hedit
  | configured config hkind hunknown =>
      cases htold.symm.trans hkind
      rw [ofParts_unknown _ _ _ hunknown] at hparts
      cases hparts
      refine readLevel_eq_ok_iff.mpr ⟨_, kind, rfl, ?_, ?_⟩
      · rw [OrderedMap.get?_insert, if_neg (by decide)]
        exact htype
      · rw [ofParts_unknown _ _ _ hunknown, OrderedMap.get?_insert, if_pos rfl]
        rfl

theorem follows_readLevels (levels bound : Nat) :
    Follows bound .field (readLevels levels) (readLevels bound) Field.revise := by
  induction levels generalizing bound with
  | zero => exact fun _ _ _ _ _ _ hread => (nomatch hread)
  | succ levels ih =>
      cases bound with
      | zero => exact fun _ _ _ _ _ hdepth _ => absurd hdepth (Nat.not_lt_zero _)
      | succ bound => exact follows_readLevel (ih bound)

end Field

end ContentTypes
