import Mathlib.Data.List.Count
import ContentTypes.Model.Reading
import ContentTypes.Proofs.Reading.Records

namespace ContentTypes

open Reading

section Shapes

variable {σ : Type}

section

variable [Source σ]

theorem Caption.independent : (Caption.shape : Reading.Shape σ Caption).Independent := by
  constructor <;> simp [Caption.shape, Reading.Shape.keys]

theorem Thumbnail.independent : (Thumbnail.shape : Reading.Shape σ Thumbnail).Independent := by
  constructor <;> simp [Thumbnail.shape, Reading.Shape.keys]

theorem ImageConfig.independent :
    (ImageConfig.shape : Reading.Shape σ ImageConfig).Independent := by
  constructor <;> simp [ImageConfig.shape, Reading.Shape.keys]

theorem IntegrationConfig.independent :
    (IntegrationConfig.shape : Reading.Shape σ IntegrationConfig).Independent := by
  constructor <;> simp [IntegrationConfig.shape, Caption.slots, Reading.Shape.keys]

theorem RichTextConfig.independent :
    (RichTextConfig.shape : Reading.Shape σ RichTextConfig).Independent := by
  constructor <;> simp [RichTextConfig.shape, Caption.slots, Reading.Shape.keys]

theorem SelectConfig.independent :
    (SelectConfig.shape : Reading.Shape σ SelectConfig).Independent := by
  constructor <;> simp [SelectConfig.shape, Caption.slots, Reading.Shape.keys]

theorem SliceChoice.independent_localShape (readField : Reader σ Field) :
    (localShape readField).Independent := by
  constructor <;> simp [localShape, Reading.Shape.keys]

end

theorem LinkConfig.independent : LinkConfig.shape.Independent := by
  constructor <;> simp [LinkConfig.shape, Caption.slots, Reading.Shape.keys]

theorem GroupConfig.independent (readField : Reader Json Field) :
    (GroupConfig.shape readField).Independent := by
  constructor <;> simp [GroupConfig.shape, Reading.Shape.keys]

theorem independent_zoneShape (readField : Reader Json Field) :
    (zoneShape readField).Independent := by
  constructor <;> simp [zoneShape, Reading.Shape.keys]

variable [JsonSource σ]

theorem CustomType.independent : (CustomType.shape : Reading.Shape σ CustomType).Independent := by
  constructor <;> simp [CustomType.shape, Reading.Shape.keys]

theorem Variation.independent : (Variation.shape : Reading.Shape σ Variation).Independent := by
  constructor <;> simp [Variation.shape, Reading.Shape.keys]

theorem SharedSlice.independent :
    (SharedSlice.shape : Reading.Shape σ SharedSlice).Independent := by
  constructor <;> simp [SharedSlice.shape, Reading.Shape.keys]

end Shapes

namespace SliceChoice

variable {σ : Type}

-- The members that do not tell the kind.
def untagged (members : List (Option String × σ)) : List (Option String × σ) :=
  members.filter (·.1 != some "type")

theorem memberUnder_untagged {key : String} (h : key ≠ "type")
    (members : List (Option String × σ)) :
    memberUnder (untagged members) key = memberUnder members key :=
  lookup_filter_ne (fun he => h (Option.some.inj he)) members

variable [JsonSource σ] {readField : Reader σ Field}

-- Members that can be taken in whole, with one kind at most.
structure Taken (members : List (Option String × σ)) : Prop where
  texts : ∀ member ∈ members, member.1.isSome
  once : (members.map Prod.fst).count (some "type") ≤ 1
  readable : ∀ member ∈ untagged members, readOn member.2 = .ok ()

theorem taken_cons_tag {value : σ} {rest : List (Option String × σ)} :
    Taken ((some "type", value) :: rest) ↔ Taken rest ∧ some "type" ∉ rest.map Prod.fst := by
  have huntagged : untagged ((some "type", value) :: rest) = untagged rest := by simp [untagged]
  constructor
  · rintro ⟨htexts, honce, hreadable⟩
    rw [List.map_cons, List.count_cons_self] at honce
    rw [huntagged] at hreadable
    exact ⟨⟨fun member hm => htexts member (.tail _ hm), by omega, hreadable⟩,
      List.count_eq_zero.mp (by omega)⟩
  · rintro ⟨⟨htexts, honce, hreadable⟩, hnone⟩
    refine ⟨?_, ?_, huntagged ▸ hreadable⟩
    · rintro member (_ | ⟨_, hm⟩)
      · rfl
      · exact htexts member hm
    · have hcount := List.count_eq_zero.mpr hnone
      rw [List.map_cons, List.count_cons_self]
      omega

theorem taken_cons_other {key : String} (hkey : key ≠ "type") {value : σ}
    {rest : List (Option String × σ)} :
    Taken ((some key, value) :: rest) ↔ readOn value = .ok () ∧ Taken rest := by
  have huntagged : untagged ((some key, value) :: rest) = (some key, value) :: untagged rest := by
    simp [untagged, hkey]
  have hcount : (((some key, value) :: rest).map Prod.fst).count (some "type") =
      (rest.map Prod.fst).count (some "type") :=
    List.count_cons_of_ne fun he => hkey (Option.some.inj he)
  constructor
  · rintro ⟨htexts, honce, hreadable⟩
    rw [huntagged] at hreadable
    exact ⟨hreadable _ List.mem_cons_self, fun member hm => htexts member (.tail _ hm),
      hcount ▸ honce, fun member hm => hreadable member (.tail _ hm)⟩
  · rintro ⟨hread, htexts, honce, hreadable⟩
    refine ⟨?_, hcount.symm ▸ honce, ?_⟩
    · rintro member (_ | ⟨_, hm⟩)
      · rfl
      · exact htexts member hm
    · rw [huntagged]
      rintro member (_ | ⟨_, hm⟩)
      · exact hread
      · exact hreadable member hm

-- The kind that comes of some members when `tag` was met before them.
def KindOf (tag : Option String) (members : List (Option String × σ)) (kind : Option String) :
    Prop :=
  match memberUnder members "type" with
  | none => kind = tag
  | some value => ∃ text, readTag value = .ok text ∧ kind = some text

theorem takeTag_eq_ok_iff {tag kind : Option String} {members others : List (Option String × σ)} :
    takeTag tag members = .ok (kind, others) ↔
      (Taken members ∧ (tag.isSome → some "type" ∉ members.map Prod.fst)) ∧
        others = untagged members ∧ KindOf tag members kind := by
  induction members generalizing tag kind others with
  | nil =>
      have hnil : Taken ([] : List (Option String × σ)) := by constructor <;> simp [untagged]
      have hkind : KindOf tag ([] : List (Option String × σ)) kind ↔ kind = tag := Iff.rfl
      rw [takeTag, hkind]
      constructor
      · intro h
        obtain ⟨rfl, rfl⟩ := Prod.mk.inj (Except.ok.inj h)
        exact ⟨⟨hnil, by simp⟩, rfl, rfl⟩
      · rintro ⟨-, rfl, rfl⟩
        rfl
  | cons member rest ih =>
      obtain ⟨_ | key, value⟩ := member
      · rw [takeTag]
        exact ⟨fun h => (nomatch h), fun h => (nomatch h.1.1.texts _ List.mem_cons_self)⟩
      · rw [takeTag]
        by_cases hkey : key = "type"
        · subst hkey
          have huntagged : untagged ((some "type", value) :: rest) = untagged rest := by
            simp [untagged]
          cases tag with
          | some known => simp
          | none =>
              have hkind : KindOf none ((some "type", value) :: rest) kind ↔
                  ∃ text, readTag value = .ok text ∧ kind = some text := by
                rw [KindOf, memberUnder_cons, if_pos rfl]
              rw [if_pos rfl, huntagged, hkind, taken_cons_tag]
              simp only [Option.isSome_none, Bool.false_eq_true, if_false, bind_eq_ok_iff, ih,
                Option.isSome_some, forall_const, false_implies, and_true]
              constructor
              · rintro ⟨text, hread, htaken, hothers, hrest⟩
                have hnone : memberUnder rest "type" = none := lookup_eq_none_of_notMem htaken.2
                rw [KindOf, hnone] at hrest
                exact ⟨htaken, hothers, text, hread, hrest⟩
              · rintro ⟨htaken, hothers, text, hread, hrest⟩
                have hnone : memberUnder rest "type" = none := lookup_eq_none_of_notMem htaken.2
                refine ⟨text, hread, htaken, hothers, ?_⟩
                rwa [KindOf, hnone]
        · have huntagged : untagged ((some key, value) :: rest) =
              (some key, value) :: untagged rest := by simp [untagged, hkey]
          have hmem : some "type" ∉ ((some key, value) :: rest).map Prod.fst ↔
              some "type" ∉ rest.map Prod.fst := by simp [Ne.symm hkey]
          have hkind : KindOf tag ((some key, value) :: rest) kind ↔ KindOf tag rest kind := by
            rw [KindOf, memberUnder_cons, if_neg (Ne.symm hkey), KindOf]
          rw [if_neg hkey, huntagged, hmem, hkind, taken_cons_other hkey]
          simp only [bind_eq_ok_iff, Prod.exists, ih]
          constructor
          · rintro ⟨_, hread, kind', others', ⟨htaken, rfl, hrest⟩, h⟩
            obtain ⟨rfl, rfl⟩ := Prod.mk.inj (Except.ok.inj h)
            exact ⟨⟨⟨hread, htaken.1⟩, htaken.2⟩, rfl, hrest⟩
          · rintro ⟨⟨⟨hread, htaken⟩, hunique⟩, rfl, hrest⟩
            exact ⟨(), hread, kind, untagged rest, ⟨⟨htaken, hunique⟩, rfl, hrest⟩, rfl⟩

-- Whether the content is no longer than a tag alone. An object may hold what nobody asks for.
def Bare : Glance σ → Prop
  | .arr items => items = []
  | _ => True

-- What a tag makes of the content that stands beside it.
def Made (readField : Reader σ Field) (content : Glance σ) (tag : String) (choice : SliceChoice) :
    Prop :=
  if tag = "Slice" then
    ∃ slice, (localShape readField).Admits content ∧
      fillFrom ((localShape readField).given content) (localShape readField).slots
        (localShape readField).blank = .ok slice ∧ ofLocal slice = choice
  else Bare content ∧ (if tag = "SharedSlice" then .shared else .unknown) = choice

theorem readMembers_eq (members : List (Option String × σ)) :
    readMembers readField members = takeTag none members >>= fun (tag, others) =>
      match tag with
      | none => .error (.missing "type")
      | some tag =>
          if tag = "Slice" then
            ((localShape readField).fillMembers [] (localShape readField).blank others).map ofLocal
          else .ok (if tag = "SharedSlice" then .shared else .unknown) := by
  rw [readMembers]
  refine congrArg (takeTag none members >>= ·) (funext fun (tag, others) => ?_)
  cases tag with
  | none => rfl
  | some tag =>
      by_cases hslice : tag = "Slice"
      · subst hslice
        rfl
      · by_cases hshared : tag = "SharedSlice"
        · subst hshared
          rfl
        · simp [hslice, hshared]

theorem readMembers_eq_ok_iff {members : List (Option String × σ)} {choice : SliceChoice} :
    readMembers readField members = .ok choice ↔
      ∃ first tag, memberUnder members "type" = some first ∧ readTag first = .ok tag ∧
        Taken members ∧ Made readField (.obj (untagged members)) tag choice := by
  have hmade : ∀ tag, Made readField (.obj (untagged members)) tag choice ↔
      (if tag = "Slice" then
        ((localShape readField).fillMembers [] (localShape readField).blank
          (untagged members)).map ofLocal
      else .ok (if tag = "SharedSlice" then .shared else .unknown)) = .ok choice := by
    intro tag
    unfold Made
    split
    · simp only [map_eq_ok_iff, Reading.Shape.due_nil, and_assoc,
        Reading.Shape.fillMembers_eq_ok_iff (independent_localShape readField)]
      rfl
    · rw [Except.ok.injEq]
      exact and_iff_right trivial
  rw [readMembers_eq]
  simp only [bind_eq_ok_iff, Prod.exists, takeTag_eq_ok_iff, KindOf, hmade]
  constructor
  · rintro ⟨kind, _, ⟨⟨htaken, -⟩, rfl, hkind⟩, h⟩
    cases hfirst : memberUnder members "type" with
    | none =>
        rw [hfirst] at hkind
        subst hkind
        cases h
    | some first =>
        rw [hfirst] at hkind
        obtain ⟨tag, hread, rfl⟩ := hkind
        exact ⟨first, tag, rfl, hread, htaken, h⟩
  · rintro ⟨first, tag, hfirst, hread, htaken, h⟩
    refine ⟨some tag, untagged members, ⟨⟨htaken, by simp⟩, rfl, ?_⟩, h⟩
    rw [hfirst]
    exact ⟨tag, hread, rfl⟩

theorem exists_mapM_readOn_iff {items : List σ} :
    (∃ units, items.mapM readOn = .ok units) ↔ ∀ item ∈ items, readOn item = .ok () := by
  simp only [mapM_eq_ok_iff]
  induction items with
  | nil => exact ⟨fun _ item hm => (nomatch hm), fun _ => ⟨[], .nil⟩⟩
  | cons item rest ih =>
      rw [List.forall_mem_cons, ← ih]
      constructor
      · rintro ⟨_, _ | ⟨hitem, hrest⟩⟩
        exact ⟨hitem, _, hrest⟩
      · rintro ⟨hitem, units, hrest⟩
        exact ⟨() :: units, .cons hitem hrest⟩

theorem readItems_cons_eq_ok_iff {first : σ} {others : List σ} {choice : SliceChoice} :
    readItems readField (first :: others) = .ok choice ↔
      ∃ tag, readTag first = .ok tag ∧ (∀ item ∈ others, readOn item = .ok ()) ∧
        Made readField (.arr others) tag choice := by
  rw [readItems, bind_eq_ok_iff]
  refine exists_congr fun tag => and_congr_right fun _ => ?_
  rw [bind_eq_ok_iff, ← exists_mapM_readOn_iff, exists_and_right]
  refine and_congr_right fun _ => ?_
  by_cases hslice : tag = "Slice"
  · subst hslice
    simp only [bind_eq_ok_iff, pure_eq_ok_iff, Made, if_true,
      Reading.Shape.fillItems_eq_ok_iff (independent_localShape readField).nodup, and_assoc,
      Reading.Shape.Admits, Reading.Shape.given]
  · cases others with
    | nil => simp [Made, hslice, Bare, pure_eq_ok_iff]
    | cons item rest => simp [Made, hslice, Bare]

-- The value that tells the kind, and what stands beside it.
def parted : Glance σ → Option (σ × Glance σ)
  | .obj members => (memberUnder members "type").map fun first => (first, .obj (untagged members))
  | .arr (first :: others) => some (first, .arr others)
  | _ => none

-- Whether what stands beside the kind can be taken in whole.
def Whole : Glance σ → Prop
  | .obj members => Taken members
  | .arr items => ∀ item ∈ items.tail, readOn item = .ok ()
  | _ => False

theorem readWith_eq_ok_iff {value : σ} {choice : SliceChoice} :
    readWith readField value = .ok choice ↔
      ∃ glance first content tag, Source.look value = .ok glance ∧
        parted glance = some (first, content) ∧ readTag first = .ok tag ∧ Whole glance ∧
        Made readField content tag choice := by
  rw [readWith, bind_eq_ok_iff]
  refine exists_congr fun glance => ?_
  simp only [exists_and_left]
  refine and_congr_right fun _ => ?_
  cases glance with
  | obj members =>
      rw [readMembers_eq_ok_iff]
      simp [parted, Whole]
  | arr items =>
      cases items with
      | nil => simp [parted, readItems]
      | cons first others =>
          rw [readItems_cons_eq_ok_iff]
          simp [parted, Whole]
  | _ => simp [parted, refuse]

theorem untagged_named (entries : List (String × Json)) :
    untagged (named entries) = named (entries.filter (·.1 != "type")) := by
  induction entries with
  | nil => rfl
  | cons entry rest ih =>
      rw [named, List.map_cons, ← named]
      simp only [untagged, List.filter_cons] at ih ⊢
      rw [ih]
      by_cases hk : entry.1 = "type" <;> simp [hk, named]

theorem taken_named {entries : List (String × Json)} (h : (entries.map Prod.fst).Nodup) :
    Taken (named entries) where
  texts := by
    intro member hm
    obtain ⟨entry, -, rfl⟩ := List.mem_map.mp hm
    rfl
  once := by
    have hkeys : (named entries).map Prod.fst = (entries.map Prod.fst).map some := by
      simp [named]
    rw [hkeys, List.count_map_of_injective _ some (fun _ _ => Option.some.inj)]
    exact List.nodup_iff_count_le_one.mp h "type"
  readable := fun _ _ => rfl

end SliceChoice

end ContentTypes
