import ContentTypes.Proofs.Reading.Choices

namespace ContentTypes

open Reading

section

variable {σ ρ : Type} [Source σ]

-- What stands under a key of a record. Written as an array, a record has its parts in the order of
-- its keys.
def part? (keys : List String) (key : String) (value : σ) : Option σ :=
  match Source.look value with
  | .ok (.obj members) => memberUnder members key
  | .ok (.arr items) => (keys.zip items).lookup key
  | _ => none

def textOf? (value : σ) : Option String :=
  match Source.look value with
  | .ok (.str text) => some text
  | _ => none

theorem textOf?_of_read {value : σ} {text : String} (h : Reading.text value = .ok text) :
    textOf? value = some text := by
  obtain ⟨glance, hlook, hread⟩ := bind_eq_ok_iff.mp h
  cases glance with
  | str _ =>
      cases hread
      rw [textOf?, hlook]
  | _ => cases hread

variable {shape : Reading.Shape σ ρ} {value : σ}

theorem given_eq_part? {glance : Glance σ} (hlook : Source.look value = .ok glance) (key : String) :
    shape.given glance key = part? shape.keys key value := by
  rw [part?, hlook]
  cases glance <;> rfl

end

-- The keys of the records that hold maps or lists of records.

def GroupConfig.keys : List String := ["label", "fields", "repeat"]

def ZoneConfig.keys : List String := ["choices"]

def SliceChoice.keys : List String := ["type", "fieldset", "description", "non-repeat", "repeat"]

def CustomType.keys : List String := ["id", "label", "repeatable", "status", "json"]

def Variation.keys : List String := ["id", "name", "description", "primary", "items"]

def SharedSlice.keys : List String := ["id", "name", "description", "variations"]

def Json.kind? (value : Json) : Option String := (value.get? "type").bind Json.text?

def Json.config (value : Json) : Json := (value.get? "config").getD .null

def Json.tag? (value : Json) : Option String := (part? SliceChoice.keys "type" value).bind textOf?

namespace SliceChoice

variable {readField : Reader Json Field}

variable {value first : Json} {glance content : Glance Json}

theorem part?_type_eq_some_iff (hlook : Source.look value = .ok glance) (rest : List String) :
    part? ("type" :: rest) "type" value = some first ↔
      ∃ content, parted glance = some (first, content) := by
  rw [part?, hlook]
  cases glance with
  | obj members => simp [parted]
  | arr items => cases items <;> simp [parted]
  | _ => simp [parted]

theorem textOf?_eq_some_iff {tag : String} :
    textOf? first = some tag ↔ readTag first = .ok tag := by
  cases first with
  | str text =>
      exact ⟨fun h => congrArg _ (Option.some.inj h), fun h => congrArg _ (Except.ok.inj h)⟩
  | num n => cases n <;> exact ⟨fun h => (nomatch h), fun h => (nomatch h)⟩
  | _ => exact ⟨fun h => (nomatch h), fun h => (nomatch h)⟩

theorem tag?_of_parted {tag : String} (hlook : Source.look value = .ok glance)
    (hparted : parted glance = some (first, content)) (htag : readTag first = .ok tag) :
    value.tag? = some tag := by
  have hfirst : part? keys "type" value = some first :=
    (part?_type_eq_some_iff hlook _).mpr ⟨content, hparted⟩
  rw [Json.tag?, hfirst]
  exact textOf?_eq_some_iff.mpr htag

theorem given_eq_part? (hlook : Source.look value = .ok glance)
    (hparted : parted glance = some (first, content)) {key : String} (hkey : key ≠ "type") :
    (localShape readField).given content key = part? keys key value := by
  rw [part?, hlook]
  cases glance with
  | obj members =>
      obtain ⟨_, -, he⟩ := Option.map_eq_some_iff.mp hparted
      cases he
      exact memberUnder_untagged hkey members
  | arr items =>
      cases items with
      | nil => cases hparted
      | cons _ others =>
          cases hparted
          exact ((lookup_cons_eq key "type" first _).trans (if_neg hkey)).symm
  | _ => cases hparted

end SliceChoice

end ContentTypes
