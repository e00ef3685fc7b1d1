import ContentTypes.Reading.Basic

namespace ContentTypes.Reading

-- What holds when a field is not given.
inductive Need where
  -- It has to be given.
  | required
  -- An object may leave it out, an array may not.
  | nullable
  -- It may be left out.
  | defaulted
  deriving DecidableEq, Repr

structure Slot (σ ρ : Type) where
  key : String
  need : Need
  fill : ρ → σ → Except Fault ρ

-- Each slot fills its field of the blank record, so fields that are not given keep what that record
-- holds.
structure Shape (σ ρ : Type) where
  name : String
  blank : ρ
  slots : List (Slot σ ρ)

variable {σ α ρ : Type}

-- A slot that reads its value and sets it.
def slot (key : String) (need : Need) (read : Reader σ α) (set : ρ → α → ρ) : Slot σ ρ :=
  ⟨key, need, fun record value => (read value).map (set record)⟩

namespace Shape

def missingKey? (shape : Shape σ ρ) (seen : List String) : Option String :=
  (shape.slots.find? fun s => s.need = .required && !seen.contains s.key).map Slot.key

variable [Source σ]

-- Fills the slots in the order of the members. Members without a slot are passed over, and no slot
-- is filled twice.
def fillMembers (shape : Shape σ ρ) :
    List String → ρ → List (Option String × σ) → Except Fault ρ
  | seen, record, [] =>
      match shape.missingKey? seen with
      | some key => .error (.missing key)
      | none => .ok record
  | _, _, (none, _) :: _ => .error .malformed
  | seen, record, (some key, value) :: rest =>
      match shape.slots.find? (·.key == key) with
      | none =>
          match Source.skip value with
          | .ok () => shape.fillMembers seen record rest
          | .error fault => .error fault
      | some slot =>
          if seen.contains key then .error (.repeated key)
          else
            match slot.fill record value with
            | .ok record => shape.fillMembers (key :: seen) record rest
            | .error fault => .error (Source.under σ key fault)

-- Fills the slots in their own order. `index` slots are filled already.
def fillItems (shape : Shape σ ρ) (surplus : Nat → Fault) (index : Nat) :
    List (Slot σ ρ) → ρ → List σ → Except Fault ρ
  | [], record, [] => .ok record
  | [], _, item :: rest => .error (surplus (index + (item :: rest).length))
  | slot :: slots, record, [] =>
      if slot.need = .defaulted then shape.fillItems surplus (index + 1) slots record []
      else .error (.wrongLength index (.recordOf shape.name shape.slots.length))
  | slot :: slots, record, item :: rest =>
      match slot.fill record item with
      | .ok record => shape.fillItems surplus (index + 1) slots record rest
      | .error fault => .error fault

def read (shape : Shape σ ρ) : Reader σ ρ := fun value => do
  match ← Source.look value with
  | .obj members => shape.fillMembers [] shape.blank members
  | .arr items => shape.fillItems (Source.surplus σ) 0 shape.slots shape.blank items
  | other => refuse other (.record shape.name)

end Shape

end ContentTypes.Reading
