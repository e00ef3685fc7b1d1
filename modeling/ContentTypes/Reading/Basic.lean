import ContentTypes.Reading.Source

namespace ContentTypes.Reading

abbrev Reader (σ α : Type) := σ → Except Fault α

variable {σ α : Type}

def refuse (glance : Glance σ) (wanted : Wanted) : Except Fault α :=
  .error (.wrongKind glance.found wanted)

variable [Source σ]

def text : Reader σ String := fun value => do
  match ← Source.look value with
  | .str text => .ok text
  | other => refuse other .text

def truth : Reader σ Bool := fun value => do
  match ← Source.look value with
  | .bool truth => .ok truth
  | other => refuse other .truth

-- An integer between two bounds, both included.
def bounded (wanted : Wanted) (low high : Int) : Reader σ Int := fun value => do
  match ← Source.look value with
  | .int n => if low ≤ n && n ≤ high then .ok n else .error (.wrongValue (.int n) wanted)
  | other => refuse other wanted

def integer64 : Reader σ Int := bounded .integer64 int64Min int64Max

def natural32 : Reader σ Nat := fun value =>
  (bounded .natural32 0 4294967295 value).map Int.toNat

-- Null stands for an absent value.
def optional (read : Reader σ α) : Reader σ (Option α) := fun value => do
  match ← Source.look value with
  | .null => .ok none
  | _ => (read value).map some

def optionalText : Reader σ (Option String) := optional text

-- Null stands for the value that is taken by default.
def orElse (default : α) (read : Reader σ α) : Reader σ α := fun value => do
  match ← Source.look value with
  | .null => .ok default
  | _ => read value

def list (read : Reader σ α) : Reader σ (List α) := fun value => do
  match ← Source.look value with
  | .arr items => items.mapM read
  | other => refuse other .sequence

def readEntry (read : Reader σ α) (member : Option String × σ) : Except Fault (String × α) := do
  match member.1 with
  | none => .error .malformed
  | some key => .ok (key, ← (read member.2).mapError (Source.under σ key))

-- A later value of a key replaces the earlier one in place.
def orderedMap (read : Reader σ α) : Reader σ (OrderedMap α) := fun value => do
  match ← Source.look value with
  | .obj members => (members.mapM (readEntry read)).map OrderedMap.ofList
  | other => refuse other .textMap

end ContentTypes.Reading
