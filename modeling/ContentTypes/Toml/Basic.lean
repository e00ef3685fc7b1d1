import ContentTypes.Reading.Source

namespace ContentTypes

inductive Toml where
  | str (value : String)
  | int (value : Int)
  | float (bits : UInt64)
  | bool (value : Bool)
  -- A date, a time or both, as a text of one normal form.
  | datetime (text : String)
  | arr (items : List Toml)
  | table (entries : OrderedMap Toml)

namespace Toml

instance : Inhabited Toml := ⟨.table .empty⟩

abbrev Table := OrderedMap Toml

mutual

-- Whether two values are the same, entries in the same order.
def same : Toml → Toml → Bool
  | .str a, .str b => a = b
  | .int a, .int b => a = b
  | .float a, .float b => a = b
  | .bool a, .bool b => a = b
  | .datetime a, .datetime b => a = b
  | .arr items, .arr items' => sameItems items items'
  | .table ⟨entries⟩, .table ⟨entries'⟩ => sameEntries entries entries'
  | _, _ => false

def sameItems : List Toml → List Toml → Bool
  | [], [] => true
  | item :: items, item' :: items' => same item item' && sameItems items items'
  | _, _ => false

def sameEntries : List (String × Toml) → List (String × Toml) → Bool
  | [], [] => true
  | (key, value) :: rest, (key', value') :: rest' =>
      key = key' && same value value' && sameEntries rest rest'
  | _, _ => false

end

mutual

theorem same_iff : (a b : Toml) → (same a b = true ↔ a = b)
  | .arr items, b => by
      cases b with
      | arr items' => simp [same, sameItems_iff items items']
      | _ => simp [same]
  | .table ⟨entries⟩, b => by
      cases b with
      | table map =>
          obtain ⟨entries'⟩ := map
          simp [same, sameEntries_iff entries entries']
      | _ => simp [same]
  | .str _, b | .int _, b | .float _, b | .bool _, b | .datetime _, b => by
      cases b <;> simp [same]

theorem sameItems_iff : (items items' : List Toml) → (sameItems items items' = true ↔ items = items')
  | [], items' => by cases items' <;> simp [sameItems]
  | item :: rest, items' => by
      cases items' with
      | nil => simp [sameItems]
      | cons item' rest' => simp [sameItems, same_iff item item', sameItems_iff rest rest']

theorem sameEntries_iff : (entries entries' : List (String × Toml)) →
    (sameEntries entries entries' = true ↔ entries = entries')
  | [], entries' => by cases entries' <;> simp [sameEntries]
  | (key, value) :: rest, entries' => by
      cases entries' with
      | nil => simp [sameEntries]
      | cons entry rest' =>
          simp [sameEntries, same_iff value entry.2, sameEntries_iff rest rest', Prod.ext_iff]

end

instance : DecidableEq Toml := fun a b => decidable_of_iff _ (same_iff a b)

mutual

-- The value that stands where `base` stood: two tables are merged key by key, and anything else
-- takes the place of what was there.
def mergeValue (base : Option Toml) : Toml → Toml
  | .table ⟨incoming⟩ =>
      match base with
      | some (.table known) => .table (mergeEntries known incoming)
      | _ => .table ⟨incoming⟩
  | value => value

def mergeEntries (base : Table) : List (String × Toml) → Table
  | [] => base
  | (key, value) :: rest => mergeEntries (base.insert key (mergeValue (base.get? key) value)) rest

end

def merge (base incoming : Table) : Table := mergeEntries base incoming.entries

-- Entries are looked at in the order of their keys.
def sorted (table : Table) : List (String × Toml) :=
  table.entries.mergeSort fun a b => a.1 ≤ b.1

def glance : Toml → Reading.Glance Toml
  | .str value => .str value
  | .int value => .int value
  | .float bits => .real (Decimal.Layout.plain.text bits)
  | .bool value => .bool value
  | .datetime text => .str text
  | .arr items => .arr items
  | .table entries => .obj ((sorted entries).map fun (key, value) => (some key, value))

instance : Reading.Source Toml where
  look value := .ok value.glance
  skip _ := .ok ()
  surplus size := .wrongLength size .fewer
  under := .under

end Toml

end ContentTypes
