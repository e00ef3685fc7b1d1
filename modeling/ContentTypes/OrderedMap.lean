namespace ContentTypes

-- A map that remembers the order in which its keys were first given.
structure OrderedMap (V : Type) where
  entries : List (String × V)
  deriving DecidableEq, Repr

namespace OrderedMap

variable {V W : Type}

def empty : OrderedMap V := ⟨[]⟩

instance : Inhabited (OrderedMap V) := ⟨empty⟩

-- What the key held before, and the entries with the new value in its place.
-- An entry that was there keeps its place, a new one goes to the end.
def exchange (key : String) (value : V) : List (String × V) → Option V × List (String × V)
  | [] => (none, [(key, value)])
  | (k, v) :: rest =>
      if k = key then (some v, (key, value) :: rest)
      else ((exchange key value rest).1, (k, v) :: (exchange key value rest).2)

-- Sets a key and also tells the value that it had.
def replace (map : OrderedMap V) (key : String) (value : V) : Option V × OrderedMap V :=
  ((exchange key value map.entries).1, ⟨(exchange key value map.entries).2⟩)

def insert (map : OrderedMap V) (key : String) (value : V) : OrderedMap V :=
  (map.replace key value).2

-- The other entries keep their places.
def erase (map : OrderedMap V) (key : String) : OrderedMap V :=
  ⟨map.entries.filter (·.1 != key)⟩

def get? (map : OrderedMap V) (key : String) : Option V :=
  map.entries.lookup key

def size (map : OrderedMap V) : Nat := map.entries.length

def isEmpty (map : OrderedMap V) : Bool := map.entries.isEmpty

def keys (map : OrderedMap V) : List String := map.entries.map Prod.fst

def values (map : OrderedMap V) : List V := map.entries.map Prod.snd

def toList (map : OrderedMap V) : List (String × V) := map.entries

-- Later pairs replace earlier ones of the same key.
def insertAll (map : OrderedMap V) (pairs : List (String × V)) : OrderedMap V :=
  pairs.foldl (fun known pair => known.insert pair.1 pair.2) map

def ofList (pairs : List (String × V)) : OrderedMap V := empty.insertAll pairs

end OrderedMap

end ContentTypes
