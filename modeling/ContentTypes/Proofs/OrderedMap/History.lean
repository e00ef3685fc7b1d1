import Mathlib.Data.Finset.Card
import ContentTypes.Proofs.OrderedMap.Comings
import ContentTypes.Proofs.Reading.Results

namespace ContentTypes.OrderedMap

open Reading

variable {V : Type}

-- The pairs that stand in an object, as its values are read.
def ReadAs {σ : Type} (read : Reader σ V) (members : List (Option String × σ))
    (pairs : List (String × V)) : Prop :=
  List.Forall₂ (fun member pair => member.1 = some pair.1 ∧ read member.2 = .ok pair.2) members pairs

-- A map beside all the pairs that were given to it, in their order. It starts out empty, from pairs
-- or from an object, where a key may repeat, and goes on by insertions.
inductive Built : OrderedMap V → List (String × V) → Prop
  | empty : Built .empty []
  | ofList (pairs : List (String × V)) : Built (.ofList pairs) pairs
  | decoded {σ : Type} [Source σ] {read : Reader σ V} {value : σ}
      {members : List (Option String × σ)} {pairs : List (String × V)} {map : OrderedMap V}
      (hlook : Source.look value = .ok (.obj members)) (hpairs : ReadAs read members pairs)
      (hmap : orderedMap read value = .ok map) : Built map pairs
  | insert {map : OrderedMap V} {given : List (String × V)} (key : String) (value : V)
      (h : Built map given) : Built (map.insert key value) (given ++ [(key, value)])

-- The pairs say everything about the map.
theorem Built.eq_ofList {map : OrderedMap V} {given : List (String × V)} (h : Built map given) :
    map = .ofList given := by
  induction h with
  | empty => rfl
  | ofList pairs => rfl
  | decoded hlook hpairs hmap =>
      have hread := orderedMap_eq_ok_iff.mpr ⟨_, _, hlook, hpairs, rfl⟩
      exact Except.ok.inj (hmap.symm.trans hread)
  | insert key value _ ih => rw [ofList_concat, ih]

theorem exists_built_of_decoded {σ : Type} [Source σ] {read : Reader σ V} {value : σ}
    {map : OrderedMap V} (h : orderedMap read value = .ok map) :
    ∃ members given, Source.look value = .ok (.obj members) ∧ ReadAs read members given ∧
      Built map given := by
  obtain ⟨members, given, hlook, hpairs, -⟩ := orderedMap_eq_ok_iff.mp h
  exact ⟨members, given, hlook, hpairs, .decoded hlook hpairs h⟩

theorem fst_replace (map : OrderedMap V) (key : String) (value : V) :
    (map.replace key value).1 = map.get? key := by
  obtain ⟨entries⟩ := map
  rw [replace, get?]
  induction entries with
  | nil => rfl
  | cons first rest ih =>
      obtain ⟨name, content⟩ := first
      rw [exchange, lookup_cons_eq]
      by_cases hk : name = key
      · rw [if_pos hk, if_pos hk.symm]
      · rw [if_neg hk, if_neg (Ne.symm hk)]
        exact ih

-- An insertion leaves the entries of all other keys where they are.
theorem getElem?_insert_iff (map : OrderedMap V) {key : String} {value : V} {other : String × V}
    (h : other.1 ≠ key) (place : Nat) :
    (map.insert key value).toList[place]? = some other ↔ map.toList[place]? = some other := by
  obtain ⟨entries⟩ := map
  have hnew : (key, value) ≠ other := fun he => h (he ▸ rfl)
  simp only [insert, replace, toList]
  induction entries generalizing place with
  | nil => cases place <;> simp [exchange, hnew]
  | cons first rest ih =>
      rw [exchange]
      by_cases hk : first.1 = key
      · have hold : first ≠ other := fun he => h (he ▸ hk)
        rw [if_pos hk]
        cases place <;> simp [hnew, hold]
      · rw [if_neg hk]
        cases place with
        | zero => simp
        | succ place => simpa using ih place

theorem mem_toList_iff {map : OrderedMap V} (h : map.keys.Nodup) (key : String) (value : V) :
    (key, value) ∈ map.toList ↔ map.get? key = some value :=
  ⟨lookup_eq_some_of_once (List.nodup_iff_count_le_one.mp h key), mem_of_lookup_eq_some⟩

-- Walking over the entries, the keys or the values meets the same things in the same places.
theorem getElem?_toList_iff (map : OrderedMap V) (place : Nat) (key : String) (value : V) :
    map.toList[place]? = some (key, value) ↔
      map.keys[place]? = some key ∧ map.values[place]? = some value := by
  rw [toList, keys, values, List.getElem?_map, List.getElem?_map]
  cases map.entries[place]? with
  | none => simp
  | some entry => simp [Prod.ext_iff]

-- The last of the pairs with a key has nothing of this key behind it.
theorem get?_ofList_eq_some_iff (given : List (String × V)) (key : String) (value : V) :
    (ofList given).get? key = some value ↔
      ∃ before after, given = before ++ (key, value) :: after ∧ key ∉ after.map Prod.fst := by
  rw [get?_ofList, List.lookup_eq_some_iff]
  constructor
  · intro h
    obtain ⟨first, last, hsplit, hfirst⟩ := h
    refine ⟨last.reverse, first.reverse, by simpa using congrArg List.reverse hsplit, ?_⟩
    intro hm
    obtain ⟨pair, hp, rfl⟩ := List.mem_map.mp hm
    simpa using hfirst pair (List.mem_reverse.mp hp)
  · intro h
    obtain ⟨before, after, rfl, hafter⟩ := h
    refine ⟨after.reverse, before.reverse, by simp, fun pair hp => ?_⟩
    have hne : key ≠ pair.1 := fun he =>
      hafter (he ▸ List.mem_map_of_mem (List.mem_reverse.mp hp))
    exact bne_iff_ne.mpr hne

theorem size_ofList (given : List (String × V)) :
    (ofList given).size = (given.map Prod.fst).toFinset.card := by
  have hkeys : (ofList given).keys.toFinset = (given.map Prod.fst).toFinset := by
    ext key
    rw [List.mem_toFinset, List.mem_toFinset, mem_keys_ofList]
  rw [← hkeys, List.toFinset_card_of_nodup (nodup_ofList given), keys, List.length_map, size]

-- However a map came to be, it is the finite map of what was given last, in the order of what was
-- given first. Every map that is decoded came to be from the members of an object.
theorem insertion_ordered :
    (∀ {σ : Type} [Source σ] {read : Reader σ V} {value : σ} {map : OrderedMap V},
      orderedMap read value = .ok map →
        ∃ members given, Source.look value = .ok (.obj members) ∧ ReadAs read members given ∧
          Built map given) ∧
    ∀ {map : OrderedMap V} {given : List (String × V)}, Built map given →
      (map.keys.Nodup ∧ map.keys = comings (· = 0) (given.map Prod.fst)) ∧
      (∀ key value, map.get? key = some value ↔
        ∃ before after, given = before ++ (key, value) :: after ∧ key ∉ after.map Prod.fst) ∧
      (∀ key value, (map.replace key value).1 = map.get? key) ∧
      map.size = (given.map Prod.fst).toFinset.card ∧
      ((map.toList.length = map.size ∧ map.keys.length = map.size ∧ map.values.length = map.size) ∧
        (∀ (place : Nat) key value, map.toList[place]? = some (key, value) ↔
          map.keys[place]? = some key ∧ map.values[place]? = some value) ∧
        ∀ key value, (key, value) ∈ map.toList ↔ map.get? key = some value) ∧
      ∀ key value (place : Nat) (other : String × V), other.1 ≠ key →
        ((map.insert key value).toList[place]? = some other ↔
          map.toList[place]? = some other) := by
  constructor
  · exact fun h => exists_built_of_decoded h
  · intro map given h
    have hkeys : map.keys.Nodup := by
      rw [h.eq_ofList]
      exact nodup_ofList given
    have hlengths : map.keys.length = map.size ∧ map.values.length = map.size := by
      simp [keys, values, size]
    refine ⟨⟨hkeys, ?_⟩, ?_, fst_replace map, ?_, ⟨⟨rfl, hlengths⟩, getElem?_toList_iff map,
      mem_toList_iff hkeys⟩, fun key value place other hne => getElem?_insert_iff map hne place⟩
    · rw [h.eq_ofList, keys_ofList]
    · intro key value
      rw [h.eq_ofList, get?_ofList_eq_some_iff]
    · rw [h.eq_ofList, size_ofList]

-- A text with a key that repeats, and two insertions after it.
def repeatingObject : Document :=
  .obj [(some "b", .num (some (.int 1))), (some "a", .num (some (.int 2))),
    (some "b", .num (some (.int 3)))]

def repeatingPairs : List (String × Int) := [("b", 1), ("a", 2), ("b", 3)]

def grownMap : OrderedMap Int := ((ofList repeatingPairs).insert "c" 4).insert "a" 5

theorem insertion_ordered_grownMap :
    orderedMap integer64 repeatingObject = .ok (ofList repeatingPairs) ∧
      (∃ members given, Source.look repeatingObject = .ok (.obj members) ∧
        ReadAs integer64 members given ∧ Built (ofList repeatingPairs) given) ∧
      Built grownMap (repeatingPairs ++ [("c", 4)] ++ [("a", 5)]) ∧
      grownMap.keys = ["b", "a", "c"] ∧ grownMap.get? "b" = some 3 ∧ grownMap.size = 3 ∧
      (grownMap.replace "a" 6).1 = some 5 ∧
      (grownMap.insert "a" 6).toList[0]? = some ("b", 3) := by
  have hdecoded : orderedMap integer64 repeatingObject = .ok (ofList repeatingPairs) := rfl
  have hpairs : ReadAs integer64 [(some "b", Document.num (some (.int 1))),
      (some "a", .num (some (.int 2))), (some "b", .num (some (.int 3)))] repeatingPairs :=
    .cons ⟨rfl, rfl⟩ (.cons ⟨rfl, rfl⟩ (.cons ⟨rfl, rfl⟩ .nil))
  have hstart : Built (ofList repeatingPairs) repeatingPairs := .decoded rfl hpairs hdecoded
  have hbuilt : Built grownMap (repeatingPairs ++ [("c", 4)] ++ [("a", 5)]) :=
    .insert "a" 5 (.insert "c" 4 hstart)
  obtain ⟨⟨-, hkeys⟩, hget, hprevious, hsize, -, hothers⟩ := insertion_ordered.2 hbuilt
  have hlast : grownMap.get? "b" = some 3 :=
    (hget "b" 3).mpr ⟨[("b", 1), ("a", 2)], [("c", 4), ("a", 5)], rfl, by decide⟩
  refine ⟨hdecoded, insertion_ordered.1 hdecoded, hbuilt, hkeys.trans (by decide), hlast,
    hsize.trans (by decide), (hprevious "a" 6).trans (by decide),
    (hothers "a" 6 0 ("b", 3) (by decide)).mpr (by decide)⟩

end ContentTypes.OrderedMap
