import Mathlib.Data.List.Forall2
import Mathlib.Data.List.Nodup
import ContentTypes.OrderedMap

namespace ContentTypes

section

variable {K V : Type} [BEq K] [LawfulBEq K]

-- Which value a list of pairs has under a key: that of the first pair with the key.
theorem lookup_cons_eq [DecidableEq K] (key first : K) (value : V) (rest : List (K × V)) :
    ((first, value) :: rest).lookup key = if key = first then some value else rest.lookup key := by
  by_cases hk : key = first
  · rw [if_pos hk, hk, List.lookup_cons_self]
  · rw [if_neg hk, List.lookup_cons, beq_false_of_ne hk]

theorem lookup_eq_none_of_notMem {key : K} {pairs : List (K × V)}
    (h : key ∉ pairs.map Prod.fst) : pairs.lookup key = none := by
  rw [List.lookup_eq_none_iff]
  intro pair hp
  exact bne_iff_ne.mpr fun he => h (he ▸ List.mem_map_of_mem hp)

theorem mem_of_lookup_eq_some {key : K} {value : V}
    {pairs : List (K × V)} (h : pairs.lookup key = some value) : (key, value) ∈ pairs := by
  obtain ⟨before, after, rfl, -⟩ := List.lookup_eq_some_iff.mp h
  exact List.mem_append_right _ List.mem_cons_self

-- A key that comes once is found wherever its pair stands.
theorem lookup_eq_some_of_once [DecidableEq K] {key : K} {value : V}
    {pairs : List (K × V)} (hcount : (pairs.map Prod.fst).count key ≤ 1)
    (hmem : (key, value) ∈ pairs) : pairs.lookup key = some value := by
  induction pairs with
  | nil => cases hmem
  | cons first rest ih =>
      obtain ⟨name, content⟩ := first
      rw [lookup_cons_eq]
      rw [List.map_cons, List.count_cons] at hcount
      by_cases hk : key = name
      · subst hk
        simp only [beq_self_eq_true, if_true] at hcount
        have hnone : key ∉ rest.map Prod.fst := List.count_eq_zero.mp (by omega)
        rcases List.mem_cons.mp hmem with he | hr
        · rw [if_pos rfl, (Prod.mk.inj he).2]
        · exact absurd (List.mem_map_of_mem hr) hnone
      · have hr : (key, value) ∈ rest :=
          (List.mem_cons.mp hmem).resolve_left fun he => hk (Prod.mk.inj he).1
        rw [if_neg hk]
        exact ih (by omega) hr

theorem lookup_perm [DecidableEq K] {key : K} {first second : List (K × V)}
    (hperm : first.Perm second) (hcount : (first.map Prod.fst).count key ≤ 1) :
    first.lookup key = second.lookup key := by
  have hcount' : (second.map Prod.fst).count key ≤ 1 := by
    rwa [← (hperm.map Prod.fst).count_eq]
  cases hfound : second.lookup key with
  | none =>
      refine lookup_eq_none_of_notMem fun hm => ?_
      obtain ⟨⟨_, value⟩, hp, rfl⟩ := List.mem_map.mp hm
      rw [lookup_eq_some_of_once hcount' (hperm.mem_iff.mp hp)] at hfound
      cases hfound
  | some value =>
      exact lookup_eq_some_of_once hcount (hperm.mem_iff.mpr (mem_of_lookup_eq_some hfound))

-- Leaving out the pairs of one key leaves the others as they are.
theorem lookup_filter_ne [DecidableEq K] {key other : K} (h : key ≠ other)
    (pairs : List (K × V)) : (pairs.filter (·.1 != other)).lookup key = pairs.lookup key := by
  induction pairs with
  | nil => rfl
  | cons first rest ih =>
      obtain ⟨name, value⟩ := first
      rw [lookup_cons_eq, List.filter_cons]
      by_cases hk : name = other
      · subst hk
        simpa [h] using ih
      · simpa [hk, lookup_cons_eq] using congrArg _ ih

theorem lookup_filter_self (key : K) (pairs : List (K × V)) :
    (pairs.filter (·.1 != key)).lookup key = none := by
  apply lookup_eq_none_of_notMem
  simp

-- One pair among others.
theorem lookup_middle [DecidableEq K] {before after : List (K × V)} {name : K} (value : V)
    (hnew : name ∉ before.map Prod.fst) (key : K) :
    (before ++ (name, value) :: after).lookup key =
      if key = name then some value else (before ++ after).lookup key := by
  induction before with
  | nil => exact lookup_cons_eq key name value after
  | cons first rest ih =>
      obtain ⟨other, content⟩ := first
      simp only [List.map_cons, List.mem_cons, not_or] at hnew
      rw [List.cons_append, lookup_cons_eq, ih hnew.2, List.cons_append, lookup_cons_eq]
      by_cases hk : key = other
      · rw [if_pos hk, if_pos hk, if_neg fun he => hnew.1 (he.symm.trans hk)]
      · rw [if_neg hk, if_neg hk]

end

theorem notMem_before_of_nodup {K V : Type} {before after : List (K × V)} {name : K} {value : V}
    (h : ((before ++ (name, value) :: after).map Prod.fst).Nodup) : name ∉ before.map Prod.fst := by
  rw [List.map_append, List.map_cons, List.nodup_middle, List.nodup_cons, List.mem_append,
    not_or] at h
  exact h.1.1

namespace OrderedMap

variable {V W : Type}

theorem exchange_of_notMem {key : String} (value : V) {entries : List (String × V)}
    (h : key ∉ entries.map Prod.fst) :
    exchange key value entries = (none, entries ++ [(key, value)]) := by
  induction entries with
  | nil => rfl
  | cons first rest ih =>
      simp only [List.map_cons, List.mem_cons, not_or] at h
      rw [exchange, if_neg (Ne.symm h.1), ih h.2, List.cons_append]

theorem insert_of_notMem {map : OrderedMap V} {key : String} (h : key ∉ map.keys) (value : V) :
    map.insert key value = ⟨map.entries ++ [(key, value)]⟩ := by
  rw [insert, replace, exchange_of_notMem value h]

-- A key may be given once more what it has.
theorem exchange_of_lookup {key : String} {value : V} {entries : List (String × V)}
    (h : entries.lookup key = some value) : (exchange key value entries).2 = entries := by
  induction entries with
  | nil => cases h
  | cons first rest ih =>
      obtain ⟨name, known⟩ := first
      rw [lookup_cons_eq] at h
      rw [exchange]
      by_cases hk : key = name
      · rw [if_pos hk] at h
        cases h
        rw [if_pos hk.symm, hk]
      · rw [if_neg hk] at h
        rw [if_neg (Ne.symm hk), ih h]

theorem insert_of_get? {map : OrderedMap V} {key : String} {value : V}
    (h : map.get? key = some value) : map.insert key value = map := by
  rw [insert, replace, exchange_of_lookup h]

theorem keys_exchange (key : String) (value : V) (entries : List (String × V)) :
    (exchange key value entries).2.map Prod.fst =
      if key ∈ entries.map Prod.fst then entries.map Prod.fst
      else entries.map Prod.fst ++ [key] := by
  induction entries with
  | nil => rfl
  | cons first rest ih =>
      rw [exchange]
      by_cases hk : first.1 = key
      · simp [hk]
      · rw [if_neg hk, List.map_cons, ih, List.map_cons]
        by_cases hr : key ∈ rest.map Prod.fst
        · simp only [hr, if_true, List.mem_cons, or_true]
        · simp only [hr, if_false, List.mem_cons, Ne.symm hk, or_self, List.cons_append]

theorem keys_insert (map : OrderedMap V) (key : String) (value : V) :
    (map.insert key value).keys =
      if key ∈ map.keys then map.keys else map.keys ++ [key] :=
  keys_exchange key value map.entries

theorem nodup_insert {map : OrderedMap V} (h : map.keys.Nodup) (key : String) (value : V) :
    (map.insert key value).keys.Nodup := by
  rw [keys_insert]
  split
  · exact h
  · rename_i hn
    rw [List.nodup_append]
    refine ⟨h, List.nodup_singleton _, ?_⟩
    rintro name hm _ hs rfl
    exact hn (List.mem_singleton.mp hs ▸ hm)

theorem nodup_insertAll {map : OrderedMap V} (h : map.keys.Nodup) (pairs : List (String × V)) :
    (map.insertAll pairs).keys.Nodup := by
  induction pairs generalizing map with
  | nil => exact h
  | cons first rest ih => exact ih (nodup_insert h _ _)

theorem nodup_ofList (pairs : List (String × V)) : (ofList pairs).keys.Nodup :=
  @nodup_insertAll _ .empty List.nodup_nil pairs

theorem insertAll_of_nodup {map : OrderedMap V} {pairs : List (String × V)}
    (h : (map.keys ++ pairs.map Prod.fst).Nodup) :
    map.insertAll pairs = ⟨map.entries ++ pairs⟩ := by
  induction pairs generalizing map with
  | nil => rw [List.append_nil]; rfl
  | cons first rest ih =>
      have hnew : first.1 ∉ map.keys := fun hm =>
        (List.nodup_append.mp h).2.2 _ hm _ List.mem_cons_self rfl
      have hinsert : map.insert first.1 first.2 = ⟨map.entries ++ [first]⟩ :=
        insert_of_notMem hnew first.2
      rw [insertAll, List.foldl_cons, hinsert]
      have hrest : (((⟨map.entries ++ [first]⟩ : OrderedMap V).keys) ++
          rest.map Prod.fst).Nodup := by
        simpa [keys] using h
      exact (ih hrest).trans (by rw [List.append_assoc]; rfl)

-- Pairs whose keys differ stay as they are.
theorem ofList_of_nodup {pairs : List (String × V)} (h : (pairs.map Prod.fst).Nodup) :
    ofList pairs = ⟨pairs⟩ :=
  @insertAll_of_nodup _ .empty pairs h

theorem mem_keys_insertAll (map : OrderedMap V) (pairs : List (String × V)) (key : String) :
    key ∈ (map.insertAll pairs).keys ↔ key ∈ map.keys ∨ key ∈ pairs.map Prod.fst := by
  induction pairs generalizing map with
  | nil => simp [insertAll]
  | cons first rest ih =>
      have hinsert : key ∈ (map.insert first.1 first.2).keys ↔ key ∈ map.keys ∨ key = first.1 := by
        rw [keys_insert]
        split
        · rename_i hm
          exact ⟨Or.inl, fun h => h.elim id fun he => he ▸ hm⟩
        · rw [List.mem_append, List.mem_singleton]
      rw [insertAll, List.foldl_cons, List.map_cons, List.mem_cons, ← or_assoc, ← hinsert]
      exact ih _

theorem mem_keys_ofList (pairs : List (String × V)) (key : String) :
    key ∈ (ofList pairs).keys ↔ key ∈ pairs.map Prod.fst :=
  (mem_keys_insertAll .empty pairs key).trans (or_iff_right List.not_mem_nil)

-- A last pair is inserted last.
theorem ofList_concat (pairs : List (String × V)) (key : String) (value : V) :
    ofList (pairs ++ [(key, value)]) = (ofList pairs).insert key value := by
  simp only [ofList, insertAll, List.foldl_append, List.foldl_cons, List.foldl_nil]

-- If its key is new it is the last entry.
theorem ofList_concat_of_notMem {pairs : List (String × V)} {key : String} (value : V)
    (h : key ∉ pairs.map Prod.fst) :
    ofList (pairs ++ [(key, value)]) = ⟨(ofList pairs).entries ++ [(key, value)]⟩ := by
  have hkeys : key ∉ (ofList pairs).keys := fun hm => h ((mem_keys_ofList pairs key).mp hm)
  rw [ofList_concat, insert_of_notMem hkeys]

theorem get?_insert (map : OrderedMap V) (key : String) (value : V) (name : String) :
    (map.insert key value).get? name = if name = key then some value else map.get? name := by
  obtain ⟨entries⟩ := map
  rw [insert, replace, get?, get?]
  induction entries with
  | nil => exact lookup_cons_eq name key value []
  | cons first rest ih =>
      obtain ⟨other, content⟩ := first
      rw [exchange]
      by_cases hk : other = key
      · subst hk
        rw [if_pos rfl, lookup_cons_eq, lookup_cons_eq]
        split <;> rfl
      · rw [if_neg hk, lookup_cons_eq, lookup_cons_eq, ih]
        by_cases hn : name = other
        · rw [if_pos hn, if_pos hn, if_neg (hn ▸ hk)]
        · rw [if_neg hn, if_neg hn]

theorem get?_insertAll (map : OrderedMap V) (pairs : List (String × V)) (name : String) :
    (map.insertAll pairs).get? name = (pairs.reverse.lookup name).or (map.get? name) := by
  induction pairs generalizing map with
  | nil => rfl
  | cons first rest ih =>
      have hone : [first].lookup name = if name = first.1 then some first.2 else none :=
        lookup_cons_eq name first.1 first.2 []
      rw [insertAll, List.foldl_cons]
      refine (ih _).trans ?_
      rw [get?_insert, List.reverse_cons, List.lookup_append, Option.or_assoc, hone]
      split <;> rfl

-- The value that came last.
theorem get?_ofList (pairs : List (String × V)) (name : String) :
    (ofList pairs).get? name = pairs.reverse.lookup name :=
  (get?_insertAll .empty pairs name).trans (Option.or_none)

-- Two entries of the same key whose values are related.
def Entry {V W : Type} (related : V → W → Prop) (first : String × V) (second : String × W) : Prop :=
  first.1 = second.1 ∧ related first.2 second.2

variable {related : V → W → Prop}

theorem forall₂_exchange {entries : List (String × V)} {others : List (String × W)}
    (h : List.Forall₂ (Entry related) entries others) (key : String) {value : V} {other : W}
    (hvalue : related value other) :
    List.Forall₂ (Entry related) (exchange key value entries).2 (exchange key other others).2 := by
  induction h with
  | nil => exact .cons ⟨rfl, hvalue⟩ .nil
  | @cons first second rest rest' hfirst hrest ih =>
      rw [exchange, exchange, ← hfirst.1]
      split
      · exact .cons ⟨rfl, hvalue⟩ hrest
      · exact .cons ⟨rfl, hfirst.2⟩ ih

theorem forall₂_insertAll {map : OrderedMap V} {map' : OrderedMap W}
    (hmap : List.Forall₂ (Entry related) map.entries map'.entries) {pairs : List (String × V)}
    {pairs' : List (String × W)} (h : List.Forall₂ (Entry related) pairs pairs') :
    List.Forall₂ (Entry related) (map.insertAll pairs).entries (map'.insertAll pairs').entries := by
  induction h generalizing map map' with
  | nil => exact hmap
  | @cons first second rest rest' hfirst _ ih =>
      rw [insertAll, List.foldl_cons, insertAll, List.foldl_cons, ← hfirst.1]
      exact ih (forall₂_exchange hmap first.1 hfirst.2)

theorem forall₂_ofList {pairs : List (String × V)} {pairs' : List (String × W)}
    (h : List.Forall₂ (Entry related) pairs pairs') :
    List.Forall₂ (Entry related) (ofList pairs).entries (ofList pairs').entries :=
  forall₂_insertAll .nil h

-- Every value changed in a way that depends on its key.
def mapEntries (change : String → V → W) (map : OrderedMap V) : OrderedMap W :=
  ⟨map.entries.map fun entry => (entry.1, change entry.1 entry.2)⟩

theorem insert_mapEntries (change : String → V → W) (map : OrderedMap V) (key : String)
    (value : V) :
    (map.mapEntries change).insert key (change key value) =
      (map.insert key value).mapEntries change := by
  obtain ⟨entries⟩ := map
  simp only [insert, replace, mapEntries, mk.injEq]
  induction entries with
  | nil => rfl
  | cons first rest ih =>
      by_cases hk : first.1 = key
      · subst hk
        simp [exchange]
      · simp [exchange, hk, ih]

theorem insertAll_mapEntries (change : String → V → W) (map : OrderedMap V)
    (pairs : List (String × V)) :
    (map.mapEntries change).insertAll (pairs.map fun pair => (pair.1, change pair.1 pair.2)) =
      (map.insertAll pairs).mapEntries change := by
  induction pairs generalizing map with
  | nil => rfl
  | cons first rest ih =>
      rw [List.map_cons, insertAll, List.foldl_cons, insert_mapEntries]
      exact ih _

theorem ofList_mapEntries (change : String → V → W) (pairs : List (String × V)) :
    ofList (pairs.map fun pair => (pair.1, change pair.1 pair.2)) =
      (ofList pairs).mapEntries change :=
  insertAll_mapEntries change .empty pairs

theorem mapEntries_id {change : String → V → V} (h : ∀ key value, change key value = value)
    (map : OrderedMap V) : map.mapEntries change = map := by
  simp [mapEntries, h]

end OrderedMap

end ContentTypes
