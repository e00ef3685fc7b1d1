import ContentTypes.Model.CustomType
import ContentTypes.Proofs.OrderedMap.Comings

namespace ContentTypes

namespace OrderedMap

variable {V : Type}

-- With different keys a value is one of the map just when some key gives it.
theorem mem_values_iff {map : OrderedMap V} (h : map.keys.Nodup) (value : V) :
    value ∈ map.values ↔ ∃ key, map.get? key = some value := by
  rw [values, List.mem_map]
  constructor
  · rintro ⟨⟨key, _⟩, he, rfl⟩
    exact ⟨key, lookup_eq_some_of_once (List.nodup_iff_count_le_one.mp h key) he⟩
  · rintro ⟨key, hg⟩
    exact ⟨(key, value), mem_of_lookup_eq_some hg, rfl⟩

-- The last of some maps that has the key decides.
theorem lookup_flatMap_reverse {maps : List (OrderedMap V)} (h : ∀ map ∈ maps, map.keys.Nodup)
    (key : String) :
    (maps.flatMap toList).reverse.lookup key = maps.reverse.findSome? (·.get? key) := by
  induction maps with
  | nil => rfl
  | cons first rest ih =>
      obtain ⟨hfirst, hrest⟩ := List.forall_mem_cons.mp h
      have hlast : first.toList.reverse.lookup key = first.get? key := by
        refine (lookup_perm first.toList.reverse_perm.symm ?_).symm
        exact List.nodup_iff_count_le_one.mp hfirst key
      rw [List.flatMap_cons, List.reverse_append, List.lookup_append, ih hrest, hlast,
        List.reverse_cons, List.findSome?_append, List.findSome?_singleton]

end OrderedMap

namespace CustomType

-- The ids that came more than a number of times in the row before.
def Knows (known : List String) (n : Nat) (before : List String) : Prop :=
  ∀ id, id ∈ known ↔ n < before.count id

namespace Knows

variable {known before : List String} {n : Nat} {next : String}

theorem keep (h : Knows known n before) (hn : before.count next ≠ n) :
    Knows known n (before ++ [next]) := by
  intro id
  rw [h id, List.count_append]
  by_cases hid : id = next
  · rw [hid, List.count_singleton_self]
    omega
  · rw [List.count_singleton, if_neg (by simpa using Ne.symm hid), Nat.add_zero]

theorem gain (h : Knows known n before) (hn : before.count next = n) :
    Knows (next :: known) n (before ++ [next]) := by
  intro id
  rw [List.mem_cons, h id, List.count_append]
  by_cases hid : id = next
  · simp [hid, hn]
  · rw [List.count_singleton, if_neg (by simpa using Ne.symm hid), Nat.add_zero]
    exact or_iff_right hid

end Knows

-- The loop knows which ids came before at all and which of them came again.
theorem comings_eq_repeatsAfter {before seen told : List String} (hseen : Knows seen 0 before)
    (htold : Knows told 1 before) (rest : List String) :
    comings (· = 1) (before ++ rest) = comings (· = 1) before ++ repeatsAfter seen told rest := by
  induction rest generalizing before seen told with
  | nil => rw [List.append_nil, repeatsAfter, List.append_nil]
  | cons next rest ih =>
      rw [List.append_cons, repeatsAfter]
      simp only [List.contains_iff_mem, hseen next, htold next]
      obtain hn | hn | hn : before.count next = 0 ∨ before.count next = 1 ∨
        1 < before.count next := by omega
      · rw [ih (hseen.gain hn) (htold.keep (by omega)), comings_concat, if_neg (by simp [hn]),
          if_neg (by omega), List.append_nil]
      · rw [ih (hseen.keep (by omega)) (htold.gain hn), comings_concat, if_pos (by simp [hn]),
          if_pos (by omega), if_neg (by omega), List.append_assoc]
        rfl
      · rw [ih (hseen.keep (by omega)) (htold.keep (by omega)), comings_concat,
          if_neg (by simpa using Nat.ne_of_gt hn), if_pos (by omega), if_pos hn, List.append_nil]

variable (model : CustomType)

-- The ids of every tab, tab after tab.
def tabIds : List String := model.tabs.values.flatMap OrderedMap.keys

theorem ids_occurrences : model.occurrences.map Prod.fst = model.tabIds :=
  List.map_flatMap

theorem repeatedIds_eq : model.repeatedIds = comings (· = 1) model.tabIds := by
  have hseen : Knows [] 0 [] := fun id => by simp
  have htold : Knows [] 1 [] := fun id => by simp
  rw [repeatedIds, ids_occurrences]
  exact (comings_eq_repeatsAfter hseen htold model.tabIds).symm

theorem keys_fields : model.fields.keys = comings (· = 0) model.tabIds := by
  rw [fields, OrderedMap.keys_ofList, ids_occurrences]

theorem length_tabIds : model.tabIds.length = (model.tabs.values.map OrderedMap.size).sum := by
  rw [tabIds, List.length_flatMap]
  apply congrArg List.sum
  exact List.map_congr_left fun tab _ => List.length_map Prod.fst

-- Fields and repeated occurrences together are all that stands in the tabs.
theorem size_fields :
    model.fields.size + (comings (0 < ·) model.tabIds).length =
      (model.tabs.values.map OrderedMap.size).sum := by
  have hsize : model.fields.size = (comings (· = 0) model.tabIds).length := by
    rw [← keys_fields, OrderedMap.size, OrderedMap.keys, List.length_map]
  rw [hsize, length_comings, length_tabIds]

theorem mem_keys_fields (id : String) :
    id ∈ model.fields.keys ↔ ∃ tab ∈ model.tabs.values, id ∈ tab.keys := by
  rw [keys_fields, mem_comings, List.count_pos_iff, tabIds, List.mem_flatMap]

variable {model}

-- A tab has an id once, so an id comes as often as there are tabs that have it.
theorem count_tabIds (h : ∀ tab ∈ model.tabs.values, tab.keys.Nodup) (id : String) :
    model.tabIds.count id = model.tabs.values.countP (id ∈ ·.keys) := by
  rw [tabIds]
  generalize model.tabs.values = tabs at h
  induction tabs with
  | nil => rfl
  | cons first rest ih =>
      obtain ⟨hfirst, hrest⟩ := List.forall_mem_cons.mp h
      rw [List.flatMap_cons, List.count_append, List.countP_cons, ih hrest, hfirst.count,
        Nat.add_comm]
      simp

theorem mem_repeatedIds (h : ∀ tab ∈ model.tabs.values, tab.keys.Nodup) (id : String) :
    id ∈ model.repeatedIds ↔ 2 ≤ model.tabs.values.countP (id ∈ ·.keys) := by
  rw [repeatedIds_eq, mem_comings, count_tabIds h]
  exact Iff.rfl

-- The field that the last of the tabs with the id gives it.
def lastField? (model : CustomType) (id : String) : Option Field :=
  model.tabs.values.reverse.findSome? (·.get? id)

theorem get?_fields (h : ∀ tab ∈ model.tabs.values, tab.keys.Nodup) (id : String) :
    model.fields.get? id = model.lastField? id := by
  rw [fields, OrderedMap.get?_ofList, occurrences, OrderedMap.lookup_flatMap_reverse h]
  rfl

theorem hasUid_iff (h : ∀ tab ∈ model.tabs.values, tab.keys.Nodup) :
    model.hasUid ↔ ∃ id field, model.lastField? id = some field ∧ field.isUid := by
  have hkeys : model.fields.keys.Nodup := OrderedMap.nodup_ofList model.occurrences
  simp only [hasUid, List.any_eq_true, OrderedMap.mem_values_iff hkeys, get?_fields h]
  constructor
  · rintro ⟨field, ⟨id, hf⟩, hu⟩
    exact ⟨id, field, hf, hu⟩
  · rintro ⟨id, field, hf, hu⟩
    exact ⟨field, ⟨id, hf⟩, hu⟩

-- Place and field of an id come from different tabs, and the three walks over the tabs agree.
theorem tabs_flattened (model : CustomType) (h : ∀ tab ∈ model.tabs.values, tab.keys.Nodup) :
    (model.fields.keys.Nodup ∧
      (∀ id, id ∈ model.fields.keys ↔ ∃ tab ∈ model.tabs.values, id ∈ tab.keys) ∧
      model.fields.keys = comings (· = 0) model.tabIds ∧
      ∀ id, model.fields.get? id = model.lastField? id) ∧
    (model.repeatedIds.Nodup ∧
      (∀ id, id ∈ model.repeatedIds ↔ 2 ≤ model.tabs.values.countP (id ∈ ·.keys)) ∧
      model.repeatedIds = comings (· = 1) model.tabIds) ∧
    model.fields.size + (comings (0 < ·) model.tabIds).length =
      (model.tabs.values.map OrderedMap.size).sum ∧
    (model.hasUid ↔ ∃ id field, model.lastField? id = some field ∧ field.isUid) := by
  have hrepeated : model.repeatedIds.Nodup := by
    rw [repeatedIds_eq]
    exact nodup_comings 1 model.tabIds
  exact ⟨⟨OrderedMap.nodup_ofList _, mem_keys_fields model, keys_fields model, get?_fields h⟩,
    ⟨hrepeated, mem_repeatedIds h, repeatedIds_eq model⟩, size_fields model, hasUid_iff h⟩

-- An id in three tabs, whose UID is taken away and given back, and another one in two tabs.
def layeredType : CustomType :=
  ⟨"page", none, true, none, ⟨[
    ("Main", ⟨[("a", .plain .uid .none), ("b", .plain .text .none)]⟩),
    ("More", ⟨[("b", .plain .number .none), ("a", .plain .text .none)]⟩),
    ("Last", ⟨[("c", .plain .date .none), ("a", .plain .uid .none)]⟩)]⟩⟩

theorem tabs_flattened_layeredType :
    (∀ tab ∈ layeredType.tabs.values, tab.keys.Nodup) ∧
      layeredType.fields.keys = ["a", "b", "c"] ∧
      layeredType.fields.get? "b" = some (.plain .number .none) ∧
      layeredType.repeatedIds = ["b", "a"] ∧ layeredType.fields.size + 3 = 6 ∧
      layeredType.hasUid := by
  have h : ∀ tab ∈ layeredType.tabs.values, tab.keys.Nodup := by decide
  obtain ⟨⟨-, -, hkeys, hfields⟩, ⟨-, -, hrepeated⟩, hsize, huid⟩ := tabs_flattened layeredType h
  refine ⟨h, hkeys.trans (by decide), (hfields "b").trans rfl, ?_, hsize,
    huid.mpr ⟨"a", .plain .uid .none, rfl, rfl⟩⟩
  exact hrepeated.trans (by decide)

end CustomType

end ContentTypes
