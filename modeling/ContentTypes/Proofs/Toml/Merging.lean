import ContentTypes.Proofs.Toml.Keyed

namespace ContentTypes.Toml

def isTable : Toml → Bool
  | .table _ => true
  | _ => false

def get? (key : String) : Toml → Option Toml
  | .table entries => entries.get? key
  | _ => none

-- What stands under a dotted key. No keys at all lead to the value itself.
def at? : List String → Toml → Option Toml
  | [], value => some value
  | key :: path, value => (value.get? key).bind (at? path)

-- The value under a dotted key, if it is no table.
def leaf? (path : List String) (value : Toml) : Option Toml :=
  (value.at? path).filter (!·.isTable)

-- Whether a value that is no table stands on the way to a dotted key, before its end.
def Blocks (path : List String) (value : Toml) : Prop :=
  ∃ before, before <+: path ∧ before ≠ path ∧ (value.leaf? before).isSome

section Paths

variable {key : String} {path : List String} {value inner : Toml}

theorem exists_eq_table (h : value.isTable) : ∃ table, value = .table table := by
  cases value with
  | table table => exact ⟨table, rfl⟩
  | _ => cases h

theorem isTable_cases (base : Option Toml) :
    (∃ known, base = some (.table known)) ∨ ∀ known, base = some known → ¬ known.isTable := by
  cases base with
  | none => exact .inr fun known he => (nomatch he)
  | some known =>
      by_cases h : known.isTable
      · obtain ⟨table, rfl⟩ := exists_eq_table h
        exact .inl ⟨table, rfl⟩
      · right
        intro other he
        cases he
        exact h

theorem get?_eq_none (h : ¬ value.isTable) : value.get? key = none := by
  cases value with
  | table table => exact absurd rfl h
  | _ => rfl

theorem leaf?_eq_some_iff : value.leaf? path = some inner ↔
    value.at? path = some inner ∧ ¬ inner.isTable := by
  rw [leaf?, Option.filter_eq_some_iff]
  simp

theorem not_blocks_nil : ¬ value.Blocks [] := by
  intro h
  obtain ⟨before, hprefix, hne, -⟩ := h
  exact hne (List.prefix_nil.mp hprefix)

-- A value that is no table stands before everything else.
theorem blocks_of_not_isTable (h : ¬ value.isTable) : value.Blocks (key :: path) := by
  refine ⟨[], List.nil_prefix, by simp, ?_⟩
  rw [leaf?_eq_some_iff.mpr ⟨rfl, h⟩]
  rfl

theorem blocks_cons_iff (h : value.isTable) :
    value.Blocks (key :: path) ↔ ∃ inner, value.get? key = some inner ∧ inner.Blocks path := by
  constructor
  · intro hblocks
    obtain ⟨before, hprefix, hne, hleaf⟩ := hblocks
    cases before with
    | nil => simp [leaf?, at?, h] at hleaf
    | cons first before =>
        obtain ⟨rfl, hrest⟩ := List.cons_prefix_cons.mp hprefix
        cases hget : value.get? first with
        | none => simp [leaf?, at?, hget] at hleaf
        | some inner =>
            refine ⟨inner, rfl, before, hrest, fun he => hne (he ▸ rfl), ?_⟩
            simpa [leaf?, at?, hget] using hleaf
  · intro hinner
    obtain ⟨inner, hget, before, hprefix, hne, hleaf⟩ := hinner
    refine ⟨key :: before, List.cons_prefix_cons.mpr ⟨rfl, hprefix⟩, by simpa using hne, ?_⟩
    simpa [leaf?, at?, hget] using hleaf

end Paths

section Merging

theorem mergeValue_table (base incoming : Table) :
    mergeValue (some (.table base)) (.table incoming) = .table (merge base incoming) := rfl

theorem mergeValue_of_not_isTable {value : Toml} (h : ¬ value.isTable) (base : Option Toml) :
    mergeValue base value = value := by
  cases value with
  | table table => exact absurd rfl h
  | _ => rfl

-- What is no table is not merged with.
theorem mergeValue_of_forall {base : Option Toml} (h : ∀ known, base = some known → ¬ known.isTable)
    (value : Toml) : mergeValue base value = value := by
  cases value with
  | table table =>
      cases base with
      | none => rfl
      | some known =>
          cases known with
          | table _ => exact absurd rfl (h _ rfl)
          | _ => rfl
  | _ => rfl

theorem isTable_mergeValue (base : Option Toml) (value : Toml) :
    (mergeValue base value).isTable = value.isTable := by
  by_cases hvalue : value.isTable
  · obtain ⟨table, rfl⟩ := exists_eq_table hvalue
    rcases isTable_cases base with ⟨known, rfl⟩ | hbase
    · rfl
    · rw [mergeValue_of_forall hbase]
  · rw [mergeValue_of_not_isTable hvalue]

-- Key by key, in the order of the incoming entries: a later one does not touch an earlier key.
theorem get?_mergeEntries {entries : List (String × Toml)} (h : (entries.map Prod.fst).Nodup)
    (base : Table) (key : String) :
    (mergeEntries base entries).get? key =
      ((entries.lookup key).map (mergeValue (base.get? key))).or (base.get? key) := by
  induction entries generalizing base with
  | nil => rfl
  | cons first rest ih =>
      obtain ⟨name, value⟩ := first
      obtain ⟨hnew, hrest⟩ := List.nodup_cons.mp h
      rw [mergeEntries, ih hrest, OrderedMap.get?_insert, lookup_cons_eq]
      by_cases hk : key = name
      · subst hk
        rw [if_pos rfl, if_pos rfl, lookup_eq_none_of_notMem hnew]
        rfl
      · rw [if_neg hk, if_neg hk]

theorem get?_merge {incoming : Table} (h : incoming.keys.Nodup) (base : Table) (key : String) :
    (merge base incoming).get? key =
      ((incoming.get? key).map (mergeValue (base.get? key))).or (base.get? key) :=
  get?_mergeEntries h base key

-- What is merged into nothing stays as it is, down to the order of its entries.
theorem mergeEntries_of_nodup {entries : List (String × Toml)} {base : Table}
    (h : (base.keys ++ entries.map Prod.fst).Nodup) :
    mergeEntries base entries = ⟨base.entries ++ entries⟩ := by
  induction entries generalizing base with
  | nil => rw [List.append_nil]; rfl
  | cons first rest ih =>
      obtain ⟨key, value⟩ := first
      have hnew : key ∉ base.keys := by
        intro hm
        exact (List.nodup_append.mp h).2.2 key hm key List.mem_cons_self rfl
      have hnone : base.get? key = none := lookup_eq_none_of_notMem hnew
      rw [mergeEntries, hnone, mergeValue_of_forall (by simp), OrderedMap.insert_of_notMem hnew, ih]
      · simp
      · simpa [OrderedMap.keys] using h

theorem merge_empty {incoming : Table} (h : incoming.keys.Nodup) :
    merge .empty incoming = incoming :=
  mergeEntries_of_nodup h

-- The same of values, one of which may be absent or no table.
theorem get?_mergeValue {value : Toml} (h : value.IsKeyed) (htable : value.isTable)
    (base : Option Toml) (key : String) :
    (mergeValue base value).get? key =
      ((value.get? key).map (mergeValue (base.bind (get? key)))).or (base.bind (get? key)) := by
  obtain ⟨incoming, rfl⟩ := exists_eq_table htable
  rcases isTable_cases base with ⟨known, rfl⟩ | hbase
  · exact get?_merge (isKeyed_table.mp h).1 known key
  · have hnone : base.bind (get? key) = none := by
      cases base with
      | none => rfl
      | some known => exact get?_eq_none (hbase known rfl)
    rw [hnone, mergeValue_of_forall hbase, Option.or_none]
    cases (Toml.table incoming).get? key with
    | none => rfl
    | some value => rw [Option.map_some, mergeValue_of_forall (by simp)]

-- The induction goes down both values at once, along the path.
theorem at?_mergeValue {value : Toml} (h : value.IsKeyed) (base : Option Toml)
    (path : List String) :
    (∀ inner, value.at? path = some inner →
      (mergeValue base value).at? path = some (mergeValue (base.bind (at? path)) inner)) ∧
    (value.Blocks path → value.at? path = none ∧ (mergeValue base value).at? path = none) ∧
    (value.at? path = none → ¬ value.Blocks path →
      (mergeValue base value).at? path = base.bind (at? path)) := by
  induction path generalizing base value with
  | nil =>
      refine ⟨fun inner he => ?_, fun hblocks => absurd hblocks not_blocks_nil, fun he => ?_⟩
      · cases he
        cases base <;> rfl
      · cases he
  | cons key path ih =>
      by_cases htable : value.isTable
      · have hbase : base.bind (at? (key :: path)) = (base.bind (get? key)).bind (at? path) := by
          cases base <;> rfl
        rw [blocks_cons_iff htable, hbase]
        simp only [at?, get?_mergeValue h htable]
        cases hget : value.get? key with
        | none => simp
        | some inner =>
            have hinner : inner.IsKeyed := by
              obtain ⟨table, rfl⟩ := exists_eq_table htable
              exact (isKeyed_table.mp h).get? hget
            simpa using ih hinner (base.bind (get? key))
      · have hblocks : value.Blocks (key :: path) := blocks_of_not_isTable htable
        have hnone : value.at? (key :: path) = none := by
          rw [at?, get?_eq_none htable]
          rfl
        rw [mergeValue_of_not_isTable htable, hnone]
        simp [hblocks]

-- Where nothing stands in the way.
theorem at?_mergeValue_of_not_blocks {value : Toml} (h : value.IsKeyed) {path : List String}
    (hpath : ¬ value.Blocks path) (base : Option Toml) :
    (mergeValue base value).at? path =
      ((value.at? path).map (mergeValue (base.bind (at? path)))).or (base.bind (at? path)) := by
  obtain ⟨hsome, -, hnone⟩ := at?_mergeValue h base path
  cases hvalue : value.at? path with
  | none => exact hnone hvalue hpath
  | some inner => exact hsome inner hvalue

-- Three cases: the incoming table has a value that is no table under the key, or it has a table
-- there or something in the way, or it says nothing.
theorem leaf?_merge {incoming : Table} (h : incoming.IsKeyed) (base : Table) (path : List String) :
    (∀ value, (table incoming).leaf? path = some value →
      (table (merge base incoming)).leaf? path = some value) ∧
    ((∃ inner, (table incoming).at? path = some (.table inner)) ∨ (table incoming).Blocks path →
      (table (merge base incoming)).leaf? path = none) ∧
    ((table incoming).at? path = none → ¬ (table incoming).Blocks path →
      (table (merge base incoming)).leaf? path = (table base).leaf? path) := by
  rw [← mergeValue_table]
  obtain ⟨hsome, hblocked, hnone⟩ := at?_mergeValue (isKeyed_table.mpr h) (some (.table base)) path
  refine ⟨fun value hvalue => ?_, fun hstop => ?_, fun hvalue hblocks => ?_⟩
  · obtain ⟨hat, hplain⟩ := leaf?_eq_some_iff.mp hvalue
    rw [leaf?_eq_some_iff, hsome value hat, mergeValue_of_not_isTable hplain]
    exact ⟨rfl, hplain⟩
  · rcases hstop with ⟨inner, hat⟩ | hblocks
    · rw [leaf?, hsome _ hat, Option.filter_some, isTable_mergeValue]
      rfl
    · rw [leaf?, (hblocked hblocks).2]
      rfl
  · rw [leaf?, hnone hvalue hblocks]
    rfl

mutual

-- Nothing changes what is merged into itself.
theorem mergeValue_self : (value : Toml) → value.IsKeyed → mergeValue (some value) value = value
  | .table ⟨entries⟩, h => by
      have hsame : mergeEntries ⟨entries⟩ entries = ⟨entries⟩ := by
        refine mergeEntries_self entries ⟨entries⟩ h fun entry hm => ?_
        have hnodup := (isKeyed_table.mp h).1
        exact lookup_eq_some_of_once (List.nodup_iff_count_le_one.mp hnodup entry.1) hm
      rw [mergeValue, hsame]
  | .str _, _ | .int _, _ | .float _, _ | .bool _, _ | .datetime _, _ | .arr _, _ => rfl

theorem mergeEntries_self : (entries : List (String × Toml)) → (base : Table) →
    EntriesKeyed entries → (∀ entry ∈ entries, base.get? entry.1 = some entry.2) →
    mergeEntries base entries = base
  | [], _, _, _ => rfl
  | (key, value) :: rest, base, h, hbase => by
      rw [EntriesKeyed] at h
      obtain ⟨hvalue, hrest⟩ := List.forall_mem_cons.mp hbase
      rw [mergeEntries, hvalue, mergeValue_self value h.2.1, OrderedMap.insert_of_get? hvalue]
      exact mergeEntries_self rest base h.2.2 hrest

end

theorem merge_self {incoming : Table} (h : incoming.IsKeyed) : merge incoming incoming = incoming :=
  Toml.table.inj (mergeValue_self (.table incoming) (isKeyed_table.mpr h))

mutual

-- Merging makes no key come twice.
theorem isKeyed_mergeValue : (value : Toml) → (base : Option Toml) →
    (∀ known, base = some known → known.IsKeyed) → value.IsKeyed → (mergeValue base value).IsKeyed
  | .table ⟨entries⟩, base, hbase, h => by
      rcases isTable_cases base with ⟨known, rfl⟩ | hplain
      · rw [IsKeyed] at h
        exact isKeyed_table.mpr
          (isKeyed_mergeEntries entries known (isKeyed_table.mp (hbase _ rfl)) h)
      · rw [mergeValue_of_forall hplain]
        exact h
  | .str _, _, _, _ | .int _, _, _, _ | .float _, _, _, _ | .bool _, _, _, _
  | .datetime _, _, _, _ | .arr _, _, _, _ => trivial

theorem isKeyed_mergeEntries : (entries : List (String × Toml)) → (base : Table) → base.IsKeyed →
    EntriesKeyed entries → (mergeEntries base entries).IsKeyed
  | [], _, hbase, _ => hbase
  | (key, value) :: rest, base, hbase, h => by
      rw [EntriesKeyed] at h
      rw [mergeEntries]
      have hvalue : (mergeValue (base.get? key) value).IsKeyed :=
        isKeyed_mergeValue value _ (fun known hget => hbase.get? hget) h.2.1
      exact isKeyed_mergeEntries rest _ (hbase.insert key hvalue) h.2.2

end

theorem isKeyed_merge {base incoming : Table} (hbase : base.IsKeyed) (h : incoming.IsKeyed) :
    (merge base incoming).IsKeyed :=
  isKeyed_mergeEntries incoming.entries base hbase (entriesKeyed_iff.mpr h)

end Merging

end ContentTypes.Toml
