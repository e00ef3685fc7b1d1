import ContentTypes.Proofs.Reading.Records
import ContentTypes.Proofs.Toml.Merging

namespace ContentTypes.Toml

open Reading

variable {α ρ : Type}

-- The order in which entries are looked at does not matter where keys differ.
theorem read_table_eq_ok_iff {shape : Reading.Shape Toml ρ} (hs : shape.Independent)
    {table : Table} (h : table.keys.Nodup) {result : ρ} :
    shape.read (.table table) = .ok result ↔
      fillFrom table.get? shape.slots shape.blank = .ok result := by
  have hperm : (sorted table).Perm table.entries := List.mergeSort_perm _ _
  have hnodup : ((sorted table).map Prod.fst).Nodup := (hperm.map Prod.fst).nodup_iff.mpr h
  have hgiven : (fun key => (sorted table).lookup key) = table.get? := by
    funext key
    exact lookup_perm hperm (List.nodup_iff_count_le_one.mp hnodup key)
  rw [← hgiven]
  exact Reading.Shape.read_named_eq_ok_iff hs (fun _ => rfl) rfl hnodup

section Parts

-- A value that is read from what is given for it, or else is the one that holds by default.
def Told (read : Reader Toml α) (default : α) (given : Option Toml) (value : α) : Prop :=
  (given = none → value = default) ∧ ∀ content, given = some content → read content = .ok value

-- A part of a record that one slot alone sets.
structure HasPart (shape : Reading.Shape Toml ρ) (key : String) (read : Reader Toml α)
    (part : ρ → α) : Prop where
  slot : ∃ need set, slot key need read set ∈ shape.slots ∧
    ∀ record content, part (set record content) = content
  others : ∀ s ∈ shape.slots, s.key ≠ key → s.Keeps part

variable {shape : Reading.Shape Toml ρ} {key : String} {read : Reader Toml α} {part : ρ → α}
  {record : ρ}

theorem told_of_read (hs : shape.Independent) (hpart : HasPart shape key read part) {table : Table}
    (h : table.keys.Nodup) (hread : shape.read (.table table) = .ok record) :
    Told read (part shape.blank) (table.get? key) (part record) := by
  have hfill := (read_table_eq_ok_iff hs h).mp hread
  obtain ⟨need, set, hslot, hset⟩ := hpart.slot
  exact fillFrom_sets hs.nodup hslot hset hpart.others hfill

theorem told_part (hs : shape.Independent) (hpart : HasPart shape key read part)
    {given : Option Toml}
    (hgiven : ∀ content, given = some content → content.isTable ∧ content.IsKeyed)
    (h : Told shape.read shape.blank given record) :
    Told read (part shape.blank) (given.bind (get? key)) (part record) := by
  cases given with
  | none => exact ⟨fun _ => congrArg part (h.1 rfl), fun _ he => (nomatch he)⟩
  | some content =>
      obtain ⟨htable, hkeyed⟩ := hgiven content rfl
      obtain ⟨table, rfl⟩ := exists_eq_table htable
      exact told_of_read hs hpart (isKeyed_table.mp hkeyed).1 (h.2 _ rfl)

end Parts

section Merged

-- Whether reading a value comes to a result.
def Reads (read : Reader Toml α) (value : Toml) : Prop := ∃ result, read value = .ok result

-- Whatever can be read on its own on both sides can be read when it is merged.
def Survives (read : Reader Toml α) : Prop :=
  ∀ base value : Toml, base.IsKeyed → value.IsKeyed → Reads read base → Reads read value →
    Reads read (mergeValue (some base) value)

-- What no table is read from is not merged either.
theorem survives_of_forall {read : Reader Toml α} (h : ∀ table, ¬ Reads read (.table table)) :
    Survives read := by
  intro base value _ _ _ hvalue
  rw [mergeValue_of_not_isTable]
  · exact hvalue
  · intro ht
    obtain ⟨table, rfl⟩ := exists_eq_table ht
    exact h table hvalue

theorem not_reads_text (table : Table) : ¬ Reads Reading.text (.table table) := by
  intro h
  obtain ⟨_, hread⟩ := h
  cases hread

theorem not_reads_truth (table : Table) : ¬ Reads Reading.truth (.table table) := by
  intro h
  obtain ⟨_, hread⟩ := h
  cases hread

theorem survives_text : Survives Reading.text := survives_of_forall not_reads_text

theorem survives_truth : Survives Reading.truth := survives_of_forall not_reads_truth

-- A slot that may stay empty, and takes the same values whatever the record is.
structure Mergeable (s : Slot Toml ρ) : Prop where
  free : s.need ≠ .required
  steady : ∀ value record record' next, s.fill record value = .ok next →
    ∃ next', s.fill record' value = .ok next'
  survives : ∀ record, Survives (s.fill record)

theorem mergeable_slot {key : String} {read : Reader Toml α} (h : Survives read)
    {set : ρ → α → ρ} : Mergeable (slot key .defaulted read set) := by
  refine ⟨by simp [slot], ?_, ?_⟩
  · intro value record record' next hfill
    obtain ⟨content, hread, -⟩ := fill_slot_eq_ok_iff.mp hfill
    exact ⟨_, fill_slot_eq_ok_iff.mpr ⟨content, hread, rfl⟩⟩
  · intro record base value hbase hvalue hreads hreads'
    obtain ⟨next, hfill⟩ := hreads
    obtain ⟨next', hfill'⟩ := hreads'
    obtain ⟨content, hread, -⟩ := fill_slot_eq_ok_iff.mp hfill
    obtain ⟨content', hread', -⟩ := fill_slot_eq_ok_iff.mp hfill'
    obtain ⟨merged, hmerged⟩ := h base value hbase hvalue ⟨content, hread⟩ ⟨content', hread'⟩
    exact ⟨_, fill_slot_eq_ok_iff.mpr ⟨merged, hmerged, rfl⟩⟩

theorem exists_fillFrom_iff {slots : List (Slot Toml ρ)} (hslots : ∀ s ∈ slots, Mergeable s)
    {given : String → Option Toml} {record : ρ} :
    (∃ result, fillFrom given slots record = .ok result) ↔
      ∀ s ∈ slots, ∀ value, given s.key = some value → Reads (s.fill record) value := by
  induction slots generalizing record with
  | nil => exact ⟨fun _ _ hm => absurd hm List.not_mem_nil, fun _ => ⟨record, rfl⟩⟩
  | cons first rest ih =>
      obtain ⟨hfirst, hrest⟩ := List.forall_mem_cons.mp hslots
      rw [List.forall_mem_cons]
      cases hgiven : given first.key with
      | none =>
          simp only [fillFrom_absent hgiven, hfirst.free, ne_eq, not_false_eq_true, true_and]
          rw [ih hrest]
          simp
      | some value =>
          simp only [fillFrom_present hgiven, Option.some.injEq, forall_eq']
          constructor
          · intro h
            obtain ⟨result, next, hnext, hfill⟩ := h
            refine ⟨⟨next, hnext⟩, fun s hm content hcontent => ?_⟩
            obtain ⟨next', hnext'⟩ := (ih hrest).mp ⟨result, hfill⟩ s hm content hcontent
            exact (hrest s hm).steady content next record next' hnext'
          · intro h
            obtain ⟨⟨next, hnext⟩, hothers⟩ := h
            have hlater : ∀ s ∈ rest, ∀ content, given s.key = some content →
                Reads (s.fill next) content := by
              intro s hm content hcontent
              obtain ⟨next', hnext'⟩ := hothers s hm content hcontent
              exact (hrest s hm).steady content record next next' hnext'
            obtain ⟨result, hfill⟩ := (ih hrest).mpr hlater
            exact ⟨result, next, hnext, hfill⟩

theorem reads_table_iff {shape : Reading.Shape Toml ρ} (hs : shape.Independent)
    (hslots : ∀ s ∈ shape.slots, Mergeable s) {table : Table} (h : table.keys.Nodup) :
    Reads shape.read (.table table) ↔
      ∀ s ∈ shape.slots, ∀ value, table.get? s.key = some value →
        Reads (s.fill shape.blank) value := by
  rw [← exists_fillFrom_iff hslots]
  exact exists_congr fun _ => read_table_eq_ok_iff hs h

theorem survives_read {shape : Reading.Shape Toml ρ} (hs : shape.Independent)
    (hslots : ∀ s ∈ shape.slots, Mergeable s) : Survives shape.read := by
  intro base value hbase hvalue hreads hreads'
  by_cases htable : value.isTable
  · by_cases htable' : base.isTable
    · obtain ⟨incoming, rfl⟩ := exists_eq_table htable
      obtain ⟨known, rfl⟩ := exists_eq_table htable'
      rw [isKeyed_table] at hbase hvalue
      have hmerged : (merge known incoming).keys.Nodup := (isKeyed_merge hbase hvalue).1
      rw [reads_table_iff hs hslots hbase.1] at hreads
      rw [reads_table_iff hs hslots hvalue.1] at hreads'
      rw [mergeValue_table, reads_table_iff hs hslots hmerged]
      intro s hm content hcontent
      rw [get?_merge hvalue.1] at hcontent
      cases hincoming : incoming.get? s.key with
      | none =>
          rw [hincoming] at hcontent
          exact hreads s hm content hcontent
      | some inner =>
          rw [hincoming] at hcontent
          obtain rfl := Option.some.inj hcontent
          cases hknown : known.get? s.key with
          | none =>
              rw [mergeValue_of_forall (by simp)]
              exact hreads' s hm inner hincoming
          | some other =>
              exact (hslots s hm).survives _ other inner (hbase.get? hknown) (hvalue.get? hincoming)
                (hreads s hm other hknown) (hreads' s hm inner hincoming)
    · rw [mergeValue_of_forall]
      · exact hreads'
      · intro known he
        cases he
        exact htable'
  · rwa [mergeValue_of_not_isTable htable]

end Merged

end ContentTypes.Toml
