import ContentTypes.Proofs.Naming.Counting

namespace ContentTypes.Naming

open NameTable (numbered)

section Promise

variable {overflow : Overflow} {name : String} {table : NameTable}

-- What a claim ought to come to: the name itself or, if that is taken, the name with the least
-- number that makes it free. The table has one name more, and only a change of the name is
-- reported.
structure Promised (name : String) (table : NameTable) (outcome : Logged (String × NameTable)) :
    Prop where
  least : name ∉ table.taken ∧ outcome.value.1 = name ∨
    name ∈ table.taken ∧ ∃ n : Nat, IsLeast {n : Nat | 2 ≤ n ∧ name ++ toString n ∉ table.taken} n ∧
      outcome.value.1 = name ++ toString n
  new : outcome.value.1 ∉ table.taken
  grows : ∀ other, other ∈ outcome.value.2.taken ↔ other = outcome.value.1 ∨ other ∈ table.taken
  reported : outcome.events =
    if outcome.value.1 = name then [] else [.renamed name outcome.value.1]

-- A claim by an unbounded number keeps the promise for every table.
theorem promised_claim (name : String) (table : NameTable) :
    Promised name table (claim name table) where
  least := by
    by_cases h : name ∈ table.taken
    · exact Or.inr ⟨h, _, NameTable.isLeast_firstFree name table.taken, NameTable.free_of_mem h⟩
    · exact Or.inl ⟨h, NameTable.free_of_notMem h⟩
  new := NameTable.free_notMem table name
  grows _ := List.mem_cons
  reported := rfl

-- The name itself is free, or one of the numbers that the counter reaches makes it free.
def Reachable (name : String) (table : NameTable) : Prop :=
  name ∈ table.taken → ∃ n : Nat, 2 ≤ n ∧ n < limit ∧ name ++ toString n ∉ table.taken

theorem ends_of_reachable (h : Reachable name table) :
    Ends overflow name table (.done (claim name table)) := by
  apply ends_claim
  intro hname
  obtain ⟨n, hn, hmax, hfree⟩ := h hname
  exact Nat.lt_of_le_of_lt ((NameTable.isLeast_firstFree name table.taken).2 ⟨hn, hfree⟩) hmax

theorem reachable_of_length (h : table.taken.length + 1 < limit) : Reachable name table := by
  intro hname
  have hleast := NameTable.isLeast_firstFree name table.taken
  have hlength := NameTable.firstFree_le_length hname
  exact ⟨_, hleast.1.1, by omega, hleast.1.2⟩

-- What a claim gives comes from the counter, so a number beyond the counter is never given.
theorem promised_iff_reachable :
    (∃ outcome, Ends overflow name table (.done outcome) ∧ Promised name table outcome) ↔
      Reachable name table := by
  constructor
  · rintro ⟨outcome, ⟨rounds, hends⟩, hpromised⟩ hname
    obtain ⟨hfree, -⟩ | ⟨-, n, hleast, hgiven⟩ := hpromised.least
    · exact absurd hname hfree
    · rw [claimWithin, if_pos hname] at hends
      obtain ⟨m, -, rfl⟩ := search_done rounds 2 hends
      have hm : m.toInt = n := toInt_of_counted hgiven
      have hmax : m.toInt < limit := m.toInt_lt
      exact ⟨n, hleast.1.1, by omega, hleast.1.2⟩
  · intro h
    exact ⟨_, ends_of_reachable h, promised_claim name table⟩

-- Where additions are checked, a claim that cannot keep the promise panics, and no other one does.
theorem panics_iff_not_reachable :
    Ends .panics name table .panicked ↔ ¬Reachable name table := by
  constructor
  · intro hpanicked h
    cases ends_unique hpanicked (ends_of_reachable h)
  · intro h
    rw [Reachable, Classical.not_imp] at h
    obtain ⟨hname, hnone⟩ := h
    apply ends_panicked hname
    intro n hn hmax
    by_contra hfree
    exact hnone ⟨n, hn, hmax, hfree⟩

theorem ends_new {outcome : Logged (String × NameTable)}
    (h : Ends overflow name table (.done outcome)) :
    outcome.value.1 ∉ table.taken ∧ outcome.value.2 = table.taking [outcome.value.1] := by
  obtain ⟨rounds, h⟩ := h
  rw [claimWithin] at h
  by_cases hname : name ∈ table.taken
  · rw [if_pos hname] at h
    obtain ⟨m, hm, rfl⟩ := search_done rounds 2 h
    exact ⟨hm, rfl⟩
  · rw [if_neg hname] at h
    obtain rfl := Ending.done.inj (Option.some.inj h)
    exact ⟨hname, rfl⟩

end Promise

-- What can be done to a table from outside.
inductive Call where
  | reserve (name : String)
  | claim (name : String)
  deriving DecidableEq, Repr

-- What a call took from the table.
inductive Taken where
  | reserved (name : String)
  | claimed (name : String)
  deriving DecidableEq, Repr

def Taken.name : Taken → String
  | .reserved name => name
  | .claimed name => name

-- A row of calls that all come to an end without a panic, with what they took and the table behind
-- them.
inductive Answers (overflow : Overflow) :
    NameTable → List Call → List Taken → NameTable → Prop where
  | none (table : NameTable) : Answers overflow table [] [] table
  | reserve {table last : NameTable} {rest : List Call} {more : List Taken} (name : String)
      (h : Answers overflow (table.reserve name) rest more last) :
      Answers overflow table (.reserve name :: rest) (.reserved name :: more) last
  | claim {table last : NameTable} {rest : List Call} {more : List Taken} {name : String}
      {outcome : Logged (String × NameTable)} (hends : Ends overflow name table (.done outcome))
      (h : Answers overflow outcome.value.2 rest more last) :
      Answers overflow table (.claim name :: rest) (.claimed outcome.value.1 :: more) last

section Rows

variable {overflow : Overflow} {table last : NameTable} {calls : List Call} {taken : List Taken}

-- The table only grows, so a later claim gets nothing that was there at the start.
theorem notMem_of_answers (h : Answers overflow table calls taken last) {name : String}
    (hc : .claimed name ∈ taken) : name ∉ table.taken := by
  induction h with
  | none => cases hc
  | reserve requested h ih =>
      obtain hc | hc := List.mem_cons.mp hc
      · cases hc
      · intro hm
        exact ih hc ((NameTable.mem_reserve _ _ _).mpr (Or.inr hm))
  | claim hends h ih =>
      obtain ⟨hnew, hlater⟩ := ends_new hends
      obtain hc | hc := List.mem_cons.mp hc
      · exact Taken.claimed.inj hc ▸ hnew
      · intro hm
        exact ih hc (hlater ▸ (NameTable.mem_taking _ _ _).mpr (Or.inr hm))

theorem pairwise_answers (h : Answers overflow table calls taken last) :
    taken.Pairwise fun earlier later => later ≠ .claimed earlier.name := by
  induction h with
  | none => exact List.Pairwise.nil
  | reserve requested h ih =>
      refine List.Pairwise.cons ?_ ih
      rintro later hl rfl
      exact notMem_of_answers h hl ((NameTable.mem_reserve _ _ _).mpr (Or.inl rfl))
  | claim hends h ih =>
      obtain ⟨-, hlater⟩ := ends_new hends
      refine List.Pairwise.cons ?_ ih
      rintro later hl rfl
      exact notMem_of_answers h hl
        (hlater ▸ (NameTable.mem_taking _ _ _).mpr (Or.inl List.mem_cons_self))

end Rows

def Call.perform : Call → Naming Taken
  | .reserve name => do
      Naming.reserve name
      return .reserved name
  | .claim name => do
      let claimed ← Naming.claim name
      return .claimed claimed

def performAll : List Call → Naming (List Taken)
  | [] => return []
  | call :: rest => do
      let first ← call.perform
      let more ← performAll rest
      return first :: more

-- Each call adds at most one name. So as long as they fit, the calls answer as they do with an
-- unbounded number.
theorem answers_performAll (overflow : Overflow) (calls : List Call) (table : NameTable)
    (h : table.taken.length + calls.length < limit) :
    Answers overflow table calls (run (performAll calls) table).1
      (run (performAll calls) table).2 := by
  induction calls generalizing table with
  | nil => exact .none table
  | cons call rest ih =>
      rw [List.length_cons] at h
      cases call with
      | reserve name =>
          have hlength : (table.reserve name).taken.length ≤ table.taken.length + 1 := by
            unfold NameTable.reserve
            split <;> simp
          exact .reserve name (ih (table.reserve name) (by omega))
      | claim name =>
          have hends : Ends overflow name table (.done (claim name table)) :=
            ends_of_reachable (reachable_of_length (by omega))
          have hlength : (claim name table).value.2.taken.length = table.taken.length + 1 := rfl
          exact .claim hends (ih (claim name table).value.2 (by omega))

-- The promise is kept just where the counter reaches a number that makes the name free, in
-- particular for tables that are smaller than the counter. What a row of calls claims was not in
-- the table before, neither from the start nor by an earlier call, whatever the counter does.
theorem claim_keeps_promise_iff (overflow : Overflow) :
    (∀ (name : String) (table : NameTable),
      (∃ outcome, Ends overflow name table (.done outcome) ∧ Promised name table outcome) ↔
        (name ∈ table.taken →
          ∃ n : Nat, 2 ≤ n ∧ n < limit ∧ name ++ toString n ∉ table.taken)) ∧
    (∀ (name : String) (table : NameTable), table.taken.length + 1 < limit →
      Ends overflow name table (.done (claim name table)) ∧
        Promised name table (claim name table)) ∧
    ∀ (calls : List Call) (table last : NameTable) (taken : List Taken),
      Answers overflow table calls taken last →
        (taken.Pairwise fun earlier later => later ≠ .claimed earlier.name) ∧
          ∀ name ∈ table.taken, .claimed name ∉ taken := by
  refine ⟨fun name table => promised_iff_reachable, ?_, ?_⟩
  · intro name table h
    exact ⟨ends_of_reachable (reachable_of_length h), promised_claim name table⟩
  · intro calls table last taken h
    exact ⟨pairwise_answers h, fun name hn hc => notMem_of_answers h hc hn⟩

-- A table with a name, its first number and another name, which goes through four calls.
def crowdedTable : NameTable := ⟨["Item", "Item2", "CtaSlice"]⟩

def crowdedCalls : List Call :=
  [.claim "Item", .reserve "Item4", .claim "CtaSlice", .claim "Item"]

theorem claim_keeps_promise_crowdedTable :
    crowdedTable.taken.length + 1 < limit ∧
      Promised "Item" crowdedTable (claim "Item" crowdedTable) ∧
      ∃ last, Answers .panics crowdedTable crowdedCalls
        [.claimed "Item3", .reserved "Item4", .claimed "CtaSlice2", .claimed "Item5"] last ∧
      "CtaSlice" ∈ crowdedTable.taken ∧
      .claimed "CtaSlice" ∉ (run (performAll crowdedCalls) crowdedTable).1 := by
  have hlength : crowdedTable.taken.length + 1 < limit := by decide
  have hmem : "CtaSlice" ∈ crowdedTable.taken := by decide
  have htaken : (run (performAll crowdedCalls) crowdedTable).1 =
      [.claimed "Item3", .reserved "Item4", .claimed "CtaSlice2", .claimed "Item5"] := by
    decide +kernel
  have hrow := answers_performAll .panics crowdedCalls crowdedTable (by decide)
  obtain ⟨-, hsmall, hrows⟩ := claim_keeps_promise_iff .panics
  exact ⟨hlength, (hsmall "Item" crowdedTable hlength).2, _, htaken ▸ hrow, hmem,
    (hrows _ _ _ _ hrow).2 _ hmem⟩

-- A name with all numbers that the counter has from two on.
def exhaustedTable : NameTable := ⟨"Item" :: (List.range' 2 (limit - 2)).map (numbered "Item")⟩

theorem mem_exhaustedTable (name : String) :
    name ∈ exhaustedTable.taken ↔
      name = "Item" ∨ ∃ n, (2 ≤ n ∧ n < limit) ∧ numbered "Item" n = name := by
  have hnumbers : ∀ n, n ∈ List.range' 2 (limit - 2) ↔ 2 ≤ n ∧ n < limit := fun n =>
    List.mem_range'_1.trans (by omega)
  rw [exhaustedTable, List.mem_cons, List.mem_map]
  exact or_congr_right (exists_congr fun n => and_congr_left' (hnumbers n))

theorem numbered_mem_exhaustedTable {n : Nat} (hn : 2 ≤ n) (hmax : n < limit) :
    numbered "Item" n ∈ exhaustedTable.taken :=
  (mem_exhaustedTable _).mpr (Or.inr ⟨n, ⟨hn, hmax⟩, rfl⟩)

-- One build panics. The other one comes round to the least number of the counter and gives that one,
-- while the least number that makes the name free lies just beyond the counter.
theorem exhaustedTable_not_promised :
    Ends .panics "Item" exhaustedTable .panicked ∧
      Ends .wraps "Item" exhaustedTable
        (.done ⟨("Item-2147483648", ⟨"Item-2147483648" :: exhaustedTable.taken⟩),
          [.renamed "Item" "Item-2147483648"]⟩) ∧
      IsLeast {n : Nat | 2 ≤ n ∧ "Item" ++ toString n ∉ exhaustedTable.taken} limit ∧
      ∀ overflow, ¬∃ outcome, Ends overflow "Item" exhaustedTable (.done outcome) ∧
        Promised "Item" exhaustedTable outcome := by
  have hname : "Item" ∈ exhaustedTable.taken := (mem_exhaustedTable _).mpr (Or.inl rfl)
  have htaken : ∀ n, 2 ≤ n → n < limit → numbered "Item" n ∈ exhaustedTable.taken := fun _ =>
    numbered_mem_exhaustedTable
  refine ⟨ends_panicked hname htaken, ?_, ?_, ?_⟩
  · apply ends_wrapped hname htaken
    rw [mem_exhaustedTable]
    rintro (he | ⟨n, -, hn⟩)
    · exact absurd he (by decide)
    · have hint := toInt_of_counted hn.symm
      rw [Int32.toInt_minValue] at hint
      omega
  · constructor
    · refine ⟨by decide, ?_⟩
      rw [mem_exhaustedTable]
      rintro (he | ⟨n, hn, he⟩)
      · exact NameTable.ne_numbered "Item" _ he.symm
      · have hnumber := NameTable.numbered_injective "Item" he
        omega
    · rintro n ⟨hn, hfree⟩
      by_contra hlt
      exact hfree (htaken n hn (by omega))
  · intro overflow hkept
    obtain ⟨n, hn, hmax, hfree⟩ := promised_iff_reachable.mp hkept hname
    exact hfree (htaken n hn hmax)

end ContentTypes.Naming
