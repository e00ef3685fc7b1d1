import ContentTypes.Naming

namespace ContentTypes

namespace NameTable

theorem numbered_injective (name : String) {i j : Nat} (h : numbered name i = numbered name j) :
    i = j := by
  have hr : toString i = toString j := (String.append_right_inj name).mp h
  have hd : Nat.toDigits 10 i = Nat.toDigits 10 j := by
    simpa only [Nat.toString_eq_repr, Nat.toList_repr] using congrArg String.toList hr
  calc
    i = Nat.ofDigitChars 10 (Nat.toDigits 10 i) 0 := Nat.ofDigitChars_ten_toDigits.symm
    _ = j := by rw [hd, Nat.ofDigitChars_ten_toDigits]

theorem le_firstFree (name : String) (n : Nat) (taken : List String) :
    n ≤ firstFree name n taken := by
  fun_induction firstFree name n taken with
  | case1 n taken hm ih => omega
  | case2 n taken hm => exact Nat.le_refl n

-- A struck name is the one of a smaller number, so it is not the name that is found.
theorem numbered_firstFree_notMem (name : String) (n : Nat) (taken : List String) :
    numbered name (firstFree name n taken) ∉ taken := by
  fun_induction firstFree name n taken with
  | case1 n taken hm ih =>
      have hle := le_firstFree name (n + 1) (taken.erase (numbered name n))
      intro hmem
      apply ih
      apply (List.mem_erase_of_ne ?_).mpr hmem
      intro he
      have := numbered_injective name he
      omega
  | case2 n taken hm => exact hm

theorem free_of_notMem {table : NameTable} {name : String} (h : name ∉ table.taken) :
    table.free name = name := by
  simp [free, h]

theorem free_of_mem {table : NameTable} {name : String} (h : name ∈ table.taken) :
    table.free name = numbered name (firstFree name 2 table.taken) := by
  simp [free, h]

theorem free_notMem (table : NameTable) (name : String) : table.free name ∉ table.taken := by
  by_cases h : name ∈ table.taken
  · rw [free_of_mem h]
    exact numbered_firstFree_notMem name 2 table.taken
  · rwa [free_of_notMem h]

@[simp] theorem mem_reserve (table : NameTable) (name other : String) :
    other ∈ (table.reserve name).taken ↔ other = name ∨ other ∈ table.taken := by
  unfold reserve
  split
  · rename_i h
    have hm : name ∈ table.taken := by simpa using h
    constructor
    · exact Or.inr
    · rintro (rfl | ho)
      · exact hm
      · exact ho
  · simp

theorem mem_foldl_reserve (names : List String) (table : NameTable) (other : String) :
    other ∈ (names.foldl reserve table).taken ↔ other ∈ names ∨ other ∈ table.taken := by
  induction names generalizing table with
  | nil => simp
  | cons name rest ih =>
      simp only [List.foldl_cons, ih, mem_reserve, List.mem_cons]
      rw [or_left_comm, or_assoc]

-- The table once more names are taken, one after the other.
def taking (table : NameTable) (names : List String) : NameTable := ⟨names.reverse ++ table.taken⟩

@[simp] theorem mem_taking (table : NameTable) (names : List String) (name : String) :
    name ∈ (table.taking names).taken ↔ name ∈ names ∨ name ∈ table.taken := by
  simp [taking]

theorem taking_append (table : NameTable) (first second : List String) :
    table.taking (first ++ second) = (table.taking first).taking second := by
  simp [taking]

-- What the table gives for a row of requests.
def grants (table : NameTable) : List String → List String
  | [] => []
  | request :: rest =>
      table.free request :: (table.taking [table.free request]).grants rest

theorem grants_append (table : NameTable) (first second : List String) :
    table.grants (first ++ second) =
      table.grants first ++ (table.taking (table.grants first)).grants second := by
  induction first generalizing table with
  | nil => rfl
  | cons request rest ih =>
      simp only [List.cons_append, grants, ih, ← taking_append, List.nil_append]

theorem grants_notMem (table : NameTable) (requests : List String) {name : String}
    (hn : name ∈ table.grants requests) : name ∉ table.taken := by
  induction requests generalizing table with
  | nil => simp [grants] at hn
  | cons request rest ih =>
      rcases List.mem_cons.mp hn with rfl | hr
      · exact free_notMem table request
      · have hr := ih _ hr
        simp only [mem_taking, not_or] at hr
        exact hr.2

theorem grants_nodup (table : NameTable) (requests : List String) :
    (table.grants requests).Nodup := by
  induction requests generalizing table with
  | nil => exact List.nodup_nil
  | cons request rest ih =>
      refine List.nodup_cons.mpr ⟨?_, ih _⟩
      intro hm
      have hr := grants_notMem _ rest hm
      simp at hr

-- A request is granted as it is or with a number.
theorem exists_request (table : NameTable) (requests : List String) {name : String}
    (hn : name ∈ table.grants requests) :
    ∃ request ∈ requests, name = request ∨ ∃ n, name = numbered request n := by
  induction requests generalizing table with
  | nil => simp [grants] at hn
  | cons request rest ih =>
      rcases List.mem_cons.mp hn with rfl | hr
      · refine ⟨request, List.mem_cons_self, ?_⟩
        by_cases h : request ∈ table.taken
        · exact Or.inr ⟨_, free_of_mem h⟩
        · exact Or.inl (free_of_notMem h)
      · obtain ⟨other, ho, hname⟩ := ih _ hr
        exact ⟨other, List.mem_cons_of_mem _ ho, hname⟩

-- Once such a name is asked for it is taken, now or earlier. Later requests for it get others.
theorem mem_grants_iff (table : NameTable) (requests : List String) {name : String}
    (hu : ∀ request n, name ≠ numbered request n) :
    name ∈ table.grants requests ↔ name ∈ requests ∧ name ∉ table.taken := by
  induction requests generalizing table with
  | nil => simp [grants]
  | cons request rest ih =>
      simp only [grants, List.mem_cons, ih, mem_taking, List.not_mem_nil, or_false, not_or]
      by_cases h : request ∈ table.taken
      · have hne : name ≠ table.free request := by
          rw [free_of_mem h]
          exact hu request _
        constructor
        · rintro (he | ⟨hr, -, ht⟩)
          · exact absurd he hne
          · exact ⟨Or.inr hr, ht⟩
        · rintro ⟨rfl | hr, ht⟩
          · exact absurd h ht
          · exact Or.inr ⟨hr, hne, ht⟩
      · rw [free_of_notMem h]
        constructor
        · rintro (rfl | ⟨hr, -, ht⟩)
          · exact ⟨Or.inl rfl, h⟩
          · exact ⟨Or.inr hr, ht⟩
        · rintro ⟨hr, ht⟩
          by_cases he : name = request
          · exact Or.inl he
          · exact Or.inr ⟨hr.resolve_left he, he, ht⟩

end NameTable

namespace Naming

variable {α : Type}

-- The result of the work and the table after it, without what was reported.
def run (work : Naming α) (table : NameTable) : α × NameTable := (work table).value

end Naming

end ContentTypes
