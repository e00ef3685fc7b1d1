import ContentTypes.Proofs.Naming.Grants

namespace ContentTypes.NameTable

-- Every number before it stands for a taken name. What is struck out was taken.
theorem numbered_mem_of_lt_firstFree (name : String) (n : Nat) (taken : List String) {k : Nat}
    (hn : n ≤ k) (hk : k < firstFree name n taken) : numbered name k ∈ taken := by
  fun_induction firstFree name n taken with
  | case1 n taken hm ih =>
      by_cases he : n = k
      · exact he ▸ hm
      · exact List.mem_of_mem_erase (ih (by omega) hk)
  | case2 n taken hm => omega

theorem firstFree_eq {name : String} {n m : Nat} {taken : List String} (hn : n ≤ m)
    (hfree : numbered name m ∉ taken) (hbefore : ∀ k, n ≤ k → k < m → numbered name k ∈ taken) :
    firstFree name n taken = m := by
  have hle := le_firstFree name n taken
  have hfirst := numbered_firstFree_notMem name n taken
  rcases Nat.lt_trichotomy (firstFree name n taken) m with hlt | he | hgt
  · exact absurd (hbefore _ hle hlt) hfirst
  · exact he
  · exact absurd (numbered_mem_of_lt_firstFree name n taken hn hgt) hfree

variable {table wider : NameTable}

theorem free_wider (hsub : table.taken ⊆ wider.taken) {name : String}
    (hfree : table.free name ∉ wider.taken) : wider.free name = table.free name := by
  by_cases h : name ∈ table.taken
  · rw [free_of_mem h] at hfree ⊢
    rw [free_of_mem (hsub h)]
    have hbefore : ∀ k, 2 ≤ k → k < firstFree name 2 table.taken →
        numbered name k ∈ wider.taken := fun k hn hk =>
      hsub (numbered_mem_of_lt_firstFree name 2 table.taken hn hk)
    rw [firstFree_eq (le_firstFree name 2 table.taken) hfree hbefore]
  · rw [free_of_notMem h] at hfree ⊢
    exact free_of_notMem hfree

-- The induction is on the requests. Each grant goes into both tables, and no later one meets it.
theorem grants_wider (hsub : table.taken ⊆ wider.taken) {requests : List String}
    (hclear : ∀ name ∈ table.grants requests, name ∉ wider.taken) :
    wider.grants requests = table.grants requests := by
  induction requests generalizing table wider with
  | nil => rfl
  | cons request rest ih =>
      have hfree := free_wider hsub (hclear _ List.mem_cons_self)
      rw [grants, grants, hfree]
      have hsub' : (table.taking [table.free request]).taken ⊆
          (wider.taking [table.free request]).taken := by
        intro name hn
        rw [mem_taking] at hn ⊢
        exact hn.imp_right fun ht => hsub ht
      rw [ih hsub']
      intro name hn
      have hnew := grants_notMem _ rest hn
      rw [mem_taking, not_or] at hnew ⊢
      exact ⟨hnew.1, hclear name (List.mem_cons_of_mem _ hn)⟩

theorem length_grants (table : NameTable) (requests : List String) :
    (table.grants requests).length = requests.length := by
  induction requests generalizing table with
  | nil => rfl
  | cons request rest ih => rw [grants, List.length_cons, List.length_cons, ih]

-- Two tables that grant the same for a row of requests do so for each part of it.
theorem grants_append_inj {first second : List String}
    (h : wider.grants (first ++ second) = table.grants (first ++ second)) :
    wider.grants first = table.grants first ∧
      (wider.taking (wider.grants first)).grants second =
        (table.taking (table.grants first)).grants second := by
  rw [grants_append, grants_append] at h
  exact List.append_inj h ((length_grants _ _).trans (length_grants _ _).symm)

end ContentTypes.NameTable
