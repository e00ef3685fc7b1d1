import Mathlib.Data.List.Nodup
import Mathlib.Data.List.Perm.Subperm
import Mathlib.Order.Bounds.Defs
import ContentTypes.Naming.Counter
import ContentTypes.Proofs.Naming.Wider

namespace ContentTypes

namespace NameTable

theorem ne_numbered (name : String) (n : Nat) : name ≠ numbered name n := by
  intro h
  have hl := congrArg (fun text => text.toList.length) h
  simp only [numbered, String.toList_append, List.length_append] at hl
  have hpos : 0 < (toString n).toList.length := by
    rw [Nat.toString_eq_repr, Nat.toList_repr]
    exact List.length_pos_of_ne_nil Nat.toDigits_ne_nil
  omega

-- The name itself and the numbers that were tried before stand for different names of the table.
theorem firstFree_le_length {name : String} {taken : List String} (h : name ∈ taken) :
    firstFree name 2 taken ≤ taken.length + 1 := by
  let tried := (List.range' 2 (firstFree name 2 taken - 2)).map (numbered name)
  have hnodup : (name :: tried).Nodup := by
    have hdistinct : tried.Nodup :=
      List.Nodup.map (fun _ _ => numbered_injective name) List.nodup_range'
    refine List.nodup_cons.mpr ⟨?_, hdistinct⟩
    intro hm
    obtain ⟨n, -, hn⟩ := List.mem_map.mp hm
    exact ne_numbered name n hn.symm
  have hsub : name :: tried ⊆ taken := by
    refine List.cons_subset.mpr ⟨h, ?_⟩
    intro other ho
    obtain ⟨n, hn, rfl⟩ := List.mem_map.mp ho
    rw [List.mem_range'_1] at hn
    exact numbered_mem_of_lt_firstFree name 2 taken hn.1 (by omega)
  have hlength := (List.subperm_of_subset hnodup hsub).length_le
  simp only [tried, List.length_cons, List.length_map, List.length_range'] at hlength
  omega

theorem isLeast_firstFree (name : String) (taken : List String) :
    IsLeast {n | 2 ≤ n ∧ numbered name n ∉ taken} (firstFree name 2 taken) := by
  constructor
  · exact ⟨le_firstFree name 2 taken, numbered_firstFree_notMem name 2 taken⟩
  · rintro n ⟨hn, hfree⟩
    by_contra hlt
    exact hfree (numbered_mem_of_lt_firstFree name 2 taken hn (Nat.lt_of_not_le hlt))

end NameTable

namespace Naming

open NameTable (numbered firstFree)

theorem counted_ofNat (name : String) {n : Nat} (hn : n < limit) :
    counted name (Int32.ofNat n) = numbered name n := by
  have hint : toString (Int32.ofNat n) = toString (Int32.ofNat n).toInt := rfl
  rw [counted, hint, Int32.toInt_ofNat_of_lt hn]
  rfl

-- A number below zero has a sign, which no numbered name has behind the name.
theorem toInt_of_counted {name : String} {m : Int32} {n : Nat}
    (h : counted name m = numbered name n) : m.toInt = n := by
  have htext : m.toInt.repr = n.repr := (String.append_right_inj name).mp h
  rw [Int.repr_eq_if] at htext
  by_cases hm : 0 ≤ m.toInt
  · rw [if_pos hm] at htext
    have hnumber := NameTable.numbered_injective "" (congrArg ("" ++ ·) htext)
    omega
  · rw [if_neg hm] at htext
    have hsign : '-' ∈ n.repr.toList := by
      rw [← htext, String.toList_append]
      exact List.mem_cons_self
    rw [Nat.toList_repr] at hsign
    exact absurd (Nat.isDigit_of_mem_toDigits (by decide) (Nat.le_refl 10) hsign) (by decide)

theorem next?_ofNat (overflow : Overflow) {n : Nat} (hn : n + 1 < limit) :
    overflow.next? (Int32.ofNat n) = some (Int32.ofNat (n + 1)) := by
  have hsucc : Int32.ofNat (n + 1) = Int32.ofNat n + 1 := Int32.ofNat_add n 1
  have hmax : Int32.ofNat n ≠ Int32.maxValue := by
    intro he
    have hint := congrArg Int32.toInt he
    have hlimit : limit = 2147483648 := rfl
    rw [Int32.toInt_ofNat_of_lt (by omega), Int32.toInt_maxValue] at hint
    omega
  cases overflow with
  | panics => rw [Overflow.next?, if_neg hmax, hsucc]
  | wraps => rw [Overflow.next?, hsucc]

section Search

variable {overflow : Overflow} {name : String} {table : NameTable}

-- As long as all numbers are taken the search goes from one to the next.
theorem search_goesOn (rounds n : Nat) {distance : Nat} (hmax : n + distance < limit)
    (htaken : ∀ k, n ≤ k → k < n + distance → numbered name k ∈ table.taken) :
    search overflow name table (distance + rounds) (Int32.ofNat n) =
      search overflow name table rounds (Int32.ofNat (n + distance)) := by
  induction distance generalizing n with
  | zero => rw [Nat.zero_add, Nat.add_zero]
  | succ distance ih =>
      have hn : numbered name n ∈ table.taken := htaken n (Nat.le_refl n) (by omega)
      have hlater := ih (n + 1) (by omega) fun k hk hlt => htaken k (by omega) (by omega)
      have hround : distance + 1 + rounds = distance + rounds + 1 := by omega
      rw [hround, search, counted_ofNat name (by omega), if_pos hn, next?_ofNat overflow (by omega)]
      rw [Nat.add_right_comm] at hlater
      exact hlater

-- The search ends where the unbounded one does, if the counter gets that far.
theorem ends_claim (h : name ∈ table.taken → firstFree name 2 table.taken < limit) :
    Ends overflow name table (.done (claim name table)) := by
  have hclaim : claim name table = ⟨(table.free name, ⟨table.free name :: table.taken⟩),
      if table.free name = name then [] else [.renamed name (table.free name)]⟩ := rfl
  by_cases hname : name ∈ table.taken
  · obtain ⟨distance, hfirst⟩ :=
      Nat.exists_eq_add_of_le (NameTable.le_firstFree name 2 table.taken)
    have hmax : 2 + distance < limit := hfirst ▸ h hname
    have hbefore : ∀ k, 2 ≤ k → k < 2 + distance → numbered name k ∈ table.taken := fun k hk hlt =>
      NameTable.numbered_mem_of_lt_firstFree name 2 table.taken hk (hfirst ▸ hlt)
    have hfree : table.free name = numbered name (2 + distance) := by
      rw [NameTable.free_of_mem hname, hfirst]
    have hnew : numbered name (2 + distance) ∉ table.taken :=
      hfree ▸ NameTable.free_notMem table name
    refine ⟨distance + 1, ?_⟩
    rw [claimWithin, if_pos hname]
    refine (search_goesOn 1 2 hmax hbefore).trans ?_
    rw [search, counted_ofNat name hmax, if_neg hnew, hclaim, hfree,
      if_neg (NameTable.ne_numbered name _).symm]
  · refine ⟨0, ?_⟩
    rw [claimWithin, if_neg hname, hclaim, NameTable.free_of_notMem hname, if_pos rfl]

theorem search_stable (rounds more : Nat) (n : Int32) {ending : Ending}
    (h : search overflow name table rounds n = some ending) :
    search overflow name table (rounds + more) n = some ending := by
  induction rounds generalizing n with
  | zero => cases h
  | succ rounds ih =>
      rw [Nat.add_right_comm]
      rw [search] at h ⊢
      by_cases hn : counted name n ∈ table.taken
      · rw [if_pos hn] at h ⊢
        cases hnext : overflow.next? n with
        | none => rwa [hnext] at h
        | some later =>
            rw [hnext] at h
            exact ih later h
      · rwa [if_neg hn] at h ⊢

theorem ends_unique {ending other : Ending} (h : Ends overflow name table ending)
    (ho : Ends overflow name table other) : ending = other := by
  obtain ⟨rounds, h⟩ := h
  obtain ⟨more, ho⟩ := ho
  rw [claimWithin] at h ho
  by_cases hname : name ∈ table.taken
  · rw [if_pos hname] at h ho
    have hlong := search_stable rounds more 2 h
    rw [Nat.add_comm, search_stable more rounds 2 ho] at hlong
    exact (Option.some.inj hlong).symm
  · rw [if_neg hname] at h ho
    exact Option.some.inj (h.symm.trans ho)

-- Whatever the counter does, what is found is free.
theorem search_done (rounds : Nat) (n : Int32) {outcome : Logged (String × NameTable)}
    (h : search overflow name table rounds n = some (.done outcome)) :
    ∃ m, counted name m ∉ table.taken ∧ outcome =
      ⟨(counted name m, ⟨counted name m :: table.taken⟩), [.renamed name (counted name m)]⟩ := by
  induction rounds generalizing n with
  | zero => cases h
  | succ rounds ih =>
      rw [search] at h
      by_cases hn : counted name n ∈ table.taken
      · rw [if_pos hn] at h
        cases hnext : overflow.next? n with
        | none =>
            rw [hnext] at h
            cases h
        | some later =>
            rw [hnext] at h
            exact ih later h
      · rw [if_neg hn] at h
        exact ⟨n, hn, (Ending.done.inj (Option.some.inj h)).symm⟩

section Exhausted

variable (hname : name ∈ table.taken)
  (htaken : ∀ n, 2 ≤ n → n < limit → numbered name n ∈ table.taken)

include htaken

theorem counted_maxValue_mem : counted name Int32.maxValue ∈ table.taken := by
  have hgreatest : Int32.maxValue = Int32.ofNat (limit - 1) := by decide
  rw [hgreatest, counted_ofNat name (by decide)]
  exact htaken _ (by decide) (by decide)

include hname

-- If no number from two on makes the name free, the search gets to the greatest number.
theorem claimWithin_greatest (rounds : Nat) :
    claimWithin overflow name (limit - 3 + rounds) table =
      search overflow name table rounds Int32.maxValue := by
  have hgreatest : Int32.maxValue = Int32.ofNat (2 + (limit - 3)) := by decide
  rw [claimWithin, if_pos hname, hgreatest]
  exact search_goesOn rounds 2 (by decide) fun k hk hlt => htaken k hk (by omega)

theorem ends_panicked : Ends .panics name table .panicked := by
  refine ⟨limit - 3 + 1, ?_⟩
  rw [claimWithin_greatest hname htaken, search, if_pos (counted_maxValue_mem htaken)]
  rfl

theorem ends_wrapped (hleast : counted name Int32.minValue ∉ table.taken) :
    let claimed := counted name Int32.minValue
    Ends .wraps name table
      (.done ⟨(claimed, ⟨claimed :: table.taken⟩), [.renamed name claimed]⟩) := by
  have hwrapped : search .wraps name table (1 + 1) Int32.maxValue =
      search .wraps name table 1 Int32.minValue := by
    rw [search, if_pos (counted_maxValue_mem htaken)]
    rfl
  refine ⟨limit - 3 + (1 + 1), ?_⟩
  rw [claimWithin_greatest hname htaken, hwrapped, search, if_neg hleast]

end Exhausted

end Search

end Naming

end ContentTypes
