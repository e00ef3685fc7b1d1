import ContentTypes.Proofs.OrderedMap.Entries
import ContentTypes.Proofs.Text.Words

namespace ContentTypes.Text

-- A sign that comes before the letters.
def IsSign (c : Char) : Prop := 0 < c.toNat ∧ c.toNat < 65

instance (c : Char) : Decidable (IsSign c) := inferInstanceAs (Decidable (_ ∧ _))

namespace Cluster

-- The context decides where clusters end, and no character is lost or added.
theorem flatten_splitAfter (context : Context) (chars : List Char) :
    (splitAfter context chars).1 ++ (splitAfter context chars).2.flatten = chars := by
  induction chars generalizing context with
  | nil => rfl
  | cons c rest ih =>
      rw [splitAfter]
      split
      · exact congrArg (c :: ·) (ih _)
      · exact congrArg (c :: ·) (ih _)

theorem flatten_split (chars : List Char) : (split chars).flatten = chars := by
  cases chars with
  | nil => rfl
  | cons c rest => exact congrArg (c :: ·) (flatten_splitAfter _ rest)

end Cluster

namespace Letter

theorem mem_lowerAfter {d : Char} {before text : List Char} (h : d ∈ lowerAfter before text) :
    ∃ c ∈ text, d ∈ lowerForm c ∨ d = 'ς' := by
  induction text generalizing before with
  | nil => cases h
  | cons c rest ih =>
      have hcases : (d ∈ lowerForm c ∨ d = 'ς') ∨ ∃ seen, d ∈ lowerAfter seen rest := by
        by_cases hc : c = 'Σ'
        · subst hc
          have hsigma : lowerForm 'Σ' = ['σ'] := by decide +kernel
          rw [lowerAfter, List.mem_cons] at h
          rcases h with h | h
          · left
            rw [hsigma, List.mem_singleton, h]
            split <;> simp
          · exact Or.inr ⟨_, h⟩
        · rw [lowerAfter, List.mem_append] at h
          · rcases h with h | h
            · exact Or.inl (Or.inl h)
            · exact Or.inr ⟨_, h⟩
          · exact hc
      rcases hcases with hform | ⟨seen, hrest⟩
      · exact ⟨c, List.mem_cons_self, hform⟩
      · obtain ⟨e, he, hform⟩ := ih hrest
        exact ⟨e, List.mem_cons_of_mem _ he, hform⟩

end Letter

namespace Words

theorem mem_capitalize {d : Char} {word : List Char} (h : d ∈ capitalize word) :
    ∃ c ∈ word, d ∈ Letter.upperForm c ∨ d ∈ Letter.lowerForm c ∨ d = 'ς' := by
  cases word with
  | nil => cases h
  | cons c rest =>
      rw [capitalize, List.mem_append] at h
      rcases h with h | h
      · exact ⟨c, List.mem_cons_self, Or.inl h⟩
      · obtain ⟨e, he, hform⟩ := Letter.mem_lowerAfter h
        exact ⟨e, List.mem_cons_of_mem _ he, Or.inr hform⟩

-- Words are put together from clusters, of which only separators are left out.
theorem flatten_words_subset (clusters : List (List Char)) :
    (words clusters).flatten ⊆ clusters.flatten := by
  induction clusters with
  | nil => exact List.Subset.refl _
  | cons cluster rest ih =>
      have hkeep : cluster ++ (words rest).flatten ⊆ (cluster :: rest).flatten :=
        List.append_subset.mpr
          ⟨List.subset_append_left _ _, List.subset_append_of_subset_right _ ih⟩
      rw [words_cons]
      split
      · exact List.subset_append_of_subset_right _ ih
      · split
        · exact hkeep
        · change (cluster ++ (part rest).1) ++ (part rest).2.flatten ⊆ _
          rw [List.append_assoc]
          exact hkeep

theorem mem_pascal_forms {d : Char} {text : String} (h : d ∈ (pascal text).toList) :
    ∃ c ∈ text.toList, d ∈ Letter.upperForm c ∨ d ∈ Letter.lowerForm c ∨ d = 'ς' := by
  rw [pascal, String.toList_ofList, List.mem_flatMap] at h
  obtain ⟨word, hw, hd⟩ := h
  obtain ⟨c, hc, hform⟩ := mem_capitalize hd
  have hall := flatten_words_subset (Cluster.split text.toList)
  rw [Cluster.flatten_split] at hall
  exact ⟨c, hall (List.mem_flatten.mpr ⟨word, hw, hc⟩), hform⟩

end Words

namespace Letter

theorem mem_formIn {runs : List Run} {sequences : List (Nat × List Nat)} {c d : Char}
    (h : d ∈ formIn runs sequences c) :
    d = c ∨ (∃ entry ∈ sequences, d ∈ entry.2.map Char.ofNat) ∨
      ∃ run ∈ runs, ∃ n, run.form? c.toNat = some n ∧ d = Char.ofNat n := by
  unfold formIn at h
  split at h
  · rename_i sequence hs
    exact Or.inr (Or.inl ⟨_, mem_of_lookup_eq_some hs, h⟩)
  · split at h
    · rename_i n hn
      obtain ⟨run, hr, hform⟩ := List.exists_of_findSome?_eq_some hn
      exact Or.inr (Or.inr ⟨run, hr, n, hform, List.mem_singleton.mp h⟩)
    · exact Or.inl (List.mem_singleton.mp h)

-- No form of a run comes before the form of its first letter.
theorem le_of_form? {run : Run} {m n : Nat} (h : run.form? m = some n) :
    (run.first : Int) + run.distance ≤ n := by
  unfold Run.form? at h
  split at h
  · rename_i hm
    simp only [Bool.and_eq_true, decide_eq_true_eq] at hm
    have hn := Option.some.inj h
    change ((m : Int) + run.distance).toNat = n at hn
    omega
  · cases h

-- A number without a character stands for the first one.
theorem toNat_ofNat_of_pos {n : Nat} (h : 0 < (Char.ofNat n).toNat) :
    (Char.ofNat n).toNat = n := by
  by_cases hn : n.isValidChar
  · rw [Char.ofNat, dif_pos hn]
    rfl
  · rw [Char.ofNat, dif_neg hn] at h
    exact absurd h (by decide)

-- Where all forms that are listed are letters or marks, a sign is the form of itself only.
theorem eq_of_mem_formIn {runs : List Run} {sequences : List (Nat × List Nat)} {c d : Char}
    (hruns : ∀ run ∈ runs, 64 < (run.first : Int) + run.distance)
    (hsequences : ∀ entry ∈ sequences, ∀ n ∈ entry.2, 64 < n)
    (hd : IsSign d) (h : d ∈ formIn runs sequences c) : d = c := by
  rcases mem_formIn h with hc | ⟨entry, he, hm⟩ | ⟨run, hr, n, hform, rfl⟩
  · exact hc
  · obtain ⟨n, hn, rfl⟩ := List.mem_map.mp hm
    have hcode := toNat_ofNat_of_pos hd.1
    have hlisted := hsequences entry he n hn
    have hlt := hd.2
    omega
  · have hcode := toNat_ofNat_of_pos hd.1
    have hle := le_of_form? hform
    have hlisted := hruns run hr
    have hlt := hd.2
    omega

theorem eq_of_mem_upperForm {c d : Char} (hd : IsSign d) (h : d ∈ upperForm c) : d = c := by
  unfold upperForm at h
  split at h
  · rw [List.mem_singleton] at h
    by_cases hletter : 'a'.val ≤ c.val ∧ c.val ≤ 'z'.val
    · have hupper : c.toUpper = ⟨c.val + ('A'.val - 'a'.val), _⟩ := dif_pos hletter
      have hcode : d.toNat = (c.val + ('A'.val - 'a'.val)).toNat := by rw [h, hupper]; rfl
      have hshift : ('A'.val - 'a'.val).toNat = 2 ^ 32 - 32 := by decide
      have hlow : 97 ≤ c.val.toNat := hletter.1
      have hhigh : c.val.toNat ≤ 122 := hletter.2
      have hlt := hd.2
      rw [UInt32.toNat_add, hshift] at hcode
      omega
    · exact h.trans (dif_neg hletter)
  · exact eq_of_mem_formIn (by decide +kernel) (by decide +kernel) hd h

theorem eq_of_mem_lowerForm {c d : Char} (hd : IsSign d) (h : d ∈ lowerForm c) : d = c := by
  unfold lowerForm at h
  split at h
  · rw [List.mem_singleton] at h
    by_cases hletter : c.val ≥ 'A'.val ∧ c.val ≤ 'Z'.val
    · have hlower : c.toLower = ⟨c.val + ('a'.val - 'A'.val), _⟩ := dif_pos hletter
      have hcode : d.toNat = (c.val + ('a'.val - 'A'.val)).toNat := by rw [h, hlower]; rfl
      have hshift : ('a'.val - 'A'.val).toNat = 32 := by decide
      have hlow : 65 ≤ c.val.toNat := hletter.1
      have hhigh : c.val.toNat ≤ 90 := hletter.2
      have hlt := hd.2
      rw [UInt32.toNat_add, hshift] at hcode
      omega
    · exact h.trans (dif_neg hletter)
  · exact eq_of_mem_formIn (by decide +kernel) (by decide +kernel) hd h

end Letter

-- No sign is put into a name.
theorem Words.mem_of_mem_pascal {d : Char} (hd : IsSign d) {text : String}
    (h : d ∈ (pascal text).toList) : d ∈ text.toList := by
  obtain ⟨c, hc, hform⟩ := mem_pascal_forms h
  have heq : d = c := by
    rcases hform with hform | hform | rfl
    · exact Letter.eq_of_mem_upperForm hd hform
    · exact Letter.eq_of_mem_lowerForm hd hform
    · exact absurd hd (by decide)
  exact heq ▸ hc

end ContentTypes.Text
