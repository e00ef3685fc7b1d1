import ContentTypes.Proofs.Text.Words

namespace ContentTypes.Text

-- The characters that part words and vanish.
def separators : List Char := ['_', '-', ' ']

-- A plain letter or digit, or a separator.
def IsPlain (c : Char) : Prop := c.isAlphanum ∨ c ∈ separators

instance (c : Char) : Decidable (IsPlain c) := inferInstanceAs (Decidable (_ ∨ _))

theorem IsPlain.toNat_lt {c : Char} (h : IsPlain c) : c.toNat < 128 := by
  rcases h with h | h
  · have hranges : (decide (c.val ≥ 'A'.val ∧ c.val ≤ 'Z'.val) ||
        (decide (c.val ≥ 'a'.val) && decide (c.val ≤ 'z'.val)) ||
        (decide (c.val ≥ '0'.val) && decide (c.val ≤ '9'.val))) = true := h
    simp only [Bool.or_eq_true, Bool.and_eq_true, decide_eq_true_eq,
      UInt32.le_iff_toNat_le] at hranges
    change c.val.toNat < 128
    have hz : 'z'.val.toNat = 122 := rfl
    have hcapital : 'Z'.val.toNat = 90 := rfl
    have hnine : '9'.val.toNat = 57 := rfl
    omega
  · have hlow : separators.all (·.toNat < 128) := by decide
    exact of_decide_eq_true (List.all_eq_true.mp hlow c h)

-- What holds of all plain characters can be checked on the basic alphabet.
theorem IsPlain.of_ascii {motive : Char → Prop}
    (hall : ∀ n < 128, IsPlain (Char.ofNat n) → motive (Char.ofNat n)) {c : Char} (h : IsPlain c) :
    motive c := by
  have hc := hall c.toNat h.toNat_lt
  rw [Char.ofNat_toNat] at hc
  exact hc h

theorem toLower_toLower_plain {c : Char} (h : IsPlain c) : c.toLower.toLower = c.toLower :=
  h.of_ascii (motive := fun c => c.toLower.toLower = c.toLower) (by decide)

theorem toLower_toUpper_plain {c : Char} (h : IsPlain c) : c.toUpper.toLower = c.toLower :=
  h.of_ascii (motive := fun c => c.toUpper.toLower = c.toLower) (by decide)

theorem isAlpha_toUpper_plain {c : Char} (h : IsPlain c) : c.toUpper.isAlpha = c.isAlpha :=
  h.of_ascii (motive := fun c => c.toUpper.isAlpha = c.isAlpha) (by decide)

namespace Cluster

theorem part_plain {c : Char} (h : IsPlain c) : part c = .other :=
  h.of_ascii (motive := fun c => part c = .other) (by decide)

-- Plain characters are clusters by themselves.
theorem split_plain {chars : List Char} (h : ∀ c ∈ chars, IsPlain c) :
    split chars = chars.map ([·]) := by
  induction chars with
  | nil => rfl
  | cons c rest ih =>
      obtain ⟨hc, hrest⟩ := List.forall_mem_cons.mp h
      rw [split_cons, part_plain hc]
      cases rest with
      | nil => rfl
      | cons next rest =>
          rw [pieces_plain (part_plain (hrest next List.mem_cons_self)) (by rfl), ih hrest]
          rfl

-- So are separators in front of a plain character, whatever follows that one.
theorem split_separators {before : List Char} (hb : ∀ s ∈ before, s ∈ separators) {c : Char}
    (hc : IsPlain c) (rest : List Char) :
    split (before ++ c :: rest) = before.map ([·]) ++ split (c :: rest) := by
  induction before with
  | nil => rfl
  | cons s before ih =>
      obtain ⟨hs, hmore⟩ := List.forall_mem_cons.mp hb
      obtain ⟨next, tail, hnext, hplain⟩ :
          ∃ next tail, before ++ c :: rest = next :: tail ∧ IsPlain next := by
        cases before with
        | nil => exact ⟨c, rest, rfl, hc⟩
        | cons next tail => exact ⟨next, _, rfl, Or.inr (hmore next List.mem_cons_self)⟩
      rw [List.cons_append, split_cons, part_plain (Or.inr hs), hnext,
        pieces_plain (part_plain hplain) (by rfl), ← hnext, ih hmore]
      rfl

end Cluster

namespace Letter

theorem lowerForm_plain {c : Char} (h : IsPlain c) : lowerForm c = [c.toLower] :=
  if_pos h.toNat_lt

theorem upperForm_plain {c : Char} (h : IsPlain c) : upperForm c = [c.toUpper] :=
  if_pos h.toNat_lt

theorem lowerAfter_plain {text : List Char} (h : ∀ c ∈ text, IsPlain c) (before : List Char) :
    lowerAfter before text = text.map Char.toLower := by
  induction text generalizing before with
  | nil => rfl
  | cons c rest ih =>
      obtain ⟨hc, hrest⟩ := List.forall_mem_cons.mp h
      have hsigma : c ≠ 'Σ' := by
        rintro rfl
        exact absurd hc (by decide)
      rw [lowerAfter, lowerForm_plain hc, ih hrest]
      · rfl
      · exact hsigma

end Letter

namespace Words

theorem isSeparator_plain {c : Char} (h : IsPlain c) : isSeparator [c] = !c.isAlphanum :=
  h.of_ascii (motive := fun c => isSeparator [c] = !c.isAlphanum) (by decide)

-- The words put together are the clusters without the separators.
theorem flatten_words (clusters : List (List Char)) :
    (words clusters).flatten = (clusters.filter fun cluster => !isSeparator cluster).flatten := by
  induction clusters with
  | nil => rfl
  | cons cluster rest ih =>
      rw [words_cons]
      by_cases hs : isSeparator cluster
      · simpa [hs] using ih
      · have hkept : (cluster :: words rest).flatten =
            ((cluster :: rest).filter fun cluster => !isSeparator cluster).flatten := by
          simp [hs, ih]
        rw [if_neg hs, ← hkept]
        split
        · rfl
        · simp [words]

theorem flatten_split_plain {chars : List Char} (h : ∀ c ∈ chars, IsPlain c) :
    (split chars).flatten = chars.filter Char.isAlphanum := by
  change (words (Cluster.split chars)).flatten = _
  have hkept : chars.filter ((fun cluster => !isSeparator cluster) ∘ ([·])) =
      chars.filter Char.isAlphanum := by
    apply List.filter_congr
    intro c hc
    rw [Function.comp_apply, isSeparator_plain (h c hc), Bool.not_not]
  rw [flatten_words, Cluster.split_plain h, List.filter_map, hkept, ← List.flatMap_def,
    List.flatMap_singleton']

theorem lowered_capitalize {word : List Char} (h : ∀ c ∈ word, IsPlain c) :
    (capitalize word).map Char.toLower = word.map Char.toLower := by
  cases word with
  | nil => rfl
  | cons c rest =>
      obtain ⟨hc, hrest⟩ := List.forall_mem_cons.mp h
      have hlower : (rest.map Char.toLower).map Char.toLower = rest.map Char.toLower := by
        rw [List.map_map]
        exact List.map_congr_left fun d hd => toLower_toLower_plain (hrest d hd)
      rw [capitalize, Letter.upperForm_plain hc, Letter.lower, Letter.lowerAfter_plain hrest,
        List.map_append, hlower, List.map_singleton, toLower_toUpper_plain hc]
      rfl

-- Pascal case drops every separator and keeps every other character, but for its case.
theorem lowered_pascal {text : String} (h : ∀ c ∈ text.toList, IsPlain c) :
    (pascal text).toList.map Char.toLower =
      (text.toList.filter Char.isAlphanum).map Char.toLower := by
  have hall := flatten_split_plain h
  have hwords : ∀ word ∈ split text.toList, (capitalize word).map Char.toLower =
      word.map Char.toLower := by
    intro word hw
    apply lowered_capitalize
    intro c hc
    have hm : c ∈ text.toList.filter Char.isAlphanum :=
      hall ▸ List.mem_flatten.mpr ⟨word, hw, hc⟩
    exact h c (List.mem_filter.mp hm).1
  rw [pascal, String.toList_ofList, List.map_flatMap, List.flatMap_def,
    List.map_congr_left hwords, ← List.map_flatten, hall]

-- Beyond the basic alphabet nothing has another case here.
theorem isAlphanum_toLower (c : Char) : c.toLower.isAlphanum = c.isAlphanum := by
  by_cases hc : c.toNat < 128
  · have hall : ∀ n < 128, (Char.ofNat n).toLower.isAlphanum = (Char.ofNat n).isAlphanum := by
      decide
    rw [← Char.ofNat_toNat c]
    exact hall c.toNat hc
  · have hcapital : ¬(c.val ≥ 'A'.val ∧ c.val ≤ 'Z'.val) := by
      rintro ⟨-, hle⟩
      exact hc (Nat.lt_of_le_of_lt (UInt32.le_iff_toNat_le.mp hle) (by decide))
    have hsame : c.toLower = c := dif_neg hcapital
    rw [hsame]

theorem isAlphanum_of_mem_pascal {text : String} (h : ∀ c ∈ text.toList, IsPlain c) {d : Char}
    (hd : d ∈ (pascal text).toList) : d.isAlphanum := by
  have hlower : d.toLower ∈ (text.toList.filter Char.isAlphanum).map Char.toLower :=
    lowered_pascal h ▸ List.mem_map_of_mem hd
  obtain ⟨c, hc, he⟩ := List.mem_map.mp hlower
  rw [← isAlphanum_toLower, ← he, isAlphanum_toLower]
  exact (List.mem_filter.mp hc).2

theorem isSeparator_of_mem : ∀ s ∈ separators, isSeparator [s] := List.all_eq_true.mp (by decide)

theorem isAlphanum_of_mem (s : Char) (hs : s ∈ separators) : s.isAlphanum = false := by
  have hall : separators.all (!·.isAlphanum) := by decide
  simpa using List.all_eq_true.mp hall s hs

-- Separators at the front make empty words.
theorem words_separators {before : List Char} (hb : ∀ s ∈ before, s ∈ separators)
    (clusters : List (List Char)) :
    words (before.map ([·]) ++ clusters) =
      List.replicate before.length [] ++ words clusters := by
  induction before with
  | nil => rfl
  | cons s before ih =>
      obtain ⟨hs, hmore⟩ := List.forall_mem_cons.mp hb
      have hsep : isSeparator [s] := isSeparator_of_mem s hs
      rw [List.map_cons, List.cons_append, words_cons, if_pos hsep, ih hmore]
      rfl

theorem words_head {c : Char} (hc : c.isAlphanum) (own : List Char) (others : List (List Char)) :
    ∃ back after, words ((c :: own) :: others) = (c :: back) :: after := by
  have hsep : isSeparator (c :: own) = false := by
    have hne : ∀ s ∈ separators, c :: own ≠ [s] := by
      intro s hs he
      rw [(List.cons.inj he).1, isAlphanum_of_mem s hs] at hc
      cases hc
    simp [isSeparator, hne '_' (by decide), hne '-' (by decide), hne ' ' (by decide)]
  rw [words_cons, hsep]
  by_cases he : endsBefore (c :: own) others
  · exact ⟨own, words others, by simp [he]⟩
  · exact ⟨own ++ (part others).1, (part others).2, by simp [he, words]⟩

-- The first letter or digit behind separators comes first, as a capital.
theorem head?_pascal {text : String} {before : List Char} (hb : ∀ s ∈ before, s ∈ separators)
    {c : Char} (hc : c.isAlphanum) (rest : List Char) (h : text.toList = before ++ c :: rest) :
    (pascal text).toList.head? = some c.toUpper := by
  obtain ⟨own, others, hsplit⟩ : ∃ own others,
      Cluster.split (c :: rest) = (c :: own) :: others := ⟨_, _, rfl⟩
  obtain ⟨back, after, hwords⟩ := words_head hc own others
  have hall : split text.toList = List.replicate before.length [] ++ (c :: back) :: after := by
    change words (Cluster.split text.toList) = _
    rw [h, Cluster.split_separators hb (Or.inl hc), words_separators hb, hsplit, hwords]
  have hempty : (List.replicate before.length []).flatMap capitalize = [] := by
    simp [List.flatMap_replicate, capitalize]
  rw [pascal, String.toList_ofList, hall, List.flatMap_append, hempty, List.nil_append,
    List.flatMap_cons, capitalize, Letter.upperForm_plain (Or.inl hc)]
  rfl

end Words

end ContentTypes.Text
