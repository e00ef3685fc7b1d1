import ContentTypes.Text.Words

namespace ContentTypes.Text

-- A small letter of the basic alphabet.
def IsSmall (c : Char) : Prop := 97 ≤ c.toNat ∧ c.toNat ≤ 122

instance (c : Char) : Decidable (IsSmall c) := inferInstanceAs (Decidable (_ ∧ _))

theorem IsSmall.ne {c d : Char} (hc : IsSmall c) (hd : ¬IsSmall d) : c ≠ d := by
  rintro rfl
  exact hd hc

namespace Cluster

theorem part_small {c : Char} (hc : IsSmall c) : part c = .other := by
  have hr : c ≠ '\r' := hc.ne (by decide)
  have hn : c ≠ '\n' := hc.ne (by decide)
  obtain ⟨hlo, hhi⟩ := hc
  have hascii : c.toNat < 128 := by omega
  have hcontrol : ¬(c.toNat < 32 ∨ c.toNat = 127) := by omega
  simp [part, hr, hn, hascii, hcontrol]

theorem keeps_other {context : Context} (h : context.last = .other) :
    context.keeps .other = false := by
  simp [Context.keeps, h, Part.isEdge]

-- The rest of the cluster in hand, then the clusters after it.
def pieces (context : Context) (chars : List Char) : List (List Char) :=
  (splitAfter context chars).1 :: (splitAfter context chars).2

theorem pieces_cons (context : Context) (c : Char) (rest : List Char) :
    pieces context (c :: rest) =
      if context.keeps (part c) then (pieces (context.advance (part c)) rest).modifyHead (c :: ·)
      else [] :: (pieces (.start (part c)) rest).modifyHead (c :: ·) := by
  unfold pieces
  rw [splitAfter]
  split <;> rfl

theorem split_cons (c : Char) (rest : List Char) :
    split (c :: rest) = (pieces (.start (part c)) rest).modifyHead (c :: ·) := rfl

-- Nothing keeps a plain character in the cluster of another one.
theorem pieces_plain {b : Char} (hb : part b = .other) {context : Context}
    (h : context.last = .other) (rest : List Char) :
    pieces context (b :: rest) = [] :: split (b :: rest) := by
  rw [pieces_cons, hb, keeps_other h, split_cons, hb]
  rfl

theorem exists_modifyHead (c a : Char) (front tail : List (List Char)) (last : List Char) :
    ∃ front' last', (front ++ (last ++ [a]) :: tail).modifyHead (c :: ·) =
      front' ++ (last' ++ [a]) :: tail := by
  cases front with
  | nil => exact ⟨[], c :: last, rfl⟩
  | cons first front => exact ⟨(c :: first) :: front, last, rfl⟩

theorem pieces_append {a b : Char} (ha : part a = .other) (hb : part b = .other)
    (before rest : List Char) (context : Context) :
    ∃ front last, pieces context (before ++ a :: b :: rest) =
      front ++ (last ++ [a]) :: split (b :: rest) := by
  induction before generalizing context with
  | nil =>
      rw [List.nil_append, pieces_cons, ha]
      split
      · rw [pieces_plain hb (by rfl)]
        exact ⟨[], [], rfl⟩
      · rw [pieces_plain hb (by rfl)]
        exact ⟨[[]], [], rfl⟩
  | cons c before ih =>
      rw [List.cons_append, pieces_cons]
      split
      · obtain ⟨front, last, he⟩ := ih (context.advance (part c))
        rw [he]
        exact exists_modifyHead c a front _ last
      · obtain ⟨front, last, he⟩ := ih (.start (part c))
        obtain ⟨front', last', he'⟩ := exists_modifyHead c a front (split (b :: rest)) last
        exact ⟨[] :: front', last', by rw [he, he', List.cons_append]⟩

-- Between two plain characters one cluster ends and the next one starts.
theorem split_append {a b : Char} (ha : part a = .other) (hb : part b = .other)
    (before rest : List Char) :
    ∃ front last, split (before ++ a :: b :: rest) =
      front ++ (last ++ [a]) :: split (b :: rest) := by
  cases before with
  | nil =>
      refine ⟨[], [], ?_⟩
      rw [List.nil_append, split_cons, ha, pieces_plain hb (by rfl)]
      rfl
  | cons c before =>
      obtain ⟨front, last, he⟩ := pieces_append ha hb before rest (.start (part c))
      rw [List.cons_append, split_cons, he]
      exact exists_modifyHead c a front _ last

end Cluster

namespace Letter

theorem lowerForm_small {c : Char} (hc : IsSmall c) : lowerForm c = [c] := by
  obtain ⟨hlo, hhi⟩ := hc
  have hascii : c.toNat < 128 := by omega
  have hcapital : ¬(c.val ≥ 'A'.val ∧ c.val ≤ 'Z'.val) := by
    rintro ⟨-, hz⟩
    change c.toNat ≤ 90 at hz
    omega
  have hstays : c.toLower = c := dif_neg hcapital
  rw [lowerForm, if_pos hascii, hstays]

theorem upperForm_small {c : Char} (hc : IsSmall c) : ∃ d, upperForm c = [d] ∧ d ≠ c := by
  have hascii : c.toNat < 128 := by unfold IsSmall at hc; omega
  have hletter : 'a'.val ≤ c.val ∧ c.val ≤ 'z'.val := hc
  refine ⟨c.toUpper, by rw [upperForm, if_pos hascii], ?_⟩
  have hupper : c.toUpper = ⟨c.val + ('A'.val - 'a'.val), _⟩ := dif_pos hletter
  rw [hupper]
  intro he
  have hv := congrArg (fun d => d.val.toNat) he
  simp only [UInt32.toNat_add] at hv
  change (c.toNat + ('A'.val - 'a'.val).toNat) % 2 ^ 32 = c.toNat at hv
  have hd : ('A'.val - 'a'.val).toNat = 2 ^ 32 - 32 := by decide
  omega

theorem lowerAfter_cons (c : Char) (rest before : List Char) :
    ∃ form, lowerAfter before (c :: rest) = form ++ lowerAfter (c :: before) rest := by
  by_cases hc : c = 'Σ'
  · subst hc
    exact ⟨[if meetsCased before && !meetsCased rest then 'ς' else 'σ'], by simp [lowerAfter]⟩
  · exact ⟨lowerForm c, by rw [lowerAfter]; exact hc⟩

theorem lowerAfter_small {b : Char} (hb : IsSmall b) (rest before : List Char) :
    lowerAfter before (b :: rest) = b :: lowerAfter (b :: before) rest := by
  have hsigma : b ≠ 'Σ' := hb.ne (by decide)
  rw [lowerAfter, lowerForm_small hb]
  · rfl
  · exact hsigma

theorem lowerAfter_row {row : List Char} (hrow : ∀ c ∈ row, IsSmall c) (rest before : List Char) :
    lowerAfter before (row ++ rest) = row ++ lowerAfter (row.reverse ++ before) rest := by
  induction row generalizing before with
  | nil => rfl
  | cons c row ih =>
      rw [List.cons_append, lowerAfter_small (hrow c List.mem_cons_self),
        ih (fun d hd => hrow d (List.mem_cons_of_mem _ hd)), List.reverse_cons, List.append_assoc]
      rfl

-- A row of small letters stays, with nothing after it if it was the last.
theorem lowerAfter_append {row : List Char} (hrow : ∀ c ∈ row, IsSmall c)
    (text rest before : List Char) :
    ∃ front back, lowerAfter before (text ++ (row ++ rest)) = front ++ (row ++ back) ∧
      (rest = [] → back = []) := by
  induction text generalizing before with
  | nil =>
      refine ⟨[], lowerAfter (row.reverse ++ before) rest, lowerAfter_row hrow rest before, ?_⟩
      rintro rfl
      rfl
  | cons c text ih =>
      obtain ⟨form, hform⟩ := lowerAfter_cons c (text ++ (row ++ rest)) before
      obtain ⟨front, back, he, hlast⟩ := ih (c :: before)
      exact ⟨form ++ front, back, by rw [List.cons_append, hform, he, List.append_assoc], hlast⟩

end Letter

namespace Words

theorem isUpper_small {b : Char} (hb : IsSmall b) (own : List Char) :
    isUpper (b :: own) = false := by
  obtain ⟨d, hd, hne⟩ := Letter.upperForm_small hb
  have hupper : (b :: own == Letter.upper (b :: own)) = false := by
    simp [Letter.upper, hd, Ne.symm hne]
  simp [isUpper, hupper]

theorem isDigits_small {a : Char} (ha : IsSmall a) {cluster : List Char} (hm : a ∈ cluster) :
    isDigits cluster = false := by
  rw [isDigits, List.all_eq_false]
  refine ⟨a, hm, ?_⟩
  obtain ⟨hlo, -⟩ := ha
  have hnine : ¬a ≤ '9' := by
    intro h
    change a.toNat ≤ 57 at h
    omega
  simp [hnine]

-- No word ends between two small letters.
theorem endsBefore_small {a b : Char} (ha : IsSmall a) (hb : IsSmall b) (last own : List Char)
    (others : List (List Char)) :
    endsBefore (last ++ [a]) ((b :: own) :: others) = false := by
  have hd : isDigits (last ++ [a]) = false := isDigits_small ha (by simp)
  have hn : isDigits (b :: own) = false := isDigits_small hb List.mem_cons_self
  simp [endsBefore, hd, hn, isUpper_small hb own]

theorem isSeparator_small {a : Char} (ha : IsSmall a) {cluster : List Char} (hm : a ∈ cluster) :
    isSeparator cluster = false := by
  have hne : ∀ c, ¬IsSmall c → cluster ≠ [c] := by
    rintro c hc rfl
    exact ha.ne hc (List.mem_singleton.mp hm)
  simp [isSeparator, hne '_' (by decide), hne '-' (by decide), hne ' ' (by decide)]

-- The words of some clusters, as one list.
def words (clusters : List (List Char)) : List (List Char) := (part clusters).1 :: (part clusters).2

theorem words_cons (cluster : List Char) (rest : List (List Char)) :
    words (cluster :: rest) =
      if isSeparator cluster then [] :: words rest
      else if endsBefore cluster rest then cluster :: words rest
      else (words rest).modifyHead (cluster ++ ·) := by
  unfold words
  rw [part]
  by_cases hs : isSeparator cluster
  · simp [hs]
  · by_cases he : endsBefore cluster rest <;> simp [hs, he]

-- What stands before some clusters can only add to their first word.
theorem words_append (front clusters : List (List Char)) :
    ∃ before start, words (front ++ clusters) =
      before ++ (words clusters).modifyHead (start ++ ·) := by
  induction front with
  | nil => exact ⟨[], [], by simp [words]⟩
  | cons cluster front ih =>
      obtain ⟨before, start, he⟩ := ih
      rw [List.cons_append, words_cons, he]
      split
      · exact ⟨[] :: before, start, rfl⟩
      · split
        · exact ⟨cluster :: before, start, rfl⟩
        · cases before with
          | nil => exact ⟨[], cluster ++ start, by simp [words]⟩
          | cons first before => exact ⟨(cluster ++ first) :: before, start, rfl⟩

-- Nothing follows in the word if nothing follows at all.
theorem words_small {b : Char} (hb : IsSmall b) (own : List Char) (others : List (List Char)) :
    ∃ back after, words ((b :: own) :: others) = (b :: back) :: after ∧
      (own = [] → others = [] → back = [] ∧ after = []) := by
  rw [words_cons, isSeparator_small hb List.mem_cons_self]
  cases others with
  | nil => exact ⟨own, [], by simp [words, part, endsBefore], fun ho _ => ⟨ho, rfl⟩⟩
  | cons next others =>
      by_cases he : endsBefore (b :: own) (next :: others)
      · exact ⟨own, words (next :: others), by simp [he], by simp⟩
      · refine ⟨own ++ (part (next :: others)).1, (part (next :: others)).2, ?_, by simp⟩
        simp [he, words]

theorem capitalize_append {row : List Char} (hrow : ∀ c ∈ row, IsSmall c) {start : List Char}
    (hne : start ≠ []) (rest : List Char) :
    ∃ front back, capitalize (start ++ (row ++ rest)) = front ++ (row ++ back) ∧
      (rest = [] → back = []) := by
  cases start with
  | nil => exact absurd rfl hne
  | cons c start =>
      obtain ⟨front, back, he, hlast⟩ := Letter.lowerAfter_append hrow start rest []
      exact ⟨Letter.upperForm c ++ front, back,
        by rw [List.cons_append, capitalize, Letter.lower, he, List.append_assoc], hlast⟩

-- The letters of a row go into one word, each as a cluster of its own.
theorem words_row {b : Char} {row : List Char} (hrow : ∀ c ∈ b :: row, IsSmall c)
    (rest : List Char) :
    ∃ back after, words (Cluster.split (b :: row ++ rest)) = (b :: row ++ back) :: after ∧
      (rest = [] → back = [] ∧ after = []) := by
  induction row generalizing b with
  | nil =>
      obtain ⟨own, others, hsplit, hnil⟩ : ∃ own others,
          Cluster.split (b :: rest) = (b :: own) :: others ∧
            (rest = [] → own = [] ∧ others = []) :=
        ⟨_, _, rfl, by rintro rfl; exact ⟨rfl, rfl⟩⟩
      obtain ⟨back, after, hwords, hend⟩ := words_small (hrow b List.mem_cons_self) own others
      refine ⟨back, after, ?_, fun hr => hend (hnil hr).1 (hnil hr).2⟩
      rw [List.singleton_append, hsplit, hwords]
      rfl
  | cons c row ih =>
      obtain ⟨hb, hmore⟩ := List.forall_mem_cons.mp hrow
      have hc : IsSmall c := hmore c List.mem_cons_self
      obtain ⟨back, after, hwords, hend⟩ := ih hmore
      refine ⟨back, after, ?_, hend⟩
      have hfirst : Cluster.split (b :: (c :: row ++ rest)) =
          [b] :: Cluster.split (c :: row ++ rest) := by
        rw [Cluster.split_cons, Cluster.part_small hb, List.cons_append,
          Cluster.pieces_plain (Cluster.part_small hc) (by rfl)]
        rfl
      obtain ⟨own, others, hown⟩ : ∃ own others,
          Cluster.split (c :: row ++ rest) = (c :: own) :: others := ⟨_, _, rfl⟩
      have hstays : endsBefore [b] (Cluster.split (c :: row ++ rest)) = false := by
        rw [hown]
        exact endsBefore_small hb hc [] own others
      rw [List.cons_append, hfirst, words_cons, isSeparator_small hb List.mem_cons_self, hstays,
        hwords]
      rfl

theorem split_row {a b : Char} {row : List Char} (ha : IsSmall a)
    (hrow : ∀ c ∈ b :: row, IsSmall c) (before rest : List Char) :
    ∃ first start back after, split (before ++ a :: (b :: row ++ rest)) =
        first ++ (start ++ (b :: row ++ back)) :: after ∧ start ≠ [] ∧
      (rest = [] → back = [] ∧ after = []) := by
  have hb : IsSmall b := hrow b List.mem_cons_self
  obtain ⟨front, last, hsplit⟩ :=
    Cluster.split_append (Cluster.part_small ha) (Cluster.part_small hb) before (row ++ rest)
  obtain ⟨own, others, hown⟩ : ∃ own others,
      Cluster.split (b :: row ++ rest) = (b :: own) :: others := ⟨_, _, rfl⟩
  obtain ⟨first, start, hfirst⟩ :=
    words_append front ((last ++ [a]) :: Cluster.split (b :: row ++ rest))
  obtain ⟨back, after, hback, hend⟩ := words_row hrow rest
  refine ⟨first, start ++ (last ++ [a]), back, after, ?_, by simp, hend⟩
  have hstays : endsBefore (last ++ [a]) (Cluster.split (b :: row ++ rest)) = false := by
    rw [hown]
    exact endsBefore_small ha hb last own others
  change words (Cluster.split (before ++ a :: b :: (row ++ rest))) = _
  rw [hsplit, ← List.cons_append, hfirst, words_cons, isSeparator_small ha (by simp), hstays, hback]
  simp

-- A row of small letters after a small letter stands in the name as it is.
theorem pascal_row {a b : Char} {row : List Char} (ha : IsSmall a)
    (hrow : ∀ c ∈ b :: row, IsSmall c) {text : String} (before rest : List Char)
    (h : text.toList = before ++ a :: (b :: row ++ rest)) :
    ∃ front back, (pascal text).toList = front ++ (b :: row ++ back) ∧
      (rest = [] → back = []) := by
  obtain ⟨first, start, back, after, hsplit, hne, hend⟩ := split_row ha hrow before rest
  obtain ⟨front, tail, hcap, htail⟩ := capitalize_append hrow hne back
  refine ⟨first.flatMap capitalize ++ front, tail ++ after.flatMap capitalize, ?_, ?_⟩
  · rw [pascal, String.toList_ofList, h, hsplit, List.flatMap_append, List.flatMap_cons, hcap]
    simp only [List.append_assoc]
  · intro hr
    obtain ⟨hback, hafter⟩ := hend hr
    simp [htail hback, hafter]

-- The second of two small letters in a row is a letter of the name.
theorem mem_pascal {a b : Char} (ha : IsSmall a) (hb : IsSmall b) {text : String}
    (before rest : List Char) (h : text.toList = before ++ a :: b :: rest) :
    b ∈ (pascal text).toList := by
  have hrow : ∀ c ∈ [b], IsSmall c := by simpa using hb
  obtain ⟨front, back, he, -⟩ := pascal_row ha hrow before rest h
  rw [he]
  exact List.mem_append_right front List.mem_cons_self

-- A text that ends in two small letters keeps the last one.
theorem getLast?_pascal {a b : Char} (ha : IsSmall a) (hb : IsSmall b) {text : String}
    (before : List Char) (h : text.toList = before ++ [a, b]) :
    (pascal text).toList.getLast? = some b := by
  have hrow : ∀ c ∈ [b], IsSmall c := by simpa using hb
  obtain ⟨front, back, he, hend⟩ := pascal_row ha hrow before [] h
  rw [he, hend rfl]
  simp

end Words

end ContentTypes.Text
