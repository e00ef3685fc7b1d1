import ContentTypes.Generation
import ContentTypes.Proofs.TypeScript.Comments
import ContentTypes.TypeScript.Writer

namespace ContentTypes.TypeScript

-- What stands between the line breaks of a text.
def rows (text : List Char) : List (List Char) := text.splitOn '\n'

-- Behind a break at the very end there is no further line.
def linesOf (text : List Char) : List (List Char) :=
  if (rows text).getLast? = some [] then (rows text).dropLast else rows text

-- A line at some depth that goes on with a block of documentation.
def IsStarred (depth : Nat) (line : List Char) : Prop := (indentation depth ++ " *").toList <+: line

instance (depth : Nat) (line : List Char) : Decidable (IsStarred depth line) :=
  inferInstanceAs (Decidable (_ <+: _))

theorem rows_append_break (first rest : List Char) :
    rows (first ++ '\n' :: rest) = rows first ++ rows rest :=
  List.splitOn_append_cons_self first rest

theorem rows_unbroken {text : List Char} (h : '\n' ∉ text) : rows text = [text] :=
  List.splitOn_eq_singleton h

theorem rows_ne_nil (text : List Char) : rows text ≠ [] := List.splitOn_ne_nil _ _

theorem rows_cons {c : Char} (hc : c ≠ '\n') (text : List Char) :
    rows (c :: text) = (rows text).modifyHead (c :: ·) := by
  rw [rows, List.splitOn_cons_eq_if_modifyHead, if_neg (by simpa using hc)]
  rfl

theorem rows_append {lead : List Char} (h : '\n' ∉ lead) (text : List Char) :
    rows (lead ++ text) = (rows text).modifyHead (lead ++ ·) := by
  induction lead with
  | nil => exact (congrFun List.modifyHead_id _).symm
  | cons c lead ih =>
      rw [List.mem_cons, not_or] at h
      rw [List.cons_append, rows_cons (Ne.symm h.1), ih h.2, List.modifyHead_modifyHead]
      rfl

theorem rows_break (text : List Char) : rows ('\n' :: text) = [] :: rows text :=
  rows_append_break [] text

-- A row starts as the text does, if it has anything.
theorem head?_of_rows {text first : List Char} {rest : List (List Char)}
    (h : rows text = first :: rest) {c : Char} (hc : first.head? = some c) :
    text.head? = some c := by
  cases text with
  | nil =>
      obtain ⟨rfl, -⟩ := List.cons.inj (h : [[]] = first :: rest)
      cases hc
  | cons d text =>
      by_cases hd : d = '\n'
      · rw [hd, rows_break] at h
        obtain ⟨rfl, -⟩ := List.cons.inj h
        cases hc
      · obtain ⟨head, tail, hrows⟩ := List.exists_cons_of_ne_nil (rows_ne_nil text)
        rw [rows_cons hd, hrows, List.modifyHead_cons] at h
        obtain ⟨rfl, -⟩ := List.cons.inj h
        exact hc

theorem protect_cons {c : Char} {line : List Char} (h : c = '*' → line.head? ≠ some '/') :
    protect (c :: line) = c :: protect line := by
  rw [protect]
  rintro rest rfl rfl
  exact h rfl rfl

-- Nothing is protected across a break.
theorem rows_protect (text : List Char) : rows (protect text) = (rows text).map protect := by
  fun_induction protect text with
  | case1 text ih =>
      obtain ⟨first, rest, hrows⟩ := List.exists_cons_of_ne_nil (rows_ne_nil text)
      rw [hrows] at ih
      rw [rows_cons (by decide), rows_cons (by decide), rows_cons (by decide), ih,
        rows_cons (by decide), rows_cons (by decide), hrows]
      rfl
  | case2 c text hc ih =>
      by_cases hbreak : c = '\n'
      · rw [hbreak, rows_break, rows_break, ih]
        rfl
      · obtain ⟨first, rest, hrows⟩ := List.exists_cons_of_ne_nil (rows_ne_nil text)
        have hfirst : protect (c :: first) = c :: protect first := by
          apply protect_cons
          intro hstar hslash
          obtain ⟨more, rfl⟩ := List.head?_eq_some_iff.mp (head?_of_rows hrows hslash)
          exact hc more hstar rfl
        rw [rows_cons hbreak, rows_cons hbreak, ih, hrows, List.map_cons, List.modifyHead_cons,
          List.modifyHead_cons, List.map_cons, hfirst]
  | case3 => rfl

-- What stands before the first star of a line is not changed, and neither is the star.
theorem protect_starts_iff {lead : List Char} (h : '*' ∉ lead) (line : List Char) :
    lead ++ ['*'] <+: protect line ↔ lead ++ ['*'] <+: line := by
  induction lead generalizing line with
  | nil =>
      rw [List.nil_append, List.singleton_prefix_iff_head?_eq_some, head?_protect,
        List.singleton_prefix_iff_head?_eq_some]
  | cons c lead ih =>
      rw [List.mem_cons, not_or] at h
      cases line with
      | nil => rfl
      | cons d line =>
          by_cases hd : d = c
          · have hline : protect (d :: line) = d :: protect line :=
              protect_cons fun hstar => absurd (hd ▸ hstar).symm h.1
            rw [hline, List.cons_append, List.cons_prefix_cons, List.cons_prefix_cons, ih h.2]
          · have hother : ∀ text : List Char, text.head? = some d →
                ¬(c :: lead) ++ ['*'] <+: text := by
              rintro text htext ⟨more, rfl⟩
              exact hd (Option.some.inj htext).symm
            have hprotected : (protect (d :: line)).head? = some d := head?_protect _
            exact iff_of_false (hother _ hprotected) (hother _ rfl)

theorem notMem_indentation {c : Char} (hc : c ≠ ' ') (depth : Nat) :
    c ∉ (indentation depth).toList := by
  induction depth with
  | zero => exact List.not_mem_nil
  | succ depth ih =>
      rw [indentation, String.toList_append, List.mem_append, not_or]
      exact ⟨by simpa using hc, ih⟩

theorem notMem_lead (depth : Nat) {text : String} (h : '\n' ∉ text.toList) :
    '\n' ∉ (indentation depth ++ text).toList := by
  rw [String.toList_append, List.mem_append, not_or]
  exact ⟨notMem_indentation (by decide) depth, h⟩

theorem isStarred_protect (depth : Nat) (line : List Char) :
    IsStarred depth (protect line) ↔ IsStarred depth line := by
  have hstar : '*' ∉ (indentation depth).toList ++ [' '] := by
    simpa using notMem_indentation (by decide) depth
  have hlead : (indentation depth ++ " *").toList =
      (indentation depth).toList ++ [' '] ++ ['*'] := by
    simp
  rw [IsStarred, IsStarred, hlead]
  exact protect_starts_iff hstar line

-- A line of a block without the break behind it.
def docBody (indent line : String) : String :=
  if line = "" then indent ++ " *" else indent ++ " * " ++ String.ofList (protect line.toList)

theorem docLine_eq (indent line : String) : docLine indent line = docBody indent line ++ "\n" := by
  unfold docLine docBody
  split
  · rw [String.append_assoc]
    rfl
  · rfl

theorem isStarred_append (depth : Nat) (more : List Char) :
    IsStarred depth ((indentation depth).toList ++ ' ' :: '*' :: more) := by
  rw [IsStarred, String.toList_append, List.prefix_append_right_inj]
  exact List.prefix_append [' ', '*'] more

-- The first row of a line is starred. What its text has behind a break must be so by itself.
theorem starred_docBody_iff (depth : Nat) (line : String) :
    (∀ row ∈ rows (docBody (indentation depth) line).toList, IsStarred depth row) ↔
      ∀ row ∈ (rows line.toList).tail, IsStarred depth row := by
  unfold docBody
  split
  · rename_i hempty
    rw [rows_unbroken (notMem_lead depth (by decide)), hempty, List.forall_mem_singleton]
    have hline : IsStarred depth (indentation depth ++ " *").toList := by
      rw [String.toList_append]
      exact isStarred_append depth []
    exact iff_of_true hline (List.forall_mem_nil _)
  · obtain ⟨first, rest, hrows⟩ := List.exists_cons_of_ne_nil (rows_ne_nil line.toList)
    have hfirst : IsStarred depth ((indentation depth ++ " * ").toList ++ protect first) := by
      rw [String.toList_append, List.append_assoc]
      exact isStarred_append depth _
    rw [String.toList_append, rows_append (notMem_lead depth (by decide)), String.toList_ofList,
      rows_protect, hrows, List.map_cons, List.modifyHead_cons, List.forall_mem_cons,
      List.forall_mem_map, List.tail_cons]
    simp only [isStarred_protect, hfirst, true_and]

theorem rows_docLines (indent : String) (lines : List String) (rest : List Char) :
    rows ((String.join (lines.map (docLine indent))).toList ++ rest) =
      lines.flatMap (fun line => rows (docBody indent line).toList) ++ rows rest := by
  induction lines with
  | nil => simp
  | cons line lines ih =>
      have hline : (docLine indent line).toList = (docBody indent line).toList ++ ['\n'] := by
        rw [docLine_eq, String.toList_append]
        rfl
      rw [List.map_cons, String.join_cons, String.toList_append, hline, List.append_assoc,
        List.append_assoc, List.singleton_append, rows_append_break, ih, List.flatMap_cons,
        List.append_assoc]

-- The block line by line. The opening line and the closing one hold no text of the docs.
theorem linesOf_docBlock (depth : Nat) (docs : Docs) (h : ¬docs.isEmpty) :
    linesOf (docBlock (indentation depth) docs).toList =
      (indentation depth ++ "/**").toList ::
        ((docLines docs).flatMap (fun line => rows (docBody (indentation depth) line).toList) ++
          [(indentation depth ++ " */").toList]) := by
  have hblock : (docBlock (indentation depth) docs).toList =
      (indentation depth ++ "/**").toList ++ '\n' ::
        ((String.join ((docLines docs).map (docLine (indentation depth)))).toList ++
          ((indentation depth ++ " */").toList ++ '\n' :: [])) := by
    rw [docBlock, if_neg h]
    simp
  have hrows : rows (docBlock (indentation depth) docs).toList =
      ((indentation depth ++ "/**").toList ::
        ((docLines docs).flatMap (fun line => rows (docBody (indentation depth) line).toList) ++
          [(indentation depth ++ " */").toList])) ++ [[]] := by
    rw [hblock, rows_append_break, rows_docLines, rows_append_break,
      rows_unbroken (notMem_lead depth (by decide)), rows_unbroken (notMem_lead depth (by decide))]
    simp [rows]
  have hlast : (rows (docBlock (indentation depth) docs).toList).getLast? = some [] := by
    rw [hrows, List.getLast?_concat]
  rw [linesOf, if_pos hlast, hrows, List.dropLast_concat]

-- A block is well formed just when every text brings the stars of its own further lines. So it is
-- well formed as soon as no text has a line break.
theorem starred_docBlock_iff (depth : Nat) (docs : Docs) :
    (∀ line ∈ (linesOf (docBlock (indentation depth) docs).toList).tail, IsStarred depth line) ↔
      ∀ text ∈ docLines docs, ∀ line ∈ (rows text.toList).tail, IsStarred depth line := by
  by_cases hdocs : docs.isEmpty
  · have hblock : docBlock (indentation depth) docs = "" := if_pos hdocs
    have hlines : docLines docs = [] := by
      obtain ⟨hl, ht⟩ : docs.lines = [] ∧ docs.tags = [] := by simpa [Docs.isEmpty] using hdocs
      rw [docLines, hl, ht]
      rfl
    rw [hblock, hlines]
    exact iff_of_true (List.forall_mem_nil _) (List.forall_mem_nil _)
  · have hclosing : IsStarred depth (indentation depth ++ " */").toList := by
      rw [String.toList_append]
      exact isStarred_append depth ['/']
    rw [linesOf_docBlock depth docs hdocs, List.tail_cons, List.forall_mem_append,
      List.forall_mem_singleton, List.forall_mem_flatMap]
    simp only [starred_docBody_iff, hclosing, and_true]

def bannerSlice : SharedSlice := ⟨"banner", none, some "Top banner.\nUse once.", []⟩

-- The second line of the description stands in its block without a star.
theorem bannerSlice_unstarred :
    ∃ item ∈ (Module.ofModels .default [] [bannerSlice]).value.items, item.docs.isEmpty = false ∧
      ¬∀ line ∈ (linesOf (docBlock (indentation 0) item.docs).toList).tail, IsStarred 0 line := by
  decide +kernel

end ContentTypes.TypeScript
