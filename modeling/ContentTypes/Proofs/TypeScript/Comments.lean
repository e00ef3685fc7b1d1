import Mathlib.Tactic.SplitIfs
import ContentTypes.TypeScript

namespace ContentTypes.TypeScript

def isBlank (c : Char) : Bool := c = ' ' || c = '\t'

mutual

-- Outside of literals and comments. The blanks in `held` have been read but not written: they go
-- if a comment follows them.
def eraseFrom (held : List Char) : List Char → List Char
  | [] => held
  | '/' :: '*' :: rest => eraseComment rest
  | '"' :: rest => held ++ '"' :: eraseLiteral rest
  | c :: rest =>
      if isBlank c then eraseFrom (held ++ [c]) rest else held ++ c :: eraseFrom [] rest

-- Inside of a literal. What stands behind a backslash does not end it.
def eraseLiteral : List Char → List Char
  | [] => []
  | '\\' :: c :: rest => '\\' :: c :: eraseLiteral rest
  | '"' :: rest => '"' :: eraseFrom [] rest
  | c :: rest => c :: eraseLiteral rest

-- Inside of a comment. The end of its last line goes with it.
def eraseComment : List Char → List Char
  | [] => []
  | '*' :: '/' :: '\n' :: rest => eraseFrom [] rest
  | '*' :: '/' :: rest => eraseFrom [] rest
  | _ :: rest => eraseComment rest

end

def eraseComments (text : String) : String := String.ofList (eraseFrom [] text.toList)

-- Characters that open neither a literal nor a comment, and whole literals.
inductive IsCode : List Char → Prop
  | nil : IsCode []
  | char {c : Char} {text : List Char} (hq : c ≠ '"') (hs : c ≠ '/') (h : IsCode text) :
      IsCode (c :: text)
  | literal (quoted : List Char) {text : List Char} (h : IsCode text) :
      IsCode (Json.quoteChars quoted ++ text)

theorem eraseFrom_char {c : Char} (hq : c ≠ '"') (hs : c ≠ '/') (held rest : List Char) :
    eraseFrom held (c :: rest) =
      if isBlank c then eraseFrom (held ++ [c]) rest else held ++ c :: eraseFrom [] rest := by
  rw [eraseFrom]
  · intro tail h
    exact absurd h hs
  · exact hq

theorem eraseLiteral_char {c : Char} (hq : c ≠ '"') (hb : c ≠ '\\') (rest : List Char) :
    eraseLiteral (c :: rest) = c :: eraseLiteral rest := by
  rw [eraseLiteral]
  · intro next tail h
    exact absurd h hb
  · exact hq

-- A comment goes on over everything but a star that a slash follows.
theorem eraseComment_char {c : Char} {rest : List Char} (h : c = '*' → rest.head? ≠ some '/') :
    eraseComment (c :: rest) = eraseComment rest := by
  rw [eraseComment]
  · rintro tail rfl rfl
    exact h rfl rfl
  · rintro tail rfl rfl
    exact h rfl rfl

theorem eraseComment_starless {text : List Char} (h : '*' ∉ text) (rest : List Char) :
    eraseComment (text ++ rest) = eraseComment rest := by
  induction text with
  | nil => rfl
  | cons c text ih =>
      rw [List.mem_cons, not_or] at h
      rw [List.cons_append, eraseComment_char fun hc => absurd hc.symm h.1, ih h.2]

theorem head?_protect (line : List Char) : (protect line).head? = line.head? := by
  fun_cases protect line <;> rfl

-- A line cannot end the comment that it stands in.
theorem eraseComment_protect (line rest : List Char) :
    eraseComment (protect line ++ '\n' :: rest) = eraseComment ('\n' :: rest) := by
  fun_induction protect line with
  | case1 line ih =>
      have hstar : eraseComment ('*' :: '\\' :: '/' :: (protect line ++ '\n' :: rest)) =
          eraseComment ('\\' :: '/' :: (protect line ++ '\n' :: rest)) :=
        eraseComment_char (by simp)
      have hslash : eraseComment (['\\', '/'] ++ (protect line ++ '\n' :: rest)) =
          eraseComment (protect line ++ '\n' :: rest) :=
        eraseComment_starless (by decide) _
      exact (hstar.trans hslash).trans ih
  | case2 c line hc ih =>
      rw [List.cons_append, eraseComment_char, ih]
      -- the next character is the next one of the line, which is no slash behind a star
      rintro rfl hs
      rw [List.head?_append, head?_protect] at hs
      cases line with
      | nil => simp at hs
      | cons next line =>
          simp at hs
          exact hc line rfl (by rw [hs])
  | case3 => rfl

theorem eraseComment_docLine {indent : String} (hi : '*' ∉ indent.toList) (line : String)
    (rest : List Char) :
    eraseComment ((docLine indent line).toList ++ rest) = eraseComment rest := by
  have hstart : ∀ tail, eraseComment (' ' :: '*' :: ' ' :: tail) = eraseComment tail := by
    intro tail
    rw [eraseComment_char (by simp), eraseComment_char (by simp), eraseComment_char (by simp)]
  have hend : eraseComment ('\n' :: rest) = eraseComment rest := eraseComment_char (by simp)
  unfold docLine
  split
  · rw [String.toList_append, List.append_assoc, eraseComment_starless hi]
    have hempty : eraseComment (' ' :: '*' :: '\n' :: rest) = eraseComment rest := by
      rw [eraseComment_char (by simp), eraseComment_char (by simp), hend]
    exact hempty
  · simp only [String.toList_append, String.toList_ofList, List.append_assoc]
    rw [eraseComment_starless hi]
    have hline : eraseComment (' ' :: '*' :: ' ' :: (protect line.toList ++ '\n' :: rest)) =
        eraseComment rest := by
      rw [hstart, eraseComment_protect, hend]
    exact hline

theorem eraseComment_docLines {indent : String} (hi : '*' ∉ indent.toList) (lines : List String)
    (rest : List Char) :
    eraseComment ((String.join (lines.map (docLine indent))).toList ++ rest) =
      eraseComment rest := by
  induction lines with
  | nil => simp
  | cons line lines ih =>
      rw [List.map_cons, String.join_cons, String.toList_append, List.append_assoc,
        eraseComment_docLine hi, ih]

-- Blanks are held back.
theorem eraseFrom_blanks {blanks : List Char} (hb : ∀ c ∈ blanks, isBlank c) (held rest : List Char) :
    eraseFrom held (blanks ++ rest) = eraseFrom (held ++ blanks) rest := by
  induction blanks generalizing held with
  | nil => simp
  | cons c blanks ih =>
      have hc : isBlank c := hb c List.mem_cons_self
      have hq : c ≠ '"' := by
        rintro rfl
        exact absurd hc (by decide)
      have hs : c ≠ '/' := by
        rintro rfl
        exact absurd hc (by decide)
      rw [List.cons_append, eraseFrom_char hq hs, if_pos hc,
        ih fun other ho => hb other (List.mem_cons_of_mem _ ho), List.append_assoc]
      rfl

theorem eraseLiteral_append {text : List Char} (hq : '"' ∉ text) (hb : '\\' ∉ text)
    (rest : List Char) : eraseLiteral (text ++ rest) = text ++ eraseLiteral rest := by
  induction text with
  | nil => rfl
  | cons c text ih =>
      rw [List.mem_cons, not_or] at hq hb
      rw [List.cons_append, eraseLiteral_char (Ne.symm hq.1) (Ne.symm hb.1), ih hq.2 hb.2]
      rfl

theorem eraseLiteral_hexEscape {c : Char} (hc : c.toNat < 32) (rest : List Char) :
    eraseLiteral (Json.hexEscape c ++ rest) = Json.hexEscape c ++ eraseLiteral rest := by
  have hdigits : ∀ n < 32, '"' ∉ List.replicate (4 - (Nat.toDigits 16 n).length) '0' ++
      Nat.toDigits 16 n ∧ '\\' ∉ List.replicate (4 - (Nat.toDigits 16 n).length) '0' ++
      Nat.toDigits 16 n := by decide
  obtain ⟨hq, hb⟩ := hdigits c.toNat hc
  have hrest := eraseLiteral_append hq hb rest
  simp only [Json.hexEscape, List.cons_append]
  rw [eraseLiteral, hrest]

-- What is escaped starts with a backslash, and nothing else is a quote or a backslash.
theorem eraseLiteral_escapeChar (c : Char) (rest : List Char) :
    eraseLiteral (Json.escapeChar c ++ rest) = Json.escapeChar c ++ eraseLiteral rest := by
  unfold Json.escapeChar
  split_ifs with hq hb
  all_goals try rfl
  · rename_i hc
    exact eraseLiteral_hexEscape hc rest
  · exact eraseLiteral_char hq hb rest

theorem eraseLiteral_escaped (quoted rest : List Char) :
    eraseLiteral (quoted.flatMap Json.escapeChar ++ rest) =
      quoted.flatMap Json.escapeChar ++ eraseLiteral rest := by
  induction quoted with
  | nil => rfl
  | cons c quoted ih =>
      rw [List.flatMap_cons, List.append_assoc, eraseLiteral_escapeChar, ih, List.append_assoc]

theorem eraseFrom_quoteChars (held quoted rest : List Char) :
    eraseFrom held (Json.quoteChars quoted ++ rest) =
      held ++ Json.quoteChars quoted ++ eraseFrom [] rest := by
  have hopen : eraseFrom held (Json.quoteChars quoted ++ rest) =
      held ++ '"' :: eraseLiteral (quoted.flatMap Json.escapeChar ++ '"' :: rest) := by
    simp [Json.quoteChars, eraseFrom]
  have hclose : eraseLiteral ('"' :: rest) = '"' :: eraseFrom [] rest := by
    rw [eraseLiteral]
  rw [hopen, eraseLiteral_escaped, hclose]
  simp [Json.quoteChars]

-- Code that does not end with a blank stays as it is, with all that was held back before it.
theorem eraseFrom_code {text : List Char} (h : IsCode text)
    (hl : ∃ last ∈ text.getLast?, ¬isBlank last) (held rest : List Char) :
    eraseFrom held (text ++ rest) = held ++ text ++ eraseFrom [] rest := by
  induction h generalizing held with
  | nil =>
      obtain ⟨last, hm, -⟩ := hl
      cases hm
  | @char c text hq hs h ih =>
      rw [List.cons_append, eraseFrom_char hq hs]
      cases text with
      | nil =>
          rw [if_neg (by simpa using hl)]
          simp
      | cons next tail =>
          rw [ih (by simpa using hl), ih (by simpa using hl)]
          split <;> simp
  | @literal quoted text h ih =>
      rw [List.append_assoc, eraseFrom_quoteChars]
      cases text with
      | nil => simp
      | cons next tail =>
          rw [ih (by simpa [List.getLast?_append] using hl)]
          simp

end ContentTypes.TypeScript
