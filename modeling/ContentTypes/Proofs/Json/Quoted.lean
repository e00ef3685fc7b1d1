import Mathlib.Tactic.SplitIfs
import ContentTypes.Json.Literal
import ContentTypes.Json.Printer

namespace ContentTypes.Json

-- What stands for a character in a literal: its number, if it is a control character without a
-- short escape, and else the character itself.
def pieceOf (c : Char) : Piece :=
  if c.toNat < 32 ∧ c ∉ ['\x08', '\x0c', '\n', '\r', '\t'] then .unit c.toNat else .char c

-- Four digits, of which the first two are zeros.
theorem hexEscape_eq {c : Char} (hc : c.toNat < 32) : ∃ first second,
    hexEscape c = ['\\', 'u', '0', '0', first, second] ∧
      hexNumber? ['0', '0', first, second] = some c.toNat := by
  have hdigits : ∀ n < 32, List.replicate (4 - (Nat.toDigits 16 n).length) '0' ++
      Nat.toDigits 16 n = ['0', '0', Nat.digitChar (n / 16), Nat.digitChar (n % 16)] := by decide
  have hnumber : ∀ n < 32,
      hexNumber? ['0', '0', Nat.digitChar (n / 16), Nat.digitChar (n % 16)] = some n := by decide
  refine ⟨_, _, ?_, hnumber c.toNat hc⟩
  simp only [hexEscape, List.cons_append, hdigits c.toNat hc]

theorem pieces?_hexEscape {c : Char} (hc : c.toNat < 32) (rest : List Char) :
    pieces? (hexEscape c ++ rest) =
      (pieces? rest).map fun (pieces, after) => (.unit c.toNat :: pieces, after) := by
  obtain ⟨first, second, htext, hnumber⟩ := hexEscape_eq hc
  rw [htext]
  simp only [List.cons_append, List.nil_append, pieces?, hnumber]
  cases pieces? rest <;> rfl

theorem pieces?_escapeChar (c : Char) (rest : List Char) :
    pieces? (escapeChar c ++ rest) =
      (pieces? rest).map fun (pieces, after) => (pieceOf c :: pieces, after) := by
  have hshort : ∀ {e : Char}, e ≠ 'u' → shortEscape? e = some c → pieceOf c = .char c →
      pieces? ('\\' :: e :: rest) =
        (pieces? rest).map fun (pieces, after) => (pieceOf c :: pieces, after) := by
    intro e hu he hp
    rw [pieces?, he, hp]
    · cases pieces? rest <;> rfl
    · intro a b d f tail hbad
      exact absurd hbad hu
  unfold escapeChar
  split_ifs with hquote hback hb hf hn hr ht hcontrol
  · subst hquote
    exact hshort (by decide) rfl (by decide)
  · subst hback
    exact hshort (by decide) rfl (by decide)
  · subst hb
    exact hshort (by decide) rfl (by decide)
  · subst hf
    exact hshort (by decide) rfl (by decide)
  · subst hn
    exact hshort (by decide) rfl (by decide)
  · subst hr
    exact hshort (by decide) rfl (by decide)
  · subst ht
    exact hshort (by decide) rfl (by decide)
  · have hp : pieceOf c = .unit c.toNat := if_pos ⟨hcontrol, by simp [hb, hf, hn, hr, ht]⟩
    rw [pieces?_hexEscape hcontrol, hp]
  · have hp : pieceOf c = .char c := if_neg fun h => hcontrol h.1
    have hplain : ¬(decide (c.toNat < 32) || decide (c = '\\')) := by simp [hcontrol, hback]
    rw [List.singleton_append, pieces?, hp]
    · rw [if_neg hplain]
      cases pieces? rest <;> rfl
    · exact hquote
    · intro a b d e tail hc
      exact absurd hc hback
    · intro e tail hc
      exact absurd hc hback

theorem pieces?_escaped (text rest : List Char) :
    pieces? (text.flatMap escapeChar ++ '"' :: rest) = some (text.map pieceOf, rest) := by
  induction text with
  | nil => rfl
  | cons c text ih =>
      rw [List.flatMap_cons, List.append_assoc, pieces?_escapeChar, ih]
      rfl

-- The number of a control character is no half of a pair.
theorem joinPieces?_unit {n : Nat} (hn : n < 32) (rest : List Piece) :
    joinPieces? (.unit n :: rest) = (joinPieces? rest).map (Char.ofNat n :: ·) := by
  have hhigh : isHighSurrogate n = false := by simp [isHighSurrogate]; omega
  have hlow : isLowSurrogate n = false := by simp [isLowSurrogate]; omega
  cases rest with
  | nil => simp [joinPieces?, hhigh, hlow]
  | cons piece rest =>
      cases piece with
      | char c => simp [joinPieces?, hhigh, hlow]
      | unit low => rw [joinPieces?, hhigh, hlow]; rfl

theorem joinPieces?_map (text : List Char) : joinPieces? (text.map pieceOf) = some text := by
  induction text with
  | nil => rfl
  | cons c text ih =>
      rw [List.map_cons]
      by_cases hc : c.toNat < 32 ∧ c ∉ ['\x08', '\x0c', '\n', '\r', '\t']
      · rw [pieceOf, if_pos hc, joinPieces?_unit hc.1, ih, Char.ofNat_toNat]
        rfl
      · rw [pieceOf, if_neg hc, joinPieces?, ih]
        rfl

-- A literal is read as the text that it quotes, and what stands behind it is left.
theorem unquote?_escaped (text : String) (rest : List Char) :
    unquote? (text.toList.flatMap escapeChar ++ '"' :: rest) = some (some text, rest) := by
  simp only [unquote?, pieces?_escaped, Option.map_some, joinPieces?_map, String.ofList_toList]

-- Two literals at the front of one text are the same literal.
theorem quoteChars_append_inj {first second : String} {rest tail : List Char}
    (h : quoteChars first.toList ++ rest = quoteChars second.toList ++ tail) :
    first = second ∧ rest = tail := by
  simp only [quoteChars, List.cons_append, List.append_assoc, List.cons.injEq, true_and,
    List.nil_append] at h
  have hread := congrArg unquote? h
  rw [unquote?_escaped, unquote?_escaped] at hread
  simpa using hread

end ContentTypes.Json
