import ContentTypes.Proofs.Naming.Letters
import ContentTypes.Proofs.Synthesis.Requests

namespace ContentTypes

open Naming (declarationName)

namespace Naming

theorem suffix_intercalate {α : Type} (between word : List α) (words : List (List α)) :
    word <:+ between.intercalate (words ++ [word]) := by
  induction words with
  | nil => simp
  | cons first rest ih =>
      rw [List.cons_append, List.intercalate_cons_of_ne_nil (by simp)]
      exact List.suffix_append_of_suffix ih

-- A row of small letters at the end of the last word ends the name.
theorem suffix_declarationName {path : Path} {suffix : List String} (words : List String)
    (word : String) (front : List Char) {a b : Char} {row : List Char}
    (hw : path.flatMap Step.words ++ suffix = words ++ [word])
    (h : word.toList = front ++ a :: b :: row) (ha : Text.IsSmall a)
    (hrow : ∀ c ∈ b :: row, Text.IsSmall c) :
    b :: row <:+ (declarationName path suffix).toList := by
  obtain ⟨before, hbefore⟩ := suffix_intercalate " ".toList word.toList (words.map String.toList)
  have htext : (" ".intercalate (path.flatMap Step.words ++ suffix)).toList =
      (before ++ front) ++ a :: (b :: row ++ []) := by
    rw [hw, String.toList_intercalate, List.map_append, List.map_singleton, ← hbefore, h,
      List.append_assoc, List.append_nil]
  obtain ⟨first, last, he, hend⟩ := Text.Words.pascal_row ha hrow _ _ htext
  exact ⟨first, by rw [declarationName, he, hend rfl, List.append_nil]⟩

-- A name ends like the last of its words.
theorem getLast?_declarationName {path : Path} {suffix : List String} (words : List String)
    (word : String) (front : List Char) {a b : Char}
    (hw : path.flatMap Step.words ++ suffix = words ++ [word])
    (h : word.toList = front ++ [a, b]) (ha : Text.IsSmall a) (hb : Text.IsSmall b) :
    (declarationName path suffix).toList.getLast? = some b :=
  List.singleton_suffix_iff_getLast?_eq_some.mp
    (suffix_declarationName words word front hw h ha (by simpa using hb))

theorem getLast?_contentName (model : CustomType) :
    (declarationName [.customType model] []).toList.getLast? = some 'a' :=
  getLast?_declarationName [model.id, "Document"] "Data" "Da".toList (a := 't')
    (by simp [Step.words]) (by decide) (by decide) (by decide)

end Naming

namespace Synthesis

-- The endings of canonical names inside a document.
def EndsInside (name : String) : Prop :=
  ∃ c ∈ ['e', 'm', 'y'], name.toList.getLast? = some c

-- Zones and slices end in a row of two letters.
def endings : List (List Char) := [['c', 'e'], ['m'], ['y']]

def EndsIn (name : String) : Prop := ∃ ending ∈ endings, ending <:+ name.toList

theorem EndsIn.endsInside {name : String} (h : EndsIn name) : EndsInside name := by
  obtain ⟨ending, he, hs⟩ := h
  have hlast : ∃ c ∈ ['e', 'm', 'y'], [c] <:+ ending := by
    revert ending
    simp [endings, List.singleton_suffix_iff_getLast?_eq_some]
  obtain ⟨c, hc, hl⟩ := hlast
  exact ⟨c, hc, List.singleton_suffix_iff_getLast?_eq_some.mp (hl.trans hs)⟩

theorem endsIn_slice {path : Path} {suffix : List String} (words : List String)
    (hw : path.flatMap Step.words ++ suffix = words ++ ["Slice"]) :
    EndsIn (declarationName path suffix) :=
  ⟨['c', 'e'], by simp [endings], Naming.suffix_declarationName words "Slice" "Sl".toList (a := 'i')
    hw (by decide) (by decide) (by simp [Text.IsSmall])⟩

theorem endsIn_item {path : Path} {suffix : List String} (words : List String)
    (hw : path.flatMap Step.words ++ suffix = words ++ ["Item"]) :
    EndsIn (declarationName path suffix) :=
  ⟨['m'], by simp [endings], Naming.suffix_declarationName words "Item" "It".toList (a := 'e')
    hw (by decide) (by decide) (by simp [Text.IsSmall])⟩

theorem endsIn_primary {path : Path} {suffix : List String} (words : List String)
    (hw : path.flatMap Step.words ++ suffix = words ++ ["Primary"]) :
    EndsIn (declarationName path suffix) :=
  ⟨['y'], by simp [endings], Naming.suffix_declarationName words "Primary" "Prima".toList (a := 'r')
    hw (by decide) (by decide) (by simp [Text.IsSmall])⟩

theorem hereditary_endsIn : Hereditary fun _ => EndsIn where
  item _ := endsIn_item _ rfl
  zone _ := endsIn_slice _ rfl
  choice path id _ := endsIn_slice (path.flatMap Step.words ++ [id]) (by simp [Step.words])
  role path
    | .primary => endsIn_primary (path.flatMap Step.words) (by simp [Step.words])
    | .items => endsIn_item (path.flatMap Step.words) (by simp [Step.words])
  outward := id

theorem hereditary_endsInside : Hereditary fun _ => EndsInside where
  item path := (hereditary_endsIn.item path).endsInside
  zone path := (hereditary_endsIn.zone path).endsInside
  choice path id choice := (hereditary_endsIn.choice path id choice).endsInside
  role path role := (hereditary_endsIn.role path role).endsInside
  outward := id

-- What is granted inside ends like what was asked for, or in the digit of a number.
theorem ne_of_granted {table : NameTable} {requests : List String}
    (hr : ∀ request ∈ requests, EndsInside request) {name other : String}
    (hn : name ∈ table.grants requests) {c : Char} (hc : other.toList.getLast? = some c)
    (hinside : c ∉ ['e', 'm', 'y']) (hdigit : c.isDigit = false) : name ≠ other := by
  rintro rfl
  obtain ⟨request, hm, rfl | ⟨n, rfl⟩⟩ := NameTable.exists_request table requests hn
  · obtain ⟨last, hlast, he⟩ := hr _ hm
    rw [hc] at he
    exact hinside (Option.some.inj he ▸ hlast)
  · obtain ⟨digit, he, hd⟩ := NameTable.getLast?_numbered request n
    rw [hc] at he
    rw [← Option.some.inj he, hdigit] at hd
    cases hd

end Synthesis

end ContentTypes
