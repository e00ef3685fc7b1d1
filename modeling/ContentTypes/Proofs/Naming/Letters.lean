import ContentTypes.Proofs.Naming.Grants
import ContentTypes.Proofs.Text.Words

namespace ContentTypes

open Text (IsSmall)

theorem NameTable.getLast?_numbered (name : String) (n : Nat) :
    ∃ digit, (numbered name n).toList.getLast? = some digit ∧ digit.isDigit := by
  have hne : Nat.toDigits 10 n ≠ [] := Nat.toDigits_ne_nil
  have hl : (numbered name n).toList = name.toList ++ Nat.toDigits 10 n := by
    rw [numbered, String.toList_append, Nat.toString_eq_repr, Nat.toList_repr]
  refine ⟨(Nat.toDigits 10 n).getLast hne, ?_, ?_⟩
  · rw [hl, List.getLast?_append, List.getLast?_eq_some_getLast hne, Option.some_or]
  · exact Nat.isDigit_of_mem_toDigits (by decide) (Nat.le_refl 10) (List.getLast_mem hne)

theorem NameTable.mem_numbered {name : String} {c : Char} (hc : c ∈ name.toList) (n : Nat) :
    c ∈ (numbered name n).toList := by
  rw [numbered, String.toList_append]
  exact List.mem_append_left _ hc

-- What all requests have among their letters, all that is granted for them has.
theorem NameTable.mem_of_mem_grants {table : NameTable} {requests : List String} {c : Char}
    (hc : ∀ request ∈ requests, c ∈ request.toList) {name : String}
    (hn : name ∈ table.grants requests) : c ∈ name.toList := by
  obtain ⟨request, hr, rfl | ⟨n, rfl⟩⟩ := exists_request table requests hn
  · exact hc _ hr
  · exact mem_numbered (hc _ hr) n

namespace Naming

theorem getLast?_documentName (id : String) :
    (documentName id).toList.getLast? = some 't' :=
  Text.Words.getLast?_pascal (a := 'n') (by decide) (by decide)
    (id.toList ++ " Docume".toList) (by simp)

theorem getLast?_sharedSliceName (id : String) :
    (sharedSliceName id).toList.getLast? = some 'e' :=
  Text.Words.getLast?_pascal (a := 'c') (by decide) (by decide)
    (id.toList ++ " Sli".toList) (by simp)

theorem sharedSliceName_ne_documentName (id other : String) :
    sharedSliceName id ≠ documentName other := by
  intro h
  have hs := getLast?_sharedSliceName id
  rw [h, getLast?_documentName] at hs
  exact absurd hs (by decide)

theorem sharedSliceName_ne_numbered (id request : String) (n : Nat) :
    sharedSliceName id ≠ NameTable.numbered request n := by
  intro h
  obtain ⟨digit, hl, hd⟩ := NameTable.getLast?_numbered request n
  rw [← h, getLast?_sharedSliceName] at hl
  cases hl
  exact absurd hd (by decide)

theorem mem_documentName (id : String) : 'u' ∈ (documentName id).toList :=
  Text.Words.mem_pascal (a := 'c') (by decide) (by decide)
    (id.toList ++ " Do".toList) "ment".toList (by simp)

theorem mem_sharedSliceName (id : String) :
    'i' ∈ (sharedSliceName id).toList ∧ 'c' ∈ (sharedSliceName id).toList :=
  ⟨Text.Words.mem_pascal (a := 'l') (by decide) (by decide)
      (id.toList ++ " S".toList) "ce".toList (by simp),
    Text.Words.mem_pascal (a := 'i') (by decide) (by decide)
      (id.toList ++ " Sl".toList) "e".toList (by simp)⟩

theorem infix_intercalate {α : Type} (between word : List α) (words : List (List α))
    (hw : word ∈ words) : word <:+: between.intercalate words := by
  induction words with
  | nil => cases hw
  | cons first rest ih =>
      cases rest with
      | nil =>
          obtain rfl := List.mem_singleton.mp hw
          simp
      | cons next rest =>
          rw [List.intercalate_cons_cons]
          rcases List.mem_cons.mp hw with rfl | hr
          · exact List.infix_append_of_infix_left (List.infix_append_of_infix_left List.infix_rfl)
          · exact List.infix_append_of_infix_right (ih hr)

-- A row of small letters after a small letter of any word stands in the name as it is.
theorem infix_declarationName {a b : Char} {row : List Char} (ha : IsSmall a)
    (hrow : ∀ c ∈ b :: row, IsSmall c) {path : Path} {suffix : List String} {word : String}
    (hw : word ∈ path.flatMap Step.words ++ suffix) (front back : List Char)
    (h : word.toList = front ++ a :: (b :: row ++ back)) :
    b :: row <:+: (declarationName path suffix).toList := by
  obtain ⟨before, rest, hi⟩ := infix_intercalate " ".toList word.toList
    ((path.flatMap Step.words ++ suffix).map String.toList) (List.mem_map_of_mem hw)
  have htext : (" ".intercalate (path.flatMap Step.words ++ suffix)).toList =
      (before ++ front) ++ a :: (b :: row ++ (back ++ rest)) := by
    rw [String.toList_intercalate, ← hi, h]
    simp
  obtain ⟨first, last, he, -⟩ := Text.Words.pascal_row ha hrow _ _ htext
  exact ⟨first, last, by rw [declarationName, he, List.append_assoc]⟩

-- A name has the second of two small letters in a row of any of its words.
theorem mem_declarationName {a b : Char} (ha : IsSmall a) (hb : IsSmall b) {path : Path}
    {suffix : List String} {word : String} (hw : word ∈ path.flatMap Step.words ++ suffix)
    (front back : List Char) (h : word.toList = front ++ a :: b :: back) :
    b ∈ (declarationName path suffix).toList :=
  have hrow : ∀ c ∈ [b], IsSmall c := by simpa using hb
  (infix_declarationName ha hrow hw front back h).subset List.mem_cons_self

theorem mem_words {step : Step} {path : Path} (hp : step ∈ path) {word : String}
    (hw : word ∈ step.words) (suffix : List String) :
    word ∈ path.flatMap Step.words ++ suffix :=
  List.mem_append_left _ (List.mem_flatMap.mpr ⟨step, hp, hw⟩)

theorem mem_declarationName_customType {model : CustomType} {path : Path}
    (hp : .customType model ∈ path) (suffix : List String) :
    'u' ∈ (declarationName path suffix).toList :=
  have hw : "Document" ∈ path.flatMap Step.words ++ suffix :=
    mem_words hp (by simp [Step.words]) suffix
  mem_declarationName (a := 'c') (by decide) (by decide) hw "Do".toList "ment".toList (by decide)

theorem infix_declarationName_sharedSlice {model : SharedSlice} {path : Path}
    (hp : .sharedSlice model ∈ path) (suffix : List String) :
    ['i', 'c', 'e'] <:+: (declarationName path suffix).toList :=
  have hw : "Slice" ∈ path.flatMap Step.words ++ suffix :=
    mem_words hp (by simp [Step.words]) suffix
  infix_declarationName (a := 'l') (by decide) (by simp [IsSmall]) hw "S".toList [] (by decide)

theorem mem_declarationName_sharedSlice {model : SharedSlice} {path : Path}
    (hp : .sharedSlice model ∈ path) (suffix : List String) :
    'i' ∈ (declarationName path suffix).toList ∧ 'c' ∈ (declarationName path suffix).toList := by
  have hrow := (infix_declarationName_sharedSlice hp suffix).subset
  exact ⟨hrow (by simp), hrow (by simp)⟩

end Naming

end ContentTypes
