import ContentTypes.Proofs.Json.Quoted
import ContentTypes.Proofs.TypeScript.Erasure

namespace ContentTypes.TypeScript

-- The key at the front of a text and what stands behind it.
def readKey? (chars : List Char) : Option (String × List Char) :=
  match chars with
  | '"' :: rest =>
      match Json.unquote? rest with
      | some (some name, rest) => some (name, rest)
      | _ => none
  | chars =>
      let name := String.ofList (chars.takeWhile isIdentifierPart)
      if isIdentifier name then some (name, chars.dropWhile isIdentifierPart) else none

-- The key in the text of a field: behind docs and indent and in front of a colon.
def keyOf? (text : String) : Option String :=
  match readKey? ((eraseComments text).toList.dropWhile isBlank) with
  | some (name, ':' :: _) => some name
  | _ => none

theorem exists_first_of_isIdentifier {name : String} (h : isIdentifier name) :
    ∃ first rest, name.toList = first :: rest ∧ isIdentifierPart first := by
  cases hn : name.toList with
  | nil => simp [isIdentifier, hn] at h
  | cons first rest =>
      exact ⟨first, rest, rfl, isIdentifierPart_of_mem h first (hn ▸ List.mem_cons_self)⟩

-- No key starts with a blank.
theorem exists_first_of_propertyKey (name : String) :
    ∃ first rest, (propertyKey name).toList = first :: rest ∧ ¬isBlank first := by
  unfold propertyKey
  split
  · rename_i h
    obtain ⟨first, rest, hname, hfirst⟩ := exists_first_of_isIdentifier h
    refine ⟨first, rest, hname, fun hb => ?_⟩
    obtain rfl | rfl : first = ' ' ∨ first = '\t' := by simpa [isBlank] using hb
    · exact absurd hfirst (by decide)
    · exact absurd hfirst (by decide)
  · exact ⟨'"', _, by rw [Json.quote, String.toList_ofList]; rfl, by decide⟩

theorem readKey?_propertyKey (name : String) (rest : List Char) :
    readKey? ((propertyKey name).toList ++ ':' :: rest) = some (name, ':' :: rest) := by
  unfold propertyKey
  split
  · rename_i h
    have hpart := isIdentifierPart_of_mem h
    have hcolon : isIdentifierPart ':' = false := by decide
    have hname : (name.toList ++ ':' :: rest).takeWhile isIdentifierPart = name.toList := by
      rw [List.takeWhile_append_of_pos hpart, List.takeWhile_cons, hcolon]
      simp
    have hrest : (name.toList ++ ':' :: rest).dropWhile isIdentifierPart = ':' :: rest := by
      rw [List.dropWhile_append_of_pos hpart, List.dropWhile_cons, hcolon]
      simp
    unfold readKey?
    split
    · rename_i hquote
      obtain ⟨first, _, hfirst, hp⟩ := exists_first_of_isIdentifier h
      rw [hfirst, List.cons_append] at hquote
      obtain rfl := (List.cons.inj hquote).1
      exact absurd hp (by decide)
    · simp only [hname, hrest, String.ofList_toList, h, if_true]
  · rw [Json.quote, String.toList_ofList, Json.quoteChars, List.cons_append, List.cons_append,
      List.append_assoc, List.singleton_append, readKey?, Json.unquote?_escaped]

-- Without the docs, the text of a field starts with the key, which tells the name of the field.
theorem keyOf?_fieldText (field : RecordField) : keyOf? (fieldText field) = some field.name := by
  let key := (propertyKey field.name).toList
  let behind := (" " ++ field.ty ++ ";\n").toList
  have hcode : IsCode ("  " ++ propertyKey field.name ++ ":").toList :=
    ((IsCode.ofName (by decide)).concat (isCode_propertyKey _)).concat (.ofName (by decide))
  have hlast : ("  " ++ propertyKey field.name ++ ":").toList.getLast? = some ':' := by
    rw [String.toList_append, List.getLast?_append]
    rfl
  have hdocs : Erases (docBlock "  " field.docs) "" := .docBlock (by decide) field.docs
  have htext : (fieldText field).toList = (docBlock "  " field.docs).toList ++
      (("  " ++ propertyKey field.name ++ ":").toList ++ behind) := by
    simp [fieldText, behind]
  have herased : (eraseComments (fieldText field)).toList =
      ' ' :: ' ' :: (key ++ ':' :: eraseFrom [] behind) := by
    rw [eraseComments, String.toList_ofList, htext, hdocs,
      eraseFrom_code hcode ⟨':', hlast, by decide⟩]
    simp [key]
  obtain ⟨first, rest, hkey, hfirst⟩ := exists_first_of_propertyKey field.name
  have hindent : (eraseComments (fieldText field)).toList.dropWhile isBlank =
      key ++ ':' :: eraseFrom [] behind := by
    have hspace : isBlank ' ' := by decide
    simp only [herased, key, hkey, List.cons_append, List.dropWhile_cons, hspace, hfirst, if_true]
    rfl
  simp only [keyOf?, hindent, key, readKey?_propertyKey]

end ContentTypes.TypeScript
