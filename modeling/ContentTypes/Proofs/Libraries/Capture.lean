import ContentTypes.Proofs.Compilation.Canonical
import ContentTypes.Proofs.Libraries.Occurrence
import ContentTypes.Proofs.Synthesis.Ids

namespace ContentTypes

open Naming (declarationName documentName sharedSliceName)

namespace Ty

theorem qualified_empty (name : String) : qualified "" name = name := if_pos rfl

theorem suffix_qualified (spaceName name : String) :
    name.toList <:+ (qualified spaceName name).toList := by
  by_cases h : spaceName = ""
  · simp [h, qualified_empty]
  · rw [toList_qualified h]
    exact (List.suffix_cons '.' _).trans (List.suffix_append _ _)

-- What ends the written name ends the name in the library, if that is long enough.
theorem ending_of_qualified {ending : List Char} {spaceName name : String}
    (hle : ending.length ≤ name.toList.length)
    (h : ending <:+ (qualified spaceName name).toList) : ending <:+ name.toList :=
  List.suffix_of_suffix_length_le h (suffix_qualified spaceName name) hle

theorem getLast?_qualified {spaceName name : String} {last : Char} (h : [last] <:+ name.toList) :
    (qualified spaceName name).toList.getLast? = some last :=
  List.singleton_suffix_iff_getLast?_eq_some.mp (h.trans (suffix_qualified spaceName name))

theorem qualified_ne {spaceName name other : String} {last letter : Char}
    (h : [last] <:+ name.toList) (hother : other.toList.getLast? = some letter)
    (hne : last ≠ letter) : qualified spaceName name ≠ other := by
  rintro rfl
  rw [getLast?_qualified h] at hother
  exact hne (Option.some.inj hother)

theorem qualified_ne_numbered {spaceName name : String} {last : Char} (h : [last] <:+ name.toList)
    (hdigit : last.isDigit = false) (request : String) (n : Nat) :
    qualified spaceName name ≠ NameTable.numbered request n := by
  obtain ⟨digit, hl, hd⟩ := NameTable.getLast?_numbered request n
  apply qualified_ne h hl
  rintro rfl
  rw [hdigit] at hd
  cases hd

end Ty

namespace Synthesis

theorem under_role {path : Path} {role : Role} {fields : FieldSet} {name : String}
    (hn : name ∈ roleRequests path role fields
      (requestsOfFields (path ++ [.role role]) fields.entries)) :
    Under (path ++ [.role role]) name := by
  unfold roleRequests at hn
  split at hn
  · cases hn
  · rcases List.mem_cons.mp hn with rfl | hn
    · exact under_self _ []
    · exact hereditary_under.of_fields _ _ name hn

-- The letter that the word of a role gives to every name in the role.
def roleLetter : Role → Char
  | .primary => 'y'
  | .items => 'm'

theorem mem_of_under_role {path : Path} {role : Role} {name : String}
    (h : Under (path ++ [.role role]) name) : roleLetter role ∈ name.toList := by
  obtain ⟨more, suffix, rfl⟩ := h
  have hstep : Step.role role ∈ path ++ [.role role] ++ more := by simp
  cases role with
  | primary =>
      have hw := Naming.mem_words hstep (List.mem_singleton_self "Primary") suffix
      exact Naming.mem_declarationName (a := 'r') (by decide) (by decide) hw "Prima".toList []
        (by decide)
  | items =>
      have hw := Naming.mem_words hstep (List.mem_singleton_self "Item") suffix
      exact Naming.mem_declarationName (a := 'e') (by decide) (by decide) hw "It".toList []
        (by decide)

end Synthesis

namespace Compilation

-- A library type is written under the name of a declaration.
def Captures (compilation : Compilation) (spaceName : String) : Prop :=
  ∃ library ∈ compilation.libraries, Ty.qualified spaceName library ∈ compilation.names

-- The letters that end the names of library types.
def lastLetters : List Char := ['D', 'd', 'e', 'n', 's']

theorem lastLetters_clear {last : Char} (h : last ∈ lastLetters) :
    last.isDigit = false ∧ last ≠ 't' ∧ last ≠ 'a' := by
  revert last
  simp [lastLetters, Char.isDigit]

theorem exists_lastLetter {library : String} (h : library ∈ documentLibraries ++ sliceLibraries) :
    ∃ last ∈ lastLetters, [last] <:+ library.toList := by
  have hall : ((documentLibraries ++ sliceLibraries).all fun library =>
      lastLetters.any fun last => [last].isSuffixOf library.toList) := by decide +kernel
  simpa using List.all_eq_true.mp hall library h

-- One library type of a document ends like the names inside it, but it has no u.
theorem eq_slice_of_ending : ∀ library ∈ documentLibraries, ∀ ending ∈ Synthesis.endings,
    ending.length ≤ library.toList.length ∧ (ending <:+ library.toList → library = "Slice") := by
  decide +kernel

-- What is asked for inside a document ends in the letters of a zone, a slice, an item or a role,
-- and it has the u of the second word of the document.
theorem eq_slice_of_request {model : CustomType} {spaceName library : String}
    (hl : library ∈ documentLibraries) (hr : Ty.qualified spaceName library ∈
      Synthesis.requestsOfFields [.customType model] model.fields.entries) :
    library = "Slice" ∧ spaceName ≠ "" := by
  obtain ⟨ending, he, hends⟩ := Synthesis.hereditary_endsIn.of_fields _ _ _ hr
  obtain ⟨hle, hslice⟩ := eq_slice_of_ending library hl ending he
  obtain rfl := hslice (Ty.ending_of_qualified hle hends)
  refine ⟨rfl, ?_⟩
  rintro rfl
  obtain ⟨more, suffix, hname⟩ := Synthesis.hereditary_under.of_fields _ _ _ hr
  have hstep : Step.customType model ∈ [Step.customType model] ++ more := by simp
  have hu := Naming.mem_declarationName_customType hstep suffix
  rw [← hname, Ty.qualified_empty] at hu
  exact absurd hu (by decide)

theorem captures_ofCustomType_iff (model : CustomType) (spaceName : String) :
    (ofCustomType model).value.Captures spaceName ↔
      spaceName ≠ "" ∧ "Slice" ∈ (ofCustomType model).value.libraries ∧
        Ty.qualified spaceName "Slice" ∈
          Synthesis.requestsOfFields [.customType model] model.fields.entries ∧
        ∀ slice, model.Offers slice → Ty.qualified spaceName "Slice" ≠ sharedSliceName slice := by
  constructor
  · rintro ⟨library, hl, hn⟩
    have hdocument := libraries_ofCustomType model hl
    obtain ⟨last, hletter, hlast⟩ := exists_lastLetter (List.mem_append_left _ hdocument)
    obtain ⟨hdigit, ht, ha⟩ := lastLetters_clear hletter
    rw [mem_names_of_customType_iff model (Ty.qualified_ne_numbered hlast hdigit)] at hn
    obtain ⟨hrequest, hoffered⟩ :=
      hn.resolve_left (Ty.qualified_ne hlast (Naming.getLast?_documentName _) ht)
    have hinside := (List.mem_cons.mp hrequest).resolve_left
      (Ty.qualified_ne hlast (Naming.getLast?_contentName model) ha)
    obtain ⟨rfl, hspace⟩ := eq_slice_of_request hdocument hinside
    exact ⟨hspace, hl, hinside, hoffered⟩
  · rintro ⟨-, hl, hinside, hoffered⟩
    obtain ⟨last, hletter, hlast⟩ :=
      exists_lastLetter (List.mem_append_left _ (libraries_ofCustomType model hl))
    refine ⟨"Slice", hl, ?_⟩
    rw [mem_names_of_customType_iff model
      (Ty.qualified_ne_numbered hlast (lastLetters_clear hletter).1)]
    exact Or.inr ⟨List.mem_cons_of_mem _ hinside, hoffered⟩

theorem captures_ofSharedSlice_iff (model : SharedSlice) (spaceName : String) :
    (ofSharedSlice model).value.Captures spaceName ↔
      ∃ library ∈ (ofSharedSlice model).value.libraries,
        Ty.qualified spaceName library = sharedSliceName model.id ∨
          Ty.qualified spaceName library ∈ sliceRequests model := by
  have hiff : ∀ library ∈ (ofSharedSlice model).value.libraries,
      (Ty.qualified spaceName library ∈ (ofSharedSlice model).value.names ↔
        Ty.qualified spaceName library = sharedSliceName model.id ∨
          Ty.qualified spaceName library ∈ sliceRequests model) := by
    intro library hl
    obtain ⟨last, hletter, hlast⟩ :=
      exists_lastLetter (List.mem_append_right _ (libraries_ofSharedSlice model hl))
    exact mem_names_of_sharedSlice_iff model
      (Ty.qualified_ne_numbered hlast (lastLetters_clear hletter).1)
  exact exists_congr fun library => and_congr_right (hiff library)

-- The library types that have the letters of a shared slice in their names.
def sliceNames : List String := ["Slice", "SliceZone", "SharedSlice", "SharedSliceVariation"]

theorem mem_sliceNames_of_under {model : SharedSlice} {library : String}
    (hl : library ∈ sliceLibraries) (hu : Synthesis.Under [.sharedSlice model] library) :
    library ∈ sliceNames := by
  have hall : ∀ library ∈ sliceLibraries, ['i', 'c', 'e'] <:+: library.toList →
      library ∈ sliceNames := by decide +kernel
  obtain ⟨more, suffix, hname⟩ := hu
  have hstep : Step.sharedSlice model ∈ [Step.sharedSlice model] ++ more := by simp
  exact hall library hl (hname ▸ Naming.infix_declarationName_sharedSlice hstep suffix)

theorem roleLetter_notMem (role : Role) : ∀ name ∈ sliceNames,
    Synthesis.roleLetter role ∉ name.toList := by
  cases role <;> decide +kernel

-- The names in a role have the letter of the role, so among these only the variant can be called
-- so.
theorem eq_variant_of_request {model : SharedSlice} {variation : Variation} {name : String}
    (hn : name ∈ variationRequests model variation) (hs : name ∈ sliceNames) :
    name = declarationName [.sharedSlice model, .variation variation] [] := by
  rcases List.mem_cons.mp hn with hself | hrole
  · exact hself
  · rcases List.mem_append.mp hrole with hrole | hrole
    · exact absurd (Synthesis.mem_of_under_role (Synthesis.under_role hrole))
        (roleLetter_notMem .primary name hs)
    · exact absurd (Synthesis.mem_of_under_role (Synthesis.under_role hrole))
        (roleLetter_notMem .items name hs)

theorem captures_empty_iff (model : SharedSlice) :
    (ofSharedSlice model).value.Captures "" ↔
      ∃ library ∈ (ofSharedSlice model).value.libraries, library ∈ sliceNames ∧
        (library = sharedSliceName model.id ∨
          library = declarationName [.sharedSlice model] ["Variation"] ∨
          ∃ variation ∈ model.variations,
            library = declarationName [.sharedSlice model, .variation variation] []) := by
  simp only [captures_ofSharedSlice_iff, Ty.qualified_empty]
  refine exists_congr fun library => and_congr_right fun hl => ?_
  constructor
  · intro hn
    have hunder : Synthesis.Under [.sharedSlice model] library := by
      rcases hn with rfl | hn
      · exact Naming.sharedSliceName_eq_declarationName model ▸ Synthesis.under_self _ []
      · exact under_sliceRequests hn
    have hs := mem_sliceNames_of_under (libraries_ofSharedSlice model hl) hunder
    refine ⟨hs, hn.imp_right fun hn => ?_⟩
    rcases List.mem_cons.mp hn with hunion | hn
    · exact Or.inl hunion
    · obtain ⟨variation, hv, hn⟩ := List.mem_flatMap.mp hn
      exact Or.inr ⟨variation, hv, eq_variant_of_request hn hs⟩
  · rintro ⟨-, hroot | hunion | ⟨variation, hv, hvariant⟩⟩
    · exact Or.inl hroot
    · exact Or.inr (List.mem_cons.mpr (Or.inl hunion))
    · exact Or.inr (List.mem_cons_of_mem _
        (List.mem_flatMap.mpr ⟨variation, hv, List.mem_cons.mpr (Or.inl hvariant)⟩))

-- Words that have no dot make no name with a dot.
def Dotless (word : String) : Prop := '.' ∉ word.toList

instance (word : String) : Decidable (Dotless word) := inferInstanceAs (Decidable (_ ∉ _))

theorem qualified_ne_of_written {spaceName name : String} (hspace : spaceName ≠ "")
    (h : Naming.WrittenIn Dotless name) (library : String) :
    Ty.qualified spaceName library ≠ name := by
  rintro rfl
  apply h.notMem (d := '.') (by decide) (by decide)
  rw [Ty.toList_qualified hspace]
  simp

theorem dotless_fixedWords : ∀ word ∈ Naming.fixedWords, Dotless word := by decide +kernel

theorem not_captures_of_dotless {spaceName : String} (hspace : spaceName ≠ "") :
    (∀ model : CustomType, (∀ id ∈ model.ids, Dotless id) →
      ¬(ofCustomType model).value.Captures spaceName) ∧
    ∀ model : SharedSlice, (∀ id ∈ model.ids, Dotless id) →
      ¬(ofSharedSlice model).value.Captures spaceName := by
  constructor
  · intro model hids hc
    obtain ⟨-, -, hrequest, -⟩ := (captures_ofCustomType_iff model spaceName).mp hc
    have hwritten := written_contentRequests dotless_fixedWords model hids _
      (List.mem_cons_of_mem _ hrequest)
    exact qualified_ne_of_written hspace hwritten "Slice" rfl
  · intro model hids hc
    obtain ⟨library, -, hn⟩ := (captures_ofSharedSlice_iff model spaceName).mp hc
    obtain ⟨hroot, hrequests⟩ := written_sliceRequests dotless_fixedWords model hids
    rcases hn with hn | hn
    · exact qualified_ne_of_written hspace hroot library hn
    · exact qualified_ne_of_written hspace (hrequests _ hn) library rfl

-- When a declaration has the name of a library type: within a document just when a zone or a local
-- slice is called like the type of local slices in a namespace, within a shared slice just when a
-- canonical name is called so. Without a namespace only four library types can be met, by the
-- slice, its union or a variant. In a namespace none is met unless an id has a dot.
theorem captures_library_iff :
    (∀ (model : CustomType) (spaceName : String),
      (ofCustomType model).value.Captures spaceName ↔
        spaceName ≠ "" ∧ "Slice" ∈ (ofCustomType model).value.libraries ∧
          Ty.qualified spaceName "Slice" ∈
            Synthesis.requestsOfFields [.customType model] model.fields.entries ∧
          ∀ slice, model.Offers slice → Ty.qualified spaceName "Slice" ≠ sharedSliceName slice) ∧
    (∀ (model : SharedSlice) (spaceName : String),
      (ofSharedSlice model).value.Captures spaceName ↔
        ∃ library ∈ (ofSharedSlice model).value.libraries,
          Ty.qualified spaceName library = sharedSliceName model.id ∨
            Ty.qualified spaceName library ∈ sliceRequests model) ∧
    (∀ model : SharedSlice, (ofSharedSlice model).value.Captures "" ↔
      ∃ library ∈ (ofSharedSlice model).value.libraries, library ∈ sliceNames ∧
        (library = sharedSliceName model.id ∨
          library = declarationName [.sharedSlice model] ["Variation"] ∨
          ∃ variation ∈ model.variations,
            library = declarationName [.sharedSlice model, .variation variation] [])) ∧
    ∀ spaceName, spaceName ≠ "" →
      (∀ model : CustomType, (∀ id ∈ model.ids, Dotless id) →
        ¬(ofCustomType model).value.Captures spaceName) ∧
      ∀ model : SharedSlice, (∀ id ∈ model.ids, Dotless id) →
        ¬(ofSharedSlice model).value.Captures spaceName :=
  ⟨captures_ofCustomType_iff, captures_ofSharedSlice_iff, captures_empty_iff,
    fun _ hspace => not_captures_of_dotless hspace⟩

-- This slice is called like the type of its own alias.
def selfNamedSlice : SharedSlice := ⟨"shared", none, none, []⟩

-- A zone with one local slice.
def zoneType (zone : String) : CustomType :=
  ⟨"x", none, true, none,
    ⟨[("Main", ⟨[(zone, .slices none ⟨[("a", .slice none none ⟨[]⟩ ⟨[]⟩)]⟩)]⟩)]⟩⟩

-- The zone of an id that ends in a dot is called like the type of its slice.
theorem library_names_captured :
    (ofSharedSlice selfNamedSlice).value.Captures "" ∧
      (ofCustomType (zoneType "foo.")).value.Captures "XDocumentDataFoo" :=
  ⟨⟨"SharedSlice", by decide +kernel, by decide +kernel⟩,
    ⟨"Slice", by decide +kernel, by decide +kernel⟩⟩

theorem captures_library_iff_dotless :
    "XDocumentDataFoo" ≠ "" ∧ (∀ id ∈ (zoneType "foo").ids, Dotless id) ∧
      (∀ id ∈ selfNamedSlice.ids, Dotless id) ∧
      ¬(ofCustomType (zoneType "foo")).value.Captures "XDocumentDataFoo" ∧
      ¬(ofSharedSlice selfNamedSlice).value.Captures "XDocumentDataFoo" := by
  have hspace : "XDocumentDataFoo" ≠ "" := by decide
  have hzone : ∀ id ∈ (zoneType "foo").ids, Dotless id := by decide +kernel
  have hslice : ∀ id ∈ selfNamedSlice.ids, Dotless id := by decide +kernel
  obtain ⟨hdocuments, hslices⟩ := captures_library_iff.2.2.2 _ hspace
  exact ⟨hspace, hzone, hslice, hdocuments _ hzone, hslices _ hslice⟩

end Compilation

end ContentTypes
