import ContentTypes.Proofs.References.Compilation
import ContentTypes.Proofs.Synthesis.Ids
import ContentTypes.Proofs.Text.Plain

namespace ContentTypes

open Naming (declarationName documentName sharedSliceName fixedWords WrittenIn)
open Synthesis (Under)
open Text (separators IsPlain)
open Text.Words (pascal)

-- Plain letters, digits, underscores and hyphens.
def IsPlainId (id : String) : Prop := ∀ c ∈ id.toList, c.isAlphanum ∨ c = '_' ∨ c = '-'

instance (id : String) : Decidable (IsPlainId id) :=
  List.decidableBAll (fun c : Char => c.isAlphanum ∨ c = '_' ∨ c = '-') id.toList

-- The first letter or digit is a letter, if there is one.
def StartsWithLetter (id : String) : Prop :=
  ∀ first ∈ id.toList.find? Char.isAlphanum, first.isAlpha

instance (id : String) : Decidable (StartsWithLetter id) :=
  Option.decidableForallMem (id.toList.find? Char.isAlphanum)

-- A letter, then letters and digits.
def IsPlainName (name : String) : Prop :=
  ∃ first rest, name.toList = first :: rest ∧ first.isAlpha ∧ ∀ c ∈ rest, c.isAlphanum

theorem IsPlainId.separator {id : String} (h : IsPlainId id) {c : Char} (hc : c ∈ id.toList)
    (hn : ¬c.isAlphanum) : c ∈ separators := by
  rcases (h c hc).resolve_left hn with rfl | rfl <;> decide

theorem isPlainId_fixedWords : ∀ word ∈ fixedWords, IsPlainId word := by decide

namespace IsPlainName

theorem of_head {name : String} (hhead : ∃ first ∈ name.toList.head?, first.isAlpha)
    (hall : ∀ c ∈ name.toList, c.isAlphanum) : IsPlainName name := by
  obtain ⟨first, hfirst, ha⟩ := hhead
  obtain ⟨rest, hrest⟩ := List.head?_eq_some_iff.mp hfirst
  refine ⟨first, rest, hrest, ha, fun c hc => hall c ?_⟩
  rw [hrest]
  exact List.mem_cons_of_mem _ hc

theorem numbered {name : String} (h : IsPlainName name) (n : Nat) :
    IsPlainName (NameTable.numbered name n) := by
  obtain ⟨first, rest, hname, ha, hrest⟩ := h
  refine ⟨first, rest ++ Nat.toDigits 10 n, ?_, ha, ?_⟩
  · rw [NameTable.numbered, String.toList_append, hname, Nat.toString_eq_repr, Nat.toList_repr]
    rfl
  · intro c hc
    rcases List.mem_append.mp hc with hc | hc
    · exact hrest c hc
    · have hdigit : c.isDigit := Nat.isDigit_of_mem_toDigits (by decide) (Nat.le_refl 10) hc
      simp [Char.isAlphanum, hdigit]

theorem granted {requests : List String} (h : ∀ request ∈ requests, IsPlainName request)
    {table : NameTable} {name : String} (hn : name ∈ table.grants requests) :
    IsPlainName name := by
  obtain ⟨request, hr, rfl | ⟨n, rfl⟩⟩ := NameTable.exists_request table requests hn
  · exact h _ hr
  · exact (h _ hr).numbered n

end IsPlainName

namespace Naming

-- A separator stands between the words.
theorem WrittenIn.isAlphanum {name : String} (h : WrittenIn IsPlainId name) :
    ∀ c ∈ name.toList, c.isAlphanum := by
  obtain ⟨words, hwords, rfl⟩ := h
  intro c
  apply Text.Words.isAlphanum_of_mem_pascal
  intro d hd
  rw [String.toList_intercalate] at hd
  rcases mem_of_mem_intercalate hd with hs | ⟨letters, hl, hin⟩
  · rw [List.mem_singleton.mp hs]
    decide
  · obtain ⟨word, hw, rfl⟩ := List.mem_map.mp hl
    by_cases hn : d.isAlphanum
    · exact Or.inl hn
    · exact Or.inr ((hwords word hw).separator hin hn)

theorem exists_intercalate_cons {α : Type} (between word : List α) (words : List (List α)) :
    ∃ rest, between.intercalate (word :: words) = word ++ rest := by
  cases words with
  | nil => exact ⟨[], by simp⟩
  | cons next words => exact ⟨_, by rw [List.intercalate_cons_cons, List.append_assoc]⟩

-- A name starts with an id and a word. If the id is made of separators, the word decides.
theorem isAlpha_head_pascal {id word : String} (hid : IsPlainId id) (hfirst : StartsWithLetter id)
    (hword : ∃ letter ∈ word.toList.head?, letter.isAlpha) (words : List String) :
    ∃ first ∈ (pascal (" ".intercalate (id :: word :: words))).toList.head?, first.isAlpha := by
  have hupper : ∀ {c : Char}, c.isAlpha → c.isAlphanum ∧ c.toUpper.isAlpha := by
    intro c hc
    have hplain : c.isAlphanum := by simp [Char.isAlphanum, hc]
    exact ⟨hplain, (Text.isAlpha_toUpper_plain (Or.inl hplain)).trans hc⟩
  obtain ⟨letter, hletter, hl⟩ := hword
  obtain ⟨letters, hletters⟩ := List.head?_eq_some_iff.mp hletter
  obtain ⟨rest, hrest⟩ := exists_intercalate_cons " ".toList word.toList (words.map String.toList)
  have htext : (" ".intercalate (id :: word :: words)).toList =
      id.toList ++ ' ' :: letter :: (letters ++ rest) := by
    rw [String.toList_intercalate, List.map_cons, List.map_cons, List.intercalate_cons_cons,
      hrest, hletters, List.append_assoc]
    rfl
  cases hfound : id.toList.find? Char.isAlphanum with
  | none =>
      have hseparators : ∀ s ∈ id.toList ++ [' '], s ∈ separators := by
        rw [List.forall_mem_append, List.forall_mem_singleton]
        refine ⟨fun s hs => hid.separator hs ?_, by decide⟩
        exact List.find?_eq_none.mp hfound s hs
      refine ⟨_, Text.Words.head?_pascal hseparators (hupper hl).1 (letters ++ rest) ?_,
        (hupper hl).2⟩
      rw [htext, List.append_assoc]
      rfl
  | some c =>
      obtain ⟨hc, before, after, hsplit, hbefore⟩ := List.find?_eq_some_iff_append.mp hfound
      have hseparators : ∀ s ∈ before, s ∈ separators := by
        intro s hs
        refine hid.separator (hsplit ▸ List.mem_append_left _ hs) ?_
        simpa using hbefore s hs
      refine ⟨_, Text.Words.head?_pascal hseparators hc
        (after ++ ' ' :: letter :: (letters ++ rest)) ?_, (hupper (hfirst c hfound)).2⟩
      rw [htext, hsplit, List.append_assoc]
      rfl

theorem isPlainName_pascal {id word : String} (hid : IsPlainId id) (hfirst : StartsWithLetter id)
    (hword : ∃ letter ∈ word.toList.head?, letter.isAlpha) (words : List String)
    (hw : WrittenIn IsPlainId (pascal (" ".intercalate (id :: word :: words)))) :
    IsPlainName (pascal (" ".intercalate (id :: word :: words))) :=
  .of_head (isAlpha_head_pascal hid hfirst hword words) hw.isAlphanum

-- What stands under a step starts with the words of the step.
theorem isPlainName_of_under {step : Step} {id word : String} (words : List String)
    (hwords : step.words = id :: word :: words) (hid : IsPlainId id)
    (hfirst : StartsWithLetter id) (hword : ∃ letter ∈ word.toList.head?, letter.isAlpha)
    {name : String} (hu : Under [step] name) (hw : WrittenIn IsPlainId name) :
    IsPlainName name := by
  obtain ⟨more, suffix, rfl⟩ := hu
  have hname : declarationName ([step] ++ more) suffix =
      pascal (" ".intercalate (id :: word :: (words ++ more.flatMap Step.words ++ suffix))) := by
    rw [declarationName, List.cons_append, List.flatMap_cons, hwords]
    rfl
  rw [hname] at hw ⊢
  exact isPlainName_pascal hid hfirst hword _ hw

theorem isPlainName_documentName {id : String} (hid : IsPlainId id)
    (hfirst : StartsWithLetter id) : IsPlainName (documentName id) := by
  have hname : documentName id = pascal (" ".intercalate [id, "Document"]) := by
    apply congrArg pascal
    apply String.toList_injective
    simp
  rw [hname]
  refine isPlainName_pascal hid hfirst ⟨'D', rfl, by decide⟩ [] ⟨[id, "Document"], ?_, rfl⟩
  simpa using ⟨hid, isPlainId_fixedWords "Document" (by decide)⟩

theorem isPlainName_sharedSliceName {id : String} (hid : IsPlainId id)
    (hfirst : StartsWithLetter id) : IsPlainName (sharedSliceName id) := by
  have hname : sharedSliceName id = pascal (" ".intercalate [id, "Slice"]) := by
    apply congrArg pascal
    apply String.toList_injective
    simp
  rw [hname]
  refine isPlainName_pascal hid hfirst ⟨'S', rfl, by decide⟩ [] ⟨[id, "Slice"], ?_, rfl⟩
  simpa using ⟨hid, isPlainId_fixedWords "Slice" (by decide)⟩

end Naming

-- The ids of slices that are offered are among the ids of a model.
section Offered

theorem mem_idsOfFields_of_mem {fields : List (String × Field)} {id : String} {field : Field}
    (hf : (id, field) ∈ fields) {inner : String} (hi : inner ∈ field.innerIds) :
    inner ∈ idsOfFields fields := by
  induction fields with
  | nil => cases hf
  | cons first rest ih =>
      rw [idsOfFields]
      apply List.mem_cons_of_mem
      rcases List.mem_cons.mp hf with rfl | hr
      · exact List.mem_append_left _ hi
      · exact List.mem_append_right _ (ih hr)

theorem mem_idsOfChoices_of_mem {choices : List (String × SliceChoice)} {id : String}
    {choice : SliceChoice} (hc : (id, choice) ∈ choices) {inner : String}
    (hi : inner ∈ id :: choice.innerIds) : inner ∈ idsOfChoices choices := by
  induction choices with
  | nil => cases hc
  | cons first rest ih =>
      rw [idsOfChoices, ← List.cons_append]
      rcases List.mem_cons.mp hc with rfl | hr
      · exact List.mem_append_left _ hi
      · exact List.mem_append_right _ (ih hr)

mutual

theorem Field.Offers.mem_innerIds {slice : String} :
    {field : Field} → field.Offers slice → slice ∈ field.innerIds
  | _, .group hf h => mem_idsOfFields_of_mem hf h.mem_innerIds
  | _, .zone hc h => mem_idsOfChoices_of_mem hc h.mem_ids

theorem SliceChoice.Offers.mem_ids {slice : String} : {id : String} → {choice : SliceChoice} →
    choice.Offers slice id → slice ∈ id :: choice.innerIds
  | _, _, .shared => List.mem_cons_self
  | _, _, .nonRepeat hf h => by
      apply List.mem_cons_of_mem
      exact List.mem_append_left _ (mem_idsOfFields_of_mem hf h.mem_innerIds)
  | _, _, .repeated hf h => by
      apply List.mem_cons_of_mem
      exact List.mem_append_right _ (mem_idsOfFields_of_mem hf h.mem_innerIds)

end

theorem OffersIn.mem_ids {slice : String} {fields : List (String × Field)}
    (h : OffersIn slice fields) : slice ∈ idsOfFields fields := by
  obtain ⟨id, field, hf, ho⟩ := h
  exact mem_idsOfFields_of_mem hf ho.mem_innerIds

theorem CustomType.Offers.mem_ids {model : CustomType} {slice : String} (h : model.Offers slice) :
    slice ∈ model.ids :=
  List.mem_cons_of_mem _ (OffersIn.mem_ids h)

theorem SharedSlice.Offers.mem_ids {model : SharedSlice} {slice : String}
    (h : model.Offers slice) : slice ∈ model.ids := by
  obtain ⟨variation, hv, ho⟩ := h
  apply List.mem_cons_of_mem
  refine List.mem_flatMap.mpr ⟨variation, hv, List.mem_cons_of_mem _ ?_⟩
  exact List.mem_append.mpr (ho.imp OffersIn.mem_ids OffersIn.mem_ids)

end Offered

namespace Compilation

theorem isPlainName_helper : ∀ name ∈ Declaration.helperNames, IsPlainName name := by
  intro name hn
  rw [Declaration.helperNames, List.mem_cons, List.mem_singleton] at hn
  rcases hn with rfl | rfl
  · exact .of_head ⟨_, rfl, by decide⟩ (List.all_eq_true.mp (by decide))
  · exact .of_head ⟨_, rfl, by decide⟩ (List.all_eq_true.mp (by decide))

theorem isPlainName_customType {model : CustomType} (hids : ∀ id ∈ model.ids, IsPlainId id)
    (hfirst : StartsWithLetter model.id) :
    ∀ name ∈ (ofCustomType model).value.names, IsPlainName name := by
  have hid : IsPlainId model.id := hids model.id List.mem_cons_self
  have hrequests : ∀ request ∈ contentRequests model, IsPlainName request := by
    intro request hr
    exact Naming.isPlainName_of_under ["Data"] rfl hid hfirst ⟨'D', rfl, by decide⟩
      (under_contentRequests hr) (written_contentRequests isPlainId_fixedWords model hids _ hr)
  intro name hn
  obtain ⟨after, hc⟩ := claimed_content model
  rw [names_ofCustomType, List.mem_append, List.mem_singleton, hc.mem_names] at hn
  rcases hn with hn | rfl
  · exact .granted hrequests hn
  · exact Naming.isPlainName_documentName hid hfirst

theorem isPlainName_sharedSlice {model : SharedSlice} (hids : ∀ id ∈ model.ids, IsPlainId id)
    (hfirst : StartsWithLetter model.id) :
    ∀ name ∈ (ofSharedSlice model).value.names, IsPlainName name := by
  have hid : IsPlainId model.id := hids model.id List.mem_cons_self
  have hrequests : ∀ request ∈ sliceRequests model, IsPlainName request := by
    intro request hr
    exact Naming.isPlainName_of_under [] rfl hid hfirst ⟨'S', rfl, by decide⟩
      (under_sliceRequests hr)
      ((written_sliceRequests isPlainId_fixedWords model hids).2 _ hr)
  intro name hn
  obtain ⟨after, hc⟩ := claimed_slice model
  rw [names_ofSharedSlice, List.mem_append, List.mem_singleton, hc.mem_names] at hn
  rcases hn with hn | rfl
  · exact .granted hrequests hn
  · exact Naming.isPlainName_sharedSliceName hid hfirst

-- What a declaration is called and all that it refers to.
def mentioned (compilation : Compilation) : List String :=
  compilation.names ++ compilation.declarations.flatMap Declaration.references

-- Ids of letters, digits, underscores and hyphens give names of letters and digits. Only the ids of
-- the model itself and of offered slices stand at the front of a name.
theorem names_plain :
    (∀ model : CustomType, (∀ id ∈ model.ids, IsPlainId id) → StartsWithLetter model.id →
      (∀ slice, model.Offers slice → StartsWithLetter slice) →
        ∀ name ∈ (ofCustomType model).value.mentioned, IsPlainName name) ∧
    ∀ model : SharedSlice, (∀ id ∈ model.ids, IsPlainId id) → StartsWithLetter model.id →
      (∀ slice, model.Offers slice → StartsWithLetter slice) →
        ∀ name ∈ (ofSharedSlice model).value.mentioned, IsPlainName name := by
  constructor
  · intro model hids hfirst hoffered name hn
    have hnames := isPlainName_customType hids hfirst
    rcases List.mem_append.mp hn with hn | hn
    · exact hnames name hn
    · obtain ⟨declaration, hd, hr⟩ := List.mem_flatMap.mp hn
      rcases mention_ofCustomType model hd hr with hn | hn | ⟨slice, ho, rfl⟩ | ⟨rfl, -⟩
      · exact hnames name hn
      · exact isPlainName_helper name hn
      · exact Naming.isPlainName_sharedSliceName (hids slice ho.mem_ids) (hoffered slice ho)
      · exact .of_head ⟨_, rfl, by decide⟩ (List.all_eq_true.mp (by decide))
  · intro model hids hfirst hoffered name hn
    have hnames := isPlainName_sharedSlice hids hfirst
    rcases List.mem_append.mp hn with hn | hn
    · exact hnames name hn
    · obtain ⟨declaration, hd, hr⟩ := List.mem_flatMap.mp hn
      rcases mention_ofSharedSlice model hd hr with hn | hn | ⟨slice, ho, rfl⟩
      · exact hnames name hn
      · exact isPlainName_helper name hn
      · exact Naming.isPlainName_sharedSliceName (hids slice ho.mem_ids) (hoffered slice ho)

-- Ids with separators at all places, with digits in front, and with nothing but separators.
def separatedType : CustomType :=
  ⟨"-_a1B", none, true, none, ⟨[("Main", ⟨[("__", .slices none ⟨[("-cta_", .shared),
    ("9", .slice none none ⟨[]⟩ ⟨[]⟩), ("-9", .slice none none ⟨[]⟩ ⟨[]⟩)]⟩)]⟩)]⟩⟩

def separatedSlice : SharedSlice :=
  ⟨"_", none, none, [⟨"2-col", none, none, ⟨[("A--b", .group none ⟨[]⟩ none)]⟩, ⟨[]⟩⟩]⟩

theorem names_plain_separated :
    ((∀ id ∈ separatedType.ids, IsPlainId id) ∧ StartsWithLetter separatedType.id ∧
      (∀ slice, separatedType.Offers slice → StartsWithLetter slice) ∧
      ∀ name ∈ (ofCustomType separatedType).value.mentioned, IsPlainName name) ∧
    ((∀ id ∈ separatedSlice.ids, IsPlainId id) ∧ StartsWithLetter separatedSlice.id ∧
      (∀ slice, separatedSlice.Offers slice → StartsWithLetter slice) ∧
      ∀ name ∈ (ofSharedSlice separatedSlice).value.mentioned, IsPlainName name) ∧
    (ofCustomType separatedType).value.names = ["A1BDocumentData", "A1BDocumentData9Slice",
      "A1BDocumentData9Slice2", "A1BDocumentDataSlice", "A1BDocument"] ∧
    (ofSharedSlice separatedSlice).value.names = ["Slice2ColPrimary", "Slice2ColPrimaryABItem",
      "Slice2Col", "SliceVariation", "Slice"] := by
  have hids : ∀ id ∈ separatedType.ids, IsPlainId id := by decide +kernel
  have hfirst : StartsWithLetter separatedType.id := by decide
  have hoffered : ∀ slice, separatedType.Offers slice → StartsWithLetter slice := by
    rintro slice ⟨id, field, hf, ho⟩
    obtain ⟨rfl, rfl⟩ := Prod.mk.inj (List.mem_singleton.mp hf)
    cases ho with
    | zone hc h =>
        cases h with
        | shared =>
            have hslice : slice = "-cta_" := by simpa using hc
            rw [hslice]
            decide
        | nonRepeat hf h | repeated hf h =>
            -- the local slices have no fields
            obtain _ | ⟨_, _ | ⟨_, _ | ⟨_, ⟨⟩⟩⟩⟩ := hc <;> cases hf
  have hids' : ∀ id ∈ separatedSlice.ids, IsPlainId id := by decide +kernel
  have hfirst' : StartsWithLetter separatedSlice.id := by decide
  have hoffered' : ∀ slice, separatedSlice.Offers slice → StartsWithLetter slice := by
    rintro slice ⟨variation, hv, ho⟩
    obtain rfl := List.mem_singleton.mp hv
    rcases ho with ⟨id, field, hf, ho⟩ | ⟨id, field, hf, ho⟩
    · obtain ⟨rfl, rfl⟩ := Prod.mk.inj (List.mem_singleton.mp hf)
      cases ho with
      | group hf h => cases hf
    · cases hf
  exact ⟨⟨hids, hfirst, hoffered, names_plain.1 separatedType hids hfirst hoffered⟩,
    ⟨hids', hfirst', hoffered', names_plain.2 separatedSlice hids' hfirst' hoffered'⟩,
    by decide +kernel, by decide +kernel⟩

end Compilation

end ContentTypes
