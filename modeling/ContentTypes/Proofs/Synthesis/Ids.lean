import ContentTypes.Proofs.Compilation.Names
import ContentTypes.Proofs.Text.Origins

namespace ContentTypes

open Naming (declarationName documentName sharedSliceName)

mutual

-- The ids of everything inside a field, its own id left out.
def Field.innerIds : Field → List String
  | .group _ ⟨fields⟩ _ => idsOfFields fields
  | .slices _ ⟨choices⟩ => idsOfChoices choices
  | _ => []

def idsOfFields : List (String × Field) → List String
  | [] => []
  | (id, field) :: rest => id :: (field.innerIds ++ idsOfFields rest)

def idsOfChoices : List (String × SliceChoice) → List String
  | [] => []
  | (id, choice) :: rest => id :: (choice.innerIds ++ idsOfChoices rest)

def SliceChoice.innerIds : SliceChoice → List String
  | .slice _ _ ⟨nonRepeat⟩ ⟨repeated⟩ => idsOfFields nonRepeat ++ idsOfFields repeated
  | _ => []

end

-- A field that a later tab replaces has no part in a compilation.
def CustomType.ids (model : CustomType) : List String :=
  model.id :: idsOfFields model.fields.entries

def Variation.ids (variation : Variation) : List String :=
  variation.id ::
    (idsOfFields variation.primary.entries ++ idsOfFields variation.items.entries)

def SharedSlice.ids (model : SharedSlice) : List String :=
  model.id :: model.variations.flatMap Variation.ids

namespace Naming

-- The words of names that are no ids.
def fixedWords : List String := ["Document", "Data", "Slice", "Primary", "Item", "Variation"]

-- A name that is put together from words of a kind.
def WrittenIn (kind : String → Prop) (name : String) : Prop :=
  ∃ words, (∀ word ∈ words, kind word) ∧ name = Text.Words.pascal (" ".intercalate words)

theorem mem_of_mem_intercalate {α : Type} {a : α} {between : List α} {words : List (List α)}
    (h : a ∈ between.intercalate words) : a ∈ between ∨ ∃ word ∈ words, a ∈ word := by
  induction words with
  | nil => cases h
  | cons word rest ih =>
      cases rest with
      | nil =>
          rw [List.intercalate_singleton] at h
          exact Or.inr ⟨word, List.mem_cons_self, h⟩
      | cons next rest =>
          rw [List.intercalate_cons_cons, List.mem_append, List.mem_append] at h
          rcases h with (h | h) | h
          · exact Or.inr ⟨word, List.mem_cons_self, h⟩
          · exact Or.inl h
          · exact (ih h).imp_right fun ⟨other, ho, ha⟩ => ⟨other, List.mem_cons_of_mem _ ho, ha⟩

-- The space between words is no sign of a name.
theorem WrittenIn.notMem {d : Char} (hd : Text.IsSign d) (hspace : d ≠ ' ') {name : String}
    (h : WrittenIn (fun word => d ∉ word.toList) name) : d ∉ name.toList := by
  obtain ⟨words, hwords, rfl⟩ := h
  intro hm
  have htext := Text.Words.mem_of_mem_pascal hd hm
  rw [String.toList_intercalate] at htext
  rcases mem_of_mem_intercalate htext with hs | ⟨letters, hl, hin⟩
  · exact hspace (List.mem_singleton.mp hs)
  · obtain ⟨word, hw, rfl⟩ := List.mem_map.mp hl
    exact hwords word hw hin

-- A shared slice has the canonical name of its own path.
theorem sharedSliceName_eq_declarationName (model : SharedSlice) :
    sharedSliceName model.id = declarationName [.sharedSlice model] [] := by
  apply congrArg Text.Words.pascal
  apply String.toList_injective
  simp [Step.words]

end Naming

namespace Synthesis

open Naming (fixedWords WrittenIn)

variable {kind : String → Prop}

-- The fixed words are of the kind, and so are those that the steps of a path give.
structure WordsIn (kind : String → Prop) (path : Path) : Prop where
  fixed : ∀ word ∈ fixedWords, kind word
  steps : ∀ word ∈ path.flatMap Step.words, kind word

namespace WordsIn

variable {path : Path}

theorem append (hpath : WordsIn kind path) {step : Step} (hstep : ∀ word ∈ step.words, kind word) :
    WordsIn kind (path ++ [step]) where
  fixed := hpath.fixed
  steps := by
    rw [List.flatMap_append, List.flatMap_singleton]
    exact List.forall_mem_append.mpr ⟨hpath.steps, hstep⟩

theorem field (hpath : WordsIn kind path) {id : String} (hid : kind id) (field : Field) :
    WordsIn kind (path ++ [.field id field]) :=
  hpath.append (by simpa [Step.words] using hid)

theorem choice (hpath : WordsIn kind path) {id : String} (hid : kind id) (choice : SliceChoice) :
    WordsIn kind (path ++ [.choice id choice]) :=
  hpath.append (by simpa [Step.words] using ⟨hid, hpath.fixed "Slice" (by decide)⟩)

theorem role (hpath : WordsIn kind path) : (role : Role) → WordsIn kind (path ++ [.role role])
  | .primary => hpath.append (by simpa [Step.words] using hpath.fixed "Primary" (by decide))
  | .items => hpath.append (by simpa [Step.words] using hpath.fixed "Item" (by decide))

theorem written (hpath : WordsIn kind path) : WrittenIn kind (declarationName path []) :=
  ⟨_, by simpa using hpath.steps, rfl⟩

theorem written_suffix (hpath : WordsIn kind path) {word : String} (hword : word ∈ fixedWords) :
    WrittenIn kind (declarationName path [word]) :=
  ⟨_, List.forall_mem_append.mpr ⟨hpath.steps, by simpa using hpath.fixed word hword⟩, rfl⟩

end WordsIn

theorem written_role {path : Path} (hpath : WordsIn kind path) (role : Role) (fields : FieldSet)
    {inner : List String} (hinner : ∀ name ∈ inner, WrittenIn kind name) :
    ∀ name ∈ roleRequests path role fields inner, WrittenIn kind name := by
  intro name hn
  unfold roleRequests at hn
  split at hn
  · cases hn
  · rcases List.mem_cons.mp hn with rfl | hn
    · exact (hpath.role role).written
    · exact hinner name hn

theorem written_variant {path : Path} (hpath : WordsIn kind path) (primary items : FieldSet)
    {content repeated : List String} (hcontent : ∀ name ∈ content, WrittenIn kind name)
    (hrepeated : ∀ name ∈ repeated, WrittenIn kind name) :
    ∀ name ∈ variantRequests path primary items content repeated, WrittenIn kind name := by
  intro name hn
  rcases List.mem_cons.mp hn with rfl | hn
  · exact hpath.written
  · rcases List.mem_append.mp hn with hn | hn
    · exact written_role hpath .primary primary hcontent name hn
    · exact written_role hpath .items items hrepeated name hn

mutual

theorem written_requests {path : Path} (hpath : WordsIn kind path) {id : String} (hid : kind id) :
    (field : Field) → (∀ inner ∈ field.innerIds, kind inner) →
    ∀ name ∈ requests path id field, WrittenIn kind name
  | .group label ⟨fields⟩ repeats, hids => by
      have hinside := hpath.field hid (.group label ⟨fields⟩ repeats)
      intro name hn
      rcases List.mem_cons.mp hn with rfl | hn
      · exact hinside.written_suffix (by decide)
      · exact written_requestsOfFields hinside fields hids name hn
  | .slices fieldset ⟨choices⟩, hids => by
      have hinside := hpath.field hid (.slices fieldset ⟨choices⟩)
      intro name hn
      rcases List.mem_cons.mp hn with rfl | hn
      · exact hinside.written_suffix (by decide)
      · exact written_requestsOfChoices hinside choices hids name hn
  | .plain _ _, _ | .image _, _ | .integration _, _ | .link _, _ | .richText _, _ | .select _, _
  | .unknown _ _, _ => by
      intro name hn
      cases hn

theorem written_requestsOfFields {path : Path} (hpath : WordsIn kind path) :
    (fields : List (String × Field)) → (∀ id ∈ idsOfFields fields, kind id) →
    ∀ name ∈ requestsOfFields path fields, WrittenIn kind name
  | [], _ => by
      intro name hn
      cases hn
  | (id, field) :: rest, hids => by
      obtain ⟨hid, hids⟩ := List.forall_mem_cons.mp hids
      obtain ⟨hinner, hrest⟩ := List.forall_mem_append.mp hids
      exact List.forall_mem_append.mpr ⟨written_requests hpath hid field hinner,
        written_requestsOfFields hpath rest hrest⟩

theorem written_requestsOfChoices {path : Path} (hpath : WordsIn kind path) :
    (choices : List (String × SliceChoice)) → (∀ id ∈ idsOfChoices choices, kind id) →
    ∀ name ∈ requestsOfChoices path choices, WrittenIn kind name
  | [], _ => by
      intro name hn
      cases hn
  | (id, choice) :: rest, hids => by
      obtain ⟨hid, hids⟩ := List.forall_mem_cons.mp hids
      obtain ⟨hinner, hrest⟩ := List.forall_mem_append.mp hids
      exact List.forall_mem_append.mpr ⟨written_requestsOfChoice hpath hid choice hinner,
        written_requestsOfChoices hpath rest hrest⟩

theorem written_requestsOfChoice {path : Path} (hpath : WordsIn kind path) {id : String}
    (hid : kind id) : (choice : SliceChoice) → (∀ inner ∈ choice.innerIds, kind inner) →
    ∀ name ∈ requestsOfChoice path id choice, WrittenIn kind name
  | .shared, _ | .unknown, _ => by
      intro name hn
      cases hn
  | .slice fieldset description ⟨nonRepeat⟩ ⟨repeated⟩, hids => by
      have hinside := hpath.choice hid (.slice fieldset description ⟨nonRepeat⟩ ⟨repeated⟩)
      obtain ⟨hfirst, hsecond⟩ := List.forall_mem_append.mp hids
      exact written_variant hinside _ _
        (written_requestsOfFields (hinside.role .primary) nonRepeat hfirst)
        (written_requestsOfFields (hinside.role .items) repeated hsecond)

end

end Synthesis

namespace Compilation

open Naming (fixedWords WrittenIn)
open Synthesis (WordsIn)

variable {kind : String → Prop} (hfixed : ∀ word ∈ fixedWords, kind word)

theorem written_variationRequests (model : SharedSlice) {variation : Variation}
    (hpath : WordsIn kind [.sharedSlice model]) (hids : ∀ id ∈ variation.ids, kind id) :
    ∀ name ∈ variationRequests model variation, WrittenIn kind name := by
  obtain ⟨hid, hids⟩ := List.forall_mem_cons.mp hids
  obtain ⟨hprimary, hitems⟩ := List.forall_mem_append.mp hids
  have hinside : WordsIn kind [.sharedSlice model, .variation variation] :=
    hpath.append (by simpa [Step.words] using hid)
  exact Synthesis.written_variant hinside _ _
    (Synthesis.written_requestsOfFields (hinside.role .primary) _ hprimary)
    (Synthesis.written_requestsOfFields (hinside.role .items) _ hitems)

include hfixed

theorem written_contentRequests (model : CustomType) (hids : ∀ id ∈ model.ids, kind id) :
    ∀ name ∈ contentRequests model, WrittenIn kind name := by
  obtain ⟨hid, hinner⟩ := List.forall_mem_cons.mp hids
  have hpath : WordsIn kind [.customType model] := ⟨hfixed, by
    simpa [Step.words] using ⟨hid, hfixed "Document" (by decide), hfixed "Data" (by decide)⟩⟩
  exact List.forall_mem_cons.mpr
    ⟨hpath.written, Synthesis.written_requestsOfFields hpath _ hinner⟩

theorem written_sliceRequests (model : SharedSlice) (hids : ∀ id ∈ model.ids, kind id) :
    WrittenIn kind (sharedSliceName model.id) ∧
      ∀ name ∈ sliceRequests model, WrittenIn kind name := by
  obtain ⟨hid, hinner⟩ := List.forall_mem_cons.mp hids
  have hpath : WordsIn kind [.sharedSlice model] :=
    ⟨hfixed, by simpa [Step.words] using ⟨hid, hfixed "Slice" (by decide)⟩⟩
  refine ⟨Naming.sharedSliceName_eq_declarationName model ▸ hpath.written, ?_⟩
  intro name hn
  rcases List.mem_cons.mp hn with rfl | hn
  · exact hpath.written_suffix (by decide)
  · obtain ⟨variation, hv, hn⟩ := List.mem_flatMap.mp hn
    refine written_variationRequests model hpath ?_ name hn
    intro id hi
    exact hinner id (List.mem_flatMap.mpr ⟨variation, hv, hi⟩)

end Compilation

end ContentTypes
