import Mathlib.Data.List.Forall2
import ContentTypes.Proofs.TypeScript.Comments

namespace ContentTypes

-- A name in any alphabet. It has no character that opens a literal or a comment.
def IsName (name : String) : Prop := ∀ c ∈ name.toList, c ≠ '"' ∧ c ≠ '/'

instance (name : String) : Decidable (IsName name) :=
  List.decidableBAll (fun c => c ≠ '"' ∧ c ≠ '/') name.toList

namespace Ty

mutual

-- The names in a type, those of the library among them.
def names : Ty → List String
  | .library name args => name :: namesOfAll args
  | .named name args => name :: namesOfAll args
  | .union members => namesOfAll members
  | .literal _ | .string | .null | .never | .unknown => []

def namesOfAll : List Ty → List String
  | [] => []
  | ty :: rest => names ty ++ namesOfAll rest

end

end Ty

-- The text of a type whose names are proper names, under some namespace.
def IsTyText (text : String) : Prop :=
  ∃ spaceName ty, IsName spaceName ∧ (∀ name ∈ Ty.names ty, IsName name) ∧
    text = ty.render spaceName

structure GenericParam.Printable (param : GenericParam) : Prop where
  name : IsName param.name
  bound : ∀ text ∈ param.bound, IsTyText text
  default : ∀ text ∈ param.default, IsTyText text

-- Nothing is asked of docs and of the names of properties.
def Item.Printable : Item → Prop
  | .record item => IsName item.name ∧ ∀ field ∈ item.fields, IsTyText field.ty
  | .alias item =>
      IsName item.name ∧ (∀ param ∈ item.params, param.Printable) ∧ IsTyText item.ty

def RecordField.undocumented (field : RecordField) : RecordField := { field with docs := .empty }

def Item.undocumented : Item → Item
  | .record item =>
      .record { item with docs := .empty, fields := item.fields.map RecordField.undocumented }
  | .alias item => .alias { item with docs := .empty }

def Module.undocumented (m : Module) : Module := ⟨m.items.map Item.undocumented⟩

namespace TypeScript

namespace IsCode

theorem append {first second : List Char} (hf : IsCode first) (hs : IsCode second) :
    IsCode (first ++ second) := by
  induction hf with
  | nil => exact hs
  | char hq hc h ih => exact .char hq hc ih
  | literal quoted h ih =>
      rw [List.append_assoc]
      exact .literal quoted ih

theorem ofChars {text : List Char} (h : ∀ c ∈ text, c ≠ '"' ∧ c ≠ '/') : IsCode text := by
  induction text with
  | nil => exact .nil
  | cons c rest ih =>
      have hc := h c List.mem_cons_self
      exact .char hc.1 hc.2 (ih fun other ho => h other (List.mem_cons_of_mem _ ho))

theorem ofName {name : String} (h : IsName name) : IsCode name.toList := ofChars h

theorem quote (text : String) : IsCode (Json.quote text).toList := by
  have hquoted := IsCode.literal text.toList .nil
  rw [Json.quote, String.toList_ofList]
  simpa using hquoted

theorem concat {first second : String} (hf : IsCode first.toList) (hs : IsCode second.toList) :
    IsCode (first ++ second).toList := by
  rw [String.toList_append]
  exact hf.append hs

theorem intercalate {between : String} (hb : IsName between) {texts : List String}
    (ht : ∀ text ∈ texts, IsCode text.toList) : IsCode (between.intercalate texts).toList := by
  induction texts with
  | nil => exact .ofChars (by simp)
  | cons first rest ih =>
      have hfirst := ht first List.mem_cons_self
      have hrest := ih fun text hm => ht text (List.mem_cons_of_mem _ hm)
      cases rest with
      | nil => simpa using hfirst
      | cons next rest =>
          rw [String.intercalate_cons_cons]
          exact (hfirst.concat (.ofName hb)).concat hrest

theorem applied {name : String} (hn : IsName name) {args : List String}
    (ha : ∀ arg ∈ args, IsCode arg.toList) : IsCode (Ty.applied name args).toList := by
  unfold Ty.applied
  split
  · exact .ofName hn
  · have hopen : IsCode (name ++ "<").toList := (IsCode.ofName hn).concat (.ofName (by decide))
    have hargs : IsCode (", ".intercalate args).toList := .intercalate (by decide) ha
    exact (hopen.concat hargs).concat (.ofName (by decide))

end IsCode

theorem isName_qualified {spaceName name : String} (hs : IsName spaceName) (hn : IsName name) :
    IsName (Ty.qualified spaceName name) := by
  unfold Ty.qualified
  split
  · exact hn
  · intro c hc
    simp only [String.toList_append, List.mem_append] at hc
    rcases hc with (hc | hc) | hc
    · exact hs c hc
    · rw [show c = '.' by simpa using hc]
      decide
    · exact hn c hc

mutual

theorem isCode_render {spaceName : String} (hs : IsName spaceName) : (ty : Ty) →
    (∀ name ∈ ty.names, IsName name) → IsCode (ty.render spaceName).toList
  | .library name args, h => by
      rw [Ty.names, List.forall_mem_cons] at h
      rw [Ty.render]
      exact .applied (isName_qualified hs h.1) (isCode_renderAll hs args h.2)
  | .named name args, h => by
      rw [Ty.names, List.forall_mem_cons] at h
      rw [Ty.render]
      exact .applied h.1 (isCode_renderAll hs args h.2)
  | .literal text, _ => by
      rw [Ty.render]
      exact .quote text
  | .union [], _ => by
      rw [Ty.render]
      exact .ofName (by decide)
  | .union (first :: rest), h => by
      rw [Ty.names] at h
      rw [Ty.render]
      · exact .intercalate (by decide) (isCode_renderAll hs (first :: rest) h)
      · simp
  | .string, _ | .null, _ | .never, _ | .unknown, _ => by
      rw [Ty.render]
      exact .ofName (by decide)

theorem isCode_renderAll {spaceName : String} (hs : IsName spaceName) : (tys : List Ty) →
    (∀ name ∈ Ty.namesOfAll tys, IsName name) →
    ∀ text ∈ Ty.renderAll spaceName tys, IsCode text.toList
  | [], _ => by
      simp [Ty.renderAll]
  | ty :: rest, h => by
      rw [Ty.namesOfAll, List.forall_mem_append] at h
      rw [Ty.renderAll, List.forall_mem_cons]
      exact ⟨isCode_render hs ty h.1, isCode_renderAll hs rest h.2⟩

end

theorem isCode_tyText {text : String} (h : IsTyText text) : IsCode text.toList := by
  obtain ⟨spaceName, ty, hs, hn, rfl⟩ := h
  exact isCode_render hs ty hn

theorem isName_of_isIdentifier {name : String} (h : isIdentifier name) : IsName name := by
  intro c hc
  have hpart := isIdentifierPart_of_mem h c hc
  constructor
  · rintro rfl
    exact absurd hpart (by decide)
  · rintro rfl
    exact absurd hpart (by decide)

theorem isCode_propertyKey (name : String) : IsCode (propertyKey name).toList := by
  unfold propertyKey
  split
  · rename_i h
    exact .ofName (isName_of_isIdentifier h)
  · exact .quote name

theorem isCode_exportText (options : Options) (exported : Bool) :
    IsCode (exportText options exported).toList := by
  unfold exportText
  split <;> exact .ofName (by decide)

theorem isCode_paramText {param : GenericParam} (h : param.Printable) :
    IsCode (paramText param).toList := by
  have hoptional : ∀ (lead : String) (text? : Option String), IsName lead →
      (∀ text ∈ text?, IsTyText text) →
      IsCode ((text?.map (lead ++ ·)).getD "").toList := by
    intro lead text? hl ht
    cases text? with
    | none => exact .nil
    | some text => exact (IsCode.ofName hl).concat (isCode_tyText (ht text rfl))
  exact ((IsCode.ofName h.name).concat (hoptional _ _ (by decide) h.bound)).concat
    (hoptional _ _ (by decide) h.default)

theorem isCode_paramsText {params : List GenericParam} (h : ∀ param ∈ params, param.Printable) :
    IsCode (paramsText params).toList := by
  unfold paramsText
  split
  · exact .ofName (by decide)
  · have hparams : ∀ text ∈ params.map paramText, IsCode text.toList := by
      rw [List.forall_mem_map]
      exact fun param hp => isCode_paramText (h param hp)
    have hopen : IsCode ("<" ++ ", ".intercalate (params.map paramText)).toList :=
      (IsCode.ofName (by decide)).concat (.intercalate (by decide) hparams)
    exact hopen.concat (.ofName (by decide))

-- Without its comments the first text is the second, and the scanner is outside of all afterwards.
def Erases (text code : String) : Prop :=
  ∀ rest, eraseFrom [] (text.toList ++ rest) = code.toList ++ eraseFrom [] rest

namespace Erases

theorem nil : Erases "" "" := fun _ => rfl

theorem append {first second code more : String} (hf : Erases first code)
    (hs : Erases second more) : Erases (first ++ second) (code ++ more) := by
  intro rest
  rw [String.toList_append, List.append_assoc, hf, hs, String.toList_append, List.append_assoc]

theorem join {α : Type} {text code : α → String} {parts : List α}
    (h : ∀ part ∈ parts, Erases (text part) (code part)) :
    Erases (String.join (parts.map text)) (String.join (parts.map code)) := by
  induction parts with
  | nil => exact .nil
  | cons first rest ih =>
      rw [List.map_cons, List.map_cons, String.join_cons, String.join_cons]
      exact (h first List.mem_cons_self).append
        (ih fun part hp => h part (List.mem_cons_of_mem _ hp))

theorem code {text : String} (h : IsCode text.toList) (hl : text.toList.getLast? = some '\n') :
    Erases text text := eraseFrom_code h ⟨'\n', hl, by decide⟩ []

theorem line {first last : String} (hf : IsCode first.toList) (hl : IsCode last.toList)
    (hn : last.toList.getLast? = some '\n') : Erases (first ++ last) (first ++ last) := by
  apply code (hf.concat hl)
  rw [String.toList_append, List.getLast?_append, hn]
  rfl

theorem docBlock {indent : String} (hi : indent.toList.all isBlank) (docs : Docs) :
    Erases (TypeScript.docBlock indent docs) "" := by
  have hblank : ∀ c ∈ indent.toList, isBlank c := List.all_eq_true.mp hi
  have hstar : '*' ∉ indent.toList := fun hm => absurd (hblank _ hm) (by decide)
  intro rest
  unfold TypeScript.docBlock
  split
  · rfl
  · have hopen : ∀ tail, eraseFrom [] ((indent ++ "/**\n").toList ++ tail) = eraseComment tail := by
      intro tail
      rw [String.toList_append, List.append_assoc, eraseFrom_blanks hblank]
      have hlead : eraseFrom ([] ++ indent.toList) ('/' :: '*' :: '*' :: '\n' :: tail) =
          eraseComment tail := by
        rw [eraseFrom, eraseComment_char (by simp), eraseComment_char (by simp)]
      exact hlead
    have hclose : eraseComment ((indent ++ " */\n").toList ++ rest) = eraseFrom [] rest := by
      rw [String.toList_append, List.append_assoc, eraseComment_starless hstar]
      have hend : eraseComment (' ' :: '*' :: '/' :: '\n' :: rest) = eraseFrom [] rest := by
        rw [eraseComment_char (by simp), eraseComment]
      exact hend
    rw [String.append_assoc, String.toList_append, String.toList_append, List.append_assoc,
      List.append_assoc, hopen, eraseComment_docLines hstar, hclose]
    rfl

end Erases

theorem docBlock_empty (indent : String) : docBlock indent .empty = "" := rfl

theorem erases_fieldText {field : RecordField} (h : IsTyText field.ty) :
    Erases (fieldText field) (fieldText field.undocumented) := by
  have hcode : IsCode ("  " ++ propertyKey field.name ++ ": " ++ field.ty).toList :=
    (((IsCode.ofName (by decide)).concat (isCode_propertyKey _)).concat
      (.ofName (by decide))).concat (isCode_tyText h)
  have hdocs : Erases (docBlock "  " field.docs) "" := .docBlock (by decide) field.docs
  have hfield := hdocs.append (.line hcode (.ofName (by decide)) (by decide) :
    Erases (_ ++ ";\n") _)
  simpa only [fieldText, RecordField.undocumented, docBlock_empty, String.append_assoc] using hfield

theorem erases_fieldsText {fields : List RecordField} (h : ∀ field ∈ fields, IsTyText field.ty)
    {head : String} (hh : IsCode head.toList) :
    Erases (head ++ fieldsText fields) (head ++ fieldsText (fields.map RecordField.undocumented)) := by
  cases fields with
  | nil => exact .line hh (.ofName (by decide)) (by decide)
  | cons first rest =>
      have hopen : Erases (head ++ "\x7b\n") (head ++ "\x7b\n") :=
        .line hh (.ofName (by decide)) (by decide)
      have hfields : Erases (String.join ((first :: rest).map fieldText))
          (String.join ((first :: rest).map fun field => fieldText field.undocumented)) :=
        .join fun field hf => erases_fieldText (h field hf)
      have hclose : Erases "\x7d\n" "\x7d\n" := .code (.ofName (by decide)) (by decide)
      have hall := (hopen.append hfields).append hclose
      simpa [fieldsText, String.append_assoc, Function.comp_def] using hall

theorem erases_itemText (options : Options) {item : Item} (h : item.Printable) :
    Erases (itemText options item) (itemText options item.undocumented) := by
  have hdocs : ∀ docs, Erases (docBlock "" docs) "" := fun docs => .docBlock (by decide) docs
  obtain item | item := item
  · obtain ⟨hname, hfields⟩ := h
    have hhead : IsCode
        (exportText options item.exported ++ "interface " ++ item.name ++ " ").toList :=
      (((isCode_exportText options item.exported).concat (.ofName (by decide))).concat
        (.ofName hname)).concat (.ofName (by decide))
    have hrecord := (hdocs item.docs).append (erases_fieldsText hfields hhead)
    simpa only [itemText, recordText, Item.undocumented, docBlock_empty, String.append_assoc]
      using hrecord
  · obtain ⟨hname, hparams, hty⟩ := h
    have hcode : IsCode (exportText options item.exported ++ "type " ++ item.name ++
        paramsText item.params ++ " = " ++ item.ty).toList :=
      (((((isCode_exportText options item.exported).concat (.ofName (by decide))).concat
        (.ofName hname)).concat (isCode_paramsText hparams)).concat (.ofName (by decide))).concat
          (isCode_tyText hty)
    have halias := (hdocs item.docs).append (.line hcode (.ofName (by decide)) (by decide) :
      Erases (_ ++ ";\n") _)
    simpa only [itemText, aliasText, Item.undocumented, docBlock_empty, String.append_assoc]
      using halias

-- The header has no comment. The library that it imports may have any name.
theorem erases_headerText {options : Options} (hs : IsName options.spaceName) :
    Erases (headerText options) (headerText options) := by
  have himport : IsCode (importText options).toList := by
    unfold importText
    split
    · exact .nil
    · have hspace : IsCode ("import type * as " ++ options.spaceName ++ " from ").toList :=
        ((IsCode.ofName (by decide)).concat (.ofName hs)).concat (.ofName (by decide))
      exact (hspace.concat (.quote options.library)).concat (.ofName (by decide))
  exact .line himport (.ofName (by decide)) (by decide)

theorem erases_blocks {texts codes : List String} (h : List.Forall₂ Erases texts codes) :
    Erases ("\n".intercalate texts) ("\n".intercalate codes) := by
  induction h with
  | nil => exact .nil
  | cons hfirst hrest ih =>
      have hbreak : Erases "\n" "\n" := .code (.ofName (by decide)) (by decide)
      cases hrest with
      | nil => simpa using hfirst
      | cons hnext hmore =>
          rw [String.intercalate_cons_cons, String.intercalate_cons_cons]
          exact (hfirst.append hbreak).append ih

theorem erases_moduleText {options : Options} {m : Module} (hs : IsName options.spaceName)
    (h : ∀ item ∈ m.items, item.Printable) :
    Erases (moduleText options m) (moduleText options m.undocumented) := by
  have hitems : List.Forall₂ Erases (m.items.map (itemText options))
      (m.undocumented.items.map (itemText options)) := by
    rw [Module.undocumented, List.map_map, List.forall₂_map_left_iff, List.forall₂_map_right_iff,
      List.forall₂_same]
    exact fun item hi => erases_itemText options (h item hi)
  apply erases_blocks
  split
  · exact .cons (erases_headerText hs) hitems
  · exact hitems

-- No text of the docs and no key of a property is seen by whatever reads the code.
theorem eraseComments_moduleText (options : Options) (m : Module)
    (hs : IsName options.spaceName) (h : ∀ item ∈ m.items, item.Printable) :
    eraseComments (moduleText options m) = moduleText options m.undocumented := by
  have hall := erases_moduleText hs h []
  rw [List.append_nil] at hall
  rw [eraseComments, hall]
  simp [eraseFrom]

-- Docs, a key and a literal that all try to open or close a comment.
def commentedOptions : Options := ⟨"p", "/*", false, true⟩

def commentedModule : Module :=
  ⟨[.record ⟨"Data", ⟨["a */ \"b", "/"], [⟨"see", "/* c"⟩]⟩, true,
      [⟨"k/*\"", "p.SelectField<\"/* d\">", ⟨["**/", "*"], []⟩⟩]⟩,
    .alias ⟨"Page", .line "*/*\n/", false, [⟨"Lang", some "string", some "\"*/\""⟩], "Data"⟩]⟩

theorem eraseComments_commentedModule :
    IsName commentedOptions.spaceName ∧
      (∀ item ∈ commentedModule.items, item.Printable) ∧
      eraseComments (moduleText commentedOptions commentedModule) =
        moduleText commentedOptions commentedModule.undocumented ∧
      moduleText commentedOptions commentedModule ≠
        moduleText commentedOptions commentedModule.undocumented := by
  have hs : IsName commentedOptions.spaceName := by decide
  have hselect : IsTyText "p.SelectField<\"/* d\">" :=
    ⟨"p", .library "SelectField" [.literal "/* d"], by decide, by decide, by decide⟩
  have hbound : IsTyText "string" := ⟨"p", .string, by decide, by decide, by decide⟩
  have hdefault : IsTyText "\"*/\"" := ⟨"p", .literal "*/", by decide, by decide, by decide⟩
  have hnamed : IsTyText "Data" := ⟨"p", .named "Data" [], by decide, by decide, by decide⟩
  have h : ∀ item ∈ commentedModule.items, item.Printable := by
    rw [commentedModule, List.forall_mem_cons, List.forall_mem_singleton]
    refine ⟨⟨by decide, ?_⟩, by decide, ?_, hnamed⟩
    · rw [List.forall_mem_singleton]
      exact hselect
    · rw [List.forall_mem_singleton]
      exact ⟨by decide, by simpa using hbound, by simpa using hdefault⟩
  exact ⟨hs, h, eraseComments_moduleText commentedOptions commentedModule hs h, by decide⟩

end TypeScript

end ContentTypes
