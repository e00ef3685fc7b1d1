import ContentTypes.Proofs.Shape.Basic
import ContentTypes.Proofs.Synthesis.Offers
import ContentTypes.Proofs.Synthesis.Run

namespace ContentTypes

namespace Ty

variable {meaning : String → Option (Option Shape)}

theorem openedAll?_cons {ty : Ty} {rest : List Ty} {shape : Shape} {shapes : List Shape}
    (h : ty.opened? meaning = some shape) (hr : openedAll? meaning rest = some shapes) :
    openedAll? meaning (ty :: rest) = some (shape :: shapes) := by
  simp [openedAll?, h, hr]

theorem openedAll?_append {first second : List Ty} {shapes others : List Shape}
    (hf : openedAll? meaning first = some shapes) (hs : openedAll? meaning second = some others) :
    openedAll? meaning (first ++ second) = some (shapes ++ others) := by
  induction first generalizing shapes with
  | nil =>
      cases hf
      exact hs
  | cons ty rest ih =>
      simp only [openedAll?, Option.bind_eq_bind, Option.bind_eq_some_iff] at hf
      obtain ⟨shape, hty, known, hrest, he⟩ := hf
      cases he
      exact openedAll?_cons hty (ih hrest)

theorem openedAll?_singleton {ty : Ty} {shape : Shape} (h : ty.opened? meaning = some shape) :
    openedAll? meaning [ty] = some [shape] :=
  openedAll?_cons h rfl

theorem opened?_literalUnion (texts : List String) :
    (literalUnion texts).opened? meaning = some (Shape.literals texts) := by
  have hall : openedAll? meaning (texts.map .literal) = some (texts.map .literal) := by
    induction texts with
    | nil => rfl
    | cons text rest ih => exact openedAll?_cons rfl ih
  simp [literalUnion, opened?, hall, Shape.literals]

theorem opened?_unionOrNever {members : List Ty} {shapes : List Shape}
    (h : openedAll? meaning members = some shapes) :
    (unionOrNever members).opened? meaning = some (Shape.unionOrNever shapes) := by
  cases members with
  | nil =>
      cases h
      rfl
  | cons ty rest =>
      simp only [openedAll?, Option.bind_eq_bind, Option.bind_eq_some_iff] at h
      obtain ⟨shape, hty, known, hrest, he⟩ := h
      cases he
      simp [unionOrNever, opened?, openedAll?, hty, hrest, Shape.unionOrNever]

theorem opened?_library {name : String} {args : List Ty} {shapes : List Shape}
    (h : openedAll? meaning args = some shapes) :
    (library name args).opened? meaning = some (.library name shapes) := by
  rw [opened?, h, Option.map_some]

end Ty

theorem Property.openedAll?_append {meaning : String → Option (Option Shape)}
    {first second : List Property} {shapes others : List (String × Shape)}
    (hf : openedAll? meaning first = some shapes) (hs : openedAll? meaning second = some others) :
    openedAll? meaning (first ++ second) = some (shapes ++ others) := by
  induction first generalizing shapes with
  | nil =>
      cases hf
      exact hs
  | cons property rest ih =>
      simp only [openedAll?, Option.bind_eq_bind, Option.bind_eq_some_iff] at hf
      obtain ⟨shape, hty, known, hrest, he⟩ := hf
      cases he
      simp [openedAll?, hty, ih hrest]

theorem Property.openedAll?_singleton {meaning : String → Option (Option Shape)}
    {property : Property} {shape : Shape} (h : property.ty.opened? meaning = some shape) :
    openedAll? meaning [property] = some [(property.name, shape)] := by
  simp [openedAll?, h]

namespace Compilation

-- Each name is declared once, and no declaration takes the name of a helper that the types use.
structure WellNamed (compilation : Compilation) : Prop where
  nodup : compilation.names.Nodup
  simplify : "Simplify" ∉ compilation.names
  record : "Record" ∉ compilation.names

variable {compilation : Compilation}

theorem get?_of_mem (hn : compilation.names.Nodup) {declaration : Declaration}
    (hm : declaration ∈ compilation.declarations) :
    compilation.get? declaration.name = some declaration := by
  obtain ⟨root, declarations⟩ := compilation
  simp only [get?, names] at *
  induction declarations with
  | nil => cases hm
  | cons first rest ih =>
      rw [List.map_cons, List.nodup_cons] at hn
      rcases List.mem_cons.mp hm with rfl | hr
      · simp
      · have hne : first.name ≠ declaration.name := by
          intro he
          exact hn.1 (he ▸ List.mem_map_of_mem hr)
        rw [List.find?_cons_of_neg (by simpa using hne)]
        exact ih hn.2 hr

theorem meaning_of_mem (hn : compilation.names.Nodup) {declaration : Declaration}
    (hm : declaration ∈ compilation.declarations) (depth : Nat) :
    compilation.meaning (depth + 1) declaration.name =
      some (declaration.opened? (compilation.meaning depth)) := by
  rw [meaning, get?_of_mem hn hm, Option.map_some]

theorem meaning_of_notMem {name : String} (hn : name ∉ compilation.names) (depth : Nat) :
    compilation.meaning depth name = none := by
  have hg : compilation.get? name = none := by
    apply List.find?_eq_none.mpr
    intro declaration hm
    have hne : declaration.name ≠ name := by
      rintro rfl
      exact hn (List.mem_map_of_mem hm)
    simpa using hne
  cases depth <;> rw [meaning, hg, Option.map_none]

theorem meaning_of_alias (hn : compilation.names.Nodup) {declaration : Declaration} {ty : Ty}
    (hm : declaration ∈ compilation.declarations) (ha : declaration.aliased? = some ty)
    (depth : Nat) :
    compilation.meaning (depth + 1) declaration.name =
      some (ty.opened? (compilation.meaning depth)) := by
  rw [meaning_of_mem hn hm]
  obtain ⟨name, docs, exported, properties | ⟨params, body⟩⟩ := declaration
  · cases ha
  · cases ha
    rfl

-- A declared alias takes one step to open.
theorem opened?_alias (hn : compilation.names.Nodup) {declaration : Declaration} {ty : Ty}
    (hm : declaration ∈ compilation.declarations) (ha : declaration.aliased? = some ty)
    (depth : Nat) :
    (Ty.named declaration.name []).opened? (compilation.meaning (depth + 1)) =
      ty.opened? (compilation.meaning depth) := by
  rw [Ty.opened?, meaning_of_alias hn hm ha]
  rfl

theorem opened?_root (hn : compilation.names.Nodup) {declaration : Declaration} {ty : Ty}
    (hm : declaration ∈ compilation.declarations) (ha : declaration.aliased? = some ty)
    (hr : compilation.root = declaration.name) (depth : Nat) :
    compilation.opened? (depth + 1) = ty.opened? (compilation.meaning depth) := by
  rw [opened?, hr, meaning_of_alias hn hm ha]
  rfl

theorem opened?_undeclared {name : String} (hn : name ∉ compilation.names) {args : List Ty}
    {shapes : List Shape} {depth : Nat}
    (h : Ty.openedAll? (compilation.meaning depth) args = some shapes) :
    (Ty.named name args).opened? (compilation.meaning depth) = some (.named name shapes) := by
  rw [Ty.opened?, meaning_of_notMem hn, h, Option.map_some]

-- So does a declared record.
theorem opened?_simplified (hw : compilation.WellNamed) {declaration : Declaration}
    {properties : List Property} (hm : declaration ∈ compilation.declarations)
    (hr : declaration.kind = .record properties) {depth : Nat} {shapes : List (String × Shape)}
    (h : Property.openedAll? (compilation.meaning depth) properties = some shapes) :
    (Ty.simplified declaration.name).opened? (compilation.meaning (depth + 1)) =
      some (Shape.simplified shapes) := by
  apply opened?_undeclared hw.simplify
  simp [Ty.openedAll?, Ty.opened?, meaning_of_mem hw.nodup hm, Declaration.opened?, hr, h]

theorem opened?_emptyRecord (hw : compilation.WellNamed) (depth : Nat) :
    Synthesis.emptyRecordTy.opened? (compilation.meaning depth) = some Shape.emptyRecord :=
  opened?_undeclared hw.record rfl

end Compilation

end ContentTypes
