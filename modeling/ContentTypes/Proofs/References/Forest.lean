import Mathlib.Data.List.Basic
import Mathlib.Logic.Relation
import ContentTypes.Synthesis

namespace ContentTypes

namespace Ty

mutual

-- The bare names in a type, in order and with repeats.
def references : Ty → List String
  | .library _ args => referencesOfAll args
  | .named name args => name :: referencesOfAll args
  | .union members => referencesOfAll members
  | .literal _ | .string | .null | .never | .unknown => []

def referencesOfAll : List Ty → List String
  | [] => []
  | ty :: rest => references ty ++ referencesOfAll rest

end

theorem referencesOfAll_eq (tys : List Ty) : referencesOfAll tys = tys.flatMap references := by
  induction tys with
  | nil => rfl
  | cons ty rest ih => rw [referencesOfAll, ih, List.flatMap_cons]

@[simp] theorem references_library (name : String) (args : List Ty) :
    (library name args).references = args.flatMap references :=
  referencesOfAll_eq args

@[simp] theorem references_named (name : String) (args : List Ty) :
    (named name args).references = name :: args.flatMap references :=
  congrArg (name :: ·) (referencesOfAll_eq args)

@[simp] theorem references_union (members : List Ty) :
    (union members).references = members.flatMap references :=
  referencesOfAll_eq members

@[simp] theorem references_literal (text : String) : (literal text).references = [] := rfl

@[simp] theorem references_string : string.references = [] := rfl

@[simp] theorem references_null : null.references = [] := rfl

@[simp] theorem references_unknown : unknown.references = [] := rfl

@[simp] theorem references_never : never.references = [] := rfl

@[simp] theorem references_simplified (name : String) :
    (simplified name).references = ["Simplify", name] := by
  simp [simplified]

@[simp] theorem references_unionOrNever (members : List Ty) :
    (unionOrNever members).references = members.flatMap references := by
  cases members with
  | nil => simp [unionOrNever]
  | cons first rest => exact references_union (first :: rest)

@[simp] theorem references_literalUnion (texts : List String) :
    (literalUnion texts).references = [] := by
  simp [literalUnion]

end Ty

-- The names that a bound and a default mention.
def TypeParam.references (param : TypeParam) : List String :=
  (param.bound.toList ++ param.default.toList).flatMap Ty.references

namespace Declaration

-- All that a declaration mentions, its parameters included.
def references (declaration : Declaration) : List String :=
  match declaration.kind with
  | .record properties => properties.flatMap (·.ty.references)
  | .alias params ty => params.flatMap TypeParam.references ++ ty.references

def params (declaration : Declaration) : List TypeParam :=
  match declaration.kind with
  | .record _ => []
  | .alias params _ => params

def IsRecord (declaration : Declaration) : Prop :=
  ∃ properties, declaration.kind = .record properties

def IsAlias (declaration : Declaration) : Prop :=
  ∃ params ty, declaration.kind = .alias params ty

theorem IsAlias.not_isRecord {declaration : Declaration} (h : declaration.IsAlias) :
    ¬ declaration.IsRecord := by
  rintro ⟨properties, hr⟩
  obtain ⟨params, ty, ha⟩ := h
  rw [ha] at hr
  cases hr

-- One of these declarations mentions the name of another one of them.
def Refers (declarations : List Declaration) (source target : Declaration) : Prop :=
  source ∈ declarations ∧ target ∈ declarations ∧ target.name ∈ source.references

-- The same over any number of declarations on the way.
def Reaches (declarations : List Declaration) : Declaration → Declaration → Prop :=
  Relation.ReflTransGen (Refers declarations)

theorem Reaches.mono {some all : List Declaration} (hs : some ⊆ all) {source target : Declaration}
    (h : Reaches some source target) : Reaches all source target := by
  induction h with
  | refl => exact .refl
  | tail _ hstep ih => exact ih.tail ⟨hs hstep.1, hs hstep.2.1, hstep.2.2⟩

-- Types that stand for no content of their own.
def helperNames : List String := ["Simplify", "Record"]

-- `outer` names what is declared elsewhere. All else that a record mentions comes after it, and all
-- else that an alias mentions comes before it.
def Ordered (outer : List String) (declarations : List Declaration) : Prop :=
  ∀ before declaration after, declarations = before ++ declaration :: after →
    ∀ name ∈ declaration.references, name ∉ outer →
      (declaration.IsRecord → name ∈ after.map Declaration.name) ∧
        (declaration.IsAlias → name ∈ before.map Declaration.name)

namespace Ordered

variable {outer : List String} {declarations others : List Declaration} {one : Declaration}

theorem nil (outer : List String) : Ordered outer [] := by
  intro before declaration after h
  simp at h

theorem mono {more : List String} (hs : outer ⊆ more) (h : Ordered outer declarations) :
    Ordered more declarations := by
  intro before declaration after he name hn hm
  exact h before declaration after he name hn fun ho => hm (hs ho)

-- What stands in two parts stands in the first or in the second.
theorem split_append {first second before after : List Declaration}
    (h : first ++ second = before ++ one :: after) :
    (∃ middle, first = before ++ one :: middle ∧ after = middle ++ second) ∨
      ∃ middle, before = first ++ middle ∧ second = middle ++ one :: after := by
  rcases List.append_eq_append_iff.mp h with ⟨middle, hb, hs⟩ | ⟨middle, hf, hs⟩
  · exact Or.inr ⟨middle, hb, hs⟩
  · cases middle with
    | nil => exact Or.inr ⟨[], by simpa using hf.symm, hs.symm⟩
    | cons other middle =>
        obtain ⟨rfl, rfl⟩ := List.cons.inj hs
        exact Or.inl ⟨middle, hf, rfl⟩

theorem append (hfirst : Ordered outer declarations) (hsecond : Ordered outer others) :
    Ordered outer (declarations ++ others) := by
  intro before declaration after he name hn ho
  rcases split_append he with ⟨middle, hf, rfl⟩ | ⟨middle, rfl, hs⟩
  · obtain ⟨hrecord, halias⟩ := hfirst before declaration middle hf name hn ho
    refine ⟨fun hr => ?_, halias⟩
    rw [List.map_append]
    exact List.mem_append_left _ (hrecord hr)
  · obtain ⟨hrecord, halias⟩ := hsecond middle declaration after hs name hn ho
    refine ⟨hrecord, fun ha => ?_⟩
    rw [List.map_append]
    exact List.mem_append_right _ (halias ha)

-- A record in front of all that it mentions.
theorem cons_record (h : Ordered outer declarations) (hr : one.IsRecord)
    (hn : ∀ name ∈ one.references, name ∉ outer → name ∈ declarations.map Declaration.name) :
    Ordered outer (one :: declarations) := by
  intro before declaration after he name hm ho
  cases before with
  | nil =>
      cases he
      exact ⟨fun _ => hn name hm ho, fun halias => absurd hr halias.not_isRecord⟩
  | cons first before =>
      cases he
      obtain ⟨hrecord, halias⟩ := h before declaration after rfl name hm ho
      exact ⟨hrecord, fun ha => List.mem_cons_of_mem _ (halias ha)⟩

-- An alias behind all that it mentions.
theorem concat_alias (h : Ordered outer declarations) (ha : one.IsAlias)
    (hn : ∀ name ∈ one.references, name ∉ outer → name ∈ declarations.map Declaration.name) :
    Ordered outer (declarations ++ [one]) := by
  intro before declaration after he name hm ho
  rcases split_append he with ⟨middle, hf, rfl⟩ | ⟨middle, rfl, hs⟩
  · obtain ⟨hrecord, halias⟩ := h before declaration middle hf name hm ho
    refine ⟨fun hr => ?_, halias⟩
    rw [List.map_append]
    exact List.mem_append_left _ (hrecord hr)
  · obtain ⟨rfl, rfl, rfl⟩ : middle = [] ∧ declaration = one ∧ after = [] := by
      cases middle with
      | nil => simpa [eq_comm] using hs
      | cons other middle => simp at hs
    refine ⟨fun hrecord => absurd hrecord ha.not_isRecord, fun _ => ?_⟩
    simpa using hn name hm ho

end Ordered

-- `heads` are the references from outside and `shared` the names of the shared slices that are
-- offered, each as often as it is.
structure Forest (shared heads : List String) (declarations : List Declaration) : Prop where
  counted : ∀ name, name ∉ helperNames →
    heads.count name + (declarations.flatMap references).count name =
      (declarations.map Declaration.name).count name + shared.count name
  ordered : Ordered (helperNames ++ shared) declarations
  reached : ∀ target ∈ declarations, ∃ source ∈ declarations,
    source.name ∈ heads ∧ Reaches declarations source target
  hidden : ∀ declaration ∈ declarations, declaration.exported = false

namespace Forest

variable {shared heads more names : List String} {declarations others all : List Declaration}
variable {one : Declaration}

-- Helpers alone need no declaration.
theorem helpers (hh : ∀ name ∈ heads, name ∈ helperNames) : Forest [] heads [] where
  counted := by
    intro name hn
    have hzero : heads.count name = 0 := List.count_eq_zero.mpr fun hm => hn (hh name hm)
    simp [hzero]
  ordered := .nil _
  reached := by simp
  hidden := by simp

-- Nor does a shared slice.
theorem offer (name : String) : Forest [name] [name] [] where
  counted := by simp
  ordered := .nil _
  reached := by simp
  hidden := by simp

theorem append (hfirst : Forest shared heads declarations) (hsecond : Forest names more others) :
    Forest (shared ++ names) (heads ++ more) (declarations ++ others) where
  counted := by
    intro name hn
    have hf := hfirst.counted name hn
    have hs := hsecond.counted name hn
    simp only [List.map_append, List.flatMap_append, List.count_append]
    omega
  ordered :=
    (hfirst.ordered.mono (List.append_subset.mpr ⟨by simp, by simp⟩)).append
      (hsecond.ordered.mono (List.append_subset.mpr ⟨by simp, by simp⟩))
  reached := by
    intro target ht
    rcases List.mem_append.mp ht with ht | ht
    · obtain ⟨source, hs, hn, hpath⟩ := hfirst.reached target ht
      refine ⟨source, List.mem_append_left _ hs, List.mem_append_left _ hn, ?_⟩
      exact hpath.mono (List.subset_append_left _ _)
    · obtain ⟨source, hs, hn, hpath⟩ := hsecond.reached target ht
      refine ⟨source, List.mem_append_right _ hs, List.mem_append_right _ hn, ?_⟩
      exact hpath.mono (List.subset_append_right _ _)
  hidden := by
    intro declaration hd
    rcases List.mem_append.mp hd with hd | hd
    · exact hfirst.hidden declaration hd
    · exact hsecond.hidden declaration hd

-- The record of a field set is seen through a helper.
theorem simplified {name : String} (h : Forest shared [name] declarations) :
    Forest shared (Ty.simplified name).references declarations := by
  have hs : Forest [] ["Simplify"] [] := helpers (by simp [helperNames])
  simpa using hs.append h

-- A reference that meets no declaration goes to a helper or to a shared slice.
theorem mem_names (h : Forest shared heads declarations) {name : String}
    (hn : name ∈ heads ++ declarations.flatMap references) (hh : name ∉ helperNames)
    (hs : name ∉ shared) : name ∈ declarations.map Declaration.name := by
  have hc := h.counted name hh
  have hpos : 0 < (heads ++ declarations.flatMap references).count name := List.count_pos_iff.mpr hn
  have hzero : shared.count name = 0 := List.count_eq_zero.mpr hs
  rw [List.count_append] at hpos
  apply List.count_pos_iff.mp
  omega

-- With one more declaration that mentions the heads, all mentions are accounted for.
theorem mention_cases (h : Forest shared heads declarations) {extra : List String}
    (hone : one.references = heads ++ extra) {declaration : Declaration}
    (hd : declaration ∈ declarations ++ [one]) {name : String}
    (hn : name ∈ declaration.references) :
    name ∈ declarations.map Declaration.name ∨ name ∈ helperNames ∨ name ∈ shared ∨
      declaration = one ∧ name ∈ extra := by
  have hcases : name ∈ heads ++ declarations.flatMap references ∨
      declaration = one ∧ name ∈ extra := by
    rcases List.mem_append.mp hd with hd | hd
    · exact Or.inl (List.mem_append_right _ (List.mem_flatMap.mpr ⟨declaration, hd, hn⟩))
    · obtain rfl := List.mem_singleton.mp hd
      rw [hone] at hn
      rcases List.mem_append.mp hn with hn | hn
      · exact Or.inl (List.mem_append_left _ hn)
      · exact Or.inr ⟨rfl, hn⟩
  rcases hcases with hm | hextra
  · by_cases hh : name ∈ helperNames
    · exact Or.inr (Or.inl hh)
    · by_cases hs : name ∈ shared
      · exact Or.inr (Or.inr (Or.inl hs))
      · exact Or.inl (h.mem_names hm hh hs)
  · exact Or.inr (Or.inr (Or.inr hextra))

-- What is below a declaration is a forest with the declaration on top, wherever it stands.
theorem grow (h : Forest shared one.references declarations) (hp : all.Perm (one :: declarations))
    (hx : one.exported = false) (ho : Ordered (helperNames ++ shared) all) :
    Forest shared [one.name] all where
  counted := by
    intro name hn
    have hc := h.counted name hn
    rw [(hp.flatMap_right references).count_eq, (hp.map Declaration.name).count_eq]
    simp only [List.flatMap_cons, List.map_cons, List.count_append, List.count_cons,
      List.count_nil]
    omega
  ordered := ho
  reached := by
    have hone : one ∈ all := hp.mem_iff.mpr List.mem_cons_self
    have hsub : declarations ⊆ all := fun _ hd => hp.mem_iff.mpr (List.mem_cons_of_mem _ hd)
    intro target ht
    refine ⟨one, hone, List.mem_singleton_self _, ?_⟩
    rcases List.mem_cons.mp (hp.mem_iff.mp ht) with rfl | ht
    · exact .refl
    · obtain ⟨source, hs, hn, hpath⟩ := h.reached target ht
      exact .head ⟨hone, hsub hs, hn⟩ (hpath.mono hsub)
  hidden := by
    intro declaration hd
    rcases List.mem_cons.mp (hp.mem_iff.mp hd) with rfl | hd
    · exact hx
    · exact h.hidden declaration hd

theorem mem_names_of_outer (h : Forest shared one.references declarations) (name : String)
    (hn : name ∈ one.references) (ho : name ∉ helperNames ++ shared) :
    name ∈ declarations.map Declaration.name := by
  rw [List.mem_append, not_or] at ho
  exact h.mem_names (List.mem_append_left _ hn) ho.1 ho.2

theorem cons_record (one : Declaration) (h : Forest shared one.references declarations)
    (hr : one.IsRecord) (hx : one.exported = false) :
    Forest shared [one.name] (one :: declarations) :=
  h.grow (List.Perm.refl _) hx (h.ordered.cons_record hr h.mem_names_of_outer)

theorem concat_alias (one : Declaration) (h : Forest shared one.references declarations)
    (ha : one.IsAlias) (hx : one.exported = false) :
    Forest shared [one.name] (declarations ++ [one]) :=
  h.grow List.perm_append_comm hx (h.ordered.concat_alias ha h.mem_names_of_outer)

end Forest

end Declaration

end ContentTypes
