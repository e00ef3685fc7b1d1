import Mathlib.Data.List.Basic
import ContentTypes.Declaration

namespace ContentTypes.Ty

-- A proof for all types goes by the parts that a type is made of.
@[elab_as_elim]
theorem induction {motive : Ty → Prop}
    (library : ∀ name args, (∀ arg ∈ args, motive arg) → motive (.library name args))
    (named : ∀ name args, (∀ arg ∈ args, motive arg) → motive (.named name args))
    (literal : ∀ text, motive (.literal text))
    (union : ∀ members, (∀ member ∈ members, motive member) → motive (.union members))
    (string : motive .string) (null : motive .null) (never : motive .never)
    (unknown : motive .unknown) (ty : Ty) : motive ty :=
  @Ty.rec motive (fun tys => ∀ ty ∈ tys, motive ty) library named literal union string null never
    unknown (fun _ hm => absurd hm List.not_mem_nil)
    (fun _ _ hty hrest => List.forall_mem_cons.mpr ⟨hty, hrest⟩) ty

mutual

-- Every union without members becomes `never`.
def filled : Ty → Ty
  | .library name args => .library name (filledAll args)
  | .named name args => .named name (filledAll args)
  | .union [] => .never
  | .union members => .union (filledAll members)
  | .literal text => .literal text
  | .string => .string
  | .null => .null
  | .never => .never
  | .unknown => .unknown

def filledAll : List Ty → List Ty
  | [] => []
  | ty :: rest => filled ty :: filledAll rest

end

-- What a type brings to a union that it stands in.
def alternatives : Ty → List Ty
  | .union members => members
  | ty => [ty]

-- A union of one member is that member.
def ofAlternatives : List Ty → Ty
  | [ty] => ty
  | members => .union members

mutual

-- The members of a union in a union become members of the outer one.
def spliced : Ty → Ty
  | .library name args => .library name (splicedAll args)
  | .named name args => .named name (splicedAll args)
  | .union members => ofAlternatives ((splicedAll members).flatMap alternatives)
  | .literal text => .literal text
  | .string => .string
  | .null => .null
  | .never => .never
  | .unknown => .unknown

def splicedAll : List Ty → List Ty
  | [] => []
  | ty :: rest => spliced ty :: splicedAll rest

end

theorem renderAll_eq (spaceName : String) (tys : List Ty) :
    renderAll spaceName tys = tys.map (render spaceName) := by
  induction tys with
  | nil => rfl
  | cons ty rest ih => rw [renderAll, ih, List.map_cons]

theorem filledAll_eq (tys : List Ty) : filledAll tys = tys.map filled := by
  induction tys with
  | nil => rfl
  | cons ty rest ih => rw [filledAll, ih, List.map_cons]

theorem splicedAll_eq (tys : List Ty) : splicedAll tys = tys.map spliced := by
  induction tys with
  | nil => rfl
  | cons ty rest ih => rw [splicedAll, ih, List.map_cons]

@[simp] theorem render_library (spaceName name : String) (args : List Ty) :
    (library name args).render spaceName =
      applied (qualified spaceName name) (args.map (render spaceName)) := by
  rw [render, renderAll_eq]

@[simp] theorem render_named (spaceName name : String) (args : List Ty) :
    (named name args).render spaceName = applied name (args.map (render spaceName)) := by
  rw [render, renderAll_eq]

theorem toList_render_literal (spaceName text : String) :
    ((literal text).render spaceName).toList = Json.quoteChars text.toList := by
  rw [render, Json.quote, String.toList_ofList]

theorem render_union (spaceName : String) {members : List Ty} (hm : members ≠ []) :
    (union members).render spaceName = " | ".intercalate (members.map (render spaceName)) := by
  rw [render, renderAll_eq]
  exact hm

-- The normal form of a type.
def normal (ty : Ty) : Ty := ty.filled.spliced

@[simp] theorem normal_library (name : String) (args : List Ty) :
    (library name args).normal = library name (args.map normal) := by
  rw [normal, filled, spliced, filledAll_eq, splicedAll_eq, List.map_map]
  rfl

@[simp] theorem normal_named (name : String) (args : List Ty) :
    (named name args).normal = named name (args.map normal) := by
  rw [normal, filled, spliced, filledAll_eq, splicedAll_eq, List.map_map]
  rfl

theorem normal_union {members : List Ty} (hm : members ≠ []) :
    (union members).normal = ofAlternatives ((members.map normal).flatMap alternatives) := by
  rw [normal, filled, spliced, filledAll_eq, splicedAll_eq, List.map_map]
  · rfl
  · exact hm

def IsUnion (ty : Ty) : Prop := ∃ members, ty = union members

-- Each union has at least two members, and none of them is a union.
inductive IsNormal : Ty → Prop
  | library {name : String} {args : List Ty} (hargs : ∀ arg ∈ args, IsNormal arg) :
      IsNormal (library name args)
  | named {name : String} {args : List Ty} (hargs : ∀ arg ∈ args, IsNormal arg) :
      IsNormal (named name args)
  | union {members : List Ty} (htwo : 2 ≤ members.length)
      (hflat : ∀ member ∈ members, ¬member.IsUnion)
      (hmembers : ∀ member ∈ members, IsNormal member) : IsNormal (union members)
  | literal (text : String) : IsNormal (literal text)
  | string : IsNormal .string
  | null : IsNormal .null
  | never : IsNormal .never
  | unknown : IsNormal .unknown

theorem alternatives_of_not_isUnion {ty : Ty} (h : ¬ty.IsUnion) : ty.alternatives = [ty] := by
  cases ty with
  | union members => exact absurd ⟨members, rfl⟩ h
  | _ => rfl

namespace IsNormal

variable {ty : Ty}

theorem alternatives_ne_nil (h : ty.IsNormal) : ty.alternatives ≠ [] := by
  cases h with
  | @union members htwo =>
      have hpos : 0 < members.length := by omega
      exact List.ne_nil_of_length_pos hpos
  | _ => exact List.cons_ne_nil _ _

theorem of_mem_alternatives (h : ty.IsNormal) {member : Ty} (hm : member ∈ ty.alternatives) :
    member.IsNormal ∧ ¬member.IsUnion := by
  cases h with
  | union _ hflat hmembers => exact ⟨hmembers member hm, hflat member hm⟩
  | _ =>
      obtain rfl := List.mem_singleton.mp hm
      exact ⟨by constructor <;> assumption, fun ⟨_, h⟩ => by cases h⟩

theorem ofAlternatives_alternatives (h : ty.IsNormal) : ofAlternatives ty.alternatives = ty := by
  cases h with
  | @union members htwo =>
      match members, htwo with
      | _ :: _ :: _, _ => rfl
  | _ => rfl

end IsNormal

theorem isNormal_ofAlternatives {members : List Ty} (hne : members ≠ [])
    (hm : ∀ member ∈ members, member.IsNormal ∧ ¬member.IsUnion) :
    (ofAlternatives members).IsNormal := by
  match members, hne with
  | [ty], _ => exact (hm ty (List.mem_singleton_self ty)).1
  | _ :: _ :: _, _ =>
      exact .union (by simp) (fun member h => (hm member h).2) fun member h => (hm member h).1

theorem flatMap_alternatives_ne_nil {members : List Ty} (hne : members ≠ [])
    (hm : ∀ member ∈ members, member.IsNormal) : members.flatMap alternatives ≠ [] := by
  obtain ⟨member, hmember⟩ := List.exists_mem_of_ne_nil members hne
  intro h
  exact (hm member hmember).alternatives_ne_nil (List.flatMap_eq_nil_iff.mp h member hmember)

theorem isNormal_normal (ty : Ty) : ty.normal.IsNormal := by
  induction ty using induction with
  | library name args ih =>
      rw [normal_library]
      exact .library (List.forall_mem_map.mpr ih)
  | named name args ih =>
      rw [normal_named]
      exact .named (List.forall_mem_map.mpr ih)
  | union members ih =>
      by_cases hm : members = []
      · rw [hm]
        exact .never
      · have hall : ∀ member ∈ members.map normal, member.IsNormal := List.forall_mem_map.mpr ih
        rw [normal_union hm]
        apply isNormal_ofAlternatives (flatMap_alternatives_ne_nil (by simpa using hm) hall)
        intro alternative ha
        obtain ⟨member, hmember, ha⟩ := List.mem_flatMap.mp ha
        exact (hall member hmember).of_mem_alternatives ha
  | literal text => exact .literal text
  | string => exact .string
  | null => exact .null
  | never => exact .never
  | unknown => exact .unknown

theorem render_ofAlternatives (spaceName : String) {members : List Ty} (hm : members ≠ []) :
    (ofAlternatives members).render spaceName =
      " | ".intercalate (members.map (render spaceName)) := by
  match members, hm with
  | [ty], _ => simp [ofAlternatives]
  | _ :: _ :: _, _ => exact render_union spaceName (List.cons_ne_nil _ _)

theorem render_alternatives (spaceName : String) {ty : Ty} (h : ty.IsNormal) :
    " | ".intercalate (ty.alternatives.map (render spaceName)) = ty.render spaceName := by
  rw [← render_ofAlternatives spaceName h.alternatives_ne_nil, h.ofAlternatives_alternatives]

-- What stands between all pieces stands between the pieces of each part, and between the parts.
theorem intercalate_flatMap {α : Type} (between : String) {pieces : α → List String} {xs : List α}
    (hp : ∀ x ∈ xs, pieces x ≠ []) :
    between.intercalate (xs.flatMap pieces) =
      between.intercalate (xs.map fun x => between.intercalate (pieces x)) := by
  induction xs with
  | nil => rfl
  | cons x rest ih =>
      obtain ⟨hx, hrest⟩ := List.forall_mem_cons.mp hp
      cases rest with
      | nil => simp
      | cons next rest =>
          have hne : (next :: rest).flatMap pieces ≠ [] := by
            rw [List.flatMap_cons]
            exact List.append_ne_nil_of_left_ne_nil (hrest next List.mem_cons_self) _
          rw [List.flatMap_cons, String.intercalate_append_of_ne_nil hx hne, ih hrest,
            List.map_cons, List.map_cons, List.map_cons, String.intercalate_cons_cons]

-- The text of a type is that of its normal form.
theorem render_normal (spaceName : String) (ty : Ty) :
    ty.normal.render spaceName = ty.render spaceName := by
  induction ty using induction with
  | library name args ih =>
      rw [normal_library, render_library, render_library, List.map_map]
      exact congrArg (applied _) (List.map_congr_left ih)
  | named name args ih =>
      rw [normal_named, render_named, render_named, List.map_map]
      exact congrArg (applied _) (List.map_congr_left ih)
  | union members ih =>
      by_cases hm : members = []
      · rw [hm]
        rfl
      · have hall : ∀ member ∈ members.map normal, member.IsNormal :=
          List.forall_mem_map.mpr fun member _ => isNormal_normal member
        have hne := flatMap_alternatives_ne_nil (by simpa using hm) hall
        have heach : ∀ member ∈ members,
            " | ".intercalate (member.normal.alternatives.map (render spaceName)) =
              member.render spaceName := fun member hmember =>
          (render_alternatives spaceName (isNormal_normal member)).trans (ih member hmember)
        rw [normal_union hm, render_ofAlternatives spaceName hne, render_union spaceName hm,
          List.map_flatMap, intercalate_flatMap, List.map_map]
        · exact congrArg _ (List.map_congr_left heach)
        · intro member hmember
          simpa using (hall member hmember).alternatives_ne_nil
  | _ => rfl

end ContentTypes.Ty
