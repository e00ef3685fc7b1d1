import ContentTypes.Module.Json
import ContentTypes.Proofs.RoundTrip.Records

namespace ContentTypes

open Reading

namespace Ty

theorem toJson_ne_null (ty : Ty) : ty.toJson ≠ .null := by
  cases ty <;> simp [toJson, Json.tagged, Json.record]

theorem depth_applied (variantName name : String) (args : List Ty) :
    (Json.tagged variantName (.record [("name", name), ("args", .arr (toJsons args))])).depth =
      Json.depthItems (toJsons args) + 3 := by
  simp [Json.tagged, Json.record, Json.depth, Json.depthMembers]

theorem depth_union (members : List Ty) :
    (union members).toJson.depth = Json.depthItems (toJsons members) + 2 := by
  simp [toJson, Json.tagged, Json.record, Json.depth, Json.depthMembers]

theorem Applied.independent (readTy : Reader Json Ty) : (Applied.shape readTy).Independent := by
  constructor <;> simp [Applied.shape, Reading.Shape.keys]

theorem read_applied {readTy : Reader Json Ty} {args : List Ty}
    (h : list readTy (.arr (toJsons args)) = .ok args) (name : String) :
    (Applied.shape readTy).read (.record [("name", name), ("args", .arr (toJsons args))]) =
      .ok ⟨name, args⟩ :=
  Shape.read_record (Applied.independent readTy) (.part rfl (.part h (.nil _)))

mutual

-- The induction is on the type. Each level of it takes one level of reading, so as many levels as
-- the written value is deep are enough.
theorem readLevels_toJson : (ty : Ty) → (levels : Nat) → ty.toJson.depth < levels →
    readLevels levels ty.toJson = .ok ty
  | .library name args, levels + 1, h => by
      rw [toJson, depth_applied] at h
      have hargs := list_toJsons args levels (by omega)
      have hread := read_applied hargs name
      exact congrArg (Except.map fun t : Applied => library t.name t.args) hread
  | .named name args, levels + 1, h => by
      rw [toJson, depth_applied] at h
      have hargs := list_toJsons args levels (by omega)
      have hread := read_applied hargs name
      exact congrArg (Except.map fun t : Applied => named t.name t.args) hread
  | .union members, levels + 1, h => by
      rw [depth_union] at h
      have hmembers := list_toJsons members levels (by omega)
      exact congrArg (Except.map union) hmembers
  | .literal _, _ + 1, _ | .string, _ + 1, _ | .null, _ + 1, _ | .never, _ + 1, _
  | .unknown, _ + 1, _ => rfl

theorem list_toJsons : (tys : List Ty) → (levels : Nat) →
    Json.depthItems (toJsons tys) < levels → list (readLevels levels) (.arr (toJsons tys)) = .ok tys
  | [], _, _ => rfl
  | ty :: rest, levels, h => by
      rw [toJsons, Json.depthItems, Nat.max_lt] at h
      have hfirst := readLevels_toJson ty levels h.1
      obtain ⟨items, hlook, hrest⟩ := list_eq_ok_iff.mp (list_toJsons rest levels h.2)
      cases hlook
      exact list_eq_ok_iff.mpr ⟨_, rfl, .cons hfirst hrest⟩

end

theorem restores : Restores ofJson toJson := fun ty =>
  readLevels_toJson ty (ty.toJson.depth + 1) (Nat.lt_succ_self _)

end Ty

theorem DocTag.restores : Restores DocTag.shape.read DocTag.toJson := fun _ =>
  Shape.read_record (by constructor <;> simp [DocTag.shape, Reading.Shape.keys])
    (.part rfl (.part rfl (.nil _)))

theorem Docs.restores : Restores Docs.ofJson Docs.toJson := fun docs =>
  Shape.read_record (by constructor <;> simp [Docs.shape, Reading.Shape.keys])
    (.part (restores_list restores_text docs.lines)
      (.part (restores_list DocTag.restores docs.tags) (.nil _)))

theorem Property.restores : Restores Property.ofJson Property.toJson := fun property =>
  Shape.read_record (by constructor <;> simp [Property.shape, Reading.Shape.keys])
    (.part rfl (.part (Ty.restores property.ty) (.part (Docs.restores property.docs) (.nil _))))

theorem TypeParam.restores_bound :
    Restores (Reading.optional Ty.ofJson) (Json.ofOption Ty.toJson) :=
  restores_optional Ty.restores Ty.toJson_ne_null

theorem TypeParam.restores : Restores TypeParam.ofJson TypeParam.toJson := fun param =>
  Shape.read_record (by constructor <;> simp [TypeParam.shape, Reading.Shape.keys])
    (.part rfl (.part (restores_bound param.bound) (.part (restores_bound param.default) (.nil _))))

namespace DeclarationKind

theorem read_aliased (params : List TypeParam) (ty : Ty) :
    Aliased.shape.read
        (.record [("params", .ofList TypeParam.toJson params), ("ty", ty.toJson)]) =
      .ok ⟨params, ty⟩ :=
  Shape.read_record (by constructor <;> simp [Aliased.shape, Reading.Shape.keys])
    (.part (restores_list TypeParam.restores params) (.part (Ty.restores ty) (.nil _)))

theorem restores : Restores ofJson toJson
  | .record properties =>
      congrArg (Except.map record) (restores_list Property.restores properties)
  | .alias params ty =>
      have hread := read_aliased params ty
      congrArg (Except.map fun a : Aliased => DeclarationKind.alias a.params a.ty) hread

end DeclarationKind

theorem Declaration.restores : Restores Declaration.ofJson Declaration.toJson :=
  fun declaration =>
    Shape.read_record (by constructor <;> simp [Declaration.shape, Reading.Shape.keys])
      (.part rfl (.part (Docs.restores declaration.docs)
        (.part rfl (.part (DeclarationKind.restores declaration.kind) (.nil _)))))

theorem GenericParam.restores : Restores GenericParam.ofJson GenericParam.toJson := fun param =>
  have hbound := restores_optional restores_text fun _ => by simp
  Shape.read_record (by constructor <;> simp [GenericParam.shape, Reading.Shape.keys])
    (.part rfl (.part (hbound param.bound) (.part (hbound param.default) (.nil _))))

theorem RecordField.restores : Restores RecordField.shape.read RecordField.toJson := fun field =>
  Shape.read_record (by constructor <;> simp [RecordField.shape, Reading.Shape.keys])
    (.part rfl (.part rfl (.part (Docs.restores field.docs) (.nil _))))

theorem RecordItem.restores : Restores RecordItem.shape.read RecordItem.toJson := fun item =>
  Shape.read_record (by constructor <;> simp [RecordItem.shape, Reading.Shape.keys])
    (.part rfl (.part (Docs.restores item.docs)
      (.part rfl (.part (restores_list RecordField.restores item.fields) (.nil _)))))

theorem AliasItem.restores : Restores AliasItem.shape.read AliasItem.toJson := fun item =>
  Shape.read_record (by constructor <;> simp [AliasItem.shape, Reading.Shape.keys])
    (.part rfl (.part (Docs.restores item.docs)
      (.part rfl (.part (restores_list GenericParam.restores item.params) (.part rfl (.nil _))))))

theorem Item.restores : Restores Item.ofJson Item.toJson
  | .record item => congrArg (Except.map Item.record) (RecordItem.restores item)
  | .alias item => congrArg (Except.map Item.alias) (AliasItem.restores item)

theorem Module.restores : Restores Module.ofJson Module.toJson := fun m =>
  Shape.read_record (by constructor <;> simp [Module.shape, Reading.Shape.keys])
    (.part (restores_list Item.restores m.items) (.nil _))

namespace TypeParam

theorem constraint_toJson (param : TypeParam) :
    param.toJson.get? "constraint" = some (.ofOption Ty.toJson param.bound) := by
  simp [toJson, Json.record, Json.get?, OrderedMap.get?, lookup_cons_eq]

theorem default_toJson (param : TypeParam) :
    param.toJson.get? "default" = some (.ofOption Ty.toJson param.default) := by
  simp [toJson, Json.record, Json.get?, OrderedMap.get?, lookup_cons_eq]

-- Null is written where there is no bound and nowhere else, the name where the bound is null.
theorem bound_written (bound : Option Ty) :
    (Json.ofOption Ty.toJson bound = .null ↔ bound = none) ∧
      (Json.ofOption Ty.toJson bound = .str "Null" ↔ bound = some .null) :=
  ⟨restores_bound.injective.eq_iff (b := none), restores_bound.injective.eq_iff (b := some .null)⟩

end TypeParam

-- Reading undoes writing, however deep types are nested, and the two bounds that look like null are
-- told apart in what is written.
theorem read_what_was_written :
    (∀ ty : Ty, Ty.ofJson ty.toJson = .ok ty) ∧
    (∀ docs : Docs, Docs.ofJson docs.toJson = .ok docs) ∧
    (∀ property : Property, Property.ofJson property.toJson = .ok property) ∧
    (∀ declaration : Declaration, Declaration.ofJson declaration.toJson = .ok declaration) ∧
    (∀ m : Module, Module.ofJson m.toJson = .ok m) ∧
    ∀ param : TypeParam, TypeParam.ofJson param.toJson = .ok param ∧
      (param.toJson.get? "constraint" = some .null ↔ param.bound = none) ∧
      (param.toJson.get? "constraint" = some (.str "Null") ↔ param.bound = some .null) ∧
      (param.toJson.get? "default" = some .null ↔ param.default = none) ∧
      (param.toJson.get? "default" = some (.str "Null") ↔ param.default = some .null) := by
  refine ⟨Ty.restores, Docs.restores, Property.restores, Declaration.restores, Module.restores, ?_⟩
  intro param
  obtain ⟨hnone, hnull⟩ := TypeParam.bound_written param.bound
  obtain ⟨hnone', hnull'⟩ := TypeParam.bound_written param.default
  rw [TypeParam.constraint_toJson, TypeParam.default_toJson]
  simp only [Option.some.injEq]
  exact ⟨TypeParam.restores param, hnone, hnull, hnone', hnull'⟩

end ContentTypes
