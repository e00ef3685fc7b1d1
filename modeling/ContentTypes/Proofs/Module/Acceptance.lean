import ContentTypes.Module

namespace ContentTypes

def RecordField.ofProperty (spaceName : String) (property : Property) : RecordField :=
  ⟨property.name, property.ty.render spaceName, property.docs⟩

namespace Item

-- A declaration as a module holds it, with its types rendered. It is not exported yet.
def ofDeclaration (spaceName : String) (declaration : Declaration) : Item :=
  match declaration.kind with
  | .record properties =>
      .record ⟨declaration.name, declaration.docs, false, properties.map (.ofProperty spaceName)⟩
  | .alias params ty =>
      .alias ⟨declaration.name, declaration.docs, false, params.map (·.render spaceName),
        ty.render spaceName⟩

@[simp] theorem name_ofDeclaration (spaceName : String) (declaration : Declaration) :
    (ofDeclaration spaceName declaration).name = declaration.name := by
  unfold ofDeclaration
  split <;> rfl

@[simp] theorem name_asExported (item : Item) : item.asExported.name = item.name := by
  cases item <;> rfl

@[simp] theorem asExported_asExported (item : Item) :
    item.asExported.asExported = item.asExported := by
  cases item <;> rfl

end Item

namespace Module

variable {α : Type} {m : Module}

theorem get?_eq_none_iff {name : String} : m.get? name = none ↔ name ∉ m.names := by
  simp [get?, names]

theorem isSome_get?_iff {name : String} : (m.get? name).isSome ↔ name ∈ m.names := by
  simp [get?, names]

@[simp] theorem names_push (item : Item) : (m.push item).names = m.names ++ [item.name] := by
  simp [push, names]

theorem get?_push (item : Item) (hn : item.name ∉ m.names) :
    (m.push item).get? item.name = some item := by
  have hnone : m.items.find? (·.name == item.name) = none := get?_eq_none_iff.mpr hn
  simp [get?, push, List.find?_append, hnone]

theorem record?_push {item : RecordItem} (hn : item.name ∉ m.names) :
    (m.push (.record item)).record? item.name = some item := by
  have hg : (m.push (.record item)).get? item.name = some (.record item) :=
    get?_push (.record item) hn
  rw [record?, hg]

theorem update_push (item : Item) (hn : item.name ∉ m.names) (change : Item → Item) :
    (m.push item).update item.name change = m.push (change item) := by
  obtain ⟨items⟩ := m
  simp only [update, push, Module.mk.injEq]
  induction items with
  | nil => simp [update.updateFirst]
  | cons first rest ih =>
      simp only [names, List.map_cons, List.mem_cons, not_or] at hn
      rw [List.cons_append, update.updateFirst, if_neg (Ne.symm hn.1), ih hn.2, List.cons_append]

-- Only the first item of a name is changed, so it must be the only one.
theorem update_eq_map (hm : m.names.Nodup) (name : String) (change : Item → Item) :
    m.update name change =
      ⟨m.items.map fun item => if item.name = name then change item else item⟩ := by
  obtain ⟨items⟩ := m
  rw [update, Module.mk.injEq]
  induction items with
  | nil => rfl
  | cons first rest ih =>
      simp only [names, List.map_cons, List.nodup_cons] at hm
      by_cases he : first.name = name
      · have hrest : rest.map (fun item => if item.name = name then change item else item) =
            rest.map id := by
          apply List.map_congr_left
          intro item hi
          have hne : item.name ≠ name := by
            intro hname
            exact hm.1 (he.trans hname.symm ▸ List.mem_map_of_mem hi)
          simp [hne]
        simp only [update.updateFirst, List.map_cons, hrest, List.map_id, if_pos he]
      · simp only [update.updateFirst, List.map_cons, if_neg he, ih hm.2]

-- The result of the work and the module after it, without what was reported.
def run (work : StateT Module Logged α) (m : Module) : α × Module := (work m).value

theorem run_createRecord (name : String) (docs : Docs) :
    run (createRecord name docs) m =
      if name ∈ m.names then (⟨name, true⟩, m)
      else (.ofName name, m.push (.record ⟨name, docs, false, []⟩)) := by
  unfold run createRecord
  simp only [isSome_get?_iff]
  split <;> rfl

theorem run_createAlias (name ty : String) (docs : Docs) (params : List GenericParam) :
    run (createAlias name ty docs params) m =
      (⟨name⟩, if name ∈ m.names then m else m.push (.alias ⟨name, docs, false, params, ty⟩)) := by
  unfold run createAlias
  simp only [isSome_get?_iff]
  split <;> rfl

theorem run_addField (item : RecordItem) (hn : item.name ∉ m.names) (name ty : String)
    (docs : Docs) :
    (run (addField (.ofName item.name) name ty docs) (m.push (.record item))).2 =
      m.push (.record { item with fields := item.fields ++ [⟨name, ty, docs⟩] }) := by
  have hr := record?_push hn
  have hu := update_push (.record item) hn (·.addField ⟨name, ty, docs⟩)
  simp only [run, addField, RecordHandle.ofName, hr, Option.isSome_some]
  exact hu

-- The properties of a record that was just created all go to that record.
theorem run_addFields (spaceName : String) (properties : List Property) (item : RecordItem)
    (hn : item.name ∉ m.names) :
    (run (emitter.addFields spaceName (.ofName item.name) properties) (m.push (.record item))).2 =
      m.push (.record
        { item with fields := item.fields ++ properties.map (.ofProperty spaceName) }) := by
  induction properties generalizing item with
  | nil =>
      rw [List.map_nil, List.append_nil]
      rfl
  | cons property rest ih =>
      have hfirst := run_addField item hn property.name (property.ty.render spaceName) property.docs
      have hrest := ih { item with fields := item.fields ++ [.ofProperty spaceName property] } hn
      calc
        _ = (run (emitter.addFields spaceName (.ofName item.name) rest)
              (run (addField (.ofName item.name) property.name (property.ty.render spaceName)
                property.docs) (m.push (.record item))).2).2 := rfl
        _ = _ := by
          rw [hfirst]
          simpa [RecordField.ofProperty] using hrest

theorem run_addFields_detached (spaceName name : String) (properties : List Property) :
    (run (emitter.addFields spaceName ⟨name, true⟩ properties) m).2 = m := by
  induction properties with
  | nil => rfl
  | cons property rest ih => exact ih

-- The first declaration of a name is kept.
def keep (m : Module) (spaceName : String) (declaration : Declaration) : Module :=
  if declaration.name ∈ m.names then m else m.push (.ofDeclaration spaceName declaration)

-- Export is by name, so a declaration that was dropped exports the one that was kept.
def accept (m : Module) (spaceName : String) (declaration : Declaration) : Module :=
  if declaration.exported then
    (m.keep spaceName declaration).update declaration.name Item.asExported
  else m.keep spaceName declaration

theorem run_emitKind (spaceName : String) (declaration : Declaration) :
    (run (emitter.emitKind spaceName declaration) m).2 = m.keep spaceName declaration := by
  obtain ⟨name, docs, exported, properties | ⟨params, ty⟩⟩ := declaration
  · have hstart :
        (run (emitter.emitKind spaceName ⟨name, docs, exported, .record properties⟩) m).2 =
        (run (emitter.addFields spaceName (run (createRecord name docs) m).1 properties)
          (run (createRecord name docs) m).2).2 := rfl
    rw [hstart, run_createRecord, keep]
    by_cases hn : name ∈ m.names
    · simp only [hn, if_true]
      exact run_addFields_detached spaceName name properties
    · simp only [hn, if_false]
      have hfields := run_addFields spaceName properties ⟨name, docs, false, []⟩ hn
      simpa [Item.ofDeclaration] using hfields
  · have hstart :
        (run (emitter.emitKind spaceName ⟨name, docs, exported, .alias params ty⟩) m).2 =
        (run (createAlias name (ty.render spaceName) docs (params.map (·.render spaceName))) m).2 :=
      rfl
    rw [hstart, run_createAlias]
    rfl

theorem run_emitDeclaration (spaceName : String) (declaration : Declaration) :
    (run (emitter.emitDeclaration spaceName declaration) m).2 = m.accept spaceName declaration := by
  have hkind := run_emitKind (m := m) spaceName declaration
  unfold accept
  rw [← hkind]
  obtain ⟨name, docs, exported, kind⟩ := declaration
  cases exported with
  | true => rfl
  | false => rfl

end Module

end ContentTypes
