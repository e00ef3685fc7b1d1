import ContentTypes.Proofs.Module.Emission
import ContentTypes.Proofs.Reports.Unknowns

namespace ContentTypes.Module

variable {m : Module}

def size (m : Module) : Nat := m.items.length

theorem size_update (m : Module) (name : String) (change : Item → Item) :
    (m.update name change).size = m.size := by
  obtain ⟨items⟩ := m
  rw [update, size, size]
  induction items with
  | nil => rfl
  | cons item rest ih =>
      rw [update.updateFirst]
      split
      · rfl
      · rw [List.length_cons, ih, List.length_cons]

theorem size_accept (m : Module) (spaceName : String) (declaration : Declaration) :
    (m.accept spaceName declaration).size =
      if declaration.name ∈ m.names then m.size else m.size + 1 := by
  have hkeep : (m.keep spaceName declaration).size =
      if declaration.name ∈ m.names then m.size else m.size + 1 := by
    unfold keep
    split
    · rfl
    · rw [push, size, List.length_append, List.length_singleton, size]
  unfold accept
  split
  · rw [size_update, hkeep]
  · exact hkeep

theorem events_addField (item : RecordItem) (hn : item.name ∉ m.names) (name ty : String)
    (docs : Docs) :
    (addField (.ofName item.name) name ty docs (m.push (.record item))).events = [] := by
  have hr := record?_push hn
  simp only [addField, RecordHandle.ofName, hr, Option.isSome_some]
  rfl

-- A record that was just created misses none of its fields.
theorem events_addFields (spaceName : String) (properties : List Property) (item : RecordItem)
    (hn : item.name ∉ m.names) :
    (emitter.addFields spaceName (.ofName item.name) properties
      (m.push (.record item))).events = [] := by
  induction properties generalizing item with
  | nil => rfl
  | cons property rest ih =>
      have hquiet := events_addField item hn property.name (property.ty.render spaceName)
        property.docs
      have hfirst := run_addField item hn property.name (property.ty.render spaceName) property.docs
      have hrest := ih { item with fields := item.fields ++ [.ofProperty spaceName property] } hn
      calc
        _ = (addField (.ofName item.name) property.name (property.ty.render spaceName)
                property.docs (m.push (.record item))).events ++
              (emitter.addFields spaceName (.ofName item.name) rest
                (run (addField (.ofName item.name) property.name (property.ty.render spaceName)
                  property.docs) (m.push (.record item))).2).events := rfl
        _ = [] := by
          rw [hquiet, hfirst, List.nil_append]
          exact hrest

-- What is meant for a record that was dropped is dropped with it.
theorem events_addFields_detached (spaceName name : String) (properties : List Property) :
    (emitter.addFields spaceName ⟨name, true⟩ properties m).events = [] := by
  induction properties with
  | nil => rfl
  | cons property rest ih => exact ih

theorem events_createRecord (name : String) (docs : Docs) :
    (createRecord name docs m).events = if name ∈ m.names then [.alreadyDeclared name] else [] := by
  unfold createRecord
  simp only [isSome_get?_iff]
  split <;> rfl

theorem events_createAlias (name ty : String) (docs : Docs) (params : List GenericParam) :
    (createAlias name ty docs params m).events =
      if name ∈ m.names then [.alreadyDeclared name] else [] := by
  unfold createAlias
  simp only [isSome_get?_iff]
  split <;> rfl

theorem events_emitKind (spaceName : String) (declaration : Declaration) :
    (emitter.emitKind spaceName declaration m).events =
      if declaration.name ∈ m.names then [.alreadyDeclared declaration.name] else [] := by
  obtain ⟨name, docs, exported, properties | ⟨params, ty⟩⟩ := declaration
  · have hstart :
        (emitter.emitKind spaceName ⟨name, docs, exported, .record properties⟩ m).events =
        (createRecord name docs m).events ++
          ((emitter.addFields spaceName (run (createRecord name docs) m).1 properties
            (run (createRecord name docs) m).2).events ++ []) := rfl
    rw [hstart, events_createRecord, run_createRecord]
    by_cases hn : name ∈ m.names
    · simp only [hn, if_true, events_addFields_detached, List.append_nil]
    · simp only [hn, if_false, List.append_nil, List.nil_append]
      exact events_addFields spaceName properties ⟨name, docs, false, []⟩ hn
  · have hstart :
        (emitter.emitKind spaceName ⟨name, docs, exported, .alias params ty⟩ m).events =
        (createAlias name (ty.render spaceName) docs (params.map (·.render spaceName)) m).events ++
          [] := rfl
    rw [hstart, List.append_nil, events_createAlias]

theorem events_emitDeclaration (spaceName : String) (declaration : Declaration) :
    (emitter.emitDeclaration spaceName declaration m).events =
      .emitting declaration.name ::
        if declaration.name ∈ m.names then [.alreadyDeclared declaration.name] else [] := by
  rw [← events_emitKind spaceName]
  obtain ⟨name, docs, exported, kind⟩ := declaration
  cases exported with
  | true => exact congrArg (_ :: ·) (List.append_nil _)
  | false => exact congrArg (_ :: ·) (List.append_nil _)

-- A declaration either becomes an item or is reported as dropped.
theorem accounts_emitDeclaration (spaceName : String) (declaration : Declaration) :
    Accounts size 0 1
      (emitter.emitDeclaration spaceName declaration) := by
  intro m
  have hafter : (emitter.emitDeclaration spaceName declaration m).value.2 =
      m.accept spaceName declaration := run_emitDeclaration spaceName declaration
  rw [hafter, events_emitDeclaration, size_accept]
  by_cases hn : declaration.name ∈ m.names
  · rw [if_pos hn, if_pos hn]
    exact ⟨rfl, rfl, rfl⟩
  · rw [if_neg hn, if_neg hn]
    exact ⟨rfl, rfl, rfl⟩

theorem accounts_emitAll (spaceName root : String) (handle : AliasHandle)
    (declarations : List Declaration) :
    Accounts size 0 declarations.length
      (emitter.emitAll spaceName root handle declarations) := by
  induction declarations generalizing handle with
  | nil => exact .pure _
  | cons declaration rest ih =>
      have hboth := (accounts_emitDeclaration spaceName declaration).bind fun given =>
        ih (if declaration.name = root then given.getD handle else handle)
      exact hboth.congr rfl (Nat.add_comm 1 _)

-- Compiling a model and emitting it: the account of the first and as many items as it declares.
theorem accounts_compiled (spaceName : String) {compiled : Logged Compilation} {unknown : Nat}
    (h : Accounted unknown 0 0 0 compiled.events) :
    Accounts size unknown compiled.value.declarations.length (do
      let compilation ← StateT.lift compiled
      emitter.emit compilation spaceName) :=
  .lift_bind h (fun compilation => emitter.emit compilation spaceName)
    (accounts_emitAll spaceName compiled.value.root ⟨compiled.value.root⟩
      compiled.value.declarations)

theorem accounts_compileAll (settings : Settings) (customTypes : List CustomType)
    (sharedSlices : List SharedSlice) :
    Accounts size
      ((customTypes.map CustomType.unknowns).sum + (sharedSlices.map SharedSlice.unknowns).sum)
      (((Compilation.ofModels customTypes sharedSlices).map (·.declarations.length)).sum)
      (emitter.compileAll settings customTypes sharedSlices) := by
  have htype : ∀ model, Accounts size model.unknowns
      (Compilation.ofCustomType model).value.declarations.length
      (do let _ ← emitter.compileCustomType settings model) := fun model =>
    (accounts_compiled _ (Compilation.accounted_ofCustomType model)).bind fun _ => .pure _
  have hslice : ∀ model, Accounts size model.unknowns
      (Compilation.ofSharedSlice model).value.declarations.length
      (do let _ ← emitter.compileSharedSlice settings model) := fun model =>
    (accounts_compiled _ (Compilation.accounted_ofSharedSlice model)).bind fun _ => .pure _
  have hall := (Accounts.forM htype customTypes).bind fun _ => Accounts.forM hslice sharedSlices
  refine hall.congr rfl ?_
  rw [Compilation.ofModels, List.map_append, List.sum_append, List.map_map, List.map_map]
  rfl

-- Whatever names meet, nothing is lost without a report, and nothing is reported that is not lost.
theorem declared_or_reported (settings : Settings) (customTypes : List CustomType)
    (sharedSlices : List SharedSlice) :
    let built := ofModels settings customTypes sharedSlices
    ((Compilation.ofModels customTypes sharedSlices).map (·.declarations.length)).sum =
        built.value.items.length +
          Event.warnings "declaration already exists, keeping the first" built.events ∧
      Event.warnings "no such record" built.events = 0 ∧
      Event.warnings "unrecognized field kind, typing as unknown" built.events +
          Event.warnings "unrecognized slice choice kind, leaving it out of the zone"
            built.events =
        (customTypes.map CustomType.unknowns).sum +
          (sharedSlices.map SharedSlice.unknowns).sum := by
  have hevents : (ofModels settings customTypes sharedSlices).events =
      (emitter.compileAll settings customTypes sharedSlices .empty).events :=
    List.append_nil _
  have hvalue : (ofModels settings customTypes sharedSlices).value =
      (emitter.compileAll settings customTypes sharedSlices .empty).value.2 := rfl
  obtain ⟨hdeclared, hunknown, hrecorded⟩ :=
    accounts_compileAll settings customTypes sharedSlices .empty
  have hempty : size .empty = 0 := rfl
  rw [hempty, Nat.zero_add] at hdeclared
  intro built
  rw [show built = ofModels settings customTypes sharedSlices from rfl, hevents, hvalue]
  exact ⟨hdeclared, hrecorded, hunknown⟩

-- Two types of one id, each with a field that is not known: the second is dropped as a whole.
example :
    let model : CustomType :=
      ⟨"page", none, true, none, ⟨[("Main", ⟨[("x", .unknown "New" .none)]⟩)]⟩⟩
    let built := ofModels .default [model, model] []
    built.value.names = ["PageDocumentData", "PageDocument"] ∧
      built.events.filter (·.level = .warn) =
        [.unknownField "x" "New", .unknownField "x" "New", .alreadyDeclared "PageDocumentData",
          .alreadyDeclared "PageDocument"] := by
  decide +kernel

end ContentTypes.Module
