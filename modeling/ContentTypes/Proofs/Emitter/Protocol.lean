import ContentTypes.Proofs.Compilation.Names
import ContentTypes.Proofs.Emitter.Recording
import ContentTypes.Proofs.OrderedMap.Entries
import ContentTypes.Proofs.References.Compilation

namespace ContentTypes

namespace Emitter

def exportExchanges (declaration : Declaration) : List Exchange :=
  if declaration.exported then [.markExported declaration.name] else []

def fieldExchange (spaceName : String) (handle : RecordHandle) (property : Property) : Exchange :=
  .addField handle property.name (property.ty.render spaceName) property.docs

-- The exchanges over one declaration, for the handle that the emitter gives.
inductive HandsOver (spaceName : String) : Declaration → List Exchange → Prop
  | ofRecord (name : String) (docs : Docs) (exported : Bool) (properties : List Property)
      (handle : RecordHandle) :
      HandsOver spaceName ⟨name, docs, exported, .record properties⟩
        (.createRecord name docs handle :: properties.map (fieldExchange spaceName handle) ++
          exportExchanges ⟨name, docs, exported, .record properties⟩)
  | ofAlias (name : String) (docs : Docs) (exported : Bool) (params : List TypeParam) (ty : Ty)
      (handle : AliasHandle) :
      HandsOver spaceName ⟨name, docs, exported, .alias params ty⟩
        (.createAlias name (ty.render spaceName) docs (params.map (·.render spaceName)) handle ::
          exportExchanges ⟨name, docs, exported, .alias params ty⟩)

-- In the order of the declarations, with nothing in between.
inductive HandsOverAll (spaceName : String) : List Declaration → List Exchange → Prop
  | nil : HandsOverAll spaceName [] []
  | cons {declaration : Declaration} {rest : List Declaration} {first others : List Exchange}
      (hfirst : HandsOver spaceName declaration first)
      (hothers : HandsOverAll spaceName rest others) :
      HandsOverAll spaceName (declaration :: rest) (first ++ others)

-- The handles that came back for aliases, each with the name of its alias.
def aliasHandles (exchanges : List Exchange) : List (String × AliasHandle) :=
  exchanges.filterMap fun
    | .createAlias name _ _ _ given => some (name, given)
    | _ => none

def lastAlias? (name : String) (exchanges : List Exchange) : Option AliasHandle :=
  (aliasHandles exchanges).reverse.lookup name

def exportedNames (exchanges : List Exchange) : List String :=
  exchanges.filterMap fun
    | .markExported name => some name
    | _ => none

theorem lastAlias?_append (name : String) (first second : List Exchange) :
    lastAlias? name (first ++ second) = (lastAlias? name second).or (lastAlias? name first) := by
  simp only [lastAlias?, aliasHandles, List.filterMap_append, List.reverse_append,
    List.lookup_append]

theorem exportedNames_append (first second : List Exchange) :
    exportedNames (first ++ second) = exportedNames first ++ exportedNames second :=
  List.filterMap_append

theorem aliasHandles_fields (spaceName : String) (handle : RecordHandle)
    (properties : List Property) :
    aliasHandles (properties.map (fieldExchange spaceName handle)) = [] := by
  simp [aliasHandles, fieldExchange]

theorem exportedNames_fields (spaceName : String) (handle : RecordHandle)
    (properties : List Property) :
    exportedNames (properties.map (fieldExchange spaceName handle)) = [] := by
  simp [exportedNames, fieldExchange]

theorem exportedNames_exportExchanges (declaration : Declaration) :
    exportedNames (exportExchanges declaration) =
      if declaration.exported then [declaration.name] else [] := by
  unfold exportExchanges
  split <;> rfl

variable {σ : Type} {spaceName : String}

theorem HandsOver.exportedNames_eq {declaration : Declaration} {exchanges : List Exchange}
    (h : HandsOver spaceName declaration exchanges) :
    exportedNames exchanges = if declaration.exported then [declaration.name] else [] := by
  rw [← exportedNames_exportExchanges]
  cases h with
  | ofRecord name docs exported properties handle =>
      have hfields := exportedNames_fields spaceName handle properties
      rw [exportedNames_append, show exportedNames (.createRecord name docs handle ::
        properties.map (fieldExchange spaceName handle)) = [] from hfields, List.nil_append]
  | ofAlias => rfl

namespace HandsOverAll

variable {declarations : List Declaration} {exchanges : List Exchange}

-- What is hidden is never exported.
theorem exportedNames_eq_nil (h : HandsOverAll spaceName declarations exchanges)
    (hhidden : ∀ declaration ∈ declarations, declaration.exported = false) :
    exportedNames exchanges = [] := by
  induction h with
  | nil => rfl
  | @cons declaration rest first others hfirst _ ih =>
      have hone : exportedNames first = [] := by
        rw [hfirst.exportedNames_eq, hhidden declaration List.mem_cons_self]
        rfl
      rw [exportedNames_append, hone,
        ih fun other ho => hhidden other (List.mem_cons_of_mem _ ho), List.nil_append]

theorem split_last {last : Declaration}
    (h : HandsOverAll spaceName (declarations ++ [last]) exchanges) :
    ∃ earlier final, HandsOverAll spaceName declarations earlier ∧
      HandsOver spaceName last final ∧ exchanges = earlier ++ final := by
  induction declarations generalizing exchanges with
  | nil =>
      obtain _ | ⟨hlast, hnone⟩ := h
      obtain _ | _ := hnone
      exact ⟨[], _, .nil, hlast, List.append_nil _⟩
  | cons declaration rest ih =>
      obtain _ | ⟨hfirst, hothers⟩ := h
      obtain ⟨earlier, final, hrest, hlast, rfl⟩ := ih hothers
      exact ⟨_ ++ earlier, final, .cons hfirst hrest, hlast, (List.append_assoc _ _ _).symm⟩

end HandsOverAll

theorem records_addFields (emitter : Emitter σ) (spaceName : String) (handle : RecordHandle)
    (properties : List Property) :
    Records (emitter.recorded.addFields spaceName handle properties)
      (emitter.addFields spaceName handle properties)
      fun _ added => added = properties.map (fieldExchange spaceName handle) := by
  induction properties with
  | nil => exact (Records.pure ()).imp fun _ _ h => h.2
  | cons property rest ih =>
      have hfirst := Records.noting
        (emitter.addField handle property.name (property.ty.render spaceName) property.docs)
        fun _ => fieldExchange spaceName handle property
      refine (hfirst.bind fun _ => ih).imp ?_
      rintro _ _ ⟨_, _, _, rfl, rfl, rfl⟩
      rfl

-- What the exchanges over the kind of a declaration are, and which handle comes of them.
def KindTold (spaceName : String) (declaration : Declaration) (given : Option AliasHandle)
    (added : List Exchange) : Prop :=
  HandsOver spaceName declaration (added ++ exportExchanges declaration) ∧
    aliasHandles added = (given.map fun handle => (declaration.name, handle)).toList

theorem records_emitKind (emitter : Emitter σ) (spaceName : String) (declaration : Declaration) :
    Records (emitter.recorded.emitKind spaceName declaration)
      (emitter.emitKind spaceName declaration) (KindTold spaceName declaration) := by
  obtain ⟨name, docs, exported, properties | ⟨params, ty⟩⟩ := declaration
  · have hcreate := Records.noting (emitter.createRecord name docs) (.createRecord name docs)
    have hall := hcreate.bind fun handle =>
      (records_addFields emitter spaceName handle properties).bind fun _ =>
        Records.pure (none : Option AliasHandle)
    refine hall.imp ?_
    rintro _ _ ⟨handle, _, _, rfl, ⟨_, _, _, rfl, ⟨rfl, rfl⟩, rfl⟩, rfl⟩
    rw [List.append_nil]
    exact ⟨.ofRecord name docs exported properties handle,
      aliasHandles_fields spaceName handle properties⟩
  · have hcreate := Records.noting
      (emitter.createAlias name (ty.render spaceName) docs (params.map (·.render spaceName)))
      (.createAlias name (ty.render spaceName) docs (params.map (·.render spaceName)))
    have hall := hcreate.bind fun handle => Records.pure (some handle)
    refine hall.imp ?_
    rintro _ _ ⟨handle, _, _, rfl, ⟨rfl, rfl⟩, rfl⟩
    exact ⟨.ofAlias name docs exported params ty handle, rfl⟩

theorem records_emitDeclaration (emitter : Emitter σ) (spaceName : String)
    (declaration : Declaration) :
    Records (emitter.recorded.emitDeclaration spaceName declaration)
      (emitter.emitDeclaration spaceName declaration) fun given added =>
        HandsOver spaceName declaration added ∧
          aliasHandles added = (given.map fun handle => (declaration.name, handle)).toList := by
  obtain ⟨name, docs, exported, kind⟩ := declaration
  have hreport := Records.lift (σ := σ) (Logged.report (.emitting name))
  have hkind := records_emitKind emitter spaceName ⟨name, docs, exported, kind⟩
  cases exported with
  | true =>
      have hexport := Records.noting (emitter.markExported name) fun _ => .markExported name
      have hall := hreport.bind fun _ => hkind.bind fun given =>
        hexport.bind fun _ => Records.pure given
      refine hall.imp ?_
      rintro _ _ ⟨_, _, _, rfl, ⟨given, added, _, ⟨hover, haliases⟩, ⟨_, _, _, rfl, ⟨rfl, rfl⟩,
        rfl⟩, rfl⟩, rfl⟩
      rw [List.append_nil, List.nil_append]
      refine ⟨hover, ?_⟩
      rw [aliasHandles, List.filterMap_append]
      exact (List.append_nil _).trans haliases
  | false =>
      have hall := hreport.bind fun _ => hkind.bind fun given => Records.pure given
      refine hall.imp ?_
      rintro _ _ ⟨_, _, _, rfl, ⟨given, added, _, ⟨hover, haliases⟩, ⟨rfl, rfl⟩, rfl⟩, rfl⟩
      rw [List.nil_append]
      refine ⟨hover, ?_⟩
      rwa [List.append_nil]

-- The handle of the run is the last one for the root, here among the declarations that are left.
theorem records_emitAll (emitter : Emitter σ) (spaceName root : String) (handle : AliasHandle)
    (declarations : List Declaration) :
    Records (emitter.recorded.emitAll spaceName root handle declarations)
      (emitter.emitAll spaceName root handle declarations) fun given added =>
        HandsOverAll spaceName declarations added ∧
          given = (lastAlias? root added).getD handle := by
  induction declarations generalizing handle with
  | nil =>
      refine (Records.pure handle).imp ?_
      rintro _ _ ⟨rfl, rfl⟩
      exact ⟨.nil, rfl⟩
  | cons declaration rest ih =>
      have hall := (records_emitDeclaration emitter spaceName declaration).bind fun given =>
        ih (if declaration.name = root then given.getD handle else handle)
      refine hall.imp ?_
      rintro _ _ ⟨given, first, others, ⟨hfirst, haliases⟩, ⟨hothers, rfl⟩, rfl⟩
      refine ⟨.cons hfirst hothers, ?_⟩
      have hlast : (lastAlias? root first).getD handle =
          if declaration.name = root then given.getD handle else handle := by
        rw [lastAlias?, haliases]
        cases given with
        | none => simp
        | some own =>
            by_cases hn : declaration.name = root
            · simp [hn]
            · simp [lookup_cons_eq, Ne.symm hn, hn]
      rw [lastAlias?_append, ← hlast]
      cases lastAlias? root others <;> rfl

-- The last two calls are the alias of the root and its export. Nothing else is exported, and the
-- handle of the alias is the one that the whole run gives.
def EndsWithRoot (emitter : Emitter σ) (spaceName : String) (state : σ)
    (compilation : Compilation) : Prop :=
  ∃ earlier ty docs params,
    (emitter.recorded.emit compilation spaceName (state, [])).value.2.2 =
      earlier ++ [.createAlias compilation.root ty docs params
        (emitter.emit compilation spaceName state).value.1, .markExported compilation.root] ∧
    exportedNames earlier = []

theorem records_emit (emitter : Emitter σ) (spaceName : String) (state : σ)
    (compilation : Compilation) :
    let run := emitter.emit compilation spaceName state
    ∃ exchanges, emitter.recorded.emit compilation spaceName (state, []) =
        ⟨(run.value.1, run.value.2, exchanges), run.events⟩ ∧
      HandsOverAll spaceName compilation.declarations exchanges ∧
      run.value.1 = (lastAlias? compilation.root exchanges).getD ⟨compilation.root⟩ := by
  obtain ⟨exchanges, ⟨hover, hgiven⟩, hrun⟩ := records_emitAll emitter spaceName compilation.root
    ⟨compilation.root⟩ compilation.declarations state []
  exact ⟨exchanges, hrun, hover, hgiven⟩

theorem endsWithRoot (emitter : Emitter σ) (spaceName : String) (state : σ)
    {below : List Declaration} (hhidden : ∀ declaration ∈ below, declaration.exported = false)
    (root : String) (docs : Docs) (params : List TypeParam) (ty : Ty) :
    emitter.EndsWithRoot spaceName state
      ⟨root, below ++ [⟨root, docs, true, .alias params ty⟩]⟩ := by
  obtain ⟨exchanges, hrun, hover, hgiven⟩ := records_emit emitter spaceName state
    ⟨root, below ++ [⟨root, docs, true, .alias params ty⟩]⟩
  obtain ⟨earlier, final, hearlier, hfinal, rfl⟩ := hover.split_last
  obtain _ | ⟨_, _, _, _, _, handle⟩ := hfinal
  have hhandle : (emitter.emit ⟨root, below ++ [⟨root, docs, true, .alias params ty⟩]⟩ spaceName
      state).value.1 = handle := by
    rw [hgiven, lastAlias?_append]
    simp [lastAlias?, aliasHandles, exportExchanges]
  refine ⟨earlier, ty.render spaceName, docs, params.map (·.render spaceName), ?_,
    hearlier.exportedNames_eq_nil hhidden⟩
  rw [hhandle, hrun]
  rfl

-- Any emitter, in any state, gets the calls of the protocol and no others, and the handle of the
-- run is the last one that it gave for an alias of the name of the root.
theorem emit_keeps_protocol (emitter : Emitter σ) (spaceName : String) (state : σ) :
    (∀ compilation,
      let run := emitter.emit compilation spaceName state
      ∃ exchanges, emitter.recorded.emit compilation spaceName (state, []) =
          ⟨(run.value.1, run.value.2, exchanges), run.events⟩ ∧
        HandsOverAll spaceName compilation.declarations exchanges ∧
        run.value.1 = (lastAlias? compilation.root exchanges).getD ⟨compilation.root⟩) ∧
    (∀ model, emitter.EndsWithRoot spaceName state (Compilation.ofCustomType model).value) ∧
    ∀ model, emitter.EndsWithRoot spaceName state (Compilation.ofSharedSlice model).value := by
  refine ⟨records_emit emitter spaceName state, fun model => ?_, fun model => ?_⟩
  · exact endsWithRoot emitter spaceName state (Compilation.forest_content model).hidden _ _ _ _
  · have hvalue : (Compilation.ofSharedSlice model).value =
        ⟨(Compilation.ofSharedSlice model).value.root,
          (Compilation.ofSharedSlice model).value.declarations⟩ := rfl
    rw [hvalue, Compilation.declarations_ofSharedSlice]
    exact endsWithRoot emitter spaceName state (Compilation.forest_slice model).hidden _ _ _ _

end Emitter

end ContentTypes
