import Mathlib.Data.List.Basic
import Mathlib.Data.List.Induction
import ContentTypes.Generation
import ContentTypes.Proofs.Module.Acceptance

namespace ContentTypes

namespace Declaration

-- The first of some declarations that has a name.
def first? (declarations : List Declaration) (name : String) : Option Declaration :=
  declarations.find? (·.name == name)

-- Some declaration of the name is exported, be it the first one or not.
def exports (declarations : List Declaration) (name : String) : Bool :=
  declarations.any fun declaration => declaration.exported && declaration.name == name

theorem first?_eq_none_iff {declarations : List Declaration} {name : String} :
    first? declarations name = none ↔ name ∉ declarations.map Declaration.name := by
  simp [first?]

theorem first?_append (first second : List Declaration) (name : String) :
    first? (first ++ second) name = (first? first name).or (first? second name) :=
  List.find?_append

theorem first?_concat {declarations : List Declaration} {last : Declaration}
    (hn : last.name ∉ declarations.map Declaration.name) :
    first? (declarations ++ [last]) last.name = some last := by
  rw [first?_append, first?_eq_none_iff.mpr hn]
  simp [first?]

theorem first?_append_of_mem {first : List Declaration} {name : String}
    (hn : name ∈ first.map Declaration.name) (second : List Declaration) :
    first? (first ++ second) name = first? first name := by
  have hs : first? first name ≠ none := fun h => first?_eq_none_iff.mp h hn
  rw [first?_append]
  exact Option.or_of_isSome (Option.isSome_iff_ne_none.mpr hs)

theorem exports_concat (declarations : List Declaration) (last : Declaration) (name : String) :
    exports (declarations ++ [last]) name =
      (exports declarations name || (last.exported && last.name == name)) := by
  simp [exports]

theorem exports_of_notMem {declarations : List Declaration} {name : String}
    (hn : name ∉ declarations.map Declaration.name) : exports declarations name = false := by
  simp only [exports, List.any_eq_false]
  intro declaration hd
  have hne : declaration.name ≠ name := by
    rintro rfl
    exact hn (List.mem_map_of_mem hd)
  simp [hne]

end Declaration

namespace Item

-- Exported by some declarations, or as it was.
def exportedBy (declarations : List Declaration) (item : Item) : Item :=
  if Declaration.exports declarations item.name then item.asExported else item

@[simp] theorem name_exportedBy (declarations : List Declaration) (item : Item) :
    (item.exportedBy declarations).name = item.name := by
  unfold exportedBy
  split
  · exact name_asExported item
  · rfl

theorem exportedBy_of_notMem {declarations : List Declaration} {item : Item}
    (hn : item.name ∉ declarations.map Declaration.name) : item.exportedBy declarations = item := by
  simp [exportedBy, Declaration.exports_of_notMem hn]

-- One more declaration exports the item of its own name and no other.
theorem exportedBy_concat (declarations : List Declaration) (last : Declaration) (item : Item) :
    item.exportedBy (declarations ++ [last]) =
      if last.exported ∧ item.name = last.name then (item.exportedBy declarations).asExported
      else item.exportedBy declarations := by
  unfold exportedBy
  rw [Declaration.exports_concat]
  by_cases hl : last.exported ∧ item.name = last.name
  · have hlast : (last.exported && last.name == item.name) = true := by simp [hl]
    rw [if_pos hl, hlast, Bool.or_true, if_pos rfl]
    split <;> simp
  · have hlast : (last.exported && last.name == item.name) = false := by
      rw [Bool.eq_false_iff]
      intro h
      rw [Bool.and_eq_true, beq_iff_eq] at h
      exact hl ⟨h.1, h.2.symm⟩
    rw [if_neg hl, hlast, Bool.or_false]

end Item

theorem eraseDups_concat (names : List String) (name : String) :
    (names ++ [name]).eraseDups =
      if name ∈ names then names.eraseDups else names.eraseDups ++ [name] := by
  rw [List.eraseDups_append]
  by_cases hn : name ∈ names <;> simp [List.removeAll, List.eraseDups_cons, hn]

theorem nodup_eraseDups (names : List String) : names.eraseDups.Nodup := by
  induction names using List.reverseRecOn with
  | nil => simp
  | append_singleton names name ih =>
      rw [eraseDups_concat]
      split
      · exact ih
      · rename_i hn
        refine List.nodup_append.mpr ⟨ih, by simp, ?_⟩
        intro other ho _ hs he
        rw [List.mem_singleton.mp hs] at he
        exact hn (he ▸ List.mem_eraseDups.mp ho)

namespace Module

variable {m : Module}

-- The names that are new to the module, each where it comes first.
def newNames (m : Module) (declarations : List Declaration) : List String :=
  (declarations.map Declaration.name).eraseDups.filter (· ∉ m.names)

-- One item for each new name, made from the first declaration of the name.
def newItems (m : Module) (spaceName : String) (declarations : List Declaration) : List Item :=
  (m.newNames declarations).filterMap fun name =>
    (Declaration.first? declarations name).map (.ofDeclaration spaceName)

-- The module with all declarations in it.
def extended (m : Module) (spaceName : String) (declarations : List Declaration) : Module :=
  ⟨(m.items ++ m.newItems spaceName declarations).map (.exportedBy declarations)⟩

theorem mem_newNames {declarations : List Declaration} {name : String} :
    name ∈ m.newNames declarations ↔
      name ∈ declarations.map Declaration.name ∧ name ∉ m.names := by
  rw [newNames, List.mem_filter, List.mem_eraseDups, decide_eq_true_iff]

theorem nodup_newNames (m : Module) (declarations : List Declaration) :
    (m.newNames declarations).Nodup :=
  (nodup_eraseDups _).filter _

-- A declaration brings its name if neither the module nor an earlier declaration has it.
theorem newNames_concat (m : Module) (declarations : List Declaration) (last : Declaration) :
    m.newNames (declarations ++ [last]) =
      if last.name ∈ m.names ∨ last.name ∈ declarations.map Declaration.name then
        m.newNames declarations
      else m.newNames declarations ++ [last.name] := by
  unfold newNames
  rw [List.map_append, List.map_singleton, eraseDups_concat]
  by_cases hd : last.name ∈ declarations.map Declaration.name
  · rw [if_pos hd, if_pos (Or.inr hd)]
  · rw [if_neg hd, List.filter_append]
    by_cases hm : last.name ∈ m.names
    · simp [hm]
    · rw [if_neg (by simp only [hm, hd, or_self, not_false_eq_true])]
      simp [hm]

theorem newItems_concat (m : Module) (spaceName : String) (declarations : List Declaration)
    (last : Declaration) :
    m.newItems spaceName (declarations ++ [last]) =
      if last.name ∈ m.names ∨ last.name ∈ declarations.map Declaration.name then
        m.newItems spaceName declarations
      else m.newItems spaceName declarations ++ [.ofDeclaration spaceName last] := by
  -- the names that were there have the same first declarations as before
  have hold : (m.newNames declarations).filterMap (fun name =>
      (Declaration.first? (declarations ++ [last]) name).map (Item.ofDeclaration spaceName)) =
        m.newItems spaceName declarations := by
    apply List.filterMap_congr
    intro name hn
    rw [Declaration.first?_append_of_mem (mem_newNames.mp hn).1]
  rw [newItems, newNames_concat]
  split
  · exact hold
  · rename_i hn
    have hfirst := Declaration.first?_concat (not_or.mp hn).2
    rw [List.filterMap_append, hold]
    simp [hfirst]

theorem names_newItems (m : Module) (spaceName : String) (declarations : List Declaration) :
    (m.newItems spaceName declarations).map Item.name = m.newNames declarations := by
  induction declarations using List.reverseRecOn with
  | nil => rfl
  | append_singleton declarations last ih =>
      rw [newItems_concat, newNames_concat]
      split
      · exact ih
      · rw [List.map_append, ih]
        simp

theorem names_extended (m : Module) (spaceName : String) (declarations : List Declaration) :
    (m.extended spaceName declarations).names = m.names ++ m.newNames declarations := by
  have hname : Item.name ∘ Item.exportedBy declarations = Item.name := by
    funext item
    exact Item.name_exportedBy declarations item
  rw [names, extended, List.map_map, hname, List.map_append, names_newItems]
  rfl

theorem mem_names_extended {spaceName : String} {declarations : List Declaration} {name : String} :
    name ∈ (m.extended spaceName declarations).names ↔
      name ∈ m.names ∨ name ∈ declarations.map Declaration.name := by
  rw [names_extended, List.mem_append, mem_newNames]
  by_cases hm : name ∈ m.names <;> simp [hm]

theorem nodup_extended (hm : m.names.Nodup) (spaceName : String)
    (declarations : List Declaration) : (m.extended spaceName declarations).names.Nodup := by
  rw [names_extended, List.nodup_append]
  refine ⟨hm, nodup_newNames m declarations, ?_⟩
  rintro name ho _ hn rfl
  exact (mem_newNames.mp hn).2 ho

theorem find?_newItems {name : String} (hm : name ∉ m.names) (spaceName : String)
    (declarations : List Declaration) :
    (m.newItems spaceName declarations).find? (·.name == name) =
      (Declaration.first? declarations name).map (.ofDeclaration spaceName) := by
  induction declarations using List.reverseRecOn with
  | nil => rfl
  | append_singleton declarations last ih =>
      rw [newItems_concat]
      split
      · rename_i hn
        rw [ih, Declaration.first?_append]
        by_cases hl : last.name = name
        · have hd := hn.resolve_left (hl ▸ hm)
          rw [← Declaration.first?_append, Declaration.first?_append_of_mem (hl ▸ hd)]
        · simp [Declaration.first?, hl]
      · rw [List.find?_append, ih, Declaration.first?_append, Option.map_or]
        by_cases hl : last.name = name <;> simp [Declaration.first?, hl]

-- What the module holds under a name that is new: the first declaration of the name.
theorem get?_extended {name : String} (hm : name ∉ m.names) (spaceName : String)
    (declarations : List Declaration) :
    (m.extended spaceName declarations).get? name =
      (Declaration.first? declarations name).map fun declaration =>
        (Item.ofDeclaration spaceName declaration).exportedBy declarations := by
  have hold : m.items.find? (·.name == name) = none := get?_eq_none_iff.mpr hm
  have hname : (fun item => item.name == name) ∘ Item.exportedBy declarations =
      fun item => item.name == name := by
    funext item
    simp
  rw [get?, extended, List.find?_map, hname, List.find?_append, hold, Option.none_or,
    find?_newItems hm, Option.map_map]
  rfl

theorem extended_nil (m : Module) (spaceName : String) : m.extended spaceName [] = m := by
  have hid : Item.exportedBy [] = id := by
    funext item
    exact Item.exportedBy_of_notMem (by simp)
  simp [extended, newItems, newNames, hid]

-- Keeping one more declaration adds its item, with nothing exported yet.
theorem keep_extended (m : Module) (spaceName : String) (declarations : List Declaration)
    (last : Declaration) :
    (m.extended spaceName declarations).keep spaceName last =
      ⟨(m.items ++ m.newItems spaceName (declarations ++ [last])).map
        (.exportedBy declarations)⟩ := by
  rw [newItems_concat]
  simp only [keep, mem_names_extended]
  split
  · rfl
  · rename_i hn
    have hlast : (Item.ofDeclaration spaceName last).exportedBy declarations =
        .ofDeclaration spaceName last := by
      apply Item.exportedBy_of_notMem
      rw [Item.name_ofDeclaration]
      exact (not_or.mp hn).2
    simp [extended, push, hlast]

theorem accept_extended (hm : m.names.Nodup) (spaceName : String)
    (declarations : List Declaration) (last : Declaration) :
    (m.extended spaceName declarations).accept spaceName last =
      m.extended spaceName (declarations ++ [last]) := by
  have hnames : ((m.extended spaceName declarations).keep spaceName last).names =
      (m.extended spaceName (declarations ++ [last])).names := by
    rw [keep_extended]
    simp [names, extended, Function.comp_def]
  have hnodup := hnames ▸ nodup_extended hm spaceName (declarations ++ [last])
  unfold accept
  split
  · rename_i he
    rw [update_eq_map hnodup, keep_extended, extended, Module.mk.injEq, List.map_map]
    apply List.map_congr_left
    intro item _
    rw [Item.exportedBy_concat]
    simp [he]
  · rename_i he
    rw [keep_extended, extended, Module.mk.injEq]
    apply List.map_congr_left
    intro item _
    rw [Item.exportedBy_concat]
    simp [he]

-- Declaration by declaration, from the first to the last.
theorem foldl_accept (hm : m.names.Nodup) (spaceName : String) (declarations : List Declaration) :
    declarations.foldl (fun known declaration => known.accept spaceName declaration) m =
      m.extended spaceName declarations := by
  induction declarations using List.reverseRecOn with
  | nil => exact (extended_nil m spaceName).symm
  | append_singleton declarations last ih =>
      rw [List.foldl_append, ih]
      exact accept_extended hm spaceName declarations last

theorem run_emitAll (spaceName root : String) (handle : AliasHandle)
    (declarations : List Declaration) :
    (run (emitter.emitAll spaceName root handle declarations) m).2 =
      declarations.foldl (fun known declaration => known.accept spaceName declaration) m := by
  induction declarations generalizing m handle with
  | nil => rfl
  | cons declaration rest ih =>
      rw [List.foldl_cons, ← run_emitDeclaration]
      exact ih _

-- Compilations one after the other, their handles left alone.
def emitEach (spaceName : String) (compilations : List Compilation) : StateT Module Logged Unit :=
  compilations.forM fun compilation => do
    let _ ← emitter.emit compilation spaceName

-- Work that accepts some declarations at each step accepts all of them in a row.
theorem run_forM {β : Type} {spaceName : String} {work : β → StateT Module Logged Unit}
    {declared : β → List Declaration}
    (hwork : ∀ step known, (run (work step) known).2 =
      (declared step).foldl (fun known declaration => known.accept spaceName declaration) known)
    (steps : List β) (m : Module) :
    (run (steps.forM work) m).2 = (steps.flatMap declared).foldl
      (fun known declaration => known.accept spaceName declaration) m := by
  induction steps generalizing m with
  | nil => rfl
  | cons step rest ih =>
      have hstart : (run ((step :: rest).forM work) m).2 =
          (run (rest.forM work) (run (work step) m).2).2 := rfl
      rw [hstart, ih, hwork, List.flatMap_cons, List.foldl_append]

theorem run_emitEach (spaceName : String) (compilations : List Compilation) (m : Module) :
    (run (emitEach spaceName compilations) m).2 =
      (compilations.flatMap Compilation.declarations).foldl
        (fun known declaration => known.accept spaceName declaration) m :=
  run_forM (fun compilation _ => run_emitAll spaceName compilation.root _ _) compilations m

end Module

-- What the models of a repository compile to, the custom types first.
def Compilation.ofModels (customTypes : List CustomType) (sharedSlices : List SharedSlice) :
    List Compilation :=
  customTypes.map (fun model => (ofCustomType model).value) ++
    sharedSlices.map fun model => (ofSharedSlice model).value

namespace Module

theorem run_compileCustomType (settings : Settings) (model : CustomType) (m : Module) :
    (run (do let _ ← emitter.compileCustomType settings model) m).2 =
      (Compilation.ofCustomType model).value.declarations.foldl
        (fun known declaration => known.accept settings.library.spaceName declaration) m := by
  have hstart : (run (do let _ ← emitter.compileCustomType settings model) m).2 =
      (run (emitter.emit (Compilation.ofCustomType model).value settings.library.spaceName) m).2 :=
    rfl
  exact hstart.trans (run_emitAll _ _ _ _)

theorem run_compileSharedSlice (settings : Settings) (model : SharedSlice) (m : Module) :
    (run (do let _ ← emitter.compileSharedSlice settings model) m).2 =
      (Compilation.ofSharedSlice model).value.declarations.foldl
        (fun known declaration => known.accept settings.library.spaceName declaration) m := by
  have hstart : (run (do let _ ← emitter.compileSharedSlice settings model) m).2 =
      (run (emitter.emit (Compilation.ofSharedSlice model).value settings.library.spaceName) m).2 :=
    rfl
  exact hstart.trans (run_emitAll _ _ _ _)

-- Compiling the models one by one is emitting what they compile to.
theorem ofModels_eq_run (settings : Settings) (customTypes : List CustomType)
    (sharedSlices : List SharedSlice) :
    (ofModels settings customTypes sharedSlices).value =
      (run (emitEach settings.library.spaceName (Compilation.ofModels customTypes sharedSlices))
        .empty).2 := by
  have hstart : (ofModels settings customTypes sharedSlices).value =
      (run (sharedSlices.forM fun model => do
          let _ ← emitter.compileSharedSlice settings model)
        (run (customTypes.forM fun model => do
          let _ ← emitter.compileCustomType settings model) .empty).2).2 := rfl
  rw [hstart, run_forM (run_compileCustomType settings),
    run_forM (run_compileSharedSlice settings), run_emitEach, ← List.foldl_append,
    Compilation.ofModels, List.flatMap_append, List.flatMap_map, List.flatMap_map]

-- The declarations of all models, in the order in which they are handed over.
theorem ofModels_eq_extended (settings : Settings) (customTypes : List CustomType)
    (sharedSlices : List SharedSlice) :
    (ofModels settings customTypes sharedSlices).value =
      Module.empty.extended settings.library.spaceName
        ((Compilation.ofModels customTypes sharedSlices).flatMap Compilation.declarations) := by
  rw [ofModels_eq_run, run_emitEach]
  exact foldl_accept (m := .empty) List.nodup_nil _ _

-- The module after any emission, whatever names the declarations have. Names must be distinct at
-- the start, since export reaches one item of a name only.
theorem emission_eq_extended :
    (∀ m : Module, m.names.Nodup → ∀ (spaceName : String) (compilations : List Compilation),
      (run (emitEach spaceName compilations) m).2 =
        m.extended spaceName (compilations.flatMap Compilation.declarations)) ∧
    ∀ (settings : Settings) (customTypes : List CustomType) (sharedSlices : List SharedSlice),
      (ofModels settings customTypes sharedSlices).value =
        (run (emitEach settings.library.spaceName (Compilation.ofModels customTypes sharedSlices))
          .empty).2 := by
  refine ⟨?_, ofModels_eq_run⟩
  intro m hm spaceName compilations
  rw [run_emitEach]
  exact foldl_accept hm spaceName _

-- A record and an alias that both come under the name of something else.
def startingModule : Module :=
  ⟨[.alias ⟨"A", .empty, false, [], "string"⟩, .record ⟨"B", .line "old", true, []⟩]⟩

def meetingCompilations : List Compilation :=
  [⟨"C", [(Declaration.ofRecord "A" [⟨"x", .string, .empty⟩]).asExported,
      Declaration.ofRecord "C" [⟨"y", .library "KeyTextField" [], .line "kept"⟩],
      (Declaration.ofAlias "C" .null).asExported]⟩,
    ⟨"D", [Declaration.ofRecord "C" [⟨"z", .unknown, .empty⟩],
      Declaration.ofAlias "B" (.named "C" []),
      (Declaration.ofAlias "D" (.named "C" [])).withParams [Compilation.langParam]]⟩]

theorem emission_meetingCompilations :
    startingModule.names.Nodup ∧
      (run (emitEach "n" meetingCompilations) startingModule).2 =
        ⟨[.alias ⟨"A", .empty, true, [], "string"⟩, .record ⟨"B", .line "old", true, []⟩,
          .record ⟨"C", .empty, true, [⟨"y", "n.KeyTextField", .line "kept"⟩]⟩,
          .alias ⟨"D", .empty, false, [⟨"Lang", some "string", some "string"⟩], "C"⟩]⟩ := by
  have hm : startingModule.names.Nodup := by decide
  exact ⟨hm, (emission_eq_extended.1 startingModule hm "n" meetingCompilations).trans
    (by decide +kernel)⟩

end Module

end ContentTypes
