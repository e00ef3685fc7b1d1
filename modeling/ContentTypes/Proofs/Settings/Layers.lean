import ContentTypes.Proofs.Settings.Files

namespace ContentTypes

open Reading

section Parts

theorem LibrarySettings.independent :
    (LibrarySettings.shape : Reading.Shape Toml LibrarySettings).Independent := by
  constructor <;> simp [LibrarySettings.shape, Reading.Shape.keys]

theorem OutputSettings.independent :
    (OutputSettings.shape : Reading.Shape Toml OutputSettings).Independent := by
  constructor <;> simp [OutputSettings.shape, Reading.Shape.keys]

theorem Settings.independent : (Settings.shape : Reading.Shape Toml Settings).Independent := by
  constructor <;> simp [Settings.shape, Reading.Shape.keys]

theorem LibrarySettings.hasPart_spaceName :
    Toml.HasPart LibrarySettings.shape "namespace" Reading.text LibrarySettings.spaceName where
  slot := ⟨_, _, List.mem_cons_self, fun _ _ => rfl⟩
  others := by simp [LibrarySettings.shape]

theorem LibrarySettings.hasPart_library :
    Toml.HasPart LibrarySettings.shape "import" Reading.text LibrarySettings.library where
  slot := ⟨_, _, List.mem_cons_of_mem _ List.mem_cons_self, fun _ _ => rfl⟩
  others := by simp [LibrarySettings.shape]

theorem OutputSettings.hasPart_exportAll :
    Toml.HasPart OutputSettings.shape "export_all" Reading.truth OutputSettings.exportAll where
  slot := ⟨_, _, List.mem_cons_self, fun _ _ => rfl⟩
  others := by simp [OutputSettings.shape]

theorem OutputSettings.hasPart_header :
    Toml.HasPart OutputSettings.shape "header" Reading.truth OutputSettings.header where
  slot := ⟨_, _, List.mem_cons_of_mem _ List.mem_cons_self, fun _ _ => rfl⟩
  others := by simp [OutputSettings.shape]

theorem Settings.hasPart_library :
    Toml.HasPart Settings.shape "types" LibrarySettings.shape.read Settings.library where
  slot := ⟨_, _, List.mem_cons_self, fun _ _ => rfl⟩
  others := by simp [Settings.shape]

theorem Settings.hasPart_output :
    Toml.HasPart Settings.shape "typescript" OutputSettings.shape.read Settings.output where
  slot := ⟨_, _, List.mem_cons_of_mem _ List.mem_cons_self, fun _ _ => rfl⟩
  others := by simp [Settings.shape]

end Parts

section Merged

open Toml

-- A setting that is made in the file of the project, or else in the file of the user, or else is
-- the one that holds by default.
def Chosen {α : Type} (read : Reader Toml α) (default : α) (project global : Option Toml)
    (value : α) : Prop :=
  match project, global with
  | some given, _ => read given = .ok value
  | none, some given => read given = .ok value
  | none, none => value = default

-- Whether what a table has under a key, if anything, is a table.
def TableUnder (key : String) (table : Table) : Prop :=
  ∀ value, table.get? key = some value → value.isTable

theorem TableUnder.merge {global project : Table} {key : String} (hproject : project.IsKeyed)
    (hg : TableUnder key global) (hp : TableUnder key project) :
    TableUnder key (Toml.merge global project) := by
  intro value hvalue
  rw [get?_merge hproject.1] at hvalue
  cases hget : project.get? key with
  | none =>
      rw [hget] at hvalue
      exact hg value hvalue
  | some incoming =>
      rw [hget] at hvalue
      cases hvalue
      rw [isTable_mergeValue]
      exact hp incoming hget

theorem TableUnder.not_blocks {table : Table} {group : String} (h : TableUnder group table)
    (key : String) : ¬ (Toml.table table).Blocks [group, key] := by
  rw [blocks_cons_iff rfl]
  intro hblocks
  obtain ⟨inner, hget, hinner⟩ := hblocks
  obtain ⟨other, -, hother⟩ := (blocks_cons_iff (h inner hget)).mp hinner
  exact not_blocks_nil hother

variable {α ρ : Type} {global project : Table} {group key : String} {shape : Reading.Shape Toml ρ}
  {read : Reader Toml α} {inner : ρ → α} {part : Settings → ρ} {settings : Settings}

-- Two levels down: the settings are read from a table, and one of them from what its group has.
theorem told_of_ofTable {table : Table} (h : table.IsKeyed) (hgroup : TableUnder group table)
    (hs : shape.Independent) (hpart : HasPart Settings.shape group shape.read part)
    (hblank : part .default = shape.blank) (hinner : HasPart shape key read inner)
    (hread : Settings.ofTable table = .ok settings) :
    Told read (inner shape.blank) ((Toml.table table).at? [group, key])
      (inner (part settings)) := by
  have hrecord : Told shape.read (part .default) (table.get? group) (part settings) :=
    told_of_read Settings.independent hpart h.1 hread
  rw [hblank] at hrecord
  have hunder : ∀ content, table.get? group = some content →
      content.isTable ∧ content.IsKeyed := fun content he => ⟨hgroup content he, h.get? he⟩
  have hvalue := told_part hs hinner hunder hrecord
  have hpath : (Toml.table table).at? [group, key] = (table.get? group).bind (get? key) := by
    cases hget : table.get? group <;> simp [at?, get?, hget]
  rwa [hpath]

theorem chosen_of_ofTable (hg : global.IsKeyed) (hp : project.IsKeyed)
    (hglobal : TableUnder group global) (hproject : TableUnder group project)
    (hs : shape.Independent) (hpart : HasPart Settings.shape group shape.read part)
    (hblank : part .default = shape.blank) (hinner : HasPart shape key read inner)
    (hplain : ∀ table, ¬ Reads read (.table table))
    (hread : Settings.ofTable (Toml.merge global project) = .ok settings) :
    Chosen read (inner shape.blank) ((Toml.table project).at? [group, key])
      ((Toml.table global).at? [group, key]) (inner (part settings)) := by
  have htold := told_of_ofTable (isKeyed_merge hg hp) (hglobal.merge hp hproject) hs hpart hblank
    hinner hread
  rw [← mergeValue_table, at?_mergeValue_of_not_blocks (isKeyed_table.mpr hp)
    (hproject.not_blocks key)] at htold
  cases hgiven : (Toml.table project).at? [group, key] with
  | none =>
      rw [hgiven] at htold
      simp only [Option.map_none, Option.none_or, Option.bind_some] at htold
      cases hother : (Toml.table global).at? [group, key] with
      | none => exact htold.1 hother
      | some given => exact htold.2 given hother
  | some given =>
      rw [hgiven] at htold
      have hvalue := htold.2 _ rfl
      by_cases htable : given.isTable
      · rw [← isTable_mergeValue] at htable
        obtain ⟨table, he⟩ := exists_eq_table htable
        rw [he] at hvalue
        exact absurd ⟨_, hvalue⟩ (hplain table)
      · rwa [mergeValue_of_not_isTable htable] at hvalue

end Merged

namespace Settings

open Toml

-- The tables of the files that settings are loaded from.
structure LoadedFrom (look : String → FileState) (globalPath : Option String) (root : String)
    (global project : Table) : Prop where
  global : globalPath.elim (some .empty) (fun path => (look path).table?) = some global
  project : (look (FilePath.join root projectFile)).table? = some project

theorem LoadedFrom.isKeyed {look : String → FileState} {globalPath : Option String} {root : String}
    {global project : Table} (h : LoadedFrom look globalPath root global project) :
    global.IsKeyed ∧ project.IsKeyed := by
  refine ⟨?_, FileState.isKeyed_table? h.project⟩
  cases globalPath with
  | none =>
      cases h.global
      exact OrderedMap.isKeyed_empty
  | some path => exact FileState.isKeyed_table? h.global

theorem loadFrom_eq_ok_iff {look : String → FileState} {globalPath : Option String} {root : String}
    {settings : Settings} :
    (loadFrom look globalPath root).value = .ok settings ↔
      ∃ global project, LoadedFrom look globalPath root global project ∧
        ofTable (merge global project) = .ok settings := by
  rw [loadFrom, value_ofFiles, bind_eq_ok_iff]
  refine exists_congr fun global => ?_
  have hglobal : (globalPath.map (File.at look)).elim (.ok .empty) tableOf = .ok global ↔
      globalPath.elim (some .empty) (fun path => (look path).table?) = some global := by
    cases globalPath with
    | none => simp
    | some path => exact tableOf_eq_ok_iff
  rw [hglobal, bind_eq_ok_iff]
  constructor
  · intro h
    obtain ⟨hfirst, project, hsecond, hread⟩ := h
    exact ⟨project, ⟨hfirst, tableOf_eq_ok_iff.mp hsecond⟩, mapError_eq_ok_iff.mp hread⟩
  · intro h
    obtain ⟨project, hfrom, hread⟩ := h
    exact ⟨hfrom.global, project, tableOf_eq_ok_iff.mpr hfrom.project,
      mapError_eq_ok_iff.mpr hread⟩

-- A table with tables, if anything, where the groups of the settings are.
def Grouped (table : Table) : Prop := TableUnder "types" table ∧ TableUnder "typescript" table

-- Merging decides key by key, and so does loading for each of the settings. Of a table that is
-- merged into another it is asked that no key comes twice, as in every table that a text gives.
theorem layered :
    (∀ text table, Toml.ofText? text = some table → table.IsKeyed) ∧
    (∀ (base incoming : Table) (path : List String), incoming.IsKeyed →
      (∀ value, (table incoming).leaf? path = some value →
        (table (merge base incoming)).leaf? path = some value) ∧
      ((∃ inner, (table incoming).at? path = some (.table inner)) ∨ (table incoming).Blocks path →
        (table (merge base incoming)).leaf? path = none) ∧
      ((table incoming).at? path = none → ¬ (table incoming).Blocks path →
        (table (merge base incoming)).leaf? path = (table base).leaf? path)) ∧
    ∀ (look : String → FileState) (globalPath : Option String) (root : String)
      (settings : Settings),
      (loadFrom look globalPath root).value = .ok settings →
      ∃ global project, LoadedFrom look globalPath root global project ∧
        (Grouped global → Grouped project →
          Chosen Reading.text "prismicT" ((table project).at? ["types", "namespace"])
            ((table global).at? ["types", "namespace"]) settings.library.spaceName ∧
          Chosen Reading.text "@prismicio/types" ((table project).at? ["types", "import"])
            ((table global).at? ["types", "import"]) settings.library.library ∧
          Chosen Reading.truth false ((table project).at? ["typescript", "export_all"])
            ((table global).at? ["typescript", "export_all"]) settings.output.exportAll ∧
          Chosen Reading.truth true ((table project).at? ["typescript", "header"])
            ((table global).at? ["typescript", "header"]) settings.output.header) := by
  refine ⟨fun text table h => isKeyed_ofText? h,
    fun base incoming path h => leaf?_merge h base path, ?_⟩
  intro look globalPath root settings hload
  obtain ⟨global, project, hfrom, hread⟩ := loadFrom_eq_ok_iff.mp hload
  refine ⟨global, project, hfrom, fun hglobal hproject => ?_⟩
  obtain ⟨hg, hp⟩ := hfrom.isKeyed
  refine ⟨?_, ?_, ?_, ?_⟩
  · exact chosen_of_ofTable hg hp hglobal.1 hproject.1 LibrarySettings.independent hasPart_library
      rfl LibrarySettings.hasPart_spaceName not_reads_text hread
  · exact chosen_of_ofTable hg hp hglobal.1 hproject.1 LibrarySettings.independent hasPart_library
      rfl LibrarySettings.hasPart_library not_reads_text hread
  · exact chosen_of_ofTable hg hp hglobal.2 hproject.2 OutputSettings.independent hasPart_output
      rfl OutputSettings.hasPart_exportAll not_reads_truth hread
  · exact chosen_of_ofTable hg hp hglobal.2 hproject.2 OutputSettings.independent hasPart_output
      rfl OutputSettings.hasPart_header not_reads_truth hread

-- A file of the user names a space and a library, and the file of a site names another space.
def siteFiles (path : String) : FileState :=
  if path = "user.toml" then .text "types.namespace = \"t\"\ntypes.import = \"lib\"\n"
  else if path = "site/content-typegen.toml" then .text "types.namespace = \"p\"\n"
  else .missing

def userTable : Table := ⟨[("types", .table ⟨[("namespace", .str "t"), ("import", .str "lib")]⟩)]⟩

def siteTable : Table := ⟨[("types", .table ⟨[("namespace", .str "p")]⟩)]⟩

theorem loadedFrom_siteFiles :
    LoadedFrom siteFiles (some "user.toml") "site" userTable siteTable where
  global := by decide +kernel
  project := by decide +kernel

theorem grouped_of_types {inner : Table} : Grouped ⟨[("types", .table inner)]⟩ := by
  constructor
  · intro value hvalue
    cases hvalue
    rfl
  · intro value hvalue
    cases hvalue

theorem exists_ofTable_siteFiles :
    ∃ settings, ofTable (merge userTable siteTable) = .ok settings := by
  have hmerged : merge userTable siteTable =
      ⟨[("types", .table ⟨[("namespace", .str "p"), ("import", .str "lib")]⟩)]⟩ := by
    decide +kernel
  have hlibrary : LibrarySettings.shape.read
      (Toml.table ⟨[("namespace", .str "p"), ("import", .str "lib")]⟩) = .ok ⟨"p", "lib"⟩ := by
    rw [read_table_eq_ok_iff LibrarySettings.independent (by decide)]
    rfl
  rw [hmerged]
  refine ⟨⟨⟨"p", "lib"⟩, .default⟩, (read_table_eq_ok_iff Settings.independent (by decide)).mpr ?_⟩
  refine (fillFrom_present ?_).mpr ⟨_, fill_slot_eq_ok_iff.mpr ⟨_, hlibrary, rfl⟩, ?_⟩
  · rfl
  · rfl

theorem layered_siteFiles :
    siteTable.IsKeyed ∧
    (table (merge userTable siteTable)).leaf? ["types", "namespace"] = some (.str "p") ∧
    (table (merge userTable siteTable)).leaf? ["types"] = none ∧
    (table (merge userTable siteTable)).leaf? ["types", "import"] = some (.str "lib") ∧
    ∃ settings, (loadFrom siteFiles (some "user.toml") "site").value = .ok settings ∧
      settings.library = ⟨"p", "lib"⟩ ∧ settings.output = ⟨false, true⟩ := by
  have hkeyed : siteTable.IsKeyed :=
    layered.1 "types.namespace = \"p\"\n" siteTable (by decide +kernel)
  have hsays := layered.2.1 userTable siteTable ["types", "namespace"] hkeyed
  have hgroup := layered.2.1 userTable siteTable ["types"] hkeyed
  have hsilent := layered.2.1 userTable siteTable ["types", "import"] hkeyed
  have hclear : ¬ (table siteTable).Blocks ["types", "import"] :=
    TableUnder.not_blocks grouped_of_types.1 "import"
  refine ⟨hkeyed, hsays.1 _ (by decide +kernel), hgroup.2.1 (.inl ⟨_, rfl⟩),
    (hsilent.2.2 (by decide +kernel) hclear).trans (by decide +kernel), ?_⟩
  obtain ⟨settings, hread⟩ := exists_ofTable_siteFiles
  have hload := loadFrom_eq_ok_iff.mpr ⟨userTable, siteTable, loadedFrom_siteFiles, hread⟩
  obtain ⟨global, project, hfrom, hchosen⟩ := layered.2.2 _ _ _ settings hload
  obtain rfl := Option.some.inj (hfrom.global.symm.trans loadedFrom_siteFiles.global)
  obtain rfl := Option.some.inj (hfrom.project.symm.trans loadedFrom_siteFiles.project)
  obtain ⟨hspace, hlibrary, hexport, hheader⟩ := hchosen grouped_of_types grouped_of_types
  refine ⟨settings, hload, ?_, ?_⟩
  · exact congrArg₂ LibrarySettings.mk (Except.ok.inj hspace).symm (Except.ok.inj hlibrary).symm
  · exact congrArg₂ OutputSettings.mk hexport hheader

end Settings

end ContentTypes
