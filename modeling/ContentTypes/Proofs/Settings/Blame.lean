import ContentTypes.Proofs.Settings.Layers

namespace ContentTypes.Settings

open Reading Toml

section Merged

theorem survives_read : Survives Settings.read := by
  have hlibrary : Survives LibrarySettings.shape.read :=
    Toml.survives_read LibrarySettings.independent
      (by simp [LibrarySettings.shape, mergeable_slot survives_text])
  have houtput : Survives OutputSettings.shape.read :=
    Toml.survives_read OutputSettings.independent
      (by simp [OutputSettings.shape, mergeable_slot survives_truth])
  refine Toml.survives_read Settings.independent ?_
  simp [Settings.shape, mergeable_slot hlibrary, mergeable_slot houtput]

theorem reads_empty : Reads Settings.read (.table .empty) := by
  refine ⟨.default, (read_table_eq_ok_iff Settings.independent ?_).mpr rfl⟩
  exact List.nodup_nil

theorem not_reads_iff {table : Table} :
    ¬ Reads Settings.read (.table table) ↔ ∃ detail, ofTable table = .error detail := by
  rw [Reads, ofTable]
  cases Settings.read (Toml.table table) with
  | error detail => simp
  | ok settings => simp

end Merged

-- The files as they are when one of them is there and no other.
def only (path : String) (look : String → FileState) (other : String) : FileState :=
  if other = path then look other else .missing

-- The files that settings are loaded from.
def IsSource (globalPath : Option String) (root path : String) : Prop :=
  globalPath = some path ∨ path = FilePath.join root projectFile

-- Loading settings comes to a fault.
def Fails (look : String → FileState) (globalPath : Option String) (root : String) : Prop :=
  ∃ fault, (loadFrom look globalPath root).value = .error fault

-- A fault names a file that is there, and that is at fault without the other file too.
def Blames (look : String → FileState) (globalPath : Option String) (root : String)
    (fault : LoadFault) : Prop :=
  look fault.path ≠ .missing ∧ Fails (only fault.path look) globalPath root

section Files

variable {look : String → FileState} {globalPath : Option String} {root path : String}
  {global project table : Table} {fault : LoadFault}

theorem only_self : only path look path = look path := if_pos rfl

theorem only_of_ne {other : String} (h : other ≠ path) : only path look other = .missing := if_neg h

theorem LoadedFrom.fails_iff (h : LoadedFrom look globalPath root global project) :
    Fails look globalPath root ↔ ¬ Reads Settings.read (.table (merge global project)) := by
  constructor
  · intro hfails hreads
    obtain ⟨fault, hfault⟩ := hfails
    obtain ⟨settings, hread⟩ := hreads
    have hload := loadFrom_eq_ok_iff.mpr ⟨global, project, h, hread⟩
    rw [hfault] at hload
    cases hload
  · intro hreads
    cases hload : (loadFrom look globalPath root).value with
    | error fault => exact ⟨fault, hload⟩
    | ok settings =>
        obtain ⟨global', project', h', hread⟩ := loadFrom_eq_ok_iff.mp hload
        obtain rfl := Option.some.inj (h.global.symm.trans h'.global)
        obtain rfl := Option.some.inj (h.project.symm.trans h'.project)
        exact absurd ⟨settings, hread⟩ hreads

-- A file without a table is enough for a fault.
theorem IsSource.fails (hpath : IsSource globalPath root path) (h : (look path).table? = none) :
    Fails look globalPath root := by
  cases hload : (loadFrom look globalPath root).value with
  | error fault => exact ⟨fault, hload⟩
  | ok settings =>
      obtain ⟨global, project, hfrom, -⟩ := loadFrom_eq_ok_iff.mp hload
      rcases hpath with rfl | rfl
      · exact absurd (h.symm.trans hfrom.global) (by simp)
      · exact absurd (h.symm.trans hfrom.project) (by simp)

-- On its own a file gives its table, and nothing is merged with it, or it is merged with itself.
theorem IsSource.loadedFrom_only (hpath : IsSource globalPath root path)
    (h : (look path).table? = some table) :
    ∃ global project, LoadedFrom (only path look) globalPath root global project ∧
      merge global project = table := by
  have hkeyed : table.IsKeyed := FileState.isKeyed_table? h
  have hself : (only path look path).table? = some table := by rw [only_self, h]
  have hother : ∀ other, other ≠ path → (only path look other).table? = some .empty := by
    intro other hne
    rw [only_of_ne hne]
    rfl
  by_cases hglobal : globalPath = some path
  · subst hglobal
    by_cases hproject : path = FilePath.join root projectFile
    · exact ⟨table, table, ⟨hself, hproject ▸ hself⟩, merge_self hkeyed⟩
    · exact ⟨table, .empty, ⟨hself, hother _ (Ne.symm hproject)⟩, rfl⟩
  · have hproject := hpath.resolve_left hglobal
    refine ⟨.empty, table, ⟨?_, hproject ▸ hself⟩, merge_empty hkeyed.1⟩
    cases globalPath with
    | none => rfl
    | some other => exact hother other fun he => hglobal (congrArg some he)

theorem IsSource.fails_only_iff (hpath : IsSource globalPath root path)
    (h : (look path).table? = some table) :
    Fails (only path look) globalPath root ↔ ¬ Reads Settings.read (.table table) := by
  obtain ⟨global, project, hfrom, hmerged⟩ := hpath.loadedFrom_only h
  rw [hfrom.fails_iff, hmerged]

-- A file that is missing is at no fault.
theorem ne_missing_of_not_reads (h : (look path).table? = some table)
    (hreads : ¬ Reads Settings.read (.table table)) : look path ≠ .missing := by
  intro hmissing
  rw [hmissing] at h
  cases h
  exact hreads reads_empty

-- The path of the user may be unknown, and then nothing is read from it.
theorem global_cases (look : String → FileState) (globalPath : Option String) :
    (∃ table, globalPath.elim (some .empty) (fun path => (look path).table?) = some table ∧
      (globalPath.map (File.at look)).elim (.ok .empty) tableOf = .ok table) ∨
      ∃ path fault, globalPath = some path ∧
        (globalPath.map (File.at look)).elim (.ok .empty) tableOf = .error fault ∧
        (File.at look path).Spoilt fault := by
  cases globalPath with
  | none => exact .inl ⟨.empty, rfl, rfl⟩
  | some path =>
      rcases tableOf_cases (.at look path) with hok | ⟨fault, hfault, hspoilt⟩
      · exact .inl hok
      · exact .inr ⟨path, fault, rfl, hfault, hspoilt⟩

-- Either a file gives no table, and is named, or the merged values are at fault.
theorem error_cases (h : (loadFrom look globalPath root).value = .error fault) :
    (∃ path, IsSource globalPath root path ∧ (File.at look path).Spoilt fault) ∨
    ∃ global project detail, LoadedFrom look globalPath root global project ∧
      ofTable (merge global project) = .error detail ∧
      fault = .unfit (FilePath.join root projectFile) detail := by
  rw [loadFrom, value_ofFiles] at h
  rcases global_cases look globalPath with
    ⟨global, hglobal, hfirst⟩ | ⟨path, other, hpath, hfirst, hspoilt⟩
  · rw [hfirst] at h
    rcases tableOf_cases (.at look (FilePath.join root projectFile)) with
      ⟨project, hproject, hsecond⟩ | ⟨other, hsecond, hspoilt⟩
    · rw [hsecond] at h
      obtain ⟨detail, hread, hfault⟩ := mapError_eq_error_iff.mp h
      exact .inr ⟨global, project, detail, ⟨hglobal, hproject⟩, hread, hfault.symm⟩
    · rw [hsecond] at h
      cases h
      exact .inl ⟨_, .inr rfl, hspoilt⟩
  · rw [hfirst] at h
    cases h
    exact .inl ⟨path, .inl hpath, hspoilt⟩

-- One of the two files is at fault by itself: what can be read from each of them can be read from
-- both together.
theorem exists_source_at_fault (hfrom : LoadedFrom look globalPath root global project)
    (h : ¬ Reads Settings.read (.table (merge global project))) :
    ∃ path table, IsSource globalPath root path ∧ (look path).table? = some table ∧
      ¬ Reads Settings.read (.table table) := by
  by_cases hproject : Reads Settings.read (.table project)
  · have hglobal : ¬ Reads Settings.read (.table global) := by
      intro hreads
      obtain ⟨hg, hp⟩ := hfrom.isKeyed
      exact h (survives_read _ _ (isKeyed_table.mpr hg) (isKeyed_table.mpr hp) hreads hproject)
    cases globalPath with
    | none =>
        cases hfrom.global
        exact absurd reads_empty hglobal
    | some path => exact ⟨path, global, .inl rfl, hfrom.global, hglobal⟩
  · exact ⟨_, project, .inr rfl, hfrom.project, hproject⟩

-- A fault of the merged values is told of the right file just when the values of the project are at
-- fault by themselves. Some file always is.
theorem blames_iff (h : (loadFrom look globalPath root).value = .error fault) :
    (Blames look globalPath root fault ↔
      (∀ place detail, fault ≠ .unfit place detail) ∨
        ∃ table detail, (look (FilePath.join root projectFile)).table? = some table ∧
          ofTable table = .error detail) ∧
    ∃ path, IsSource globalPath root path ∧ look path ≠ .missing ∧
      Fails (only path look) globalPath root := by
  rcases error_cases h with ⟨path, hpath, hspoilt⟩ | ⟨global, project, detail, hfrom, hread, rfl⟩
  · have hfails : Fails (only path look) globalPath root := by
      refine hpath.fails ?_
      rw [only_self]
      exact hspoilt.table
    have hblames : Blames look globalPath root fault := by
      rw [Blames, hspoilt.named]
      exact ⟨hspoilt.there, hfails⟩
    exact ⟨iff_of_true hblames (.inl hspoilt.fit), path, hpath, hspoilt.there, hfails⟩
  · have hproject : IsSource globalPath root (FilePath.join root projectFile) := .inr rfl
    have hmerged : ¬ Reads Settings.read (.table (merge global project)) :=
      not_reads_iff.mpr ⟨detail, hread⟩
    constructor
    · rw [Blames, LoadFault.path, hproject.fails_only_iff hfrom.project]
      constructor
      · intro hblames
        obtain ⟨detail', hread'⟩ := not_reads_iff.mp hblames.2
        exact .inr ⟨project, detail', hfrom.project, hread'⟩
      · intro hcause
        rcases hcause with hfit | ⟨table, detail', htable, hread'⟩
        · exact absurd rfl (hfit _ detail)
        · obtain rfl := Option.some.inj (hfrom.project.symm.trans htable)
          have hreads := not_reads_iff.mpr ⟨detail', hread'⟩
          exact ⟨ne_missing_of_not_reads htable hreads, hreads⟩
    · obtain ⟨path, table, hpath, htable, hreads⟩ := exists_source_at_fault hfrom hmerged
      exact ⟨path, hpath, ne_missing_of_not_reads htable hreads,
        (hpath.fails_only_iff htable).mpr hreads⟩

end Files

section Faulty

-- A file that makes no sense: the library is said to be a truth value.
def faulty (_ : String) : FileState := .text "types = true\n"

theorem table?_faulty (path : String) : (faulty path).table? = some ⟨[("types", .bool true)]⟩ := by
  rw [faulty]
  decide +kernel

theorem not_reads_faulty : ¬ Reads Settings.read (.table ⟨[("types", .bool true)]⟩) := by
  intro h
  obtain ⟨settings, hread⟩ := h
  rw [Settings.read, read_table_eq_ok_iff Settings.independent (by simp [OrderedMap.keys])] at hread
  cases hread

theorem fails_faulty {globalPath : Option String} {root path : String}
    (hpath : IsSource globalPath root path) : Fails (only path faulty) globalPath root :=
  (hpath.fails_only_iff (table?_faulty path)).mpr not_reads_faulty

theorem blames_faulty_site : ∃ fault,
    (loadFrom (only "site/content-typegen.toml" faulty) (some "user.toml") "site").value =
      .error fault ∧
    Blames (only "site/content-typegen.toml" faulty) (some "user.toml") "site" fault := by
  have hplace : FilePath.join "site" projectFile = "site/content-typegen.toml" := by decide +kernel
  obtain ⟨fault, hfault⟩ := fails_faulty (.inr hplace.symm)
  obtain ⟨detail, hread⟩ := not_reads_iff.mp not_reads_faulty
  refine ⟨fault, hfault, (blames_iff hfault).1.mpr (.inr ⟨_, detail, ?_, hread⟩)⟩
  rw [hplace, only_self, table?_faulty]

-- The file of the user is at fault, and the file of the site, which is missing, is named.
theorem missing_site_named : ∃ fault,
    (loadFrom (only "user.toml" faulty) (some "user.toml") "site").value = .error fault ∧
      ¬ Blames (only "user.toml" faulty) (some "user.toml") "site" fault := by
  have hne : FilePath.join "site" projectFile ≠ "user.toml" := by decide +kernel
  obtain ⟨fault, hfault⟩ := fails_faulty (.inl rfl)
  refine ⟨fault, hfault, fun hblames => ?_⟩
  rcases error_cases hfault with ⟨path, hpath, hspoilt⟩ | ⟨-, -, detail, -, -, rfl⟩
  · rcases hpath with hpath | rfl
    · cases hpath
      have htable : (only "user.toml" faulty "user.toml").table? = none := hspoilt.table
      rw [only_self, table?_faulty] at htable
      cases htable
    · exact hspoilt.there (only_of_ne hne)
  · exact hblames.1 (only_of_ne hne)

end Faulty

end ContentTypes.Settings
