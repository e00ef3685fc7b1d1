import ContentTypes.Settings.Load
import ContentTypes.Proofs.Toml.Parsing
import ContentTypes.Proofs.Toml.Records

namespace ContentTypes

open Reading

-- The table of a file. A file that is missing says nothing.
def FileState.table? : FileState → Option Toml.Table
  | .missing => some .empty
  | .text content => Toml.ofText? content
  | .directory | .notText => none

theorem FileState.isKeyed_table? {state : FileState} {table : Toml.Table}
    (h : state.table? = some table) : table.IsKeyed := by
  cases state with
  | missing =>
      cases h
      exact OrderedMap.isKeyed_empty
  | text content => exact Toml.isKeyed_ofText? h
  | directory => cases h
  | notText => cases h

namespace Settings

def tableOf (file : File) : Except LoadFault Toml.Table := file.table.value.map (·.getD .empty)

-- The fault of a file that is there and gives no table.
structure File.Spoilt (file : File) (fault : LoadFault) : Prop where
  table : file.state.table? = none
  there : file.state ≠ .missing
  named : fault.path = file.path
  fit : ∀ place detail, fault ≠ .unfit place detail

theorem tableOf_cases (file : File) :
    (∃ table, file.state.table? = some table ∧ tableOf file = .ok table) ∨
      ∃ fault, tableOf file = .error fault ∧ file.Spoilt fault := by
  obtain ⟨path, state⟩ := file
  cases state with
  | missing => exact .inl ⟨.empty, rfl, rfl⟩
  | directory => exact .inr ⟨_, rfl, rfl, by simp, rfl, by simp⟩
  | notText => exact .inr ⟨_, rfl, rfl, by simp, rfl, by simp⟩
  | text content =>
      cases htext : Toml.ofText? content with
      | none =>
          refine .inr ⟨.malformed path, ?_, htext, by simp, rfl, by simp⟩
          simp only [tableOf, File.table, htext]
          rfl
      | some table =>
          refine .inl ⟨table, htext, ?_⟩
          simp only [tableOf, File.table, htext]
          rfl

theorem tableOf_eq_ok_iff {file : File} {table : Toml.Table} :
    tableOf file = .ok table ↔ file.state.table? = some table := by
  obtain ⟨other, hstate, hfile⟩ | ⟨fault, hfile, hspoilt⟩ := tableOf_cases file
  · rw [hstate, hfile, Except.ok.injEq, Option.some.injEq]
  · rw [hspoilt.table, hfile]
    simp

theorem value_ofFiles (global : Option File) (project : File) :
    (ofFiles global project).value = (do
      let globalTable ← global.elim (.ok .empty) tableOf
      let projectTable ← tableOf project
      (ofTable (Toml.merge globalTable projectTable)).mapError (.unfit project.path)) := by
  unfold ofFiles tableOf
  generalize project.table = loaded
  obtain ⟨value, events⟩ := loaded
  cases global with
  | none => cases value <;> rfl
  | some file =>
      simp only [Option.elim]
      generalize file.table = loaded'
      obtain ⟨value', events'⟩ := loaded'
      cases value' <;> cases value <;> rfl

end Settings

end ContentTypes
