import ContentTypes.Proofs.Synthesis.Requests

namespace ContentTypes

-- A table that took these names, each once, and no others.
structure NameTable.GrowsBy (before after : NameTable) (names : List String) : Prop where
  nodup : names.Nodup
  fresh : ∀ name ∈ names, name ∉ before.taken
  taken : ∀ name, name ∈ after.taken ↔ name ∈ names ∨ name ∈ before.taken

namespace Synthesis

open Naming (run)

theorem Claimed.growsBy {before after : NameTable} {requests : List String}
    {declarations : List Declaration} (h : Claimed before after requests declarations) :
    before.GrowsBy after (declarations.map Declaration.name) where
  nodup := h.names_nodup
  fresh _ := h.names_notMem
  taken name := by rw [h.table, NameTable.mem_taking, h.mem_names]

end Synthesis

end ContentTypes
