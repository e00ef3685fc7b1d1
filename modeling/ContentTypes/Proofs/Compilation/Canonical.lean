import ContentTypes.Proofs.Compilation.Alone

namespace ContentTypes

open Naming (declarationName documentName sharedSliceName)

theorem Naming.getLast?_unionName (model : SharedSlice) :
    (declarationName [.sharedSlice model] ["Variation"]).toList.getLast? = some 'n' :=
  getLast?_declarationName [model.id, "Slice"] "Variation" "Variati".toList (a := 'o')
    rfl (by decide) (by decide) (by decide)

namespace Compilation

-- Only the name of the slice itself is taken before the union claims its own.
theorem unionName_eq (model : SharedSlice) :
    unionName model = declarationName [.sharedSlice model] ["Variation"] := by
  apply NameTable.free_of_notMem
  have hlast := Naming.getLast?_unionName model
  intro hm
  have hslice : declarationName [.sharedSlice model] ["Variation"] = sharedSliceName model.id := by
    simpa [sliceTable, NameTable.empty] using hm
  rw [hslice, Naming.getLast?_sharedSliceName] at hlast
  exact absurd hlast (by decide)

-- A document is its content first and its alias last, a shared slice ends with its union and its
-- alias. None of the four has a number, whatever lies between them.
theorem top_level_names_canonical :
    (∀ model : CustomType, ∃ properties inner,
      (ofCustomType model).value = ⟨documentName model.id,
        (Declaration.ofRecord (declarationName [.customType model] []) properties).withDocs
            (.line s!"Content for {model.displayLabel} documents") ::
          inner ++ [documentAlias model (documentName model.id)
            (declarationName [.customType model] [])]⟩) ∧
    ∀ model : SharedSlice, ∃ inner members,
      (ofSharedSlice model).value = ⟨sharedSliceName model.id, inner ++
        [(Declaration.ofAlias (declarationName [.sharedSlice model] ["Variation"])
            (.unionOrNever members)).withDocs
              (.ofPosition "Slice variation for" [.sharedSlice model]),
          sliceAlias model (sharedSliceName model.id)
            (declarationName [.sharedSlice model] ["Variation"])]⟩ := by
  constructor
  · intro model
    refine ⟨(innerContent model).1, (innerContent model).2, ?_⟩
    rw [ofCustomType_value, content, contentName_eq]
    rfl
  · intro model
    refine ⟨(variants model).2, (variants model).1.map fun name => .named name [], ?_⟩
    rw [ofSharedSlice_value, unionAlias, unionName_eq]

end Compilation

end ContentTypes
