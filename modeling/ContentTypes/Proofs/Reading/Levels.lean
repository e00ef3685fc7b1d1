import ContentTypes.Proofs.Reading.Choices

namespace ContentTypes.Field

open Reading

def knownKinds : List String :=
  [ "Boolean", "Color", "Date", "Embed", "GeoPoint", "Number", "Text", "Timestamp", "UID", "Image"
  , "IntegrationFields", "Link", "StructuredText", "Select", "Group", "Slices" ]

-- The ways in which a kind can be read.
inductive KindCase : String → Prop
  | plain (kind : PlainKind) : KindCase kind.name
  | image : KindCase "Image"
  | integration : KindCase "IntegrationFields"
  | link : KindCase "Link"
  | richText : KindCase "StructuredText"
  | select : KindCase "Select"
  | group : KindCase "Group"
  | slices : KindCase "Slices"
  | unknown {kind : String} (h : kind ∉ knownKinds) : KindCase kind

theorem kindCase (kind : String) : KindCase kind := by
  by_cases h : kind ∈ knownKinds
  · simp only [knownKinds, List.mem_cons, List.not_mem_nil, or_false] at h
    obtain rfl | rfl | rfl | rfl | rfl | rfl | rfl | rfl | rfl | rfl | rfl | rfl | rfl | rfl | rfl |
      rfl := h
    · exact .plain .boolean
    · exact .plain .color
    · exact .plain .date
    · exact .plain .embed
    · exact .plain .geoPoint
    · exact .plain .number
    · exact .plain .text
    · exact .plain .timestamp
    · exact .plain .uid
    · exact .image
    · exact .integration
    · exact .link
    · exact .richText
    · exact .select
    · exact .group
    · exact .slices
  · exact .unknown h

section

variable (readField : Reader Json Field) (config fieldset : Json)

theorem ofParts_plain (kind : PlainKind) :
    ofParts readField kind.name config fieldset =
      (readConfig Caption.shape config).map (.plain kind) := by
  cases kind <;> rfl

theorem ofParts_unknown {kind : String} (h : kind ∉ knownKinds) :
    ofParts readField kind config fieldset =
      .ok (.unknown kind (forgivingConfig Caption.shape config)) := by
  simp only [knownKinds, List.mem_cons, not_or] at h
  have hplain : plainKind? kind = none := by
    unfold plainKind?
    split <;> simp_all
  simp only [ofParts, hplain]
  split <;> simp_all

end

theorem readLevel_eq_ok_iff {readField : Reader Json Field} {value : Json} {field : Field} :
    readLevel readField value = .ok field ↔
      ∃ members kind, value = .obj members ∧ members.get? "type" = some (.str kind) ∧
        ofParts readField kind ((members.get? "config").getD .null)
          ((members.get? "fieldset").getD .null) = .ok field := by
  constructor
  · intro h
    cases value with
    | obj members =>
        rw [readLevel] at h
        cases htype : members.get? "type" with
        | none =>
            rw [htype] at h
            cases h
        | some given =>
            rw [htype] at h
            cases given with
            | str kind => exact ⟨members, kind, rfl, htype, h⟩
            | _ => cases h
    | _ => cases h
  · rintro ⟨members, kind, rfl, htype, h⟩
    rw [readLevel, htype]
    exact h

section

variable {ρ : Type} (shape : Reading.Shape Json ρ)

theorem readConfig_null : readConfig shape .null = .ok shape.blank := rfl

theorem readConfig_of_ne {value : Json} (h : value ≠ .null) :
    readConfig shape value = shape.read value := by
  cases value with
  | null => exact absurd rfl h
  | num n => cases n <;> rfl
  | _ => rfl

end

end ContentTypes.Field
