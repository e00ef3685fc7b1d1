import ContentTypes.Documentation
import ContentTypes.Proofs.Reading.Levels

namespace ContentTypes

open Reading

-- Whether what stands under a key, if anything does, can be read as a text that may be absent.
def fitsText : Option Json → Bool
  | none | some .null | some (.str _) => true
  | some _ => false

theorem optionalText_eq_ok_iff {value : Json} {result : Option String} :
    optionalText value = .ok result ↔ fitsText (some value) ∧ value.text? = result := by
  cases value with
  | null => exact ⟨fun h => ⟨rfl, Except.ok.inj h⟩, fun h => congrArg _ h.2⟩
  | str text => exact ⟨fun h => ⟨rfl, Except.ok.inj h⟩, fun h => congrArg _ h.2⟩
  | num n => cases n <;> exact ⟨fun h => (nomatch h), fun h => (nomatch h.1)⟩
  | _ => exact ⟨fun h => (nomatch h), fun h => (nomatch h.1)⟩

-- A slot for such a text, of a record in which the text is absent so far.
theorem fillFrom_optionalText {ρ : Type} {given : String → Option Json} {key : String}
    {set : ρ → Option String → ρ} {rest : List (Slot Json ρ)} {record result : ρ}
    (hblank : set record none = record) :
    fillFrom given (slot key .defaulted optionalText set :: rest) record = .ok result ↔
      fitsText (given key) ∧
        fillFrom given rest (set record ((given key).bind Json.text?)) = .ok result := by
  cases hgiven : given key with
  | none =>
      rw [fillFrom_absent hgiven, Option.bind_none, hblank]
      simp [slot, fitsText]
  | some value =>
      rw [fillFrom_present hgiven, Option.bind_some]
      simp only [fill_slot_eq_ok_iff, optionalText_eq_ok_iff]
      constructor
      · intro h
        obtain ⟨next, ⟨content, ⟨hfits, rfl⟩, rfl⟩, hrest⟩ := h
        exact ⟨hfits, hrest⟩
      · intro h
        exact ⟨_, ⟨_, ⟨h.1, rfl⟩, rfl⟩, h.2⟩

namespace Caption

-- Whether both texts of a caption can be read.
def fits (config : OrderedMap Json) : Bool :=
  fitsText (config.get? "label") && fitsText (config.get? "placeholder")

-- The texts that stand in a configuration.
def texts (config : OrderedMap Json) : Caption :=
  ⟨(config.get? "label").bind Json.text?, (config.get? "placeholder").bind Json.text?⟩

-- What a kind that is not known keeps of its configuration.
def kept (config : OrderedMap Json) : Caption :=
  if fits config then texts config else .none

theorem read_eq_ok_iff {config : OrderedMap Json} (h : config.keys.Nodup) {caption : Caption} :
    Caption.shape.read (Json.obj config) = .ok caption ↔ fits config ∧ texts config = caption := by
  have hread : Caption.shape.read (Json.obj config) = .ok caption ↔
      fillFrom config.get? Caption.shape.slots .none = .ok caption :=
    Shape.read_named_eq_ok_iff independent (fun _ => rfl) rfl h
  rw [hread, shape, fillFrom_optionalText rfl, fillFrom_optionalText rfl, fillFrom, fits,
    Bool.and_eq_true, and_assoc, Except.ok.injEq]
  rfl

theorem forgivingConfig_eq {config : OrderedMap Json} (h : config.keys.Nodup) :
    Field.forgivingConfig Caption.shape (.obj config) = kept config := by
  have hobject : Json.obj config ≠ .null := by
    intro he
    cases he
  rw [Field.forgivingConfig, Field.readConfig_of_ne _ hobject, kept]
  cases hread : Caption.shape.read (Json.obj config) with
  | ok caption =>
      obtain ⟨hfits, rfl⟩ := (read_eq_ok_iff h).mp hread
      rw [if_pos hfits]
  | error fault =>
      have hfits : ¬ fits config := by
        intro hfits
        have hok := (read_eq_ok_iff h).mpr ⟨hfits, rfl⟩
        rw [hread] at hok
        cases hok
      rw [if_neg hfits]
      rfl

variable {config : OrderedMap Json} {text : String}

theorem label_kept_iff (h : config.get? "label" = some (.str text)) :
    (kept config).label = some text ↔ fitsText (config.get? "placeholder") := by
  rw [kept, fits, texts, h]
  cases fitsText (config.get? "placeholder") <;> simp [fitsText, Caption.none, Json.text?]

theorem placeholder_kept_iff (h : config.get? "placeholder" = some (.str text)) :
    (kept config).placeholder = some text ↔ fitsText (config.get? "label") := by
  rw [kept, fits, texts, h]
  cases fitsText (config.get? "label") <;> simp [fitsText, Caption.none, Json.text?]

end Caption

theorem Field.ofJson_unknown {members config : OrderedMap Json} {kind : String}
    (htype : members.get? "type" = some (.str kind)) (hkind : kind ∉ knownKinds)
    (hconfig : members.get? "config" = some (.obj config)) (hkeys : config.keys.Nodup) :
    Field.ofJson (.obj members) = .ok (.unknown kind (Caption.kept config)) := by
  rw [ofJson, readLevels, readLevel_eq_ok_iff]
  refine ⟨members, kind, rfl, htype, ?_⟩
  rw [ofParts_unknown _ _ _ hkind, hconfig, Option.getD_some, Caption.forgivingConfig_eq hkeys]

-- The documentation names the label of a field, and no other line of it looks like that one.
theorem Docs.label_mem_iff (path : Path) (id kind : String) (caption : Caption) {label : String}
    (h : label ≠ "") :
    "Label: " ++ label ∈ (Docs.ofField path id (.unknown kind caption)).lines ↔
      caption.label = some label := by
  have hplaceholder : ∀ text, "Placeholder: " ++ text ≠ "Label: " ++ label := by
    intro text he
    simpa using congrArg String.toList he
  have hplace : "Label: " ++ label ≠ s!"A field in {path.describe}." := by
    intro he
    change "Label: " ++ label = "A field in " ++ path.describe ++ "." at he
    simpa using congrArg String.toList he
  have hapiId : "Label: " ++ label ≠ "API ID Path: " ++ path.apiIdPath id := by
    intro he
    simpa using congrArg String.toList he
  simp only [Docs.ofField, Field.label?, Field.placeholder?, Field.catalog?, nonEmpty?]
  simp [hplaceholder, hplace, hapiId, h]

-- A kind that is not known takes any configuration. A label or a placeholder that is a text is
-- kept, and shown, just when the other of the two is a text, null or not there, whatever else there
-- is.
theorem unknown_keeps_caption {members config : OrderedMap Json} {kind : String}
    (htype : members.get? "type" = some (.str kind)) (hkind : kind ∉ Field.knownKinds)
    (hconfig : members.get? "config" = some (.obj config)) (hkeys : config.keys.Nodup) :
    ∃ caption, Field.ofJson (.obj members) = .ok (.unknown kind caption) ∧
      (∀ label, config.get? "label" = some (.str label) →
        (caption.label = some label ↔ fitsText (config.get? "placeholder"))) ∧
      (∀ placeholder, config.get? "placeholder" = some (.str placeholder) →
        (caption.placeholder = some placeholder ↔ fitsText (config.get? "label"))) ∧
      ∀ path id label, config.get? "label" = some (.str label) → label ≠ "" →
        ("Label: " ++ label ∈ (Docs.ofField path id (.unknown kind caption)).lines ↔
          fitsText (config.get? "placeholder")) := by
  refine ⟨Caption.kept config, Field.ofJson_unknown htype hkind hconfig hkeys,
    fun label h => Caption.label_kept_iff h, fun placeholder h => Caption.placeholder_kept_iff h, ?_⟩
  intro path id label h hne
  rw [Docs.label_mem_iff path id kind _ hne, Caption.label_kept_iff h]

-- A separator with a label, and with something under the key of the placeholder.
def Json.separatorConfig (placeholder : Json) : OrderedMap Json :=
  ⟨[("label", .str "Divider"), ("placeholder", placeholder), ("style", .ofNat 2)]⟩

def Json.separator (placeholder : Json) : OrderedMap Json :=
  ⟨[("type", .str "Separator"), ("config", .obj (separatorConfig placeholder))]⟩

theorem unknown_keeps_caption_separator :
    ∃ caption, Field.ofJson (.obj (Json.separator .null)) = .ok (.unknown "Separator" caption) ∧
      caption.label = some "Divider" := by
  obtain ⟨caption, hread, hlabel, -⟩ := @unknown_keeps_caption (Json.separator .null)
    (Json.separatorConfig .null) "Separator" rfl (by decide) rfl (by decide)
  exact ⟨caption, hread, (hlabel "Divider" rfl).mpr rfl⟩

-- A number in the place of the placeholder takes the label away.
theorem separator_label_lost :
    (Json.separatorConfig (.ofNat 7)).get? "label" = some (.str "Divider") ∧
      ¬ ∃ caption, Field.ofJson (.obj (Json.separator (.ofNat 7))) =
        .ok (.unknown "Separator" caption) ∧ caption.label = some "Divider" := by
  refine ⟨rfl, fun h => ?_⟩
  obtain ⟨caption, hread, hlabel⟩ := h
  have hlost : Field.ofJson (.obj (Json.separator (.ofNat 7))) = .ok (.unknown "Separator" .none) :=
    @Field.ofJson_unknown _ (Json.separatorConfig (.ofNat 7)) _ rfl (by decide) rfl (by decide)
  rw [hlost] at hread
  cases hread
  cases hlabel

end ContentTypes
