import Mathlib.Data.List.Forall2
import ContentTypes.Reading.Basic

namespace ContentTypes.Reading

variable {σ α β : Type}

theorem bind_eq_ok_iff {ε : Type} {first : Except ε α} {next : α → Except ε β} {result : β} :
    (first >>= next) = .ok result ↔ ∃ value, first = .ok value ∧ next value = .ok result := by
  cases first with
  | error fault => exact ⟨fun h => (nomatch h), fun ⟨_, h, _⟩ => (nomatch h)⟩
  | ok value => exact ⟨fun h => ⟨value, rfl, h⟩, fun ⟨_, h, hnext⟩ => Except.ok.inj h ▸ hnext⟩

theorem pure_eq_ok_iff {value result : α} :
    (pure value : Except Fault α) = .ok result ↔ value = result :=
  ⟨Except.ok.inj, congrArg _⟩

theorem map_eq_ok_iff {first : Except Fault α} {change : α → β} {result : β} :
    first.map change = .ok result ↔ ∃ value, first = .ok value ∧ change value = result := by
  cases first with
  | error fault => exact ⟨fun h => (nomatch h), fun ⟨_, h, _⟩ => (nomatch h)⟩
  | ok value =>
      refine ⟨fun h => ⟨value, rfl, Except.ok.inj h⟩, ?_⟩
      rintro ⟨_, h, rfl⟩
      cases h
      rfl

theorem mapError_eq_ok_iff {ε ε' : Type} {first : Except ε α} {change : ε → ε'} {result : α} :
    first.mapError change = .ok result ↔ first = .ok result := by
  cases first with
  | error fault => exact ⟨fun h => (nomatch h), fun h => (nomatch h)⟩
  | ok value => exact ⟨fun h => congrArg _ (Except.ok.inj h), fun h => congrArg _ (Except.ok.inj h)⟩

theorem mapError_eq_error_iff {ε ε' : Type} {first : Except ε α} {change : ε → ε'} {fault : ε'} :
    first.mapError change = .error fault ↔ ∃ cause, first = .error cause ∧ change cause = fault := by
  cases first with
  | error cause => exact ⟨fun h => ⟨cause, rfl, Except.error.inj h⟩, fun ⟨_, h, hchange⟩ =>
      Except.error.inj h ▸ congrArg _ hchange⟩
  | ok value => exact ⟨fun h => (nomatch h), fun ⟨_, h, _⟩ => (nomatch h)⟩

-- Each item is read by itself.
theorem mapM_eq_ok_iff {read : σ → Except Fault α} {items : List σ} {results : List α} :
    items.mapM read = .ok results ↔
      List.Forall₂ (fun item result => read item = .ok result) items results := by
  induction items generalizing results with
  | nil =>
      rw [List.mapM_nil, List.forall₂_nil_left_iff]
      exact ⟨fun h => (Except.ok.inj h).symm, fun h => h ▸ rfl⟩
  | cons item rest ih =>
      rw [List.mapM_cons, List.forall₂_cons_left_iff, bind_eq_ok_iff]
      constructor
      · rintro ⟨first, hfirst, h⟩
        obtain ⟨others, hothers, h⟩ := bind_eq_ok_iff.mp h
        cases h
        exact ⟨first, others, hfirst, ih.mp hothers, rfl⟩
      · rintro ⟨first, others, hfirst, hothers, rfl⟩
        exact ⟨first, hfirst, bind_eq_ok_iff.mpr ⟨others, ih.mpr hothers, rfl⟩⟩

-- What two lists have to do with each other by way of a third.
theorem forall₂_join {δ : Type} {first : α → β → Prop} {second : α → δ → Prop}
    {both : β → δ → Prop} (h : ∀ a b d, first a b → second a d → both b d) {as : List α}
    {bs : List β} {ds : List δ} (hfirst : List.Forall₂ first as bs)
    (hsecond : List.Forall₂ second as ds) : List.Forall₂ both bs ds := by
  induction hfirst generalizing ds with
  | nil =>
      cases hsecond
      exact .nil
  | cons hab _ ih =>
      cases hsecond with
      | cons had hrest => exact .cons (h _ _ _ hab had) (ih hrest)

theorem map_eq_of_forall₂ {δ : Type} {related : α → β → Prop} {f : α → δ} {g : β → δ}
    (h : ∀ a b, related a b → g b = f a) {as : List α} {bs : List β}
    (hlists : List.Forall₂ related as bs) : bs.map g = as.map f := by
  induction hlists with
  | nil => rfl
  | cons hab _ ih => rw [List.map_cons, List.map_cons, h _ _ hab, ih]

theorem readEntry_eq_ok_iff [Source σ] {read : Reader σ α} {member : Option String × σ}
    {entry : String × α} :
    readEntry read member = .ok entry ↔ member.1 = some entry.1 ∧ read member.2 = .ok entry.2 := by
  obtain ⟨_ | key, value⟩ := member
  · exact ⟨fun h => (nomatch h), fun h => (nomatch h.1)⟩
  · simp only [readEntry, bind_eq_ok_iff, mapError_eq_ok_iff, Except.ok.injEq, Option.some.injEq]
    constructor
    · rintro ⟨content, hread, rfl⟩
      exact ⟨rfl, hread⟩
    · rintro ⟨rfl, hread⟩
      exact ⟨entry.2, hread, rfl⟩

theorem list_eq_ok_iff [Source σ] {read : Reader σ α} {value : σ} {results : List α} :
    list read value = .ok results ↔
      ∃ items, Source.look value = .ok (.arr items) ∧
        List.Forall₂ (fun item result => read item = .ok result) items results := by
  simp only [list, bind_eq_ok_iff, ← mapM_eq_ok_iff]
  constructor
  · rintro ⟨glance, hlook, hread⟩
    cases glance with
    | arr items => exact ⟨items, hlook, hread⟩
    | _ => cases hread
  · rintro ⟨items, hlook, hread⟩
    exact ⟨_, hlook, hread⟩

theorem orderedMap_eq_ok_iff [Source σ] {read : Reader σ α} {value : σ} {result : OrderedMap α} :
    orderedMap read value = .ok result ↔
      ∃ members entries, Source.look value = .ok (.obj members) ∧
        List.Forall₂ (fun member entry => member.1 = some entry.1 ∧ read member.2 = .ok entry.2)
          members entries ∧ .ofList entries = result := by
  simp only [orderedMap, bind_eq_ok_iff, ← readEntry_eq_ok_iff, ← mapM_eq_ok_iff]
  constructor
  · rintro ⟨glance, hlook, hread⟩
    cases glance with
    | obj members =>
        obtain ⟨entries, hentries, rfl⟩ := map_eq_ok_iff.mp hread
        exact ⟨members, entries, hlook, hentries, rfl⟩
    | _ => cases hread
  · rintro ⟨members, entries, hlook, hentries, rfl⟩
    exact ⟨_, hlook, map_eq_ok_iff.mpr ⟨entries, hentries, rfl⟩⟩

end ContentTypes.Reading
