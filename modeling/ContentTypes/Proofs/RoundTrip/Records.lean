import ContentTypes.Proofs.Reading.Records
import ContentTypes.Reading.Variant

namespace ContentTypes.Reading

variable {α ρ : Type}

-- Whatever is written is read as it was.
def Restores (read : Reader Json α) (write : α → Json) : Prop :=
  ∀ value, read (write value) = .ok value

theorem Restores.injective {read : Reader Json α} {write : α → Json} (h : Restores read write) :
    Function.Injective write := by
  intro first second he
  have hsecond := h second
  rw [← he, h first] at hsecond
  exact Except.ok.inj hsecond

theorem restores_text : Restores text Json.str := fun _ => rfl

theorem restores_list {read : Reader Json α} {write : α → Json} (h : Restores read write) :
    Restores (list read) (Json.ofList write) := by
  intro values
  refine list_eq_ok_iff.mpr ⟨values.map write, rfl, ?_⟩
  rw [List.forall₂_map_left_iff]
  exact List.forall₂_same.mpr fun value _ => h value

-- Only null shows itself as null.
theorem optional_of_ne_null (read : Reader Json α) {value : Json} (h : value ≠ .null) :
    optional read value = (read value).map some := by
  cases value with
  | null => exact absurd rfl h
  | num number => cases number <;> rfl
  | _ => rfl

-- Null stands for an absent value, so no other value may be written as null.
theorem restores_optional {read : Reader Json α} {write : α → Json} (h : Restores read write)
    (hnull : ∀ value, write value ≠ .null) : Restores (optional read) (Json.ofOption write) := by
  rintro (_ | value)
  · rfl
  · change optional read (write value) = .ok (some value)
    rw [optional_of_ne_null read (hnull value), h value]
    rfl

-- Slots that are filled one after the other, each with the member of its own key.
inductive Fills : List (Slot Json ρ) → List (String × Json) → ρ → ρ → Prop
  | nil (record : ρ) : Fills [] [] record record
  | cons {s : Slot Json ρ} {slots : List (Slot Json ρ)} {value : Json}
      {members : List (String × Json)} {record next result : ρ}
      (hs : s.fill record value = .ok next) (h : Fills slots members next result) :
      Fills (s :: slots) ((s.key, value) :: members) record result

namespace Fills

variable {slots : List (Slot Json ρ)} {members : List (String × Json)} {record result : ρ}

-- A slot that restores one part of a record.
theorem part {key : String} {need : Need} {read : Reader Json α} {set : ρ → α → ρ} {value : Json}
    {content : α} (hread : read value = .ok content)
    (h : Fills slots members (set record content) result) :
    Fills (slot key need read set :: slots) ((key, value) :: members) record result :=
  .cons (fill_slot_eq_ok_iff.mpr ⟨content, hread, rfl⟩) h

theorem keys (h : Fills slots members record result) :
    members.map Prod.fst = slots.map Slot.key := by
  induction h with
  | nil => rfl
  | cons _ _ ih => rw [List.map_cons, List.map_cons, ih]

-- With distinct keys it makes no difference that the values are looked up.
theorem fillFrom_lookup (h : Fills slots members record result)
    (hnodup : (slots.map Slot.key).Nodup) :
    fillFrom (fun key => members.lookup key) slots record = .ok result := by
  induction h with
  | nil => rfl
  | @cons s slots value members record next result hs _ ih =>
      obtain ⟨hnew, hrest⟩ := List.nodup_cons.mp hnodup
      have hothers : fillFrom (fun key => ((s.key, value) :: members).lookup key) slots next =
          fillFrom (fun key => members.lookup key) slots next := by
        apply fillFrom_congr
        intro t ht
        have hne : t.key ≠ s.key := fun he => hnew (he ▸ List.mem_map_of_mem ht)
        rw [lookup_cons_eq, if_neg hne]
      have hgiven : ((s.key, value) :: members).lookup s.key = some value := List.lookup_cons_self
      exact (fillFrom_present hgiven).mpr ⟨next, hs, hothers.trans (ih hrest)⟩

end Fills

-- A record that was written slot by slot.
theorem Shape.read_record {shape : Shape Json ρ} (hs : shape.Independent)
    {members : List (String × Json)} {result : ρ}
    (h : Fills shape.slots members shape.blank result) :
    shape.read (.record members) = .ok result := by
  have hnodup : (members.map Prod.fst).Nodup := by
    rw [h.keys]
    exact hs.nodup
  refine (read_named_eq_ok_iff hs (fun _ => rfl) rfl hnodup).mpr ?_
  exact h.fillFrom_lookup hs.nodup

end ContentTypes.Reading
