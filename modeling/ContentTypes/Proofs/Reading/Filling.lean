import Mathlib.Data.List.Perm.Basic
import ContentTypes.Proofs.Reading.Results
import ContentTypes.Reading.Record

namespace ContentTypes.Reading

variable {σ τ α β ρ : Type}

namespace Slot

-- Two values fill two slots with the same outcome in either order.
def Commutes (s t : Slot σ ρ) : Prop :=
  ∀ (record : ρ) (value other : σ) (result : ρ),
    (s.fill record value >>= (t.fill · other)) = .ok result ↔
      (t.fill record other >>= (s.fill · value)) = .ok result

theorem Commutes.symm {s t : Slot σ ρ} (h : s.Commutes t) : t.Commutes s :=
  fun record value other result => (h record other value result).symm

end Slot

@[simp] theorem key_slot (key : String) (need : Need) (read : Reader σ α) (set : ρ → α → ρ) :
    (slot key need read set).key = key := rfl

theorem fill_slot_eq_ok_iff {key : String} {need : Need} {read : Reader σ α} {set : ρ → α → ρ}
    {record result : ρ} {value : σ} :
    (slot key need read set).fill record value = .ok result ↔
      ∃ content, read value = .ok content ∧ set record content = result :=
  map_eq_ok_iff

-- Slots that set different parts of a record.
@[simp] theorem commutes_slot {key key' : String} {need need' : Need} {read : Reader σ α}
    {read' : Reader σ β} {set : ρ → α → ρ} {set' : ρ → β → ρ}
    (hset : ∀ record content content',
      set' (set record content) content' = set (set' record content') content) :
    (slot key need read set).Commutes (slot key' need' read' set') := by
  intro record value other result
  simp only [bind_eq_ok_iff, fill_slot_eq_ok_iff]
  constructor
  · rintro ⟨_, ⟨content, hread, rfl⟩, content', hread', rfl⟩
    exact ⟨_, ⟨content', hread', rfl⟩, content, hread, (hset record content content').symm⟩
  · rintro ⟨_, ⟨content', hread', rfl⟩, content, hread, rfl⟩
    exact ⟨_, ⟨content, hread, rfl⟩, content', hread', hset record content content'⟩

-- Fills slots in a row, each with the value that is given for its key.
def fillFrom (given : String → Option σ) : List (Slot σ ρ) → ρ → Except Fault ρ
  | [], record => .ok record
  | slot :: rest, record =>
      match given slot.key with
      | none =>
          if slot.need = .required then .error (.missing slot.key)
          else fillFrom given rest record
      | some value => slot.fill record value >>= fillFrom given rest

section

variable {given : String → Option σ} {first : Slot σ ρ} {slots : List (Slot σ ρ)}
  {record result : ρ}

theorem fillFrom_absent (h : given first.key = none) :
    fillFrom given (first :: slots) record = .ok result ↔
      first.need ≠ .required ∧ fillFrom given slots record = .ok result := by
  rw [fillFrom, h]
  by_cases hneed : first.need = .required
  · simp [hneed]
  · simp [hneed]

theorem fillFrom_present {value : σ} (h : given first.key = some value) :
    fillFrom given (first :: slots) record = .ok result ↔
      ∃ next, first.fill record value = .ok next ∧ fillFrom given slots next = .ok result := by
  rw [fillFrom, h]
  exact bind_eq_ok_iff

theorem fillFrom_congr {given' : String → Option σ}
    (h : ∀ s ∈ slots, given s.key = given' s.key) :
    fillFrom given slots record = fillFrom given' slots record := by
  induction slots generalizing record with
  | nil => rfl
  | cons first rest ih =>
      have hrest := fun next => @ih next fun s hs => h s (List.mem_cons_of_mem _ hs)
      simp only [fillFrom, h first List.mem_cons_self, hrest]
      cases given' first.key with
      | none => rfl
      | some value => exact congrArg (first.fill record value >>= ·) (funext hrest)

theorem fillFrom_nothing :
    fillFrom (fun _ => (none : Option σ)) slots record = .ok result ↔
      (∀ s ∈ slots, s.need ≠ .required) ∧ record = result := by
  induction slots with
  | nil => simp [fillFrom]
  | cons first rest ih =>
      rw [fillFrom_absent rfl, ih]
      simp [and_assoc]

theorem fillFrom_swap {second : Slot σ ρ} (h : first.Commutes second) :
    fillFrom given (first :: second :: slots) record = .ok result →
      fillFrom given (second :: first :: slots) record = .ok result := by
  intro hfill
  cases hfirst : given first.key with
  | none =>
      obtain ⟨hneed, hfill⟩ := (fillFrom_absent hfirst).mp hfill
      cases hsecond : given second.key with
      | none =>
          obtain ⟨hneed', hfill⟩ := (fillFrom_absent hsecond).mp hfill
          exact (fillFrom_absent hsecond).mpr ⟨hneed', (fillFrom_absent hfirst).mpr ⟨hneed, hfill⟩⟩
      | some other =>
          obtain ⟨next, hnext, hfill⟩ := (fillFrom_present hsecond).mp hfill
          exact (fillFrom_present hsecond).mpr
            ⟨next, hnext, (fillFrom_absent hfirst).mpr ⟨hneed, hfill⟩⟩
  | some value =>
      obtain ⟨next, hnext, hfill⟩ := (fillFrom_present hfirst).mp hfill
      cases hsecond : given second.key with
      | none =>
          obtain ⟨hneed, hfill⟩ := (fillFrom_absent hsecond).mp hfill
          exact (fillFrom_absent hsecond).mpr
            ⟨hneed, (fillFrom_present hfirst).mpr ⟨next, hnext, hfill⟩⟩
      | some other =>
          obtain ⟨last, hlast, hfill⟩ := (fillFrom_present hsecond).mp hfill
          have hboth := (h record value other last).mp (bind_eq_ok_iff.mpr ⟨next, hnext, hlast⟩)
          obtain ⟨next', hnext', hlast'⟩ := bind_eq_ok_iff.mp hboth
          exact (fillFrom_present hsecond).mpr
            ⟨next', hnext', (fillFrom_present hfirst).mpr ⟨last, hlast', hfill⟩⟩

-- Slots that commute may be filled in any order.
theorem fillFrom_perm {slots' : List (Slot σ ρ)} (hperm : slots.Perm slots')
    (hcommute : slots.Pairwise Slot.Commutes)
    (hfill : fillFrom given slots record = .ok result) :
    fillFrom given slots' record = .ok result := by
  induction hperm generalizing record with
  | nil => exact hfill
  | @cons first rest rest' _ ih =>
      have hrest := (List.pairwise_cons.mp hcommute).2
      cases hfirst : given first.key with
      | none =>
          obtain ⟨hneed, hfill⟩ := (fillFrom_absent hfirst).mp hfill
          exact (fillFrom_absent hfirst).mpr ⟨hneed, ih hrest hfill⟩
      | some value =>
          obtain ⟨next, hnext, hfill⟩ := (fillFrom_present hfirst).mp hfill
          exact (fillFrom_present hfirst).mpr ⟨next, hnext, ih hrest hfill⟩
  | @swap first second rest =>
      exact fillFrom_swap ((List.pairwise_cons.mp hcommute).1 first List.mem_cons_self) hfill
  | trans hfirst _ ih ih' =>
      exact ih' (hcommute.perm hfirst fun h => h.symm) (ih hcommute hfill)

theorem fillFrom_perm_iff {slots' : List (Slot σ ρ)} (hperm : slots.Perm slots')
    (hcommute : slots.Pairwise Slot.Commutes) :
    fillFrom given slots record = .ok result ↔ fillFrom given slots' record = .ok result :=
  ⟨fillFrom_perm hperm hcommute,
    fillFrom_perm hperm.symm (hcommute.perm hperm fun h => h.symm)⟩

end

-- A slot that leaves a part of the record alone.
def Slot.Keeps (get : ρ → β) (s : Slot σ ρ) : Prop :=
  ∀ record value next, s.fill record value = .ok next → get next = get record

@[simp] theorem keeps_slot {get : ρ → β} {key : String} {need : Need} {read : Reader σ α}
    {set : ρ → α → ρ} (h : ∀ record content, get (set record content) = get record) :
    (slot key need read set).Keeps get := by
  intro record value next hfill
  obtain ⟨content, -, rfl⟩ := fill_slot_eq_ok_iff.mp hfill
  exact h record content

theorem fillFrom_keeps {get : ρ → β} {given : String → Option σ} {slots : List (Slot σ ρ)}
    (h : ∀ s ∈ slots, s.Keeps get) {record result : ρ}
    (hfill : fillFrom given slots record = .ok result) : get result = get record := by
  induction slots generalizing record with
  | nil =>
      cases hfill
      rfl
  | cons first rest ih =>
      have hrest : ∀ s ∈ rest, s.Keeps get := fun s hs => h s (List.mem_cons_of_mem _ hs)
      cases hfirst : given first.key with
      | none => exact ih hrest ((fillFrom_absent hfirst).mp hfill).2
      | some value =>
          obtain ⟨next, hnext, hfill⟩ := (fillFrom_present hfirst).mp hfill
          exact (ih hrest hfill).trans (h first List.mem_cons_self record value next hnext)

-- What one slot sets is what it reads, if it is the only slot that sets it.
theorem fillFrom_sets {get : ρ → α} {given : String → Option σ} {slots : List (Slot σ ρ)}
    {key : String} {need : Need} {read : Reader σ α} {set : ρ → α → ρ}
    (hnodup : (slots.map Slot.key).Nodup) (hslot : slot key need read set ∈ slots)
    (hset : ∀ record content, get (set record content) = content)
    (hothers : ∀ s ∈ slots, s.key ≠ key → s.Keeps get) {record result : ρ}
    (hfill : fillFrom given slots record = .ok result) :
    (given key = none → get result = get record) ∧
      ∀ value, given key = some value → read value = .ok (get result) := by
  induction slots generalizing record with
  | nil => cases hslot
  | cons first rest ih =>
      obtain ⟨hnew, hrest⟩ := List.nodup_cons.mp hnodup
      have hlater := fun s hs => hothers s (List.mem_cons_of_mem _ hs)
      rcases List.mem_cons.mp hslot with rfl | hslot
      · have hkeeps : ∀ s ∈ rest, s.Keeps get := fun s hs =>
          hlater s hs fun he => hnew (List.mem_map.mpr ⟨s, hs, he⟩)
        cases hfirst : given key with
        | none =>
            have hfill := ((fillFrom_absent hfirst).mp hfill).2
            exact ⟨fun _ => fillFrom_keeps hkeeps hfill, fun _ h => (nomatch h)⟩
        | some value =>
            obtain ⟨next, hnext, hfill⟩ := (fillFrom_present hfirst).mp hfill
            obtain ⟨content, hread, rfl⟩ := fill_slot_eq_ok_iff.mp hnext
            refine ⟨fun h => (nomatch h), fun _ h => ?_⟩
            cases h
            rw [fillFrom_keeps hkeeps hfill, hset]
            exact hread
      · have hne : first.key ≠ key := fun he =>
          hnew (he ▸ List.mem_map_of_mem (f := Slot.key) hslot)
        have hkeep := hothers first List.mem_cons_self hne
        cases hfirst : given first.key with
        | none => exact ih hrest hslot hlater ((fillFrom_absent hfirst).mp hfill).2
        | some value =>
            obtain ⟨next, hnext, hfill⟩ := (fillFrom_present hfirst).mp hfill
            rw [← hkeep record value next hnext]
            exact ih hrest hslot hlater hfill

theorem fillFrom_required {given : String → Option σ} {slots : List (Slot σ ρ)} {s : Slot σ ρ}
    (hs : s ∈ slots) (hneed : s.need = .required) {record result : ρ}
    (hfill : fillFrom given slots record = .ok result) : (given s.key).isSome := by
  induction slots generalizing record with
  | nil => cases hs
  | cons first rest ih =>
      cases hfirst : given first.key with
      | none =>
          obtain ⟨hfree, hfill⟩ := (fillFrom_absent hfirst).mp hfill
          rcases List.mem_cons.mp hs with rfl | hs
          · exact absurd hneed hfree
          · exact ih hs hfill
      | some value =>
          obtain ⟨next, -, hfill⟩ := (fillFrom_present hfirst).mp hfill
          rcases List.mem_cons.mp hs with rfl | hs
          · rw [hfirst]
            rfl
          · exact ih hs hfill

-- A slot that does with what is given now what another did with what was given before, up to a
-- change of the record. The two may read from different sources.
structure Slot.Follows (before : String → Option σ) (now : String → Option τ) (change : ρ → ρ)
    (s : Slot σ ρ) (t : Slot τ ρ) : Prop where
  key : t.key = s.key
  need : t.need = s.need
  absent : before s.key = none → now s.key = none
  present : ∀ value, before s.key = some value → ∃ value', now s.key = some value' ∧
    ∀ record next, s.fill record value = .ok next →
      t.fill (change record) value' = .ok (change next)

theorem fillFrom_follows {before : String → Option σ} {now : String → Option τ} (change : ρ → ρ)
    {slots : List (Slot σ ρ)} {slots' : List (Slot τ ρ)}
    (h : List.Forall₂ (Slot.Follows before now change) slots slots') {record result : ρ}
    (hfill : fillFrom before slots record = .ok result) :
    fillFrom now slots' (change record) = .ok (change result) := by
  induction h generalizing record with
  | nil =>
      cases hfill
      rfl
  | @cons s t rest rest' hst _ ih =>
      cases hbefore : before s.key with
      | none =>
          obtain ⟨hneed, hfill⟩ := (fillFrom_absent hbefore).mp hfill
          have hnow : now t.key = none := hst.key ▸ hst.absent hbefore
          exact (fillFrom_absent hnow).mpr ⟨hst.need ▸ hneed, ih hfill⟩
      | some value =>
          obtain ⟨next, hnext, hfill⟩ := (fillFrom_present hbefore).mp hfill
          obtain ⟨value', hnow, hpresent⟩ := hst.present value hbefore
          rw [← hst.key] at hnow
          exact (fillFrom_present hnow).mpr ⟨change next, hpresent record next hnext, ih hfill⟩

end ContentTypes.Reading
