import Mathlib.Data.List.Nodup
import ContentTypes.Emitter.Trace
import ContentTypes.Proofs.Module.Acceptance

namespace ContentTypes

open Emitter (Call)

namespace Item

-- An item may get more fields behind those it has and may become exported. All else stays.
def Grows : Item → Item → Prop
  | .record before, .record after =>
      after.name = before.name ∧ after.docs = before.docs ∧ before.fields <+: after.fields ∧
        (before.exported → after.exported)
  | .alias before, .alias after =>
      after.name = before.name ∧ after.docs = before.docs ∧ after.params = before.params ∧
        after.ty = before.ty ∧ (before.exported → after.exported)
  | _, _ => False

namespace Grows

variable {first second third : Item}

theorem refl (item : Item) : item.Grows item := by
  cases item <;> simp [Grows]

theorem trans (h : first.Grows second) (hnext : second.Grows third) : first.Grows third := by
  obtain before | before := first <;> obtain between | between := second <;>
    obtain after | after := third <;> try contradiction
  · obtain ⟨hname, hdocs, hfields, hexported⟩ := h
    obtain ⟨hname', hdocs', hfields', hexported'⟩ := hnext
    exact ⟨hname'.trans hname, hdocs'.trans hdocs, hfields.trans hfields',
      fun he => hexported' (hexported he)⟩
  · obtain ⟨hname, hdocs, hparams, hty, hexported⟩ := h
    obtain ⟨hname', hdocs', hparams', hty', hexported'⟩ := hnext
    exact ⟨hname'.trans hname, hdocs'.trans hdocs, hparams'.trans hparams, hty'.trans hty,
      fun he => hexported' (hexported he)⟩

theorem name_eq (h : first.Grows second) : second.name = first.name := by
  obtain before | before := first <;> obtain after | after := second <;> try contradiction
  · exact h.1
  · exact h.1

theorem exists_record {before : RecordItem} (h : (Item.record before).Grows second) :
    ∃ item, second = .record item ∧ item.name = before.name := by
  obtain after | after := second
  · exact ⟨after, rfl, h.1⟩
  · contradiction

theorem asExported (item : Item) : item.Grows item.asExported := by
  obtain item | item := item
  · exact ⟨rfl, rfl, List.prefix_refl _, fun _ => rfl⟩
  · exact ⟨rfl, rfl, rfl, rfl, fun _ => rfl⟩

theorem addField (field : RecordField) (item : Item) : item.Grows (item.addField field) := by
  obtain item | item := item
  · exact ⟨rfl, rfl, List.prefix_append _ _, id⟩
  · exact refl _

end Grows

end Item

namespace Module

variable {m : Module}

-- Carries out a call. Its handle is forgotten.
def perform (m : Module) : Call → Module
  | .createRecord name docs => (run (createRecord name docs) m).2
  | .addField handle name ty docs => (run (addField handle name ty docs) m).2
  | .createAlias name ty docs params => (run (createAlias name ty docs params) m).2
  | .markExported name => (run (markExported name) m).2

def performAll (m : Module) (calls : List Call) : Module := calls.foldl perform m

-- Every item stays in its place and grows at most, and there is one place at most where something
-- changes or comes in.
structure Evolves (before after : Module) : Prop where
  grows : ∀ (i : Nat) (item : Item), before.items[i]? = some item →
    ∃ later, after.items[i]? = some later ∧ item.Grows later
  once : ∃ i, ∀ j : Nat, j ≠ i → after.items[j]? = before.items[j]?

-- What is added through the handle is dropped.
def Ignores (m : Module) (handle : RecordHandle) : Prop :=
  ∀ field ty docs, m.perform (.addField handle field ty docs) = m

-- What is added through the handle goes behind the fields of the record in a place.
def LeadsTo (m : Module) (handle : RecordHandle) (i : Nat) (item : RecordItem) : Prop :=
  m.items[i]? = some (.record item) ∧ ∀ field ty docs,
    m.perform (.addField handle field ty docs) =
      ⟨m.items.set i (.record { item with fields := item.fields ++ [⟨field, ty, docs⟩] })⟩

-- An item is found by its name wherever it stands, since no other item has the name.
theorem update_eq_set (hm : m.names.Nodup) {i : Nat} {item : Item} (hi : m.items[i]? = some item)
    (change : Item → Item) : m.update item.name change = ⟨m.items.set i (change item)⟩ := by
  obtain ⟨items⟩ := m
  rw [update, Module.mk.injEq]
  induction items generalizing i with
  | nil => simp at hi
  | cons first rest ih =>
      simp only [names, List.map_cons, List.nodup_cons] at hm
      cases i with
      | zero =>
          obtain rfl : first = item := by simpa using hi
          rw [update.updateFirst, if_pos rfl, List.set_cons_zero]
      | succ i =>
          rw [List.getElem?_cons_succ] at hi
          have hmem : item.name ∈ rest.map Item.name :=
            List.mem_map_of_mem (List.mem_of_getElem? hi)
          have hne : first.name ≠ item.name := fun he => hm.1 (he ▸ hmem)
          rw [update.updateFirst, if_neg hne, List.set_cons_succ, ih hm.2 hi]

theorem update_of_notMem {name : String} (hn : name ∉ m.names) (change : Item → Item) :
    m.update name change = m := by
  obtain ⟨items⟩ := m
  rw [update, Module.mk.injEq]
  induction items with
  | nil => rfl
  | cons first rest ih =>
      simp only [names, List.map_cons, List.mem_cons, not_or] at hn
      rw [update.updateFirst, if_neg (Ne.symm hn.1), ih hn.2]

theorem exists_of_mem_names {name : String} (hn : name ∈ m.names) :
    ∃ (i : Nat) (item : Item), m.items[i]? = some item ∧ item.name = name := by
  obtain ⟨item, hitem, rfl⟩ := List.mem_map.mp hn
  obtain ⟨i, hi⟩ := List.mem_iff_getElem?.mp hitem
  exact ⟨i, item, hi, rfl⟩

theorem get?_of_getElem? (hm : m.names.Nodup) {i : Nat} {item : Item}
    (hi : m.items[i]? = some item) : m.get? item.name = some item := by
  have hmem : item ∈ m.items := List.mem_of_getElem? hi
  have hname : item.name ∈ m.names := List.mem_map_of_mem hmem
  obtain ⟨found, hfound⟩ := Option.isSome_iff_exists.mp (isSome_get?_iff.mpr hname)
  have he : found.name = item.name := by simpa using List.find?_some hfound
  rw [hfound, List.inj_on_of_nodup_map hm (List.mem_of_find?_eq_some hfound) hmem he]

theorem perform_addField (handle : RecordHandle) (name ty : String) (docs : Docs) :
    m.perform (.addField handle name ty docs) =
      if handle.detached then m
      else if (m.record? handle.name).isSome then
        m.update handle.name (·.addField ⟨name, ty, docs⟩)
      else m := by
  rw [perform, run, addField]
  split
  · rfl
  · split <;> rfl

theorem update_cases (hm : m.names.Nodup) (name : String) {change : Item → Item}
    (hchange : ∀ item : Item, item.Grows (change item)) :
    m.update name change = m ∨
      ∃ (i : Nat) (item later : Item), m.items[i]? = some item ∧ item.Grows later ∧
        m.update name change = ⟨m.items.set i later⟩ := by
  by_cases hn : name ∈ m.names
  · obtain ⟨i, item, hi, rfl⟩ := exists_of_mem_names hn
    exact Or.inr ⟨i, item, change item, hi, hchange item, update_eq_set hm hi change⟩
  · exact Or.inl (update_of_notMem hn change)

-- All that a call can do: nothing, one more item of a new name, or one item grown in its place.
theorem perform_cases (hm : m.names.Nodup) (call : Call) :
    m.perform call = m ∨ (∃ item, item.name ∉ m.names ∧ m.perform call = m.push item) ∨
      ∃ (i : Nat) (item later : Item), m.items[i]? = some item ∧ item.Grows later ∧
        m.perform call = ⟨m.items.set i later⟩ := by
  cases call with
  | createRecord name docs =>
      rw [perform, run_createRecord]
      by_cases hn : name ∈ m.names
      · rw [if_pos hn]
        exact Or.inl rfl
      · rw [if_neg hn]
        exact Or.inr (Or.inl ⟨.record ⟨name, docs, false, []⟩, hn, rfl⟩)
  | createAlias name ty docs params =>
      rw [perform, run_createAlias]
      by_cases hn : name ∈ m.names
      · rw [if_pos hn]
        exact Or.inl rfl
      · rw [if_neg hn]
        exact Or.inr (Or.inl ⟨.alias ⟨name, docs, false, params, ty⟩, hn, rfl⟩)
  | addField handle name ty docs =>
      rw [perform_addField]
      split
      · exact Or.inl rfl
      · split
        · exact (update_cases hm handle.name (Item.Grows.addField _)).imp_right Or.inr
        · exact Or.inl rfl
  | markExported name =>
      exact (update_cases hm name Item.Grows.asExported).imp_right Or.inr

theorem nodup_perform (hm : m.names.Nodup) (call : Call) : (m.perform call).names.Nodup := by
  rcases perform_cases hm call with hsame | ⟨item, hn, hpush⟩ | ⟨i, item, later, hi, hgrows, hset⟩
  · rwa [hsame]
  · rw [hpush, names_push, List.nodup_append]
    refine ⟨hm, by simp, ?_⟩
    rintro name ho _ hl rfl
    exact hn (List.mem_singleton.mp hl ▸ ho)
  · have hnames : (m.items.set i later).map Item.name = m.names := by
      obtain ⟨hlt, rfl⟩ := List.getElem?_eq_some_iff.mp hi
      have hlt' : i < (m.items.map Item.name).length := by rwa [List.length_map]
      have hname : (m.items[i]).name = (m.items.map Item.name)[i] := by rw [List.getElem_map]
      rw [List.map_set, hgrows.name_eq, hname, List.set_getElem_self hlt', names]
    rw [hset, names, hnames]
    exact hm

theorem evolves_push (item : Item) : m.Evolves (m.push item) := by
  refine ⟨fun i old hi => ⟨old, ?_, .refl old⟩, m.items.length, fun j hj => ?_⟩
  · obtain ⟨hlt, -⟩ := List.getElem?_eq_some_iff.mp hi
    rw [push, List.getElem?_append_left hlt, hi]
  · rw [push]
    by_cases hlt : j < m.items.length
    · rw [List.getElem?_append_left hlt]
    · have hlen : m.items.length < j := by omega
      have hlen' : (m.items ++ [item]).length ≤ j := by
        rw [List.length_append, List.length_singleton]
        exact hlen
      rw [List.getElem?_eq_none hlen', List.getElem?_eq_none (Nat.le_of_lt hlen)]

theorem evolves_set {i : Nat} {item later : Item} (hi : m.items[i]? = some item)
    (hgrows : item.Grows later) : m.Evolves ⟨m.items.set i later⟩ := by
  obtain ⟨hlt, -⟩ := List.getElem?_eq_some_iff.mp hi
  refine ⟨fun j old hj => ?_, i, fun j hne => List.getElem?_set_ne (Ne.symm hne)⟩
  by_cases he : i = j
  · subst he
    obtain rfl : item = old := Option.some.inj (hi.symm.trans hj)
    exact ⟨later, List.getElem?_set_self hlt, hgrows⟩
  · exact ⟨old, (List.getElem?_set_ne he).trans hj, .refl old⟩

theorem evolves_perform (hm : m.names.Nodup) (call : Call) : m.Evolves (m.perform call) := by
  rcases perform_cases hm call with hsame | ⟨item, _, hpush⟩ | ⟨i, item, later, hi, hgrows, hset⟩
  · rw [hsame]
    exact ⟨fun i item hi => ⟨item, hi, .refl item⟩, 0, fun _ _ => rfl⟩
  · rw [hpush]
    exact evolves_push item
  · rw [hset]
    exact evolves_set hi hgrows

-- Names stay distinct over any number of calls.
theorem nodup_performAll (hm : m.names.Nodup) (calls : List Call) :
    (m.performAll calls).names.Nodup := by
  induction calls generalizing m with
  | nil => exact hm
  | cons call rest ih => exact ih (nodup_perform hm call)

-- An item keeps its place over any number of calls, too.
theorem grows_performAll (hm : m.names.Nodup) (calls : List Call) {i : Nat} {item : Item}
    (hi : m.items[i]? = some item) :
    ∃ later, (m.performAll calls).items[i]? = some later ∧ item.Grows later := by
  induction calls generalizing m item with
  | nil => exact ⟨item, hi, .refl item⟩
  | cons call rest ih =>
      obtain ⟨between, hb, hgrows⟩ := (evolves_perform hm call).grows i item hi
      obtain ⟨later, hl, hmore⟩ := ih (nodup_perform hm call) hb
      exact ⟨later, hl, hgrows.trans hmore⟩

theorem ignores_detached (m : Module) (name : String) : m.Ignores ⟨name, true⟩ := by
  intro field ty docs
  rw [perform_addField]
  rfl

theorem leadsTo_ofName (hm : m.names.Nodup) {i : Nat} {item : RecordItem}
    (hi : m.items[i]? = some (.record item)) : m.LeadsTo (.ofName item.name) i item := by
  refine ⟨hi, fun field ty docs => ?_⟩
  have hget : m.get? item.name = some (.record item) := get?_of_getElem? hm hi
  have hrecord : m.record? item.name = some item := by rw [record?, hget]
  rw [perform_addField]
  simp only [RecordHandle.ofName, hrecord, Option.isSome_some, if_true]
  exact update_eq_set hm hi (·.addField ⟨field, ty, docs⟩)

-- Calls may come in any order, with handles of any origin. `created` is what one more call for a
-- record gives, and `now` is the module any number of calls after it.
theorem calls_only_add (calls : List Call) :
    let m := Module.empty.performAll calls
    m.names.Nodup ∧ (∀ call, m.Evolves (m.perform call)) ∧
      ∀ (name : String) (docs : Docs) (later : List Call),
        let created := run (createRecord name docs) m
        let now := created.2.performAll later
        (name ∈ m.names → now.Ignores created.1) ∧
        (name ∉ m.names →
          created.2 = m.push (.record ⟨name, docs, false, []⟩) ∧
          ∃ item, (Item.record ⟨name, docs, false, []⟩).Grows (.record item) ∧
            now.LeadsTo created.1 m.items.length item) := by
  intro m
  have hm : m.names.Nodup := nodup_performAll (m := .empty) List.nodup_nil calls
  refine ⟨hm, evolves_perform hm, ?_⟩
  intro name docs later created now
  have hrun : created = if name ∈ m.names then (⟨name, true⟩, m)
      else (.ofName name, m.push (.record ⟨name, docs, false, []⟩)) := run_createRecord name docs
  constructor
  · intro hn
    rw [if_pos hn] at hrun
    rw [hrun]
    exact ignores_detached now name
  · intro hn
    rw [if_neg hn] at hrun
    have hnodup : created.2.names.Nodup := nodup_perform hm (.createRecord name docs)
    have hplace : created.2.items[m.items.length]? = some (.record ⟨name, docs, false, []⟩) := by
      rw [hrun, push, List.getElem?_concat_length]
    obtain ⟨_, hgrown, hgrows⟩ := grows_performAll hnodup later hplace
    obtain ⟨item, rfl, hname⟩ := hgrows.exists_record
    refine ⟨congrArg Prod.snd hrun, item, hgrows, ?_⟩
    have hhandle : created.1 = .ofName item.name := by rw [hrun, hname]
    rw [hhandle]
    exact leadsTo_ofName (nodup_performAll hnodup later) hgrown

-- A record and an alias meet, and fields come through handles that were made up.
def mixedCalls : List Call :=
  [.createAlias "A" "string" .empty [], .createRecord "B" (.line "b"), .createRecord "A" .empty,
    .addField (.ofName "A") "x" "string" .empty, .addField (.ofName "B") "y" "string" .empty,
    .addField (.ofName "none") "z" "string" .empty, .markExported "A", .createAlias "B" "null" .empty []]

theorem calls_only_add_mixedCalls :
    (Module.empty.performAll mixedCalls).names = ["A", "B"] ∧
      ((run (createRecord "A" .empty) (Module.empty.performAll mixedCalls)).2.performAll
        mixedCalls).Ignores ⟨"A", true⟩ ∧
      ∃ item, ((run (createRecord "C" .empty) (Module.empty.performAll mixedCalls)).2.performAll
        [.createAlias "C" "null" .empty [], .markExported "C"]).LeadsTo (.ofName "C") 2 item := by
  obtain ⟨-, -, hcreated⟩ := calls_only_add mixedCalls
  have htaken := (hcreated "A" .empty mixedCalls).1 (by decide)
  obtain ⟨-, item, -, hleads⟩ := (hcreated "C" .empty
    [.createAlias "C" "null" .empty [], .markExported "C"]).2 (by decide)
  exact ⟨by decide, htaken, item, hleads⟩

end Module

end ContentTypes
