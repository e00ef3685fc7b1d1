import Mathlib.Algebra.Ring.Nat
import ContentTypes.Naming

namespace ContentTypes

namespace Event

-- How many of the warnings have a message.
def warnings (message : String) (events : List Event) : Nat :=
  events.countP fun event => event.level == .warn && event.message == message

theorem warnings_append (message : String) (first second : List Event) :
    warnings message (first ++ second) = warnings message first + warnings message second :=
  List.countP_append

theorem warnings_of_debug {events : List Event} (h : ∀ event ∈ events, event.level = .debug)
    (message : String) : warnings message events = 0 := by
  rw [warnings, List.countP_eq_zero]
  intro event he
  simp [h event he]

end Event

open Event (warnings)

-- `unknown` parts of a model were met and `declared` declarations were handed over.
structure Accounted (unknown declared before after : Nat) (events : List Event) : Prop where
  declared : before + declared =
    after + warnings "declaration already exists, keeping the first" events
  unknown : warnings "unrecognized field kind, typing as unknown" events +
    warnings "unrecognized slice choice kind, leaving it out of the zone" events = unknown
  recorded : warnings "no such record" events = 0

namespace Accounted

variable {unknown unknowns declared declareds before between after : Nat}
variable {first second : List Event}

theorem of_debug {events : List Event} (h : ∀ event ∈ events, event.level = .debug) (size : Nat) :
    Accounted 0 0 size size events := by
  constructor <;> simp only [Event.warnings_of_debug h, Nat.add_zero]

theorem append (hfirst : Accounted unknown declared before between first)
    (hsecond : Accounted unknowns declareds between after second) :
    Accounted (unknown + unknowns) (declared + declareds) before after (first ++ second) := by
  obtain ⟨hd, hu, hr⟩ := hfirst
  obtain ⟨hds, hus, hrs⟩ := hsecond
  constructor <;> simp only [Event.warnings_append] <;> omega

-- What is there beside takes no part.
theorem shift {events : List Event} (h : Accounted unknown declared before after events)
    (more : Nat) : Accounted unknown declared (before + more) (after + more) events := by
  obtain ⟨hd, hu, hr⟩ := h
  exact ⟨by omega, hu, hr⟩

end Accounted

-- Work whose account is the same wherever it starts.
def Accounts {σ α : Type} (size : σ → Nat) (unknown declared : Nat) (work : StateT σ Logged α) :
    Prop :=
  ∀ state, Accounted unknown declared (size state) (size (work state).value.2) (work state).events

namespace Accounts

variable {σ α β : Type} {size : σ → Nat} {unknown unknowns declared declareds : Nat}
variable {work : StateT σ Logged α} {next : α → StateT σ Logged β}

theorem pure (value : α) : Accounts size 0 0 (Pure.pure value : StateT σ Logged α) :=
  fun state => .of_debug (by intro event he; cases he) (size state)

theorem bind (hwork : Accounts size unknown declared work)
    (hnext : ∀ value, Accounts size unknowns declareds (next value)) :
    Accounts size (unknown + unknowns) (declared + declareds) (work >>= next) :=
  fun state => (hwork state).append (hnext _ _)

-- Work that has no state goes first, and the rest depends on its value.
theorem lift_bind {logged : Logged α} (hlogged : Accounted unknown 0 0 0 logged.events)
    (next : α → StateT σ Logged β)
    (hnext : Accounts size unknowns declared (next logged.value)) :
    Accounts size (unknown + unknowns) declared (StateT.lift logged >>= next) := by
  intro state
  have hfirst : Accounted unknown 0 (size state) (size state) (logged.events ++ []) := by
    rw [List.append_nil]
    simpa only [Nat.zero_add] using hlogged.shift (size state)
  have hboth := hfirst.append (hnext state)
  rwa [Nat.zero_add] at hboth

theorem congr {unknown' declared' : Nat} (h : Accounts size unknown declared work)
    (hu : unknown = unknown') (hd : declared = declared') :
    Accounts size unknown' declared' work := hu ▸ hd ▸ h

-- The accounts of all rounds of a loop add up.
theorem forM {ι : Type} {round : ι → StateT σ Logged Unit} {unknown declared : ι → Nat}
    (hround : ∀ one, Accounts size (unknown one) (declared one) (round one)) (all : List ι) :
    Accounts size (all.map unknown).sum (all.map declared).sum (all.forM round) := by
  induction all with
  | nil => exact .pure _
  | cons one rest ih => exact (hround one).bind fun _ => ih

end Accounts

end ContentTypes
