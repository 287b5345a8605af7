import EffectScript.Control.Parameter
import Mathlib.Logic.Function.Basic

/-!
# Asking and picking up at the same time

A slot is shared by any number of askers and one taker, none of whom waits for another.  An asker
stores its value and then raises the flag; the taker lowers the flag and then, if it was raised,
loads the value.  Between any two of these accesses others may come.  No request is lost all the
same: whenever nobody is half done, either the flag is raised or the taker has the value that was
stored last.
-/

namespace EffectScript.Control

namespace ParameterSlot

/-- First half of asking: the value is there, the flag is not yet raised. -/
def store (slot : ParameterSlot) (value : Float) : ParameterSlot :=
  { slot with value }

/-- Second half of asking. -/
def raise (slot : ParameterSlot) : ParameterSlot :=
  { slot with pending := true }

end ParameterSlot

/-- One access to a shared slot. -/
inductive Access (Asker : Type) where
  | store (asker : Asker) (value : Float)
  | raise (asker : Asker)
  /-- The taker lowers the flag, and learns whether it was raised. -/
  | lower
  /-- The taker loads the value. -/
  | load

/-- A shared slot, and how far everybody has come. -/
structure SlotTraffic (Asker : Type) where
  slot : ParameterSlot
  /-- The value that an asker has stored and not yet announced. -/
  asking : Asker → Option Float
  /-- Whether the taker has lowered a raised flag and not yet loaded the value. -/
  loading : Bool
  /-- Values stored so far, newest first. -/
  stored : List Float
  /-- Values picked up so far, newest first. -/
  taken : List Float

namespace SlotTraffic

variable {Asker : Type}

/-- Nobody has begun. -/
def start (Asker : Type) (slot : ParameterSlot) : SlotTraffic Asker :=
  ⟨slot, fun _ => none, false, [], []⟩

/-- The value that was stored last. -/
def lastStored (traffic : SlotTraffic Asker) (initial : ParameterSlot) : Float :=
  traffic.stored.headD initial.value

/-- The value that the taker has. -/
def lastTaken (traffic : SlotTraffic Asker) (initial : ParameterSlot) : Float :=
  traffic.taken.headD initial.value

/-- Nobody is half done. -/
def AtRest (traffic : SlotTraffic Asker) : Prop :=
  (∀ asker, traffic.asking asker = none) ∧ traffic.loading = false

variable [DecidableEq Asker]

/-- One access; none if it is not the turn of whoever makes it. -/
def access? (traffic : SlotTraffic Asker) : Access Asker → Option (SlotTraffic Asker)
  | .store asker value =>
    match traffic.asking asker with
    | none =>
      some { traffic with
        slot := traffic.slot.store value
        asking := Function.update traffic.asking asker (some value)
        stored := value :: traffic.stored }
    | some _ => none
  | .raise asker =>
    match traffic.asking asker with
    | none => none
    | some _ =>
      some { traffic with
        slot := traffic.slot.raise
        asking := Function.update traffic.asking asker none }
  | .lower =>
    if traffic.loading then none
    else some { traffic with slot := traffic.slot.pickUp, loading := traffic.slot.pending }
  | .load =>
    if traffic.loading then
      some { traffic with loading := false, taken := traffic.slot.value :: traffic.taken }
    else none

/-- Accesses in the order in which they happen. -/
def run? (traffic : SlotTraffic Asker) : List (Access Asker) → Option (SlotTraffic Asker)
  | [] => some traffic
  | access :: later => traffic.access? access >>= fun after => after.run? later

/-- The accesses of one whole pick-up that nobody interrupts. -/
def wholeTake (traffic : SlotTraffic Asker) : List (Access Asker) :=
  if traffic.slot.pending then [.lower, .load] else [.lower]

/-! ### What one access can do -/

theorem access?_cases {before after : SlotTraffic Asker} {access : Access Asker}
    (done : before.access? access = some after) :
    (∃ asker value,
      after = { before with
        slot := before.slot.store value
        asking := Function.update before.asking asker (some value)
        stored := value :: before.stored }) ∨
    (∃ asker,
      after = { before with
        slot := before.slot.raise
        asking := Function.update before.asking asker none }) ∨
    (before.loading = false ∧
      after = { before with slot := before.slot.pickUp, loading := before.slot.pending }) ∨
    after = { before with loading := false, taken := before.slot.value :: before.taken } := by
  cases access with
  | store asker value =>
    simp only [access?] at done
    split at done
    · exact .inl ⟨asker, value, (Option.some.inj done).symm⟩
    · contradiction
  | raise asker =>
    simp only [access?] at done
    split at done
    · contradiction
    · exact .inr (.inl ⟨asker, (Option.some.inj done).symm⟩)
  | lower =>
    simp only [access?] at done
    split at done
    · contradiction
    · rename_i idle
      exact .inr (.inr (.inl ⟨by simpa using idle, (Option.some.inj done).symm⟩))
  | load =>
    simp only [access?] at done
    split at done
    · exact .inr (.inr (.inr (Option.some.inj done).symm))
    · contradiction

/-! ### What every access keeps -/

/-- What is known however far everybody has come. -/
structure Accounted (initial : ParameterSlot) (traffic : SlotTraffic Asker) : Prop where
  /-- Nothing is made up. -/
  taken_mem : ∀ value ∈ traffic.taken, value = initial.value ∨ value ∈ traffic.stored
  value_eq : traffic.slot.value = traffic.lastStored initial
  /-- Somebody is bound to notice a value that the taker does not have: the taker at its next turn,
  the taker in the middle of this one, or an asker that will raise the flag. -/
  noticed : traffic.slot.pending = true ∨ traffic.loading = true ∨
    (∃ asker, traffic.asking asker ≠ none) ∨ traffic.lastTaken initial = traffic.slot.value

variable {initial : ParameterSlot}

omit [DecidableEq Asker] in
theorem accounted_start : (start Asker initial).Accounted initial where
  taken_mem _ member := absurd member List.not_mem_nil
  value_eq := rfl
  noticed := .inr (.inr (.inr rfl))

omit [DecidableEq Asker] in
/-- The value in the slot is one that the taker may give. -/
theorem Accounted.value_mem {traffic : SlotTraffic Asker} (accounted : traffic.Accounted initial) :
    traffic.slot.value = initial.value ∨ traffic.slot.value ∈ traffic.stored := by
  rw [accounted.value_eq, lastStored]
  cases traffic.stored with
  | nil => exact .inl rfl
  | cons value earlier => exact .inr List.mem_cons_self

theorem Accounted.access {before after : SlotTraffic Asker} {access : Access Asker}
    (accounted : before.Accounted initial) (done : before.access? access = some after) :
    after.Accounted initial := by
  rcases access?_cases done with ⟨asker, value, rfl⟩ | ⟨asker, rfl⟩ | ⟨idle, rfl⟩ | rfl
  · constructor
    · intro found member
      exact (accounted.taken_mem found member).imp id (List.mem_cons_of_mem value)
    · rfl
    · exact .inr (.inr (.inl ⟨asker, by simp⟩))
  · constructor
    · exact accounted.taken_mem
    · exact accounted.value_eq
    · exact .inl rfl
  · constructor
    · exact accounted.taken_mem
    · exact accounted.value_eq
    · -- A raised flag is passed on to the taker; if it was down, nothing has changed.
      rcases accounted.noticed with raised | loading | noticed
      · exact .inr (.inl raised)
      · rw [idle] at loading
        contradiction
      · exact .inr (.inr noticed)
  · constructor
    · intro found member
      rcases List.mem_cons.1 member with rfl | member
      · exact accounted.value_mem
      · exact accounted.taken_mem found member
    · exact accounted.value_eq
    · exact .inr (.inr (.inr rfl))

theorem Accounted.run {before after : SlotTraffic Asker} {accesses : List (Access Asker)}
    (accounted : before.Accounted initial) (done : before.run? accesses = some after) :
    after.Accounted initial := by
  induction accesses generalizing before with
  | nil =>
    obtain rfl := Option.some.inj done
    exact accounted
  | cons access later ih =>
    obtain ⟨middle, first, rest⟩ := Option.bind_eq_some_iff.1 done
    exact ih (accounted.access first) rest

/-! ### Whole requests and whole pick-ups -/

omit [DecidableEq Asker] in
theorem Accounted.pending_or_lastTaken {traffic : SlotTraffic Asker}
    (accounted : traffic.Accounted initial) (rest : traffic.AtRest) :
    traffic.slot.pending = true ∨ traffic.lastTaken initial = traffic.slot.value := by
  rcases accounted.noticed with raised | loading | ⟨asker, asking⟩ | same
  · exact .inl raised
  · rw [rest.2] at loading
    contradiction
  · exact absurd (rest.1 asker) asking
  · exact .inr same

/-- A pick-up that nobody interrupts gives what the slot has waiting. -/
theorem run?_wholeTake {traffic : SlotTraffic Asker} (idle : traffic.loading = false) :
    traffic.run? traffic.wholeTake =
      some { traffic with
        slot := traffic.slot.pickUp
        taken := traffic.slot.waiting?.toList ++ traffic.taken } := by
  obtain ⟨⟨value, pending⟩, asking, loading, stored, taken⟩ := traffic
  obtain rfl : loading = false := idle
  cases pending <;> rfl

/-- However askers and the taker come between each other: the taker only ever gets the initial value
or one that was asked for; when nobody is half done, the flag is raised or the taker has the value
of the slot, which is the one stored last; and one more whole pick-up leaves the taker with it. -/
theorem run?_start_loses_nothing {traffic : SlotTraffic Asker} {accesses : List (Access Asker)}
    (ran : (start Asker initial).run? accesses = some traffic) :
    (∀ value ∈ traffic.taken, value = initial.value ∨ value ∈ traffic.stored) ∧
    traffic.slot.value = traffic.lastStored initial ∧
    (traffic.AtRest →
      (traffic.slot.pending = true ∨ traffic.lastTaken initial = traffic.slot.value) ∧
      ∃ after, traffic.run? traffic.wholeTake = some after ∧ after.AtRest ∧
        after.lastTaken initial = traffic.lastStored initial) := by
  have accounted := accounted_start.run ran
  refine ⟨accounted.taken_mem, accounted.value_eq, fun rest => ?_⟩
  have noticed := accounted.pending_or_lastTaken rest
  refine ⟨noticed, _, run?_wholeTake rest.2, ⟨rest.1, rest.2⟩, ?_⟩
  rw [← accounted.value_eq]
  by_cases raised : traffic.slot.pending = true
  · simp [lastTaken, ParameterSlot.waiting?, raised]
  · simpa [lastTaken, ParameterSlot.waiting?, raised] using noticed.resolve_left raised

/-- Two askers and the taker, each caught in the middle by another. -/
def overlap : List (Access Bool) :=
  [.store false 1.0, .lower, .store true 2.0, .raise true, .lower, .raise false, .load]

/-- What they leave behind: the taker has the later value, and will look once more. -/
def overlapped : SlotTraffic Bool :=
  ⟨.ask 2.0, fun _ => none, false, [2.0, 1.0], [2.0]⟩

theorem run?_start_loses_nothing_overlap :
    (start Bool (.idle 0.0)).run? overlap = some overlapped ∧ overlapped.AtRest ∧
      overlapped.slot.pending = true ∧
      ∃ after, overlapped.run? overlapped.wholeTake = some after ∧
        after.lastTaken (.idle 0.0) = overlapped.lastStored (.idle 0.0) := by
  have ran : (start Bool (.idle 0.0)).run? overlap = some overlapped := by
    refine congrArg (fun asking => some { overlapped with asking }) (funext fun asker => ?_)
    cases asker <;> rfl
  have rest : overlapped.AtRest := ⟨fun _ => rfl, rfl⟩
  obtain ⟨_, after, took, _, same⟩ := (run?_start_loses_nothing ran).2.2 rest
  exact ⟨ran, rest, rfl, after, took, same⟩

end SlotTraffic

end EffectScript.Control
