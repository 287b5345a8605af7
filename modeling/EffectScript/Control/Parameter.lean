import EffectScript.Language.Tree

/-!
# Parameters

The control side asks for slider values, the audio side picks them up.  A slot remembers the last
value asked for and whether it has been picked up since; a bank has one slot for each slider.
Several holders can share a bank: `SharedBanks` gives out handles, and what is done through one
handle is seen through every other handle on the same bank.
-/

namespace EffectScript.Control

open EffectScript.Language

/-- The last value asked for, and whether it waits to be picked up. -/
structure ParameterSlot where
  value : Float
  pending : Bool

namespace ParameterSlot

/-- A slot for which nothing was asked. -/
def idle (value : Float) : ParameterSlot := ⟨value, false⟩

/-- Ask for a value. -/
def ask (value : Float) : ParameterSlot := ⟨value, true⟩

/-- The waiting value, if there is one. -/
def waiting? (slot : ParameterSlot) : Option Float :=
  if slot.pending then some slot.value else none

/-- The slot after the waiting value was picked up. -/
def pickUp (slot : ParameterSlot) : ParameterSlot :=
  { slot with pending := false }

end ParameterSlot

/-- One slot for each slider. -/
structure ParameterBank where
  slots : Vector ParameterSlot sliderCount

namespace ParameterBank

/-- A bank of zeros for which nothing was asked. -/
def fresh : ParameterBank := ⟨Vector.replicate sliderCount (.idle 0.0)⟩

/-- Ask for a value; whether the slot exists. -/
def set (bank : ParameterBank) (index : Nat) (value : Float) : Bool × ParameterBank :=
  match bank with
  | ⟨slots⟩ => (decide (index < sliderCount), ⟨slots.setIfInBounds index (.ask value)⟩)

/-- The last value asked for. -/
def get? (bank : ParameterBank) (index : Nat) : Option Float :=
  bank.slots[index]?.map ParameterSlot.value

/-- Whether a value waits. -/
def isPending (bank : ParameterBank) (index : Nat) : Bool :=
  bank.slots[index]?.any ParameterSlot.pending

/-- Pick up a waiting value. -/
def take (bank : ParameterBank) (index : Nat) : Option Float × ParameterBank :=
  match bank.slots[index]? with
  | none => (none, bank)
  | some slot => (slot.waiting?, ⟨bank.slots.setIfInBounds index slot.pickUp⟩)

/-- All waiting values in order of their slots. -/
def waiting (bank : ParameterBank) : List (Nat × Float) :=
  (List.range sliderCount).filterMap fun index =>
    match bank.slots[index]? with
    | some slot => slot.waiting?.map fun value => (index, value)
    | none => none

/-- Pick up all waiting values. -/
def drain (bank : ParameterBank) : List (Nat × Float) × ParameterBank :=
  (bank.waiting, ⟨bank.slots.map ParameterSlot.pickUp⟩)

/-- A bank of given values, zeros after them, for which nothing was asked. -/
def ofValues (values : List Float) : ParameterBank :=
  ⟨Vector.ofFn fun index => .idle (values[index.val]?.getD 0.0)⟩

/-- Number of slots. -/
def size (_ : ParameterBank) : Nat := sliderCount

/-- One line on the contents. -/
def summary (bank : ParameterBank) : String :=
  "ParameterBank \x7b " ++ s!"slots: {bank.size}, pending: {bank.waiting.length}" ++ " \x7d"

end ParameterBank

/-- Banks with handles on them. -/
structure SharedBanks where
  banks : Array ParameterBank
  /-- The bank of every handle. -/
  handles : Array Nat

namespace SharedBanks

/-- One bank with one handle on it. -/
def ofBank (bank : ParameterBank) : SharedBanks := ⟨#[bank], #[0]⟩

/-- The bank behind a handle; a handle that was never given out sees a fresh bank. -/
def get (shared : SharedBanks) (handle : Nat) : ParameterBank :=
  match shared.handles[handle]? with
  | some index => shared.banks[index]?.getD .fresh
  | none => .fresh

/-- Replace the bank behind a handle. -/
def set (shared : SharedBanks) (handle : Nat) (bank : ParameterBank) : SharedBanks :=
  match shared.handles[handle]? with
  | some index => { shared with banks := shared.banks.setIfInBounds index bank }
  | none => shared

/-- Another handle on the same bank. -/
def share (shared : SharedBanks) (handle : Nat) : Nat × SharedBanks :=
  (shared.handles.size,
    { shared with handles := shared.handles.push (shared.handles[handle]?.getD 0) })

/-- A handle on a fresh bank. -/
def add (shared : SharedBanks) : Nat × SharedBanks :=
  (shared.handles.size,
    ⟨shared.banks.push .fresh, shared.handles.push shared.banks.size⟩)

end SharedBanks

/-- Values that a slider takes in turn, one for each processing call. -/
structure Automation where
  /-- Values not yet used. -/
  remaining : List Float

namespace Automation

/-- The lane without values. -/
def idle : Automation := ⟨[]⟩

/-- Whether a value is left. -/
def isActive (lane : Automation) : Bool :=
  !lane.remaining.isEmpty

/-- The next value, if one is left. -/
def next (lane : Automation) : Option Float × Automation :=
  match lane.remaining with
  | [] => (none, lane)
  | value :: rest => (some value, ⟨rest⟩)

end Automation

end EffectScript.Control
