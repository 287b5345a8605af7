import EffectScript.Effect.Chain

/-!
# Racks

A rack is a chain together with the control side of one hand-off channel: the newest one attached to
any of its effects.  The channel moves with its effect, and outlives it on the control side when the
effect leaves the chain.
-/

namespace EffectScript

open Control

/-- A chain and the control side of its newest hand-off channel. -/
structure Rack where
  chain : Chain
  /-- Number of channels attached so far; the newest has the last label. -/
  attached : Nat
  /-- The newest channel, once its effect has left the chain. -/
  orphan : Option (Channel Interpreter)

namespace Rack

/-- The rack without effects. -/
def empty : Rack := ⟨.empty, 0, none⟩

/-- Whether an effect takes scripts from the newest channel. -/
def holdsNewest (rack : Rack) (effect : Effect) : Bool :=
  effect.scripts.any fun channel => channel.label + 1 == rack.attached

/-- Keep the newest channel if one of the effects that leave holds it. -/
def keepOrphan (rack : Rack) (leaving : List Effect) : Rack :=
  match leaving.find? rack.holdsNewest with
  | some effect => { rack with orphan := effect.scripts }
  | none => rack

/-- Attach a new channel to the effect at a place. -/
def attach (rack : Rack) (place capacity : Nat) : Rack :=
  let channel := Channel.ofCapacity rack.attached capacity
  ⟨rack.chain.modify place (·.attach channel), rack.attached + 1, none⟩

/-- The newest channel. -/
def newest? (rack : Rack) : Option (Channel Interpreter) :=
  match rack.chain.effects.find? rack.holdsNewest with
  | some effect => effect.scripts
  | none => rack.orphan

/-- Replace the newest channel. -/
def setNewest (rack : Rack) (channel : Channel Interpreter) : Rack :=
  match rack.chain.effects.findIdx? rack.holdsNewest with
  | some place => { rack with chain := rack.chain.modify place (·.attach channel) }
  | none => { rack with orphan := some channel }

/-- Remove the effect at a place. -/
def remove (rack : Rack) (place : Nat) : Option Effect × Rack :=
  let (removed, chain) := rack.chain.remove place
  (removed, { rack.keepOrphan removed.toList with chain })

/-- Remove all effects. -/
def clear (rack : Rack) : Rack :=
  { rack.keepOrphan rack.chain.effects with chain := rack.chain.clear }

end Rack

end EffectScript
