import EffectScript.Effect

/-!
# Chains of effects

Effects in series.  An effect that is not active passes audio unchanged, so one broken script never
silences a chain.
-/

namespace EffectScript

/-- Effects in the order in which audio passes them. -/
structure Chain where
  effects : List Effect
  bypassed : Bool

namespace Chain

/-- The chain without effects. -/
def empty : Chain := ⟨[], false⟩

/-- Add an effect at the end. -/
def add (chain : Chain) (effect : Effect) : Chain :=
  { chain with effects := chain.effects ++ [effect] }

/-- Insert an effect before the one at a place, or at the end; whether there is such a place. -/
def insert (chain : Chain) (place : Nat) (effect : Effect) : Bool × Chain :=
  if chain.effects.length < place then (false, chain)
  else (true, { chain with effects := chain.effects.insertIdx place effect })

/-- Remove the effect at a place. -/
def remove (chain : Chain) (place : Nat) : Option Effect × Chain :=
  match chain.effects[place]? with
  | none => (none, chain)
  | some effect => (some effect, { chain with effects := chain.effects.eraseIdx place })

/-- Move the effect at one place to stand before the effect at another; whether both places exist
and differ. -/
def move (chain : Chain) (source target : Nat) : Bool × Chain :=
  match chain.effects[source]? with
  | none => (false, chain)
  | some effect =>
    if chain.effects.length ≤ target || source == target then (false, chain)
    else
      -- Taking an effect out moves those behind it one place forward.
      let place := if source < target then target - 1 else target
      (true, { chain with
        effects := (chain.effects.eraseIdx source).insertIdx place effect })

/-- Remove all effects. -/
def clear (chain : Chain) : Chain :=
  { chain with effects := [] }

/-- Change the effect at a place. -/
def modify (chain : Chain) (place : Nat) (change : Effect → Effect) : Chain :=
  { chain with effects := chain.effects.modify place change }

/-- Whether the effect at a place is bypassed. -/
def isEffectBypassed (chain : Chain) (place : Nat) : Bool :=
  chain.effects[place]?.any Effect.bypassed

/-- Set or lift the bypass of the whole chain. -/
def setBypassed (chain : Chain) (bypassed : Bool) : Chain :=
  { chain with bypassed }

/-- Prepare every loaded effect. -/
def prepareEffects (config : Config) : List Effect → Logged (List Effect)
  | [] => return []
  | effect :: rest => do
    let effect ← if effect.loaded then effect.prepareFor config else pure effect
    let rest ← prepareEffects config rest
    return effect :: rest

/-- Prepare every loaded effect for given settings. -/
def prepare (chain : Chain) (config : Config) : Logged Chain := do
  let effects ← prepareEffects config chain.effects
  return { chain with effects }

/-- Process one frame through effects in turn. -/
def sampleThrough (left right : Float) : List Effect → (Float × Float) × List Effect
  | [] => ((left, right), [])
  | effect :: rest =>
    let ((left, right), effect) := effect.processSample left right
    let (frame, rest) := sampleThrough left right rest
    (frame, effect :: rest)

/-- Process a block through effects in turn. -/
def blockThrough (buffer : Audio.Buffer) : List Effect → Audio.Buffer × List Effect
  | [] => (buffer, [])
  | effect :: rest =>
    let (buffer, effect) := effect.processBlock buffer
    let (buffer, rest) := blockThrough buffer rest
    (buffer, effect :: rest)

/-- Process one frame. -/
def processSample (chain : Chain) (left right : Float) : (Float × Float) × Chain :=
  if chain.bypassed then ((left, right), chain)
  else
    match chain with
    | ⟨effects, bypassed⟩ =>
      let (frame, effects) := sampleThrough left right effects
      (frame, ⟨effects, bypassed⟩)

/-- Process a block. -/
def processBlock (chain : Chain) (buffer : Audio.Buffer) : Audio.Buffer × Chain :=
  if chain.bypassed then (buffer, chain)
  else
    match chain with
    | ⟨effects, bypassed⟩ =>
      let (buffer, effects) := blockThrough buffer effects
      (buffer, ⟨effects, bypassed⟩)

end Chain

end EffectScript
