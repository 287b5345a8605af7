import EffectScript.Audio.Pool
import EffectScript.Effect

/-!
# Stereo processors

A processor runs one effect on pairs of sample arrays.  Each call borrows a buffer from a pool of
its own; only the frames that both arrays have are processed.
-/

namespace EffectScript

open Control

/-- An effect with a pool of buffers. -/
structure Processor where
  effect : Effect
  pool : Audio.Pool

namespace Processor

/-- The settings of a processor: the standard ones at a given sample rate. -/
def config (sampleRate : Float) : Config :=
  { Config.standard with sampleRate }

/-- A processor that runs a source. -/
def ofSource (source : String) (sampleRate : Float) :
    Logged (Except Script.LoadError Processor) := do
  match ← Script.compile source with
  | .error error => return .error error
  | .ok script =>
    let effect ← Effect.fresh.loadScript script
    let effect ← effect.prepareFor (config sampleRate)
    return .ok ⟨effect, .ofConfig (config sampleRate)⟩

/-- The first elements of one array followed by the later ones of another. -/
def overwrite (front whole : Array Float32) : Array Float32 :=
  front ++ whole.extract front.size whole.size

/-- Process the frames that both arrays have; the rest of the longer one stays. -/
def process (processor : Processor) (left right : Array Float32) :
    Logged ((Array Float32 × Array Float32) × Processor) := do
  let frames := min left.size right.size
  let (borrowed, pool) ← processor.pool.acquire 2 frames
  match borrowed with
  | none => return ((left, right), { processor with pool })
  | some id =>
    match pool.get? id with
    | none => return ((left, right), { processor with pool := (pool.release id).2 })
    | some buffer =>
      let buffer := (buffer.fillChannel 0 left).fillChannel 1 right
      let (buffer, effect) := processor.effect.processBlock buffer
      let pool := (pool.update id fun _ => buffer).2
      let left := overwrite ((buffer.channel? 0).getD #[]) left
      let right := overwrite ((buffer.channel? 1).getD #[]) right
      return ((left, right), ⟨effect, (pool.release id).2⟩)

/-- Ask for a parameter value. -/
def setParameter (processor : Processor) (index : Nat) (value : Float) : Processor :=
  { processor with effect := processor.effect.setParameter index value }

/-- Set or lift the bypass. -/
def setBypassed (processor : Processor) (bypassed : Bool) : Processor :=
  { processor with effect := processor.effect.setBypassed bypassed }

end Processor

end EffectScript
