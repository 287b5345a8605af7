import EffectScript.Language.Tree
import EffectScript.Machine.Arena
import EffectScript.Machine.Builtin

/-!
# Contexts

Everything that a running script reads or writes: the arena, the sliders, the current frame, the
sample rate and the state of the host's transport.
-/

namespace EffectScript.Machine

open EffectScript.Language

/-- State of the host's transport. -/
structure Transport where
  tempo : Float
  beatPosition : Float
  /-- Zero when stopped, one when playing, two when paused, five when recording. -/
  playState : Float
  tsNum : Float
  tsDenom : Float

/-- A transport that has not moved. -/
def Transport.atRest : Transport := ⟨120.0, 0.0, 0.0, 4.0, 4.0⟩

/-- The sample rate until another one is set. -/
def standardRate : Float := 48000.0

/-- What a running script reads and writes. -/
structure Context where
  arena : Arena
  sliders : Vector Float sliderCount
  spl0 : Float
  spl1 : Float
  srate : Float
  transport : Transport

namespace Context

/-- Sliders that all stand at zero. -/
def zeroSliders : Vector Float sliderCount :=
  Vector.replicate sliderCount 0.0

/-- The context of a script that has not run. -/
def fresh : Context := ⟨.empty, zeroSliders, 0.0, 0.0, standardRate, .atRest⟩

/-- The value of a host variable; none for a slider that does not exist. -/
def host? (context : Context) : HostVar → Option Float
  | .spl0 => some context.spl0
  | .spl1 => some context.spl1
  | .srate => some context.srate
  | .tempo => some context.transport.tempo
  | .beatPosition => some context.transport.beatPosition
  | .playState => some context.transport.playState
  | .tsNum => some context.transport.tsNum
  | .tsDenom => some context.transport.tsDenom
  | .slider index => context.sliders[index]?

/-- Set a host variable; a slider that does not exist is left alone. -/
def setHost (context : Context) (var : HostVar) (value : Float) : Context :=
  match var with
  | .spl0 => { context with spl0 := value }
  | .spl1 => { context with spl1 := value }
  | .srate => { context with srate := value }
  | .tempo => { context with transport := { context.transport with tempo := value } }
  | .beatPosition =>
    { context with transport := { context.transport with beatPosition := value } }
  | .playState => { context with transport := { context.transport with playState := value } }
  | .tsNum => { context with transport := { context.transport with tsNum := value } }
  | .tsDenom => { context with transport := { context.transport with tsDenom := value } }
  | .slider index => { context with sliders := context.sliders.setIfInBounds index value }

/-- Set sliders to given values and all others to zero. -/
def loadSliders (context : Context) (values : List (Nat × Float)) : Context :=
  { context with
    sliders := values.foldl (fun sliders entry => sliders.setIfInBounds entry.1 entry.2)
      zeroSliders }

end Context

/-- Call a function by name; an unknown one gives zero. -/
def callByName (name : String) (arguments : List Float) : Float :=
  match Builtin.ofName? name with
  | some function => function.apply arguments
  | none => 0.0

end EffectScript.Machine
