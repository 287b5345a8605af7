import EffectScript.Config
import EffectScript.Control.Handoff
import EffectScript.Control.Parameter

/-!
# Effects

An effect runs a script on audio.  It is active once a script is loaded and the effect prepared, and
while it is not bypassed; otherwise audio passes unchanged.  At the start of each active processing
call the waiting parameter changes and one step of every automation lane are applied, and the slider
section runs if anything changed.  Scripts handed over from the control side are taken at the start
of any processing call.
-/

namespace EffectScript

open EffectScript.Language Control

/-- A script-driven audio effect. -/
structure Effect where
  interpreter : Interpreter
  loaded : Bool
  /-- Whether the effect is prepared to process audio. -/
  ready : Bool
  bypassed : Bool
  sampleRate : Float
  maxBlockSize : Nat
  parameters : ParameterBank
  automation : Vector Automation sliderCount
  cpu : CpuMeter
  /-- The channel over which scripts are handed to the effect. -/
  scripts : Option (Channel Interpreter)

namespace Effect

/-- Automation lanes without values. -/
def idleLanes : Vector Automation sliderCount :=
  Vector.replicate sliderCount .idle

/-- An effect without script. -/
def fresh : Effect where
  interpreter := .fresh
  loaded := false
  ready := false
  bypassed := false
  sampleRate := Config.standard.sampleRate
  maxBlockSize := Config.standard.maxBlockSize
  parameters := .fresh
  automation := idleLanes
  cpu := .fresh
  scripts := none

/-- The name of the effect: the description of its script. -/
def name (effect : Effect) : String :=
  match effect.interpreter.info? with
  | some info => info.description
  | none => ""

/-- One past the last declared slider. -/
def parameterCount (effect : Effect) : Nat :=
  effect.interpreter.parameterCount

/-! ### Loading -/

/-- Install a script; its initial slider values become the parameters. -/
def loadScript (effect : Effect) (script : Script) : Logged Effect := do
  let interpreter ← effect.interpreter.install script
  let effect := { effect with
    interpreter
    parameters := .ofValues interpreter.context.sliders.toList
    loaded := true
    ready := false }
  .note .debug
    s!"loaded effect '{effect.name}' with {effect.parameterCount} parameter(s)"
  return effect

/-- Compile and install a source; if it does not compile, the effect is unusable until a later load
succeeds. -/
def load (effect : Effect) (source : String) : Logged (Bool × Effect) := do
  match ← Script.compile source with
  | .ok script => return (true, ← effect.loadScript script)
  | .error error =>
    .note .warn s!"effect failed to load: {error.message}"
    return (false, { effect with loaded := false, ready := false })

/-- Run the interpreter, and keep all else as it is. -/
def runInterpreter {α : Type} (effect : Effect) (run : Interpreter → α × Interpreter) :
    α × Effect :=
  match effect with
  | ⟨interpreter, loaded, ready, bypassed, rate, blockSize, parameters, lanes, cpu, scripts⟩ =>
    let (result, interpreter) := run interpreter
    (result,
      ⟨interpreter, loaded, ready, bypassed, rate, blockSize, parameters, lanes, cpu, scripts⟩)

/-- Change the interpreter, and keep all else as it is. -/
def mapInterpreter (effect : Effect) (change : Interpreter → Interpreter) : Effect :=
  (effect.runInterpreter fun interpreter => ((), change interpreter)).2

/-- Set sliders without running anything. -/
def storeParameters (interpreter : Interpreter) (values : List (Nat × Float)) : Interpreter :=
  values.foldl (fun interpreter entry => (interpreter.storeParameter entry.1 entry.2).2) interpreter

/-- Apply the waiting parameter changes; whether there were any. -/
def applyPending (effect : Effect) : Bool × Effect :=
  let (values, parameters) := effect.parameters.drain
  let effect := { effect with parameters }
  (!values.isEmpty, effect.mapInterpreter (storeParameters · values))

/-- Prepare a loaded effect: set the sample rate, apply the waiting parameters, and run the init and
slider sections. -/
def prepare (effect : Effect) (sampleRate : Float) (maxBlockSize : Nat) : Logged Effect :=
  if effect.loaded then
    let effect := { effect with sampleRate, maxBlockSize }
    let effect := effect.mapInterpreter (·.setSampleRate sampleRate)
    let (_, effect) := effect.applyPending
    let effect := effect.mapInterpreter fun interpreter => interpreter.runInit.runSlider
    return { effect with ready := true }
  else do
    .note .warn "initialize called without a loaded script"
    return effect

/-- Prepare a loaded effect for given settings. -/
def prepareFor (effect : Effect) (config : Config) : Logged Effect :=
  effect.prepare config.sampleRate config.maxBlockSize

/-- Stop processing until the effect is prepared again. -/
def shutdown (effect : Effect) : Effect :=
  { effect with ready := false }

/-! ### Parameters and automation -/

/-- Ask for a parameter value. -/
def setParameter (effect : Effect) (index : Nat) (value : Float) : Effect :=
  { effect with parameters := (effect.parameters.set index value).2 }

/-- The value asked for if it waits, else the value of the slider. -/
def parameter (effect : Effect) (index : Nat) : Float :=
  if effect.parameters.isPending index then (effect.parameters.get? index).getD 0.0
  else effect.interpreter.parameter index

/-- Give a slider values to take in turn. -/
def automate (effect : Effect) (index : Nat) (values : List Float) : Effect :=
  { effect with automation := effect.automation.setIfInBounds index ⟨values⟩ }

/-- Forget all automation. -/
def clearAutomation (effect : Effect) : Effect :=
  { effect with automation := idleLanes }

/-- Set or lift the bypass. -/
def setBypassed (effect : Effect) (bypassed : Bool) : Effect :=
  { effect with bypassed }

/-! ### Handing scripts over -/

/-- Take scripts from a channel from now on. -/
def attach (effect : Effect) (channel : Channel Interpreter) : Effect :=
  { effect with scripts := some channel }

/-- Replace the interpreter by the newest one handed over, if there is one.  It keeps its own state
but takes on the transport of the one it replaces, which is sent back. -/
def receiveScript (effect : Effect) : Effect :=
  match effect.scripts with
  | none => effect
  | some channel =>
    match channel.receive with
    | (none, channel) => { effect with scripts := some channel }
    | (some next, channel) =>
      let transport := effect.interpreter.context.transport
      { effect with
        interpreter := { next with context := { next.context with transport } }
        scripts := some (channel.retire effect.interpreter)
        loaded := true
        ready := true }

/-! ### Processing -/

/-- Whether processing does anything. -/
def isActive (effect : Effect) : Bool :=
  effect.ready && !effect.bypassed

/-- The values that automation gives at this step. -/
def laneValues (lanes : Vector Automation sliderCount) : List (Nat × Float) :=
  (List.range sliderCount).filterMap fun index =>
    match lanes[index]? with
    | some lane => lane.next.1.map fun value => (index, value)
    | none => none

/-- Apply one step of every automation lane; whether any lane had a value. -/
def stepAutomation (effect : Effect) : Bool × Effect :=
  let values := laneValues effect.automation
  let lanes := effect.automation.map fun (lane : Automation) => lane.next.2
  let effect := { effect with automation := lanes }
  (!values.isEmpty, effect.mapInterpreter (storeParameters · values))

/-- Apply what waits and one automation step, and run the slider section if anything changed. -/
def beginCall (effect : Effect) : Effect :=
  let (asked, effect) := effect.applyPending
  let (moved, effect) := effect.stepAutomation
  if asked || moved then effect.mapInterpreter Interpreter.runSlider else effect

/-- Process one frame. -/
def processSample (effect : Effect) (left right : Float) : (Float × Float) × Effect :=
  let effect := effect.receiveScript
  if effect.isActive then effect.beginCall.runInterpreter (·.runSample left right)
  else ((left, right), effect)

/-- Process a block. -/
def processBlock (effect : Effect) (buffer : Audio.Buffer) : Audio.Buffer × Effect :=
  let effect := effect.receiveScript
  if effect.isActive then effect.beginCall.runInterpreter (·.runBlock buffer)
  else (buffer, effect)

/-- Take a processing time reported by the host. -/
def recordTime (effect : Effect) (elapsed : Float) : Effect :=
  { effect with cpu := effect.cpu.record elapsed }

end Effect

end EffectScript
