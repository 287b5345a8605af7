import EffectScript.Effect

/-!
# Processing with a clock

The engine has no clock of its own.  A host that has one can let the meters follow every call: a
timed call does what the plain call does, and each meter takes the time of what it meters.  The
meter of an interpreter takes the time of the sections that run, and the meter of an effect that of
the whole call.
-/

namespace EffectScript

/-- What a clock shows for the parts of a call, in milliseconds. -/
structure CallTimes where
  /-- For the init section. -/
  init : Float
  /-- For the slider section. -/
  slider : Float
  /-- For the sections that work on audio. -/
  audio : Float
  /-- For the call of the effect. -/
  whole : Float

namespace Interpreter

/-- Run a section and meter it, if it is present. -/
def timedRun (interpreter : Interpreter) (elapsed : Float) (kind : Script.SectionKind) :
    Interpreter :=
  if interpreter.hasSection kind then (interpreter.run kind).recordTime elapsed else interpreter

/-- Zero all variables and array elements, and run and meter the init section. -/
def timedInit (interpreter : Interpreter) (elapsed : Float) : Interpreter :=
  match interpreter with
  | ⟨context, installed, cpu⟩ =>
    timedRun ⟨{ context with arena := context.arena.clear }, installed, cpu⟩ elapsed .init

/-- Run and meter the sample section on one frame; without it nothing is metered. -/
def timedSample (interpreter : Interpreter) (elapsed left right : Float) :
    (Float × Float) × Interpreter :=
  if interpreter.hasSection .sample then
    let (frame, interpreter) := interpreter.runSample left right
    (frame, interpreter.recordTime elapsed)
  else ((left, right), interpreter)

/-- Run and meter the block and sample sections on a buffer; without a script or without channels
nothing is metered. -/
def timedBlock (interpreter : Interpreter) (elapsed : Float) (buffer : Audio.Buffer) :
    Audio.Buffer × Interpreter :=
  if interpreter.isLoaded && buffer.channels != 0 then
    let (buffer, interpreter) := interpreter.runBlock buffer
    (buffer, interpreter.recordTime elapsed)
  else (buffer, interpreter)

end Interpreter

namespace Effect

/-- Prepare a loaded effect, and meter the sections. -/
def timedPrepare (effect : Effect) (times : CallTimes) (sampleRate : Float) (maxBlockSize : Nat) :
    Logged Effect :=
  if effect.loaded then
    let effect := { effect with sampleRate, maxBlockSize }
    let effect := effect.mapInterpreter (·.setSampleRate sampleRate)
    let (_, effect) := effect.applyPending
    let effect := effect.mapInterpreter fun interpreter =>
      (interpreter.timedInit times.init).timedRun times.slider .slider
    return { effect with ready := true }
  else do
    .note .warn "initialize called without a loaded script"
    return effect

/-- Apply what waits and one automation step, and run and meter the slider section if anything
changed. -/
def timedBegin (effect : Effect) (elapsed : Float) : Effect :=
  let (asked, effect) := effect.applyPending
  let (moved, effect) := effect.stepAutomation
  if asked || moved then effect.mapInterpreter (·.timedRun elapsed .slider) else effect

/-- A metered processing call with a given idle outcome and a given run of the interpreter.  A call
that finds the effect inactive is not metered. -/
def timedCall {α : Type} (effect : Effect) (times : CallTimes) (idle : α)
    (run : Interpreter → α × Interpreter) : α × Effect :=
  let effect := effect.receiveScript
  if effect.isActive then
    let (result, effect) := (effect.timedBegin times.slider).runInterpreter run
    (result, effect.recordTime times.whole)
  else (idle, effect)

/-- Process and meter one frame. -/
def timedSample (effect : Effect) (times : CallTimes) (left right : Float) :
    (Float × Float) × Effect :=
  effect.timedCall times (left, right) (·.timedSample times.audio left right)

/-- Process and meter a block. -/
def timedBlock (effect : Effect) (times : CallTimes) (buffer : Audio.Buffer) :
    Audio.Buffer × Effect :=
  effect.timedCall times buffer (·.timedBlock times.audio buffer)

end Effect

end EffectScript
