import EffectScript.Machine.Interpreter

/-!
# Handing scripts over

The control side prepares interpreters and sends them to the audio side, which takes the newest and
sends the ones it has no use for back, so that they are disposed of where time does not matter.
Both ways are queues of the same bounded capacity.
-/

namespace EffectScript.Control

/-- Two bounded queues between the control side and the audio side. -/
structure Channel (α : Type) where
  /-- Tells channels apart. -/
  label : Nat
  /-- Most elements that either queue can hold. -/
  capacity : Nat
  /-- Sent and not yet taken, oldest first. -/
  ready : List α
  /-- Sent back and not yet collected, oldest first. -/
  retired : List α

namespace Channel

variable {α : Type}

/-- A channel without elements; the capacity is at least one. -/
def ofCapacity (label capacity : Nat) : Channel α := ⟨label, max capacity 1, [], []⟩

/-- Dispose of what was sent back, and give its number. -/
def collect (channel : Channel α) : Logged (Nat × Channel α) := do
  let count := channel.retired.length
  if 0 < count then
    .note .debug s!"released {count} retired interpreter(s)"
  return (count, { channel with retired := [] })

/-- Send an element after collecting; refused if the queue is full. -/
def send (channel : Channel α) (element : α) : Logged (Bool × Channel α) := do
  let (_, channel) ← channel.collect
  if channel.ready.length < channel.capacity then
    return (true, { channel with ready := channel.ready ++ [element] })
  else
    return (false, channel)

/-- Send an element back; if that queue is full, the element is dropped. -/
def retire (channel : Channel α) (element : α) : Channel α :=
  if channel.retired.length < channel.capacity then
    { channel with retired := channel.retired ++ [element] }
  else channel

/-- Take the newest element and send the older ones back. -/
def receive (channel : Channel α) : Option α × Channel α :=
  match channel.ready with
  | [] => (none, channel)
  | first :: rest =>
    let older := (first :: rest).dropLast
    let newest := rest.getLast?.getD first
    (some newest, older.foldl retire { channel with ready := [] })

end Channel

/-- Why a script could not be handed over. -/
inductive HandoffError where
  | load (cause : Script.LoadError)
  /-- The audio side has not yet taken what was sent. -/
  | queueFull

/-- The wording of the error. -/
def HandoffError.message : HandoffError → String
  | load cause => cause.message
  | queueFull => "Script queue is full"

/-- A fresh interpreter with a script that has run its init and slider sections. -/
def readyInterpreter (script : Script) (sampleRate : Float) : Logged Interpreter := do
  let interpreter ← Interpreter.fresh.install script
  return (interpreter.setSampleRate sampleRate).runInit.runSlider

namespace Channel

/-- Send an interpreter as it is. -/
def sendInterpreter (channel : Channel Interpreter) (interpreter : Interpreter) :
    Logged (Except HandoffError Unit × Channel Interpreter) := do
  let (accepted, channel) ← channel.send interpreter
  return (if accepted then .ok () else .error .queueFull, channel)

/-- Send an interpreter that is ready to run a script. -/
def sendScript (channel : Channel Interpreter) (script : Script) (sampleRate : Float) :
    Logged (Except HandoffError Unit × Channel Interpreter) := do
  channel.sendInterpreter (← readyInterpreter script sampleRate)

/-- Compile a source and send an interpreter that is ready to run it. -/
def sendSource (channel : Channel Interpreter) (source : String) (sampleRate : Float) :
    Logged (Except HandoffError Unit × Channel Interpreter) := do
  match ← Script.compile source with
  | .error cause => return (.error (.load cause), channel)
  | .ok script => channel.sendScript script sampleRate

end Channel

end EffectScript.Control
