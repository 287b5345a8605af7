import EffectScript.Audio.Buffer
import EffectScript.Control.CpuMeter
import EffectScript.Machine.Eval
import EffectScript.Script.Compile

/-!
# Interpreters

An interpreter runs the sections of one installed script in a context of its own.  Installing a
script empties the arena, binds every variable that the script names, in order, and sets the sliders
to their initial values.
-/

namespace EffectScript

namespace Machine

open EffectScript.Language Script

/-- A script with its names resolved against one context. -/
structure Installed where
  script : Script
  bindings : Bindings

/-- Run a section in a context, if it is present. -/
def Installed.run (installed : Installed) (kind : SectionKind) (context : Context) : Context :=
  match installed.script.body? kind with
  | some body => (evalAll installed.bindings 0.0 body context).2
  | none => context

/-- Run the sample section on one frame, and give the frame it leaves. -/
def Installed.runFrame (installed : Installed) (left right : Float) (context : Context) :
    (Float × Float) × Context :=
  let context := installed.run .sample { context with spl0 := left, spl1 := right }
  ((context.spl0, context.spl1), context)

/-- Run the sample section on one frame of a buffer with at least two channels. -/
def Installed.runStereoFrame (installed : Installed) (index : Nat) (context : Context)
    (buffer : Audio.Buffer) : Context × Audio.Buffer :=
  let left := buffer.sample 0 index
  let right := buffer.sample 1 index
  let ((left, right), context) := installed.runFrame left.toFloat right.toFloat context
  (context, (buffer.setSample 0 index left.toFloat32).setSample 1 index right.toFloat32)

/-- Run the sample section on one frame of a buffer with one channel, which feeds both sides. -/
def Installed.runMonoFrame (installed : Installed) (index : Nat) (context : Context)
    (buffer : Audio.Buffer) : Context × Audio.Buffer :=
  let sample := buffer.sample 0 index
  let ((left, _), context) := installed.runFrame sample.toFloat sample.toFloat context
  (context, buffer.setSample 0 index left.toFloat32)

/-- Run the sample section on the first `count` frames of a buffer. -/
def Installed.runFrames (installed : Installed) (count : Nat) (context : Context)
    (buffer : Audio.Buffer) : Context × Audio.Buffer :=
  if 2 ≤ buffer.channels then
    Nat.fold count
      (fun index _ state => installed.runStereoFrame index state.1 state.2) (context, buffer)
  else
    Nat.fold count
      (fun index _ state => installed.runMonoFrame index state.1 state.2) (context, buffer)

end Machine

open EffectScript.Language Machine Script

/-- A context and the script that runs in it, if one is installed. -/
structure Interpreter where
  context : Context
  installed : Option Installed
  cpu : Control.CpuMeter

namespace Interpreter

/-- An interpreter without script. -/
def fresh : Interpreter := ⟨.fresh, none, .fresh⟩

/-! ### Installing a script -/

/-- Bind names in order, and give their cells. -/
def bindNames (arena : Arena) (slots : Array (Option Nat)) :
    List String → Logged (Array (Option Nat) × Arena)
  | [] => return (slots, arena)
  | name :: rest => do
    let (slot, arena) ← arena.bind name
    bindNames arena (slots.push slot) rest

/-- Find the functions with given names, noting those that do not exist. -/
def findFunctions (functions : Array (Option Builtin)) :
    List String → Logged (Array (Option Builtin))
  | [] => return functions
  | name :: rest => do
    let function := Builtin.ofName? name
    if function.isNone then
      .note .debug s!"'{name}' is not a known function, calls return 0"
    findFunctions (functions.push function) rest

/-- Make a script the one that runs. -/
def install (interpreter : Interpreter) (script : Script) : Logged Interpreter := do
  let (slots, arena) ← bindNames .empty #[] script.program.symbols
  let functions ← findFunctions #[] script.program.functions
  let context := { interpreter.context with arena }
  return {
    context := context.loadSliders script.info.initialValues
    installed := some ⟨script, ⟨slots, functions⟩⟩
    cpu := .fresh }

/-- Compile and install a source; if it does not compile, the interpreter stays as it was. -/
def load (interpreter : Interpreter) (source : String) : Logged (Bool × Interpreter) := do
  match ← Script.compile source with
  | .ok script => return (true, ← interpreter.install script)
  | .error error =>
    .note .warn s!"failed to load script: {error.message}"
    return (false, interpreter)

/-! ### What is installed -/

/-- Whether a script is installed. -/
def isLoaded (interpreter : Interpreter) : Bool :=
  interpreter.installed.isSome

/-- The header of the installed script. -/
def info? (interpreter : Interpreter) : Option Info :=
  interpreter.installed.map fun installed => installed.script.info

/-- The statements of a section of the installed script. -/
def body? (interpreter : Interpreter) (kind : SectionKind) : Option (List Node) :=
  match interpreter.installed with
  | some installed => installed.script.body? kind
  | none => none

/-- Whether the installed script has a section. -/
def hasSection (interpreter : Interpreter) (kind : SectionKind) : Bool :=
  (interpreter.body? kind).isSome

/-- One past the last declared slider, at most the number of sliders. -/
def parameterCount (interpreter : Interpreter) : Nat :=
  match interpreter.info? with
  | some info => min info.parameterCount sliderCount
  | none => 0

/-! ### State -/

/-- Set the sample rate. -/
def setSampleRate (interpreter : Interpreter) (rate : Float) : Interpreter :=
  match interpreter with
  | ⟨context, installed, cpu⟩ => ⟨{ context with srate := rate }, installed, cpu⟩

/-- Set a slider without running anything; whether it exists. -/
def storeParameter (interpreter : Interpreter) (index : Nat) (value : Float) :
    Bool × Interpreter :=
  match interpreter with
  | ⟨context, installed, cpu⟩ =>
    (decide (index < sliderCount), ⟨context.setHost (.slider index) value, installed, cpu⟩)

/-- The value of a slider, zero if it does not exist. -/
def parameter (interpreter : Interpreter) (index : Nat) : Float :=
  interpreter.context.sliders[index]?.getD 0.0

/-- Declare an array that the script can index by name. -/
def allocateArray (interpreter : Interpreter) (name : String) (size : Nat) :
    Logged (Option Nat × Interpreter) := do
  match interpreter with
  | ⟨⟨arena, sliders, spl0, spl1, srate, transport⟩, installed, cpu⟩ =>
    let (base, arena) ← arena.allocate name size
    return (base, ⟨⟨arena, sliders, spl0, spl1, srate, transport⟩, installed, cpu⟩)

/-- The value of a variable, zero if it is unknown. -/
def variableValue (interpreter : Interpreter) (name : String) : Float :=
  interpreter.context.arena.get name

/-- Set a variable. -/
def setVariable (interpreter : Interpreter) (name : String) (value : Float) :
    Logged Interpreter := do
  match interpreter with
  | ⟨⟨arena, sliders, spl0, spl1, srate, transport⟩, installed, cpu⟩ =>
    let arena ← arena.set name value
    return ⟨⟨arena, sliders, spl0, spl1, srate, transport⟩, installed, cpu⟩

/-- Take a processing time reported by the host. -/
def recordTime (interpreter : Interpreter) (elapsed : Float) : Interpreter :=
  { interpreter with cpu := interpreter.cpu.record elapsed }

/-! ### Running sections -/

/-- Run a section, if a script with it is installed. -/
def run (interpreter : Interpreter) (kind : SectionKind) : Interpreter :=
  match interpreter with
  | ⟨context, some installed, cpu⟩ => ⟨installed.run kind context, some installed, cpu⟩
  | ⟨context, none, cpu⟩ => ⟨context, none, cpu⟩

/-- Zero all variables and array elements, and run the init section. -/
def runInit (interpreter : Interpreter) : Interpreter :=
  match interpreter with
  | ⟨context, installed, cpu⟩ =>
    run ⟨{ context with arena := context.arena.clear }, installed, cpu⟩ .init

/-- Run the slider section. -/
def runSlider (interpreter : Interpreter) : Interpreter :=
  interpreter.run .slider

/-- Run the sample section on one frame; without it the frame passes unchanged. -/
def runSample (interpreter : Interpreter) (left right : Float) :
    (Float × Float) × Interpreter :=
  if interpreter.hasSection .sample then
    match interpreter with
    | ⟨context, some installed, cpu⟩ =>
      let (frame, context) := installed.runFrame left right context
      (frame, ⟨context, some installed, cpu⟩)
    | ⟨context, none, cpu⟩ => ((left, right), ⟨context, none, cpu⟩)
  else ((left, right), interpreter)

/-- Run the block section once and then the sample section on every frame of the first two
channels; one channel alone feeds both sides. -/
def runBlock (interpreter : Interpreter) (buffer : Audio.Buffer) : Audio.Buffer × Interpreter :=
  match interpreter with
  | ⟨context, none, cpu⟩ => (buffer, ⟨context, none, cpu⟩)
  | ⟨context, some installed, cpu⟩ =>
    if buffer.channels == 0 then (buffer, ⟨context, some installed, cpu⟩)
    else
      let context := installed.run .block context
      if (installed.script.body? .sample).isSome then
        let (context, buffer) := installed.runFrames buffer.samples context buffer
        (buffer, ⟨context, some installed, cpu⟩)
      else (buffer, ⟨context, some installed, cpu⟩)

/-- Set a slider and run the slider section; a slider that does not exist is ignored. -/
def setParameter (interpreter : Interpreter) (index : Nat) (value : Float) : Interpreter :=
  let (found, interpreter) := interpreter.storeParameter index value
  if found then interpreter.runSlider else interpreter

end Interpreter

end EffectScript
