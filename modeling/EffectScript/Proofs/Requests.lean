import EffectScript.Machine.Interpreter

/-!
# Requests of a host

What a host can ask of an interpreter with a script, and what it sees: a reply to each request and
the context after it.  Everything but the sections themselves is the same whoever evaluates them, so
requests are answered by any `Runner`, which knows how to run a section; an interpreter is one.
-/

namespace EffectScript

open Machine Script

/-- What a host can ask of an interpreter. -/
inductive Request where
  | runInit
  | runSlider
  | runSample (left right : Float)
  | runBlock (buffer : Audio.Buffer)
  | setParameter (index : Nat) (value : Float)
  | storeParameter (index : Nat) (value : Float)
  | setVariable (name : String) (value : Float)
  | allocateArray (name : String) (size : Nat)
  | setSampleRate (rate : Float)

/-- What a host gets back. -/
inductive Reply where
  | done
  | frame (left right : Float)
  | block (buffer : Audio.Buffer)
  /-- Whether the slider exists. -/
  | stored (found : Bool)
  /-- The first cell of an array. -/
  | base (address : Option Nat)

/-- The reply of an interpreter to a request, and the interpreter after it. -/
def Interpreter.answer (interpreter : Interpreter) : Request → Reply × Interpreter
  | .runInit => (.done, interpreter.runInit)
  | .runSlider => (.done, interpreter.runSlider)
  | .runSample left right =>
    let (frame, after) := interpreter.runSample left right
    (.frame frame.1 frame.2, after)
  | .runBlock buffer =>
    let (buffer, after) := interpreter.runBlock buffer
    (.block buffer, after)
  | .setParameter index value => (.done, interpreter.setParameter index value)
  | .storeParameter index value =>
    let (found, after) := interpreter.storeParameter index value
    (.stored found, after)
  | .setVariable name value => (.done, (interpreter.setVariable name value).value)
  | .allocateArray name size =>
    let (address, after) := (interpreter.allocateArray name size).value
    (.base address, after)
  | .setSampleRate rate => (.done, interpreter.setSampleRate rate)

/-- The replies to requests in sequence, each with the context after it. -/
def Interpreter.trace (interpreter : Interpreter) : List Request → List (Reply × Context)
  | [] => []
  | request :: rest =>
    let outcome := interpreter.answer request
    (outcome.1, outcome.2.context) :: outcome.2.trace rest

/-! ### Runners -/

/-- Steps that keep states related keep them related when repeated. -/
theorem fold_related {State : Type} (related : State → State → Prop)
    {step twin : Nat → State → State} {count : Nat}
    (keeps : ∀ index < count, ∀ state other, related state other →
      related (step index state) (twin index other))
    {state other : State} (start : related state other) :
    related (Nat.fold count (fun index _ => step index) state)
      (Nat.fold count (fun index _ => twin index) other) := by
  induction count with
  | zero => exact start
  | succ count ih =>
    simp only [Nat.fold_succ]
    exact keeps count (Nat.lt_succ_self count) _ _
      (ih fun index before => keeps index (Nat.lt_succ_of_lt before))

/-- A way to run the sections of a script. -/
structure Runner where
  /-- Whether a section is present. -/
  has : SectionKind → Bool
  /-- Run a section, if it is present. -/
  run : SectionKind → Context → Context

namespace Runner

variable (runner : Runner)

/-- Run the sample section on one frame, and give the frame it leaves. -/
def frame (left right : Float) (context : Context) : (Float × Float) × Context :=
  let context := runner.run .sample { context with spl0 := left, spl1 := right }
  ((context.spl0, context.spl1), context)

/-- Run the sample section on one frame of a buffer with at least two channels. -/
def stereoFrame (index : Nat) (state : Context × Audio.Buffer) : Context × Audio.Buffer :=
  let (context, buffer) := state
  let ((left, right), context) :=
    runner.frame (buffer.sample 0 index).toFloat (buffer.sample 1 index).toFloat context
  (context, (buffer.setSample 0 index left.toFloat32).setSample 1 index right.toFloat32)

/-- Run the sample section on one frame of a single channel, which feeds both sides. -/
def monoFrame (index : Nat) (state : Context × Audio.Buffer) : Context × Audio.Buffer :=
  let (context, buffer) := state
  let sample := (buffer.sample 0 index).toFloat
  let ((left, _), context) := runner.frame sample sample context
  (context, buffer.setSample 0 index left.toFloat32)

/-- Run the sample section on the first `count` frames of a buffer. -/
def frames (count : Nat) (state : Context × Audio.Buffer) : Context × Audio.Buffer :=
  if 2 ≤ state.2.channels then Nat.fold count (fun index _ => runner.stereoFrame index) state
  else Nat.fold count (fun index _ => runner.monoFrame index) state

/-- The reply to a request, and the context after it. -/
def answer (context : Context) : Request → Reply × Context
  | .runInit => (.done, runner.run .init { context with arena := context.arena.clear })
  | .runSlider => (.done, runner.run .slider context)
  | .runSample left right =>
    if runner.has .sample then
      let (frame, after) := runner.frame left right context
      (.frame frame.1 frame.2, after)
    else (.frame left right, context)
  | .runBlock buffer =>
    if buffer.channels == 0 then (.block buffer, context)
    else
      let context := runner.run .block context
      if runner.has .sample then
        let (after, buffer) := runner.frames buffer.samples (context, buffer)
        (.block buffer, after)
      else (.block buffer, context)
  | .setParameter index value =>
    let context := context.setHost (.slider index) value
    if index < Language.sliderCount then (.done, runner.run .slider context)
    else (.done, context)
  | .storeParameter index value =>
    (.stored (index < Language.sliderCount), context.setHost (.slider index) value)
  | .setVariable name value =>
    (.done, { context with arena := (context.arena.set name value).value })
  | .allocateArray name size =>
    let (address, arena) := (context.arena.allocate name size).value
    (.base address, { context with arena })
  | .setSampleRate rate => (.done, { context with srate := rate })

/-- The replies to requests in sequence, each with the context after it. -/
def trace (runner : Runner) (context : Context) : List Request → List (Reply × Context)
  | [] => []
  | request :: rest =>
    let outcome := runner.answer context request
    outcome :: runner.trace outcome.2 rest

/-- Run the sections of an installed script. -/
def ofInstalled (installed : Installed) : Runner where
  has kind := (installed.script.body? kind).isSome
  run := installed.run

end Runner

namespace Runner

variable (installed : Installed)

@[simp]
theorem has_ofInstalled (kind : SectionKind) :
    (ofInstalled installed).has kind = (installed.script.body? kind).isSome := rfl

@[simp]
theorem run_ofInstalled : (ofInstalled installed).run = installed.run := rfl

@[simp]
theorem frame_ofInstalled : (ofInstalled installed).frame = installed.runFrame := rfl

@[simp]
theorem frames_ofInstalled (count : Nat) (context : Context) (buffer : Audio.Buffer) :
    (ofInstalled installed).frames count (context, buffer) =
      installed.runFrames count context buffer := rfl

end Runner

/-- An interpreter with a script answers as the runner of that script, and keeps the script. -/
theorem Interpreter.answer_eq_runner (context : Context) (installed : Installed)
    (cpu : Control.CpuMeter) (request : Request) :
    (Interpreter.mk context (some installed) cpu).answer request =
      let outcome := Runner.answer (.ofInstalled installed) context request
      (outcome.1, ⟨outcome.2, some installed, cpu⟩) := by
  cases request with
  | runSample left right =>
    by_cases present : (installed.script.body? .sample).isSome = true <;>
      simp [answer, runSample, hasSection, body?, Runner.answer, present]
  | runBlock buffer =>
    by_cases silent : (buffer.channels == 0) = true
    · simp [answer, runBlock, Runner.answer, silent]
    · by_cases present : (installed.script.body? .sample).isSome = true <;>
        simp [answer, runBlock, Runner.answer, silent, present]
  | setParameter index value =>
    by_cases found : index < Language.sliderCount <;>
      simp [answer, setParameter, storeParameter, Runner.answer, found]
    rfl
  | runInit => rfl
  | runSlider => rfl
  | storeParameter index value => rfl
  | setVariable name value => rfl
  | allocateArray name size => rfl
  | setSampleRate rate => rfl

theorem Interpreter.trace_eq_runner (context : Context) (installed : Installed)
    (cpu : Control.CpuMeter) (requests : List Request) :
    (Interpreter.mk context (some installed) cpu).trace requests =
      Runner.trace (.ofInstalled installed) context requests := by
  induction requests generalizing context with
  | nil => rfl
  | cons request rest ih =>
    rw [Interpreter.trace, Interpreter.answer_eq_runner, Runner.trace]
    exact congrArg (_ :: ·) (ih _)

end EffectScript
