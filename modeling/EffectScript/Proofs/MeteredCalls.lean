import EffectScript.Effect.Metering
import EffectScript.Proofs.SliderHistory

/-!
# Calls with a clock

A clock changes the meters and nothing else: a timed call gives what the plain call gives, and
leaves the same effect but for its meters.  No section can read a meter, so both calls can be
compared with the plain call of the effect whose meters were taken away.
-/

namespace EffectScript

open Control Script

/-! ### Interpreters -/

namespace Interpreter

/-- The interpreter with a fresh meter. -/
def unmetered (interpreter : Interpreter) : Interpreter :=
  { interpreter with cpu := .fresh }

variable (interpreter : Interpreter)

theorem run_unmetered (kind : SectionKind) :
    interpreter.unmetered.run kind = (interpreter.run kind).unmetered := by
  obtain ⟨context, installed, cpu⟩ := interpreter
  cases installed with
  | none => rfl
  | some installed => rfl

variable {interpreter} in
theorem run_of_absent {kind : SectionKind} (absent : interpreter.hasSection kind = false) :
    interpreter.run kind = interpreter := by
  obtain ⟨context, installed, cpu⟩ := interpreter
  cases installed with
  | none => rfl
  | some installed =>
    have missing : installed.script.body? kind = none := by
      simpa [hasSection, body?] using absent
    rw [run, Machine.Installed.run, missing]

theorem unmetered_timedRun (elapsed : Float) (kind : SectionKind) :
    (interpreter.timedRun elapsed kind).unmetered = (interpreter.run kind).unmetered := by
  rw [timedRun]
  split
  · rfl
  next absent => rw [run_of_absent (Bool.not_eq_true _ ▸ absent)]

theorem unmetered_timedInit (elapsed : Float) :
    (interpreter.timedInit elapsed).unmetered = interpreter.runInit.unmetered :=
  unmetered_timedRun _ elapsed .init

variable {interpreter} in
theorem runSample_of_absent (absent : ¬interpreter.hasSection .sample = true)
    (left right : Float) : interpreter.runSample left right = ((left, right), interpreter) := by
  unfold runSample
  exact if_neg absent

theorem runSample_unmetered (left right : Float) :
    interpreter.unmetered.runSample left right =
      (interpreter.runSample left right).map id unmetered := by
  have same : interpreter.unmetered.hasSection .sample = interpreter.hasSection .sample := rfl
  by_cases present : interpreter.hasSection .sample = true
  · unfold runSample
    rw [if_pos present, if_pos (same.trans present)]
    obtain ⟨context, installed, cpu⟩ := interpreter
    cases installed with
    | none => rfl
    | some installed => rfl
  · rw [runSample_of_absent present, runSample_of_absent (same ▸ present)]
    rfl

theorem map_timedSample (elapsed left right : Float) :
    (interpreter.timedSample elapsed left right).map id unmetered =
      interpreter.unmetered.runSample left right := by
  rw [runSample_unmetered, timedSample]
  split
  · rfl
  next absent => rw [runSample_of_absent absent]

theorem runBlock_unmetered (buffer : Audio.Buffer) :
    interpreter.unmetered.runBlock buffer =
      (interpreter.runBlock buffer).map id unmetered := by
  obtain ⟨context, installed, cpu⟩ := interpreter
  cases installed with
  | none => rfl
  | some installed =>
    dsimp only [unmetered, runBlock]
    split
    · rfl
    · split <;> rfl

theorem map_timedBlock (elapsed : Float) (buffer : Audio.Buffer) :
    (interpreter.timedBlock elapsed buffer).map id unmetered =
      interpreter.unmetered.runBlock buffer := by
  rw [runBlock_unmetered, timedBlock]
  split
  · rfl
  next idle =>
    obtain ⟨context, installed, cpu⟩ := interpreter
    cases installed with
    | none => rfl
    | some installed =>
      have silent : (buffer.channels == 0) = true := by
        simpa [isLoaded] using idle
      rw [runBlock, if_pos silent]

end Interpreter

/-! ### Effects -/

namespace Effect

/-- The effect with fresh meters. -/
def unmetered (effect : Effect) : Effect :=
  { effect with interpreter := effect.interpreter.unmetered, cpu := .fresh }

variable (effect : Effect)

variable {change other : Interpreter → Interpreter} in
theorem unmetered_mapInterpreter_congr
    (same : ∀ interpreter, (change interpreter).unmetered = (other interpreter).unmetered) :
    (effect.mapInterpreter change).unmetered = (effect.mapInterpreter other).unmetered := by
  have replaced (change : Interpreter → Interpreter) :
      (effect.mapInterpreter change).unmetered =
        { effect with interpreter := (change effect.interpreter).unmetered, cpu := .fresh } := rfl
  rw [replaced, replaced, same]

theorem unmetered_timedPrepare (times : CallTimes) (sampleRate : Float) (maxBlockSize : Nat) :
    (effect.timedPrepare times sampleRate maxBlockSize).value.unmetered =
      (effect.prepare sampleRate maxBlockSize).value.unmetered := by
  let rated := { effect with sampleRate, maxBlockSize }.mapInterpreter (·.setSampleRate sampleRate)
  have sections (interpreter : Interpreter) :
      ((interpreter.timedInit times.init).timedRun times.slider .slider).unmetered =
        interpreter.runInit.runSlider.unmetered := by
    rw [Interpreter.unmetered_timedRun, ← Interpreter.run_unmetered,
      Interpreter.unmetered_timedInit, Interpreter.run_unmetered]
    rfl
  have readied {first second : Effect} (same : first.unmetered = second.unmetered) :
      ({ first with ready := true } : Effect).unmetered =
        ({ second with ready := true } : Effect).unmetered :=
    (congrArg (fun prepared : Effect => { prepared with ready := true }) same :)
  rw [timedPrepare, prepare]
  split
  · exact readied (rated.applyPending.2.unmetered_mapInterpreter_congr sections)
  · rfl

theorem unmetered_timedBegin (elapsed : Float) :
    (effect.timedBegin elapsed).unmetered = effect.beginCall.unmetered := by
  rw [timedBegin, beginCall]
  dsimp only
  split
  · exact unmetered_mapInterpreter_congr _ fun interpreter =>
      interpreter.unmetered_timedRun elapsed .slider
  · rfl

section Call

variable {α : Type} {run timed : Interpreter → α × Interpreter}

theorem map_runInterpreter
    (forgets : ∀ interpreter, (timed interpreter).map id Interpreter.unmetered =
      run interpreter.unmetered) :
    (effect.runInterpreter timed).map id unmetered = effect.unmetered.runInterpreter run := by
  have put (outcome : α × Interpreter) :
      (outcome.map id fun interpreter => { effect with interpreter }.unmetered) =
        ((outcome.map id Interpreter.unmetered).map id fun interpreter =>
          { effect.unmetered with interpreter }) := rfl
  have ran := forgets effect.interpreter
  have started := put (timed effect.interpreter)
  rw [ran] at started
  exact started

theorem map_timedCall (times : CallTimes) (idle : α)
    (plain : ∀ interpreter, (run interpreter).map id Interpreter.unmetered =
      run interpreter.unmetered)
    (forgets : ∀ interpreter, (timed interpreter).map id Interpreter.unmetered =
      run interpreter.unmetered) :
    (effect.timedCall times idle timed).map id unmetered =
      (effect.call idle run).map id unmetered := by
  rw [timedCall, call, runsCalls]
  dsimp only
  split
  · rw [map_runInterpreter _ plain, ← unmetered_timedBegin _ times.slider,
      ← map_runInterpreter _ forgets]
    rfl
  · rfl

theorem map_timedSample (times : CallTimes) (left right : Float) :
    (effect.timedSample times left right).map id unmetered =
      (effect.processSample left right).map id unmetered :=
  effect.map_timedCall times _
    (fun interpreter => (interpreter.runSample_unmetered left right).symm)
    fun interpreter => interpreter.map_timedSample times.audio left right

theorem map_timedBlock (times : CallTimes) (buffer : Audio.Buffer) :
    (effect.timedBlock times buffer).map id unmetered =
      (effect.processBlock buffer).map id unmetered :=
  effect.map_timedCall times _
    (fun interpreter => (interpreter.runBlock_unmetered buffer).symm)
    fun interpreter => interpreter.map_timedBlock times.audio buffer

end Call

end Effect

end EffectScript
