import EffectScript.Proofs.PendingValues

/-!
# Sliders over a history

Everything that can happen to an effect after a load, in any order.  A history determines, for every
slider, the value asked for last and not yet taken, and the automation values with the number of
active calls that have used them.  These two say what every slider holds when the sections of a
call start to run, and whether the slider section is one of them.
-/

namespace EffectScript.Effect

open EffectScript.Language Control

/-! ### Histories -/

/-- What can happen to an effect between two loads. -/
inductive Event where
  | setParameter (index : Nat) (value : Float)
  /-- A value is asked for through a second handle on the bank. -/
  | setThroughClone (index : Nat) (value : Float)
  | automate (index : Nat) (values : List Float)
  | clearAutomation
  | setBypassed (bypassed : Bool)
  | prepare (sampleRate : Float) (maxBlockSize : Nat)
  | shutdown
  | attach (channel : Channel Interpreter)
  /-- The control side sends an interpreter over the attached channel. -/
  | send (interpreter : Interpreter)
  /-- The control side collects what the effect has sent back. -/
  | collect
  | processSample (left right : Float)
  | processBlock (buffer : Audio.Buffer)

/-- The effect after the control side has used the channel. -/
def useChannel (effect : Effect) (use : Channel Interpreter → Channel Interpreter) : Effect :=
  { effect with scripts := effect.scripts.map use }

/-- A bank after a value was asked for through another handle on it. -/
def setThroughClone (bank : ParameterBank) (index : Nat) (value : Float) : ParameterBank :=
  let (clone, shared) := (SharedBanks.ofBank bank).share 0
  (shared.set clone ((shared.get clone).set index value).2).get 0

/-- The effect after an event. -/
def after (effect : Effect) : Event → Effect
  | .setParameter index value => effect.setParameter index value
  | .setThroughClone index value =>
    { effect with parameters := setThroughClone effect.parameters index value }
  | .automate index values => effect.automate index values
  | .clearAutomation => effect.clearAutomation
  | .setBypassed bypassed => effect.setBypassed bypassed
  | .prepare sampleRate maxBlockSize => (effect.prepare sampleRate maxBlockSize).value
  | .shutdown => effect.shutdown
  | .attach channel => effect.attach channel
  | .send interpreter => effect.useChannel fun channel => (channel.send interpreter).value.2
  | .collect => effect.useChannel fun channel => channel.collect.value.2
  | .processSample left right => (effect.processSample left right).2
  | .processBlock buffer => (effect.processBlock buffer).2

/-- The effect after a history, whose newest event comes first. -/
def follow (start : Effect) : List Event → Effect
  | [] => start
  | event :: earlier => (start.follow earlier).after event

/-- Whether a processing call would run the script, once it has taken what was handed over. -/
def runsCalls (effect : Effect) : Bool :=
  effect.receiveScript.isActive

/-- Whether an event is a processing call that runs the script. -/
def callsActively (effect : Effect) : Event → Bool
  | .processSample _ _ | .processBlock _ => effect.runsCalls
  | _ => false

/-- Whether an event takes the waiting values. -/
def drains (effect : Effect) : Event → Bool
  | .prepare _ _ => true
  | event => effect.callsActively event

/-- The value that an event asks a slider to take. -/
def Event.asks? (index : Nat) : Event → Option Float
  | .setParameter other value | .setThroughClone other value =>
    if other = index then some value else none
  | _ => none

/-- The values that an event gives to the lane of a slider. -/
def Event.gives? (index : Nat) : Event → Option (List Float)
  | .automate other values => if other = index then some values else none
  | .clearAutomation => some []
  | _ => none

/-- The last value asked for since the waiting values were taken. -/
def lastAsked (start : Effect) (index : Nat) : List Event → Option Float
  | [] => none
  | event :: earlier =>
    match event.asks? index with
    | some value => some value
    | none => if (start.follow earlier).drains event then none else start.lastAsked index earlier

/-- The values given last to the lane of a slider, and how many active calls there were since. -/
def laneSince (start : Effect) (index : Nat) : List Event → List Float × Nat
  | [] => (start.remaining index, 0)
  | event :: earlier =>
    match event.gives? index with
    | some values => (values, 0)
    | none =>
      let (values, calls) := start.laneSince index earlier
      (values, if (start.follow earlier).callsActively event then calls + 1 else calls)

/-- The value that a slider takes from its lane at the next active call: the first of the values at
the first active call after they were given, and so on. -/
def laneValue? (start : Effect) (index : Nat) (history : List Event) : Option Float :=
  (start.laneSince index history).1[(start.laneSince index history).2]?

/-! ### One event -/

theorem setThroughClone_eq (bank : ParameterBank) (index : Nat) (value : Float) :
    setThroughClone bank index value = (bank.set index value).2 :=
  SharedBanks.get_set_share bank _

theorem value_prepare {effect : Effect} (loaded : effect.loaded = true) (sampleRate : Float)
    (maxBlockSize : Nat) :
    (effect.prepare sampleRate maxBlockSize).value.parameters = effect.parameters.drain.2 ∧
      (effect.prepare sampleRate maxBlockSize).value.automation = effect.automation ∧
      (effect.prepare sampleRate maxBlockSize).value.loaded = true := by
  rw [prepare, if_pos loaded]
  exact ⟨rfl, rfl, loaded⟩

/-- Preparing sets the sample rate and the sliders for which a value waits, and runs the init and
slider sections. -/
theorem interpreter_prepare {effect : Effect} (loaded : effect.loaded = true) (sampleRate : Float)
    (maxBlockSize : Nat) :
    (effect.prepare sampleRate maxBlockSize).value.interpreter =
      ((effect.interpreter.setSampleRate sampleRate).withSliders fun index =>
        (effect.parameters.waitingAt index).getD
          (effect.interpreter.parameter index)).runInit.runSlider := by
  let rated := { effect with sampleRate, maxBlockSize }.mapInterpreter (·.setSampleRate sampleRate)
  have prepared : (effect.prepare sampleRate maxBlockSize).value.interpreter =
      rated.applyPending.2.interpreter.runInit.runSlider := by
    rw [prepare, if_pos loaded]
    rfl
  have interpreter : rated.interpreter = effect.interpreter.setSampleRate sampleRate := rfl
  have parameters : rated.parameters = effect.parameters := rfl
  rw [prepared, interpreter_applyPending, interpreter, parameters]
  rfl

theorem frame_receiveScript (effect : Effect) :
    effect.receiveScript.parameters = effect.parameters ∧
      effect.receiveScript.automation = effect.automation ∧
      (effect.loaded = true → effect.receiveScript.loaded = true) := by
  rw [receiveScript]
  split
  · exact ⟨rfl, rfl, id⟩
  · split
    · exact ⟨rfl, rfl, id⟩
    · exact ⟨rfl, rfl, fun _ => rfl⟩

/-- A processing call with a given idle outcome and a given run of the interpreter. -/
def call {α : Type} (effect : Effect) (idle : α) (run : Interpreter → α × Interpreter) :
    α × Effect :=
  if effect.runsCalls then effect.receiveScript.beginCall.runInterpreter run
  else (idle, effect.receiveScript)

theorem processSample_eq_call (effect : Effect) (left right : Float) :
    effect.processSample left right = effect.call (left, right) (·.runSample left right) := rfl

theorem processBlock_eq_call (effect : Effect) (buffer : Audio.Buffer) :
    effect.processBlock buffer = effect.call buffer (·.runBlock buffer) := rfl

section Call

variable {α : Type} (effect : Effect) (idle : α) (run : Interpreter → α × Interpreter)

theorem waitingAt_call (index : Nat) :
    (effect.call idle run).2.parameters.waitingAt index =
      if effect.runsCalls then none else effect.parameters.waitingAt index := by
  rw [call]
  split
  · have drained : (effect.receiveScript.beginCall.runInterpreter run).2.parameters =
        effect.receiveScript.parameters.drain.2 := parameters_beginCall _
    rw [drained, ParameterBank.waitingAt_drain]
  · rw [effect.frame_receiveScript.1]

theorem remaining_call (index : Nat) :
    (effect.call idle run).2.remaining index =
      if effect.runsCalls then (effect.remaining index).tail else effect.remaining index := by
  have received := remaining_of_automation_eq effect.frame_receiveScript.2.1 index
  rw [call]
  split
  · have stepped : (effect.receiveScript.beginCall.runInterpreter run).2.remaining index =
        (effect.receiveScript.remaining index).tail := remaining_beginCall _ index
    rw [stepped, received]
  · exact received

variable {effect} in
/-- A call that finds the effect inactive takes what was handed over, and no more. -/
theorem call_of_inactive (inactive : effect.receiveScript.isActive = false) :
    effect.call idle run = (idle, effect.receiveScript) := by
  rw [call, runsCalls, inactive]
  rfl

variable {effect} in
theorem loaded_call (loaded : effect.loaded = true) :
    (effect.call idle run).2.loaded = true := by
  have received := effect.frame_receiveScript.2.2 loaded
  rw [call]
  split
  · have begun : (effect.receiveScript.beginCall.runInterpreter run).2.loaded =
        effect.receiveScript.loaded := loaded_beginCall _
    rw [begun, received]
  · exact received

end Call

/-- What waits after an event: what it asks for, and else what waited before unless it was taken. -/
theorem waitingAt_after {effect : Effect} (loaded : effect.loaded = true) (event : Event)
    {index : Nat} (bound : index < sliderCount) :
    (effect.after event).parameters.waitingAt index =
      match event.asks? index with
      | some value => some value
      | none => if effect.drains event then none else effect.parameters.waitingAt index := by
  cases event with
  | setParameter other value | setThroughClone other value =>
    simp only [after, setParameter, setThroughClone_eq, Event.asks?]
    rw [ParameterBank.waitingAt_set _ _ _ bound]
    split <;> rfl
  | prepare sampleRate maxBlockSize =>
    simp only [after, (value_prepare loaded sampleRate maxBlockSize).1,
      ParameterBank.waitingAt_drain, Event.asks?, drains, if_true]
  | processSample left right =>
    rw [after, processSample_eq_call, waitingAt_call]
    rfl
  | processBlock buffer =>
    rw [after, processBlock_eq_call, waitingAt_call]
    rfl
  | automate | clearAutomation | setBypassed | shutdown | attach | send | collect => rfl

/-- What is left in a lane after an event: what it gives, and else what was left before, less one
value if the event is an active call. -/
theorem remaining_after {effect : Effect} (loaded : effect.loaded = true) (event : Event)
    {index : Nat} (bound : index < sliderCount) :
    (effect.after event).remaining index =
      match event.gives? index with
      | some values => values
      | none =>
        if effect.callsActively event then (effect.remaining index).tail
        else effect.remaining index := by
  cases event with
  | automate other values =>
    simp only [after, automate, remaining, Vector.getElem?_setIfInBounds, Event.gives?]
    by_cases same : other = index
    · subst same
      simp [bound]
    · simp [same, callsActively]
  | clearAutomation => simp [after, clearAutomation, remaining, idleLanes, Event.gives?, bound,
      Automation.idle]
  | prepare sampleRate maxBlockSize =>
    exact remaining_of_automation_eq (value_prepare loaded sampleRate maxBlockSize).2.1 index
  | processSample left right =>
    rw [after, processSample_eq_call, remaining_call]
    rfl
  | processBlock buffer =>
    rw [after, processBlock_eq_call, remaining_call]
    rfl
  | setParameter | setThroughClone | setBypassed | shutdown | attach | send | collect => rfl

/-- No event unloads the script. -/
theorem loaded_after {effect : Effect} (loaded : effect.loaded = true) (event : Event) :
    (effect.after event).loaded = true := by
  cases event with
  | prepare sampleRate maxBlockSize => exact (value_prepare loaded sampleRate maxBlockSize).2.2
  | processSample left right =>
    rw [after, processSample_eq_call]
    exact loaded_call _ _ loaded
  | processBlock buffer =>
    rw [after, processBlock_eq_call]
    exact loaded_call _ _ loaded
  | setParameter | setThroughClone | automate | clearAutomation | setBypassed | shutdown | attach
    | send | collect => exact loaded

/-! ### Whole histories -/

/-- An effect with a script, of which nothing was asked yet. -/
structure Rested (start : Effect) : Prop where
  loaded : start.loaded = true
  nothingWaits : ∀ index, start.parameters.waitingAt index = none

theorem rested_loadScript (effect : Effect) (script : Script) :
    Rested (effect.loadScript script).value where
  loaded := rfl
  nothingWaits index := ParameterBank.waitingAt_ofValues _ index

section Run

variable {start : Effect} (rested : Rested start)
include rested

theorem loaded_follow (history : List Event) : (start.follow history).loaded = true := by
  induction history with
  | nil => exact rested.loaded
  | cons event earlier ih => exact loaded_after ih event

theorem waitingAt_follow (history : List Event) {index : Nat} (bound : index < sliderCount) :
    (start.follow history).parameters.waitingAt index = start.lastAsked index history := by
  induction history with
  | nil => exact rested.nothingWaits index
  | cons event earlier ih =>
    rw [follow, waitingAt_after (loaded_follow rested earlier) event bound, ih, lastAsked]

theorem remaining_follow (history : List Event) {index : Nat} (bound : index < sliderCount) :
    (start.follow history).remaining index =
      (start.laneSince index history).1.drop (start.laneSince index history).2 := by
  induction history with
  | nil => rfl
  | cons event earlier ih =>
    rw [follow, remaining_after (loaded_follow rested earlier) event bound, ih, laneSince]
    cases event.gives? index with
    | some values => rfl
    | none =>
      dsimp only
      split
      · rw [List.tail_drop]
      · rfl

end Run

/-! ### The next call -/

/-- The interpreter in place for the next call. -/
def inPlace (start : Effect) (history : List Event) : Interpreter :=
  (start.follow history).receiveScript.interpreter

/-- What a slider holds when the sections of the next active call start: the next value of its lane,
else the last value asked for, else what the interpreter in place holds. -/
def sliderAtCall (start : Effect) (history : List Event) (index : Nat) : Float :=
  (start.laneValue? index history).getD
    ((start.lastAsked index history).getD ((start.inPlace history).parameter index))

/-- A value was asked for and not taken, or a lane is not exhausted. -/
def SliderRuns (start : Effect) (history : List Event) : Prop :=
  ∃ index < sliderCount, (start.lastAsked index history).isSome = true ∨
    (start.laneValue? index history).isSome = true

instance (start : Effect) (history : List Event) : Decidable (start.SliderRuns history) :=
  inferInstanceAs (Decidable (∃ index < sliderCount, _ ∨ _))

/-- The interpreter with which the sections of the next active call start. -/
def callStart (start : Effect) (history : List Event) : Interpreter :=
  (start.inPlace history).withSliders (start.sliderAtCall history)

/-- The interpreter with which an active call runs the block and sample sections. -/
def callBegun (start : Effect) (history : List Event) : Interpreter :=
  if start.SliderRuns history then (start.callStart history).runSlider
  else start.callStart history

theorem parameter_callStart (start : Effect) (history : List Event) {index : Nat}
    (bound : index < sliderCount) :
    (start.callStart history).parameter index =
      match start.laneValue? index history, start.lastAsked index history with
      | some value, _ => value
      | none, some value => value
      | none, none => (start.inPlace history).parameter index := by
  rw [callStart, Interpreter.parameter_withSliders _ _ bound, sliderAtCall]
  cases start.laneValue? index history with
  | some value => rfl
  | none => cases start.lastAsked index history <;> rfl

section Run

variable {start : Effect} (rested : Rested start) (history : List Event)
include rested

theorem waitingAt_received {index : Nat} (bound : index < sliderCount) :
    (start.follow history).receiveScript.parameters.waitingAt index =
      start.lastAsked index history := by
  rw [(frame_receiveScript _).1, waitingAt_follow rested history bound]

theorem head?_remaining_received {index : Nat} (bound : index < sliderCount) :
    ((start.follow history).receiveScript.remaining index).head? =
      start.laneValue? index history := by
  rw [remaining_of_automation_eq (frame_receiveScript _).2.1,
    remaining_follow rested history bound, List.head?_drop, laneValue?]

theorem stored_received :
    (start.follow history).receiveScript.stored = start.callStart history := by
  refine Interpreter.withSliders_congr _ fun index bound => ?_
  rw [head?_remaining_received rested history bound, waitingAt_received rested history bound,
    sliderAtCall, inPlace]

theorem hasNews_received_iff :
    (start.follow history).receiveScript.HasNews ↔ start.SliderRuns history := by
  refine exists_congr fun index => and_congr_right fun bound => ?_
  rw [head?_remaining_received rested history bound, waitingAt_received rested history bound]

theorem interpreter_beginCall_received :
    (start.follow history).receiveScript.beginCall.interpreter = start.callBegun history := by
  have begun := interpreter_beginCall (start.follow history).receiveScript
  rw [hasNews_received_iff rested, stored_received rested] at begun
  rw [callBegun]
  split
  · exact begun.1 ‹_›
  · exact begun.2 ‹_›

theorem call_follow_active {α : Type} (idle : α) (run : Interpreter → α × Interpreter)
    (active : (start.follow history).runsCalls = true) :
    ((start.follow history).call idle run).1 = (run (start.callBegun history)).1 ∧
      ((start.follow history).call idle run).2.interpreter =
        (run (start.callBegun history)).2 := by
  rw [call, if_pos active, ← interpreter_beginCall_received rested]
  exact ⟨rfl, rfl⟩

theorem interpreter_prepare_follow (sampleRate : Float) (maxBlockSize : Nat) :
    ((start.follow history).prepare sampleRate maxBlockSize).value.interpreter =
      (((start.follow history).interpreter.setSampleRate sampleRate).withSliders fun index =>
        (start.lastAsked index history).getD
          ((start.follow history).interpreter.parameter index)).runInit.runSlider := by
  rw [interpreter_prepare (loaded_follow rested history)]
  refine congrArg (fun interpreter : Interpreter => interpreter.runInit.runSlider) ?_
  refine Interpreter.withSliders_congr _ fun index bound => ?_
  rw [waitingAt_follow rested history bound]

theorem parameter_follow {index : Nat} (bound : index < sliderCount) :
    (start.follow history).parameter index =
      (start.lastAsked index history).getD
        ((start.follow history).interpreter.parameter index) := by
  rw [← waitingAt_follow rested history bound, parameter, ParameterBank.isPending_eq]
  cases waits : (start.follow history).parameters.waitingAt index with
  | none => rfl
  | some value =>
    rw [ParameterBank.get?_of_waitingAt waits]
    rfl

end Run

/-- What the sliders hold over a whole history since a load.  A call that finds the effect active
starts its sections with every slider at the next value of its lane, else at the last value asked
for, else as it was; it runs the slider section, once and first, if and only if there was a value of
either kind.  A call that finds the effect inactive does nothing but take a handed-over script, and
preparing the effect takes the values asked for before the init and slider sections run. -/
theorem sliders_over_history (effect : Effect) (script : Script) (history : List Event) :
    let start := (effect.loadScript script).value
    let current := start.follow history
    (current.receiveScript.isActive = true →
      (∀ index < sliderCount, (start.callStart history).parameter index =
        match start.laneValue? index history, start.lastAsked index history with
        | some value, _ => value
        | none, some value => value
        | none, none => current.receiveScript.interpreter.parameter index) ∧
      (start.SliderRuns history →
        start.callBegun history = (start.callStart history).runSlider) ∧
      (¬start.SliderRuns history → start.callBegun history = start.callStart history) ∧
      (∀ left right,
        (current.processSample left right).1 =
            ((start.callBegun history).runSample left right).1 ∧
          (current.processSample left right).2.interpreter =
            ((start.callBegun history).runSample left right).2) ∧
      ∀ buffer,
        (current.processBlock buffer).1 = ((start.callBegun history).runBlock buffer).1 ∧
          (current.processBlock buffer).2.interpreter =
            ((start.callBegun history).runBlock buffer).2) ∧
    (current.receiveScript.isActive = false →
      (∀ left right, current.processSample left right = ((left, right), current.receiveScript)) ∧
      ∀ buffer, current.processBlock buffer = (buffer, current.receiveScript)) ∧
    (∀ sampleRate maxBlockSize,
      (current.prepare sampleRate maxBlockSize).value.interpreter =
        ((current.interpreter.setSampleRate sampleRate).withSliders fun index =>
          (start.lastAsked index history).getD
            (current.interpreter.parameter index)).runInit.runSlider) ∧
    ∀ index < sliderCount,
      current.parameter index =
        (start.lastAsked index history).getD (current.interpreter.parameter index) := by
  intro start current
  have rested : Rested start := rested_loadScript effect script
  refine ⟨fun active => ?_, fun inactive => ?_, interpreter_prepare_follow rested history,
    fun index => parameter_follow rested history⟩
  · refine ⟨fun index => start.parameter_callStart history, fun runs => ?_, fun stays => ?_,
      fun left right => ?_, fun buffer => ?_⟩
    · rw [callBegun, if_pos runs]
    · rw [callBegun, if_neg stays]
    · rw [processSample_eq_call]
      exact call_follow_active rested history _ _ active
    · rw [processBlock_eq_call]
      exact call_follow_active rested history _ _ active
  · constructor
    · intro left right
      rw [processSample_eq_call, call_of_inactive _ _ inactive]
    · intro buffer
      rw [processBlock_eq_call, call_of_inactive _ _ inactive]

theorem sliders_over_history_automated :
    let script : Script := ⟨.empty, ⟨[], [], []⟩, .empty⟩
    let start := (fresh.loadScript script).value
    let history : List Event :=
      [.setParameter 1 0.25, .automate 0 [0.5, 0.75], .setParameter 0 1.0, .prepare 48000.0 512]
    (start.follow history).receiveScript.isActive = true ∧
      (start.callStart history).parameter 0 = 0.5 ∧
      (start.callStart history).parameter 1 = 0.25 ∧
      start.callBegun history = (start.callStart history).runSlider := by
  intro script start history
  have active : (start.follow history).receiveScript.isActive = true := rfl
  have atCall := (sliders_over_history fresh script history).1 active
  have lane : start.laneValue? 0 history = some 0.5 := rfl
  have asked : start.lastAsked 1 history = some 0.25 := rfl
  have idle : start.laneValue? 1 history = none := rfl
  refine ⟨active, ?_, ?_, atCall.2.1 ⟨0, by decide, .inr ?_⟩⟩
  · rw [atCall.1 0 (by decide), lane]
  · rw [atCall.1 1 (by decide), idle, asked]
  · rw [lane]
    rfl

end EffectScript.Effect
