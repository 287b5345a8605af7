import EffectScript.Proofs.HostFrame
import EffectScript.Proofs.Requests
import EffectScript.Proofs.ScriptTraffic

/-!
# Scripts that are loaded and scripts that are handed over

An effect can get its script in two ways.  It is loaded into the effect, which is then prepared; or
an interpreter is made ready elsewhere and handed over, to be taken at the next processing call.
Both ways lead to the same interpreter, if the script does not change the transport while it starts.
From then on the two effects cannot be told apart: they have the same interpreter, the same values
wait for them, and they are active at the same calls.
-/

namespace EffectScript

open EffectScript.Language Control Machine Script

/-! ### The interpreter of either way -/

namespace Interpreter

/-- A script that spares the transport at the start leaves it at rest. -/
theorem transport_readyInterpreter {script : Script}
    (spares : ∀ kind ∈ [SectionKind.init, .slider], script.sparesTransport kind = true)
    (sampleRate : Float) :
    (readyInterpreter script sampleRate).value.context.transport = .atRest := by
  let rated := (fresh.install script).value.setSampleRate sampleRate
  let zeroed := { rated with context := { rated.context with arena := rated.context.arena.clear } }
  have steps : (readyInterpreter script sampleRate).value = (zeroed.run .init).run .slider := rfl
  obtain ⟨installed, present, same⟩ :
      ∃ installed, zeroed.installed = some installed ∧ installed.script = script :=
    ⟨_, rfl, rfl⟩
  rw [← same] at spares
  rw [steps, transport_run ((installed_run _ _).trans present) (spares .slider (by decide)),
    transport_run present (spares .init (by decide))]
  rfl

end Interpreter

namespace Effect

/-- Loading a script and preparing the effect makes the interpreter that would be handed over. -/
theorem interpreter_prepare_loadScript (effect : Effect) (script : Script) (sampleRate : Float)
    (maxBlockSize : Nat) :
    ((effect.loadScript script).value.prepare sampleRate maxBlockSize).value.interpreter =
      ((effect.interpreter.install script).value.setSampleRate sampleRate).runInit.runSlider := by
  have rested := rested_loadScript effect script
  rw [interpreter_prepare rested.loaded]
  simp only [rested.nothingWaits, Option.getD_none]
  exact congrArg (fun interpreter : Interpreter => interpreter.runInit.runSlider)
    (Interpreter.withSliders_parameter _)

/-! ### Effects that play alike -/

/-- Two effects have the same interpreter and the same values waiting, and are active together. -/
structure PlaysAlike (first second : Effect) : Prop where
  interpreter : first.interpreter = second.interpreter
  ready : first.ready = second.ready
  bypassed : first.bypassed = second.bypassed
  automation : first.automation = second.automation
  waiting (index : Nat) : first.parameters.waitingAt index = second.parameters.waitingAt index

theorem parameter_eq (effect : Effect) (index : Nat) :
    effect.parameter index =
      (effect.parameters.waitingAt index).getD (effect.interpreter.parameter index) := by
  rw [parameter, ParameterBank.isPending_eq]
  cases waits : effect.parameters.waitingAt index with
  | none => rfl
  | some value =>
    rw [ParameterBank.get?_of_waitingAt waits]
    rfl

theorem frame_beginCall (effect : Effect) :
    effect.beginCall.ready = effect.ready ∧ effect.beginCall.bypassed = effect.bypassed ∧
      effect.beginCall.automation =
        effect.automation.map fun (lane : Automation) => lane.next.2 := by
  rw [beginCall]
  dsimp only
  split <;> exact ⟨rfl, rfl, rfl⟩

namespace PlaysAlike

variable {first second : Effect}

theorem parameter_eq (alike : PlaysAlike first second) (index : Nat) :
    first.parameter index = second.parameter index := by
  rw [first.parameter_eq, second.parameter_eq, alike.waiting, alike.interpreter]

theorem isActive_eq (alike : PlaysAlike first second) : first.isActive = second.isActive := by
  rw [isActive, isActive, alike.ready, alike.bypassed]

theorem beginCall (alike : PlaysAlike first second) :
    PlaysAlike first.beginCall second.beginCall := by
  have remaining := remaining_of_automation_eq alike.automation
  have stored : first.stored = second.stored := by
    rw [Effect.stored, Effect.stored, alike.interpreter]
    refine Interpreter.withSliders_congr _ fun index _ => ?_
    rw [remaining, alike.waiting]
  have news : first.HasNews ↔ second.HasNews := by
    simp only [HasNews, remaining, alike.waiting]
  have begunFirst := first.interpreter_beginCall
  have begunSecond := second.interpreter_beginCall
  constructor
  · by_cases some : second.HasNews
    · rw [begunFirst.1 (news.2 some), begunSecond.1 some, stored]
    · rw [begunFirst.2 (mt news.1 some), begunSecond.2 some, stored]
  · rw [first.frame_beginCall.1, second.frame_beginCall.1, alike.ready]
  · rw [first.frame_beginCall.2.1, second.frame_beginCall.2.1, alike.bypassed]
  · rw [first.frame_beginCall.2.2, second.frame_beginCall.2.2, alike.automation]
  · intro index
    rw [parameters_beginCall, parameters_beginCall, ParameterBank.waitingAt_drain,
      ParameterBank.waitingAt_drain]

/-- A processing call sounds the same, and leaves effects that play alike. -/
theorem call (alike : PlaysAlike first.receiveScript second.receiveScript) {α : Type} (idle : α)
    (run : Interpreter → α × Interpreter) :
    (first.call idle run).1 = (second.call idle run).1 ∧
      PlaysAlike (first.call idle run).2 (second.call idle run).2 := by
  rw [Effect.call, Effect.call, runsCalls, runsCalls, alike.isActive_eq]
  have begun := alike.beginCall
  split
  · have result := congrArg (fun interpreter => (run interpreter).1) begun.interpreter
    have after := congrArg (fun interpreter => (run interpreter).2) begun.interpreter
    exact ⟨result, after, begun.ready, begun.bypassed, begun.automation, begun.waiting⟩
  · exact ⟨rfl, alike⟩

end PlaysAlike

/-! ### One event -/

/-- Whether an event sets something that the next call looks at. -/
def Event.adjusts : Event → Bool
  | .setParameter _ _ | .setThroughClone _ _ | .automate _ _ | .clearAutomation
  | .setBypassed _ => true
  | _ => false

/-- Whether an event is a processing call. -/
def Event.processes : Event → Bool
  | .processSample _ _ | .processBlock _ => true
  | _ => false

/-- What the host gets back from an event. -/
def reply (effect : Effect) : Event → Reply
  | .processSample left right =>
    let frame := (effect.processSample left right).1
    .frame frame.1 frame.2
  | .processBlock buffer => .block (effect.processBlock buffer).1
  | _ => .done

/-- It does not matter whether something is set before a script is taken or after. -/
theorem receiveScript_after (effect : Effect) {event : Event} (adjusts : event.adjusts = true) :
    (effect.after event).receiveScript = effect.receiveScript.after event := by
  have untouched : (effect.after event).scripts = effect.scripts ∧
      (effect.after event).interpreter = effect.interpreter := by
    cases event with
    | setParameter | setThroughClone | automate | clearAutomation | setBypassed =>
      exact ⟨rfl, rfl⟩
    | prepare | shutdown | attach | send | collect | processSample | processBlock => contradiction
  cases attached : effect.scripts with
  | none =>
    have alone : effect.UpToDate := fun channel found => nomatch attached.symm.trans found
    have stillAlone : (effect.after event).UpToDate := by
      intro channel found
      rw [untouched.1] at found
      exact alone channel found
    rw [alone.receiveScript_eq, stillAlone.receiveScript_eq]
  | some channel =>
    have still := untouched.1.trans attached
    rcases received : channel.receive with ⟨taken, after⟩
    cases taken with
    | none =>
      rw [receiveScript_of_none attached received, receiveScript_of_none still received]
      cases event with
      | setParameter | setThroughClone | automate | clearAutomation | setBypassed => rfl
      | prepare | shutdown | attach | send | collect | processSample | processBlock =>
        contradiction
    | some next =>
      rw [receiveScript_of_some attached received, receiveScript_of_some still received,
        untouched.2]
      cases event with
      | setParameter | setThroughClone | automate | clearAutomation | setBypassed => rfl
      | prepare | shutdown | attach | send | collect | processSample | processBlock =>
        contradiction

namespace PlaysAlike

variable {first second : Effect} {event : Event}

theorem adjust (alike : PlaysAlike first second) (adjusts : event.adjusts = true) :
    PlaysAlike (first.after event) (second.after event) := by
  obtain ⟨interpreter, ready, bypassed, automation, waiting⟩ := alike
  cases event with
  | setParameter index value =>
    exact ⟨interpreter, ready, bypassed, automation,
      ParameterBank.waitingAt_set_congr waiting index value⟩
  | setThroughClone index value =>
    refine ⟨interpreter, ready, bypassed, automation, ?_⟩
    simp only [after, setThroughClone_eq]
    exact ParameterBank.waitingAt_set_congr waiting index value
  | automate index values =>
    refine ⟨interpreter, ready, bypassed, ?_, waiting⟩
    exact congrArg (·.setIfInBounds index ⟨values⟩) automation
  | clearAutomation => exact ⟨interpreter, ready, bypassed, rfl, waiting⟩
  | setBypassed bypassed => exact ⟨interpreter, ready, rfl, automation, waiting⟩
  | prepare | shutdown | attach | send | collect | processSample | processBlock => contradiction

/-- A processing call leaves effects that play alike, and gives the host the same. -/
theorem process (alike : PlaysAlike first.receiveScript second.receiveScript)
    (processes : event.processes = true) :
    first.reply event = second.reply event ∧
      PlaysAlike (first.after event) (second.after event) := by
  cases event with
  | processSample left right =>
    simp only [reply, after, processSample_eq_call]
    obtain ⟨same, after⟩ := alike.call (left, right) (·.runSample left right)
    exact ⟨by rw [same], after⟩
  | processBlock buffer =>
    simp only [reply, after, processBlock_eq_call]
    obtain ⟨same, after⟩ := alike.call buffer (·.runBlock buffer)
    exact ⟨by rw [same], after⟩
  | setParameter | setThroughClone | automate | clearAutomation | setBypassed | prepare | shutdown
    | attach | send | collect => contradiction

end PlaysAlike

theorem upToDate_after (effect : Effect) {event : Event} (processes : event.processes = true) :
    (effect.after event).UpToDate := by
  cases event with
  | processSample left right =>
    rw [after, processSample_eq_call]
    exact effect.upToDate_call _ _
  | processBlock buffer =>
    rw [after, processBlock_eq_call]
    exact effect.upToDate_call _ _
  | setParameter | setThroughClone | automate | clearAutomation | setBypassed | prepare | shutdown
    | attach | send | collect => contradiction

/-! ### Whole histories -/

/-- What the host gets back over a history, newest first. -/
def replies (start : Effect) : List Event → List Reply
  | [] => []
  | event :: earlier => (start.follow earlier).reply event :: start.replies earlier

/-- A history of processing calls, and of what is set between them. -/
def Plays (history : List Event) : Prop :=
  ∀ event ∈ history, event.adjusts = true ∨ event.processes = true

/-- Effects that play alike once they have taken what was handed over give the host the same, and
play alike as they are after the first processing call. -/
theorem PlaysAlike.follow {first second : Effect}
    (alike : PlaysAlike first.receiveScript second.receiveScript) {history : List Event}
    (plays : Plays history) :
    first.replies history = second.replies history ∧
      PlaysAlike (first.follow history).receiveScript (second.follow history).receiveScript ∧
      (history.any Event.processes = true →
        PlaysAlike (first.follow history) (second.follow history)) := by
  induction history with
  | nil => exact ⟨rfl, alike, nofun⟩
  | cons event earlier ih =>
    obtain ⟨replies, received, processed⟩ :=
      ih fun event member => plays event (List.mem_cons_of_mem _ member)
    rw [Effect.replies, Effect.replies, replies, Effect.follow, Effect.follow, List.any_cons]
    rcases plays event List.mem_cons_self with adjusts | processes
    · have silent : event.processes = false ∧
          ∀ effect : Effect, effect.reply event = .done := by
        cases event with
        | setParameter | setThroughClone | automate | clearAutomation | setBypassed =>
          exact ⟨rfl, fun _ => rfl⟩
        | prepare | shutdown | attach | send | collect | processSample | processBlock =>
          contradiction
      rw [silent.1, silent.2, silent.2, receiveScript_after _ adjusts,
        receiveScript_after _ adjusts]
      exact ⟨rfl, received.adjust adjusts, fun before => (processed before).adjust adjusts⟩
    · obtain ⟨same, after⟩ := received.process processes
      have firstTaken := (upToDate_after (first.follow earlier) processes).receiveScript_eq
      have secondTaken := (upToDate_after (second.follow earlier) processes).receiveScript_eq
      rw [same, firstTaken, secondTaken]
      exact ⟨rfl, after, fun _ => after⟩

/-! ### The two ways -/

/-- An effect into which a source was loaded, and which was then prepared. -/
def withLoaded (source : String) (sampleRate : Float) (maxBlockSize : Nat) : Effect :=
  ((fresh.load source).value.2.prepare sampleRate maxBlockSize).value

/-- An effect to which a source was sent over a new channel. -/
def withSent (source : String) (sampleRate : Float) (label capacity : Nat) : Effect :=
  (fresh.attach (.ofCapacity label capacity)).useChannel fun channel =>
    (channel.sendSource source sampleRate).value.2

section TwoWays

variable {source : String} {script : Script}
  (compiled : (Script.compile source).value = .ok script) (sampleRate : Float)
include compiled

theorem sendSource_ofCapacity (label capacity : Nat) :
    ((Channel.ofCapacity label capacity).sendSource source sampleRate).value =
      (.ok (), ⟨label, max capacity 1, [(readyInterpreter script sampleRate).value], []⟩) := by
  have room : (Channel.ofCapacity label capacity : Channel Interpreter).ready.length <
      (Channel.ofCapacity label capacity : Channel Interpreter).capacity :=
    Nat.lt_of_lt_of_le Nat.zero_lt_one (Nat.le_max_right _ _)
  rw [Channel.value_sendSource_of_ok _ compiled, Channel.sendScript, Logged.value_bind,
    Channel.value_sendInterpreter, Channel.value_send, if_pos room]
  rfl

theorem receiveScript_withSent
    (spares : ∀ kind ∈ [SectionKind.init, .slider], script.sparesTransport kind = true)
    (label capacity : Nat) :
    (withSent source sampleRate label capacity).receiveScript =
      { fresh with
        interpreter := (readyInterpreter script sampleRate).value
        scripts := some ⟨label, max capacity 1, [], [Interpreter.fresh]⟩
        loaded := true
        ready := true } := by
  have attached : (withSent source sampleRate label capacity).scripts =
      some ⟨label, max capacity 1, [(readyInterpreter script sampleRate).value], []⟩ :=
    congrArg (fun sent : Except HandoffError Unit × Channel Interpreter => some sent.2)
      (sendSource_ofCapacity compiled sampleRate label capacity)
  have sentBack : (⟨label, max capacity 1, [], []⟩ : Channel Interpreter).retire .fresh =
      ⟨label, max capacity 1, [], [.fresh]⟩ :=
    if_pos (Nat.lt_of_lt_of_le Nat.zero_lt_one (Nat.le_max_right _ _))
  rw [receiveScript_of_some attached (Channel.receive_of_append (List.nil_append _).symm)]
  have transport := Interpreter.transport_readyInterpreter spares sampleRate
  have ready : (readyInterpreter script sampleRate).value.withTransport .atRest =
      (readyInterpreter script sampleRate).value := by
    rw [← transport]
    rfl
  rw [← sentBack, ← ready]
  rfl

theorem playsAlike_withLoaded_withSent
    (spares : ∀ kind ∈ [SectionKind.init, .slider], script.sparesTransport kind = true)
    (maxBlockSize label capacity : Nat) :
    PlaysAlike (withLoaded source sampleRate maxBlockSize).receiveScript
      (withSent source sampleRate label capacity).receiveScript := by
  have loaded : withLoaded source sampleRate maxBlockSize =
      ((fresh.loadScript script).value.prepare sampleRate maxBlockSize).value := by
    rw [withLoaded, value_load_of_ok compiled]
  have upToDate : (withLoaded source sampleRate maxBlockSize).UpToDate := by
    rw [loaded]
    exact fun channel found => nomatch found
  have prepared := value_prepare (rested_loadScript fresh script).loaded sampleRate maxBlockSize
  rw [upToDate.receiveScript_eq, receiveScript_withSent compiled sampleRate spares, loaded]
  refine ⟨interpreter_prepare_loadScript fresh script sampleRate maxBlockSize, rfl, rfl,
    prepared.2.1, fun index => ?_⟩
  rw [prepared.1, ParameterBank.waitingAt_drain]
  exact (ParameterBank.waitingAt_fresh index).symm

end TwoWays

/-- Handing a script over agrees with loading it.  If a source compiles to a script whose init and
slider sections assign no variable of the transport, then it is accepted either way, and whatever is
set and processed afterwards, the host gets the same back from both effects.  After the first
processing call they also have the same interpreter, and report the same parameters. -/
theorem withSent_plays_like_withLoaded {source : String} {script : Script}
    (compiled : (Script.compile source).value = .ok script)
    (spares : ∀ kind ∈ [SectionKind.init, .slider], script.sparesTransport kind = true)
    (sampleRate : Float) (maxBlockSize label capacity : Nat) {history : List Event}
    (plays : Plays history) :
    let loaded := withLoaded source sampleRate maxBlockSize
    let sent := withSent source sampleRate label capacity
    (fresh.load source).value.1 = true ∧
    ((Channel.ofCapacity label capacity).sendSource source sampleRate).value.1 = .ok () ∧
    loaded.replies history = sent.replies history ∧
    (history.any Event.processes = true →
      (loaded.follow history).interpreter = (sent.follow history).interpreter ∧
      ∀ index,
        (loaded.follow history).parameter index = (sent.follow history).parameter index) := by
  intro loaded sent
  have alike : PlaysAlike loaded.receiveScript sent.receiveScript :=
    playsAlike_withLoaded_withSent compiled sampleRate spares maxBlockSize label capacity
  obtain ⟨replies, _, processed⟩ := alike.follow plays
  refine ⟨?_, ?_, replies, fun some => ?_⟩
  · rw [value_load_of_ok compiled]
  · rw [sendSource_ofCapacity compiled]
  · exact ⟨(processed some).interpreter, (processed some).parameter_eq⟩

/-- A gain that takes its value from a slider. -/
def gainSource : String :=
  "slider1:0.5<0,1>Gain\n@slider g = slider1;\n@sample spl0 *= g; spl1 *= g;"

/-- A gain that the host sets and automates between frames. -/
def gainHistory : List Event :=
  [.processSample 0.5 0.25, .setParameter 0 0.75, .processSample 1.0 1.0, .automate 1 [0.5, 0.25],
    .setParameter 0 0.25]

theorem withSent_plays_like_withLoaded_gain :
    ∃ script, (Script.compile gainSource).value = .ok script ∧
      (∀ kind ∈ [SectionKind.init, .slider], script.sparesTransport kind = true) ∧
      let loaded := withLoaded gainSource 44100.0 256
      let sent := withSent gainSource 44100.0 0 1
      loaded.replies gainHistory = sent.replies gainHistory ∧
        (loaded.follow gainHistory).interpreter = (sent.follow gainHistory).interpreter := by
  have accepted : (Script.compile gainSource).value.toOption.any
      (fun script => [SectionKind.init, .slider].all script.sparesTransport) = true := by
    decide +kernel
  cases compiled : (Script.compile gainSource).value with
  | error cause =>
    rw [compiled] at accepted
    contradiction
  | ok script =>
    rw [compiled] at accepted
    have spares := List.all_eq_true.1 accepted
    have plays : Plays gainHistory := by
      simp [Plays, gainHistory, Event.adjusts, Event.processes]
    obtain ⟨_, _, replies, processed⟩ :=
      withSent_plays_like_withLoaded compiled spares 44100.0 256 0 1 plays
    exact ⟨script, rfl, spares, replies, (processed rfl).1⟩

end Effect

end EffectScript
