import EffectScript.Effect.Chain
import EffectScript.Proofs.MeteredCalls
import EffectScript.Proofs.ScriptTraffic

/-!
# Inactive effects

Over the whole life of an effect, with loads that fail and loads that succeed, only two things make
it ready: preparing it while a script is loaded, and taking a script that was handed over.  So an
effect that is ready has a script, and a load that fails silences the effect until one of the two
happens.  A call that finds the effect inactive gives the audio back and touches nothing; a chain
sounds the same, and its other effects fare the same, with the inactive ones left out.
-/

namespace EffectScript

open Control

namespace Effect

/-! ### What was handed over -/

/-- The interpreter that the next processing call takes over. -/
def newest? (effect : Effect) : Option Interpreter :=
  effect.scripts.bind fun channel => channel.ready.getLast?

variable {effect : Effect}

theorem receiveScript_of_newest?_eq_none (nothing : effect.newest? = none) :
    effect.receiveScript = effect := by
  have upToDate : effect.UpToDate := by
    intro channel attached
    rw [newest?, attached] at nothing
    exact List.getLast?_eq_none_iff.1 nothing
  exact upToDate.receiveScript_eq

theorem receiveScript_of_newest?_eq_some {next : Interpreter} (found : effect.newest? = some next) :
    ∃ channel, effect.receiveScript =
      { effect with
        interpreter := next.withTransport effect.interpreter.context.transport
        scripts := some channel
        loaded := true
        ready := true } := by
  obtain ⟨channel, attached, last⟩ := Option.bind_eq_some_iff.1 found
  obtain ⟨older, ready⟩ := List.getLast?_eq_some_iff.1 last
  exact ⟨_, receiveScript_of_some attached (Channel.receive_of_append ready)⟩

theorem interpreter_receiveScript (effect : Effect) :
    effect.receiveScript.interpreter =
      match effect.newest? with
      | some next => next.withTransport effect.interpreter.context.transport
      | none => effect.interpreter := by
  cases found : effect.newest? with
  | none => rw [receiveScript_of_newest?_eq_none found]
  | some next =>
    obtain ⟨channel, received⟩ := receiveScript_of_newest?_eq_some found
    rw [received]

theorem cpu_receiveScript (effect : Effect) : effect.receiveScript.cpu = effect.cpu := by
  cases found : effect.newest? with
  | none => rw [receiveScript_of_newest?_eq_none found]
  | some next =>
    obtain ⟨channel, received⟩ := receiveScript_of_newest?_eq_some found
    rw [received]

/-! ### Calls that pass audio through -/

/-- A processing call, with or without a clock, gives the audio back and leaves a given effect. -/
structure PassesTo (effect after : Effect) : Prop where
  sample (left right : Float) : effect.processSample left right = ((left, right), after)
  block (buffer : Audio.Buffer) : effect.processBlock buffer = (buffer, after)
  timedSample (times : CallTimes) (left right : Float) :
    effect.timedSample times left right = ((left, right), after)
  timedBlock (times : CallTimes) (buffer : Audio.Buffer) :
    effect.timedBlock times buffer = (buffer, after)

/-- The effect is not ready, or it is bypassed. -/
def Inactive (effect : Effect) : Prop :=
  effect.ready = false ∨ effect.bypassed = true

theorem Inactive.isActive_eq (inactive : effect.Inactive) : effect.isActive = false := by
  rw [isActive]
  rcases inactive with unready | bypassed
  · rw [unready, Bool.false_and]
  · rw [bypassed, Bool.not_true, Bool.and_false]

theorem Inactive.passesTo (inactive : effect.receiveScript.Inactive) :
    effect.PassesTo effect.receiveScript := by
  have timed {α : Type} (times : CallTimes) (idle : α) (run : Interpreter → α × Interpreter) :
      effect.timedCall times idle run = (idle, effect.receiveScript) := by
    rw [timedCall, inactive.isActive_eq]
    rfl
  constructor
  · intro left right
    exact call_of_inactive _ _ inactive.isActive_eq
  · intro buffer
    exact call_of_inactive _ _ inactive.isActive_eq
  · intro times left right
    exact timed times _ _
  · intro times buffer
    exact timed times _ _

/-! ### The life of an effect -/

/-- What can happen to an effect in its life. -/
inductive Step where
  | load (source : String)
  | loadScript (script : Script)
  | sendSource (source : String) (sampleRate : Float)
  | sendScript (script : Script) (sampleRate : Float)
  | event (event : Event)
  | timedPrepare (times : CallTimes) (sampleRate : Float) (maxBlockSize : Nat)
  | timedSample (times : CallTimes) (left right : Float)
  | timedBlock (times : CallTimes) (buffer : Audio.Buffer)

/-- The effect after a step. -/
def step (effect : Effect) : Step → Effect
  | .load source => (effect.load source).value.2
  | .loadScript script => (effect.loadScript script).value
  | .sendSource source sampleRate =>
    effect.useChannel fun channel => (channel.sendSource source sampleRate).value.2
  | .sendScript script sampleRate =>
    effect.useChannel fun channel => (channel.sendScript script sampleRate).value.2
  | .event event => effect.after event
  | .timedPrepare times sampleRate maxBlockSize =>
    (effect.timedPrepare times sampleRate maxBlockSize).value
  | .timedSample times left right => (effect.timedSample times left right).2
  | .timedBlock times buffer => (effect.timedBlock times buffer).2

/-- The effect after a life, whose newest step comes first. -/
def live (start : Effect) : List Step → Effect
  | [] => start
  | step :: earlier => (start.live earlier).step step

/-- What a step is to the flags of an effect. -/
inductive Turn where
  /-- A script is loaded, or a source that may be refused. -/
  | load (accepted : Bool)
  | prepare
  | shutdown
  | process
  | other

/-- The turn that a step is. -/
def Step.turn : Step → Turn
  | .load source => .load (Script.compile source).value.isOk
  | .loadScript _ => .load true
  | .event (.prepare _ _) | .timedPrepare _ _ _ => .prepare
  | .event .shutdown => .shutdown
  | .event (.processSample _ _) | .event (.processBlock _) | .timedSample _ _ _
  | .timedBlock _ _ => .process
  | _ => .other

/-- Whether a script is loaded, and whether the effect is ready. -/
def flags (effect : Effect) : Bool × Bool :=
  (effect.loaded, effect.ready)

/-- The flags of an effect after a turn. -/
def turned (effect : Effect) : Turn → Bool × Bool
  | .load accepted => (accepted, false)
  | .prepare => (effect.loaded, effect.loaded || effect.ready)
  | .shutdown => (effect.loaded, false)
  | .process => (effect.newest?.isSome || effect.loaded, effect.newest?.isSome || effect.ready)
  | .other => effect.flags

theorem flags_load (effect : Effect) (source : String) :
    (effect.load source).value.2.flags = ((Script.compile source).value.isOk, false) := by
  cases compiled : (Script.compile source).value with
  | ok script =>
    rw [value_load_of_ok compiled]
    rfl
  | error cause =>
    rw [value_load_of_error compiled]
    rfl

theorem flags_prepare (effect : Effect) (sampleRate : Float) (maxBlockSize : Nat) :
    (effect.prepare sampleRate maxBlockSize).value.flags =
      (effect.loaded, effect.loaded || effect.ready) := by
  rw [prepare]
  split
  next loaded =>
    have ready : (effect.loaded || effect.ready) = true := by
      rw [loaded, Bool.true_or]
    rw [ready]
    rfl
  next unloaded =>
    have same : (effect.loaded || effect.ready) = effect.ready := by
      rw [eq_false_of_ne_true unloaded, Bool.false_or]
    rw [same]
    rfl

theorem flags_receiveScript (effect : Effect) :
    effect.receiveScript.flags = effect.turned .process := by
  rw [turned]
  cases found : effect.newest? with
  | none =>
    rw [receiveScript_of_newest?_eq_none found]
    rfl
  | some next =>
    obtain ⟨channel, received⟩ := receiveScript_of_newest?_eq_some found
    rw [received]
    rfl

theorem flags_call {α : Type} (effect : Effect) (idle : α) (run : Interpreter → α × Interpreter) :
    (effect.call idle run).2.flags = effect.turned .process := by
  rw [← flags_receiveScript, call]
  split
  · have begun : (effect.receiveScript.beginCall.runInterpreter run).2.flags =
        effect.receiveScript.beginCall.flags := rfl
    rw [begun, beginCall]
    dsimp only
    split <;> rfl
  · rfl

/-- What every step does to the flags. -/
theorem flags_step (effect : Effect) (step : Step) :
    (effect.step step).flags = effect.turned step.turn := by
  -- A clock does not change the flags.
  have timed {α : Type} {outcome plain : α × Effect}
      (same : outcome.map id unmetered = plain.map id unmetered) :
      outcome.2.flags = plain.2.flags :=
    (congrArg (fun outcome : α × Effect => outcome.2.flags) same :)
  cases step with
  | load source => exact effect.flags_load source
  | loadScript | sendSource | sendScript => rfl
  | event event =>
    cases event with
    | prepare sampleRate maxBlockSize => exact effect.flags_prepare sampleRate maxBlockSize
    | processSample | processBlock => exact effect.flags_call _ _
    | setParameter | setThroughClone | automate | clearAutomation | setBypassed | shutdown | attach
      | send | collect => rfl
  | timedPrepare times sampleRate maxBlockSize =>
    have same := congrArg flags (effect.unmetered_timedPrepare times sampleRate maxBlockSize)
    exact same.trans (effect.flags_prepare sampleRate maxBlockSize)
  | timedSample times left right =>
    exact (timed (effect.map_timedSample times left right)).trans (effect.flags_call _ _)
  | timedBlock times buffer =>
    exact (timed (effect.map_timedBlock times buffer)).trans (effect.flags_call _ _)

/-! ### Ready effects have a script -/

theorem loaded_of_ready_step (tied : effect.ready = true → effect.loaded = true) (step : Step) :
    (effect.step step).ready = true → (effect.step step).loaded = true := by
  obtain ⟨loaded, ready⟩ := Prod.mk.inj (effect.flags_step step)
  rw [loaded, ready]
  cases step.turn with
  | load accepted | shutdown => exact nofun
  | prepare =>
    intro ready
    rcases Bool.or_eq_true_iff.1 ready with loaded | before
    · exact loaded
    · exact tied before
  | process =>
    intro ready
    apply Bool.or_eq_true_iff.2
    rcases Bool.or_eq_true_iff.1 ready with received | before
    · exact .inl received
    · exact .inr (tied before)
  | other => exact tied

theorem loaded_of_ready_live (life : List Step) :
    (fresh.live life).ready = true → (fresh.live life).loaded = true := by
  induction life with
  | nil => exact nofun
  | cons step earlier ih => exact loaded_of_ready_step ih step

/-! ### After a load that failed -/

/-- Whether the last load of a life succeeded. -/
def reloaded : List Step → Bool
  | [] => false
  | step :: earlier =>
    match step.turn with
    | .load accepted => accepted
    | _ => reloaded earlier

/-- Whether the effect took a script that was handed over, or was prepared after a load that
succeeded. -/
def woken (start : Effect) : List Step → Bool
  | [] => false
  | step :: earlier =>
    start.woken earlier ||
      match step.turn with
      | .prepare => reloaded earlier
      | .process => (start.live earlier).newest?.isSome
      | _ => false

/-- Until it wakes, an effect without script is not ready, and loaded only by a load. -/
theorem flags_live_of_not_woken {start : Effect} (off : start.flags = (false, false))
    {life : List Step} (asleep : start.woken life = false) :
    (start.live life).flags = (reloaded life, false) := by
  induction life with
  | nil => exact off
  | cons step earlier ih =>
    rw [woken, Bool.or_eq_false_iff] at asleep
    obtain ⟨loaded, ready⟩ := Prod.mk.inj (ih asleep.1)
    have now := asleep.2
    rw [live, flags_step, reloaded]
    cases turn : step.turn with
    | load accepted => rfl
    | prepare =>
      rw [turn] at now
      simp only [turned, loaded, ready, now, Bool.or_false]
    | shutdown => simp only [turned, loaded]
    | process =>
      rw [turn] at now
      simp only [turned, loaded, ready, now, Bool.false_or]
    | other => simp only [turned, flags, loaded, ready]

theorem passesTo_of_not_woken {start : Effect} (off : start.flags = (false, false))
    {life : List Step} (asleep : start.woken life = false)
    (nothing : (start.live life).newest? = none) :
    (start.live life).PassesTo (start.live life) := by
  have unready := (Prod.mk.inj (flags_live_of_not_woken off asleep)).2
  have received := receiveScript_of_newest?_eq_none nothing
  have inactive : (start.live life).receiveScript.Inactive := by
    rw [received]
    exact .inl unready
  have passes := inactive.passesTo
  rwa [received] at passes

end Effect

/-! ### Chains -/

namespace Chain

/-- The effects but for those at given places. -/
def leaveOut (silent : Nat → Bool) : List Effect → List Effect
  | [] => []
  | effect :: rest =>
    let rest := leaveOut (fun place => silent (place + 1)) rest
    if silent 0 then rest else effect :: rest

/-- The chain without the effects at given places. -/
def without (silent : Nat → Bool) (chain : Chain) : Chain :=
  { chain with effects := leaveOut silent chain.effects }

/-- Audio through effects in turn, with a given call of each. -/
def through {α : Type} (call : Effect → α → α × Effect) (audio : α) :
    List Effect → α × List Effect
  | [] => (audio, [])
  | effect :: rest =>
    let (audio, effect) := call effect audio
    let (audio, rest) := through call audio rest
    (audio, effect :: rest)

theorem sampleThrough_eq_through (left right : Float) (effects : List Effect) :
    sampleThrough left right effects =
      through (fun effect (frame : Float × Float) => effect.processSample frame.1 frame.2)
        (left, right) effects := by
  induction effects generalizing left right with
  | nil => rfl
  | cons effect rest ih =>
    simp only [sampleThrough, through, ih]

theorem blockThrough_eq_through (buffer : Audio.Buffer) (effects : List Effect) :
    blockThrough buffer effects = through Effect.processBlock buffer effects := by
  induction effects generalizing buffer with
  | nil => rfl
  | cons effect rest ih =>
    simp only [blockThrough, through, ih]

/-- Effects that give the audio back can be left out. -/
theorem through_leaveOut {α : Type} (call : Effect → α → α × Effect) {silent : Nat → Bool}
    {effects : List Effect}
    (passes : ∀ place effect, silent place = true → effects[place]? = some effect →
      ∀ audio, (call effect audio).1 = audio) (audio : α) :
    through call audio (leaveOut silent effects) =
      (through call audio effects).map id (leaveOut silent) := by
  induction effects generalizing silent audio with
  | nil => rfl
  | cons effect rest ih =>
    have behind (audio : α) :
        through call audio (leaveOut (fun place => silent (place + 1)) rest) =
          (through call audio rest).map id (leaveOut fun place => silent (place + 1)) :=
      ih (fun place => passes (place + 1)) audio
    rcases called : call effect audio with ⟨output, after⟩
    by_cases quiet : silent 0 = true
    · have back : output = audio := by
        rw [← passes 0 effect quiet rfl audio, called]
      simp [through, called, leaveOut, quiet, behind, back, Prod.map]
    · simp [through, called, leaveOut, quiet, behind, Prod.map]

section Without

variable {chain : Chain} {silent : Nat → Bool}
  (inactive : ∀ place effect, silent place = true → chain.effects[place]? = some effect →
    effect.receiveScript.Inactive)
include inactive

theorem processSample_without (left right : Float) :
    (chain.without silent).processSample left right =
      (chain.processSample left right).map id (without silent) := by
  have left_out := through_leaveOut
    (fun effect (frame : Float × Float) => effect.processSample frame.1 frame.2)
    (fun place effect quiet found frame =>
      congrArg Prod.fst ((inactive place effect quiet found).passesTo.sample frame.1 frame.2))
    (left, right)
  obtain ⟨effects, bypassed⟩ := chain
  cases bypassed with
  | true => rfl
  | false =>
    have passed : ((⟨effects, false⟩ : Chain).without silent).processSample left right =
        (sampleThrough left right (leaveOut silent effects)).map id (Chain.mk · false) := rfl
    rw [passed, sampleThrough_eq_through, left_out, ← sampleThrough_eq_through]
    rfl

theorem processBlock_without (buffer : Audio.Buffer) :
    (chain.without silent).processBlock buffer =
      (chain.processBlock buffer).map id (without silent) := by
  have left_out := through_leaveOut Effect.processBlock
    (fun place effect quiet found buffer =>
      congrArg Prod.fst ((inactive place effect quiet found).passesTo.block buffer)) buffer
  obtain ⟨effects, bypassed⟩ := chain
  cases bypassed with
  | true => rfl
  | false =>
    have passed : ((⟨effects, false⟩ : Chain).without silent).processBlock buffer =
        (blockThrough buffer (leaveOut silent effects)).map id (Chain.mk · false) := rfl
    rw [passed, blockThrough_eq_through, left_out, ← blockThrough_eq_through]
    rfl

end Without

end Chain

namespace Effect

/-- Inactive effects are transparent and frozen.  After any life an effect that is ready has a
script.  A processing call that finds the effect inactive, once it has taken what was handed over,
gives the audio back and changes nothing: the interpreter is the one taken over, or else the one
before, and the waiting values, the automation and the meters are as they were.  After a load that
failed every call is of this kind, until the effect is prepared with a script loaded anew or takes
one that was handed over.  A chain sounds the same without its inactive effects, and the others are
left the same. -/
theorem inactive_effects_pass_through (life : List Step) :
    let current := fresh.live life
    (current.ready = true → current.loaded = true) ∧
    (current.receiveScript.Inactive →
      current.PassesTo current.receiveScript ∧
      current.receiveScript.interpreter =
        (match current.newest? with
        | some next => next.withTransport current.interpreter.context.transport
        | none => current.interpreter) ∧
      current.receiveScript.parameters = current.parameters ∧
      current.receiveScript.automation = current.automation ∧
      current.receiveScript.cpu = current.cpu) ∧
    (∀ source cause, (Script.compile source).value = .error cause →
      let failed := (current.load source).value.2
      (current.load source).value.1 = false ∧
      ∀ later, failed.woken later = false → (failed.live later).newest? = none →
        (failed.live later).PassesTo (failed.live later)) ∧
    ∀ (chain : Chain) (silent : Nat → Bool),
      (∀ place effect, silent place = true → chain.effects[place]? = some effect →
        effect.receiveScript.Inactive) →
      (∀ left right, (chain.without silent).processSample left right =
        (chain.processSample left right).map id (·.without silent)) ∧
      ∀ buffer, (chain.without silent).processBlock buffer =
        (chain.processBlock buffer).map id (·.without silent) := by
  intro current
  refine ⟨loaded_of_ready_live life, fun inactive => ?_, fun source cause error => ?_,
    fun chain silent inactive => ?_⟩
  · have kept := current.frame_receiveScript
    exact ⟨inactive.passesTo, current.interpreter_receiveScript, kept.1, kept.2.1,
      current.cpu_receiveScript⟩
  · intro failed
    have refused := value_load_of_error error current
    have off : failed.flags = (false, false) := by
      rw [show failed = _ from congrArg Prod.snd refused]
      rfl
    constructor
    · rw [refused]
    · intro later asleep nothing
      exact passesTo_of_not_woken off asleep nothing
  · exact ⟨Chain.processSample_without inactive, Chain.processBlock_without inactive⟩

/-- A source whose header gives a slider no number. -/
def brokenSource : String := "slider1:x\n@sample spl0 = 0;"

/-- A script without sections is loaded, and the effect prepared. -/
def quietLife : List Step :=
  [.event (.prepare 48000.0 512), .loadScript ⟨.empty, ⟨[], [], []⟩, .empty⟩]

/-- A script is handed over to the effect, which is then bypassed. -/
def bypassLife : List Step :=
  [.event (.setBypassed true), .event (.setParameter 0 0.75), .event (.send .fresh),
    .event (.attach (.ofCapacity 0 1))]

/-- Nothing of this wakes an effect whose load failed. -/
def vainLife : List Step :=
  [.event (.prepare 44100.0 256), .event (.processSample 0.5 0.5), .event (.automate 0 [1.0]),
    .event (.setParameter 0 0.25)]

theorem inactive_effects_pass_through_broken :
    let current := fresh.live quietLife
    let broken := (current.load brokenSource).value.2
    let chain : Chain := ⟨[broken, current, current.setBypassed true], false⟩
    let bypassed := fresh.live (bypassLife ++ quietLife)
    current.ready = true ∧ current.loaded = true ∧
    bypassed.newest?.isSome = true ∧ bypassed.PassesTo bypassed.receiveScript ∧
    bypassed.receiveScript.parameters = bypassed.parameters ∧
    broken.woken vainLife = false ∧ (broken.live vainLife).PassesTo (broken.live vainLife) ∧
    (chain.without (· != 1)).processSample 0.5 0.25 =
      (chain.processSample 0.5 0.25).map id (·.without (· != 1)) := by
  intro current broken chain bypassed
  have ready : current.ready = true := rfl
  obtain ⟨tied, -, failing, chained⟩ := inactive_effects_pass_through quietLife
  obtain ⟨-, still, -⟩ := inactive_effects_pass_through (bypassLife ++ quietLife)
  obtain ⟨passes, -, parameters, -⟩ := still (.inr rfl)
  have refused : (Script.compile brokenSource).value.toOption.isNone = true := by
    decide +kernel
  cases compiled : (Script.compile brokenSource).value with
  | ok script =>
    rw [compiled] at refused
    contradiction
  | error cause =>
    have unloaded : broken = _ := congrArg Prod.snd (value_load_of_error compiled current)
    have asleep : broken.woken vainLife = false := by
      rw [unloaded]
      rfl
    have nothing : (broken.live vainLife).newest? = none := by
      rw [unloaded]
      rfl
    refine ⟨ready, tied ready, rfl, passes, parameters, asleep,
      (failing _ _ compiled).2 _ asleep nothing, ?_⟩
    apply (chained chain (· != 1) _).1
    intro place effect quiet found
    rcases place with _ | _ | _ | place
    · have first : broken = effect := Option.some.inj found
      rw [← first, unloaded]
      exact .inl rfl
    · contradiction
    · have last : current.setBypassed true = effect := Option.some.inj found
      rw [← last]
      exact .inr rfl
    · contradiction

end Effect

end EffectScript
