import EffectScript.Proofs.SliderHistory
import Mathlib.Data.List.Basic

/-!
# Scripts on their way

The control side sends interpreters over a channel and collects what comes back; the effect takes
the newest one at the start of a processing call, and sends back the one that it had together with
those that it passed over.  Interpreters are values, and two of them may be equal.  So an onlooker
gives each one a number when it is sent, and keeps books on where the numbers are.  The channel of
the books is the channel of the effect with a number on everything in it, whatever happened
(`scripts_follow`).
-/

namespace EffectScript

namespace Control

/-! ### The two ends of a channel -/

/-- What can happen to a channel. -/
inductive Move (α : Type) where
  | send (element : α)
  | collect
  /-- The other end takes the newest element, and sends back what it held until then. -/
  | call
  | rest

/-- The move with another element sent. -/
def Move.map {α β : Type} (change : α → β) : Move α → Move β
  | .send element => .send (change element)
  | .collect => .collect
  | .call => .call
  | .rest => .rest

namespace Channel

variable {α β : Type}

/-- The channel after a move, when the other end holds a given element. -/
def moved (channel : Channel α) (held : α) : Move α → Channel α
  | .send element => (channel.send element).value.2
  | .collect => channel.collect.value.2
  | .call =>
    match channel.receive with
    | (none, channel) => channel
    | (some _, channel) => channel.retire held
  | .rest => channel

theorem value_collect (channel : Channel α) :
    channel.collect.value = (channel.retired.length, { channel with retired := [] }) := by
  rw [collect]
  dsimp only
  split <;> rfl

theorem value_send (channel : Channel α) (element : α) :
    (channel.send element).value =
      if channel.ready.length < channel.capacity then
        (true, { channel with ready := channel.ready ++ [element], retired := [] })
      else (false, { channel with retired := [] }) := by
  rw [send, Logged.value_bind, value_collect]
  dsimp only
  split <;> rfl

theorem receive_of_nil {channel : Channel α} (empty : channel.ready = []) :
    channel.receive = (none, channel) := by
  rw [receive, empty]

theorem receive_of_append {channel : Channel α} {older : List α} {newest : α}
    (ready : channel.ready = older ++ [newest]) :
    channel.receive = (some newest, older.foldl retire { channel with ready := [] }) := by
  cases older with
  | nil => rw [receive, ready]; rfl
  | cons first older =>
    rw [receive, ready, List.cons_append]
    simp only [← List.cons_append, List.dropLast_concat, List.getLast?_concat, Option.getD_some]

theorem ready_foldl_retire (channel : Channel α) (elements : List α) :
    (elements.foldl retire channel).ready = channel.ready := by
  induction elements generalizing channel with
  | nil => rfl
  | cons element rest ih =>
    rw [List.foldl_cons, ih, retire]
    split <;> rfl

/-- Nothing is dropped while there is room. -/
theorem foldl_retire_of_room {channel : Channel α} {elements : List α}
    (room : channel.retired.length + elements.length ≤ channel.capacity) :
    elements.foldl retire channel =
      { channel with retired := channel.retired ++ elements } := by
  induction elements generalizing channel with
  | nil => simp
  | cons element rest ih =>
    rw [List.length_cons] at room
    have pushed : channel.retire element =
        { channel with retired := channel.retired ++ [element] } := by
      rw [retire, if_pos (by omega)]
    have enough : (channel.retire element).retired.length + rest.length ≤
        (channel.retire element).capacity := by
      rw [pushed]
      simp only [List.length_append, List.length_singleton]
      omega
    rw [List.foldl_cons, ih enough, pushed]
    simp

/-! ### Elements under another description -/

/-- The channel with another description of everything in it. -/
def map (change : α → β) (channel : Channel α) : Channel β :=
  ⟨channel.label, channel.capacity, channel.ready.map change, channel.retired.map change⟩

variable (change : α → β) (channel : Channel α)

theorem send_map (element : α) :
    ((channel.map change).send (change element)).value =
      ((channel.send element).value.1, (channel.send element).value.2.map change) := by
  rw [value_send, value_send]
  simp only [map, List.length_map]
  split <;> simp

theorem collect_map :
    (channel.map change).collect.value =
      (channel.collect.value.1, channel.collect.value.2.map change) := by
  rw [value_collect, value_collect]
  simp [map]

theorem retire_map (element : α) :
    (channel.map change).retire (change element) = (channel.retire element).map change := by
  rw [retire, retire]
  simp only [map, List.length_map]
  split <;> simp

theorem foldl_retire_map (elements : List α) :
    (elements.map change).foldl retire (channel.map change) =
      (elements.foldl retire channel).map change := by
  induction elements generalizing channel with
  | nil => rfl
  | cons element rest ih => rw [List.map_cons, List.foldl_cons, retire_map, ih, List.foldl_cons]

theorem receive_map :
    (channel.map change).receive =
      (channel.receive.1.map change, channel.receive.2.map change) := by
  rcases List.eq_nil_or_concat' channel.ready with empty | ⟨older, newest, ready⟩
  · rw [receive_of_nil empty, receive_of_nil (by simp [map, empty])]
    rfl
  · have described : (channel.map change).ready = older.map change ++ [change newest] := by
      rw [map, ready, List.map_append, List.map_singleton]
    rw [receive_of_append ready, receive_of_append described, ← foldl_retire_map]
    rfl

/-- A channel goes the same way under any description. -/
theorem moved_map (held : α) (move : Move α) :
    (channel.map change).moved (change held) (move.map change) =
      (channel.moved held move).map change := by
  cases move with
  | send element => exact congrArg Prod.snd (send_map change channel element)
  | collect => exact congrArg Prod.snd (collect_map change channel)
  | call =>
    simp only [moved, Move.map, receive_map]
    rcases channel.receive with ⟨taken, after⟩
    cases taken with
    | none => rfl
    | some newest => exact retire_map change after held
  | rest => rfl

end Channel

end Control

open Control

/-! ### Acts of the two sides -/

/-- Something that is done to an effect and leaves its channel alone. -/
structure HostChange where
  change : Effect → Effect
  keepsScripts : ∀ effect, (change effect).scripts = effect.scripts

/-- What the control side, the audio side and the host can do. -/
inductive Act where
  | sendSource (source : String) (sampleRate : Float)
  | sendScript (script : Script) (sampleRate : Float)
  | send (interpreter : Interpreter)
  | collect
  | processSample (left right : Float)
  | processBlock (buffer : Audio.Buffer)
  | host (change : HostChange)

/-- The effect after an act. -/
def Effect.perform (effect : Effect) : Act → Effect
  | .sendSource source sampleRate =>
    effect.useChannel fun channel => (channel.sendSource source sampleRate).value.2
  | .sendScript script sampleRate =>
    effect.useChannel fun channel => (channel.sendScript script sampleRate).value.2
  | .send interpreter =>
    effect.useChannel fun channel => (channel.sendInterpreter interpreter).value.2
  | .collect => effect.useChannel fun channel => channel.collect.value.2
  | .processSample left right => (effect.processSample left right).2
  | .processBlock buffer => (effect.processBlock buffer).2
  | .host change => change.change effect

/-- What an act does to the channel.  A source that does not compile gets no further. -/
def Act.move : Act → Move Interpreter
  | .sendSource source sampleRate =>
    match (Script.compile source).value with
    | .ok script => .send (readyInterpreter script sampleRate).value
    | .error _ => .rest
  | .sendScript script sampleRate => .send (readyInterpreter script sampleRate).value
  | .send interpreter => .send interpreter
  | .collect => .collect
  | .processSample _ _ | .processBlock _ => .call
  | .host _ => .rest

namespace Control.Channel

variable (channel : Channel Interpreter)

theorem value_sendInterpreter (interpreter : Interpreter) :
    (channel.sendInterpreter interpreter).value =
      (if (channel.send interpreter).value.1 then .ok () else .error .queueFull,
        (channel.send interpreter).value.2) := rfl

theorem value_sendSource_of_ok {source : String} {script : Script}
    (compiled : (Script.compile source).value = .ok script) (sampleRate : Float) :
    (channel.sendSource source sampleRate).value =
      (channel.sendScript script sampleRate).value := by
  rw [sendSource, Logged.value_bind, compiled]

theorem value_sendSource_of_error {source : String} {cause : Script.LoadError}
    (failed : (Script.compile source).value = .error cause) (sampleRate : Float) :
    (channel.sendSource source sampleRate).value = (.error (.load cause), channel) := by
  rw [sendSource, Logged.value_bind, failed]
  rfl

end Control.Channel

/-- The interpreter with another transport. -/
def Interpreter.withTransport (interpreter : Interpreter) (transport : Machine.Transport) :
    Interpreter :=
  { interpreter with context := { interpreter.context with transport } }

namespace Effect

theorem value_load_of_ok {source : String} {script : Script}
    (compiled : (Script.compile source).value = .ok script) (effect : Effect) :
    (effect.load source).value = (true, (effect.loadScript script).value) := by
  rw [load, Logged.value_bind, compiled]
  rfl

theorem value_load_of_error {source : String} {cause : Script.LoadError}
    (failed : (Script.compile source).value = .error cause) (effect : Effect) :
    (effect.load source).value = (false, { effect with loaded := false, ready := false }) := by
  rw [load, Logged.value_bind, failed]
  rfl

theorem receiveScript_of_none {effect : Effect} {channel after : Channel Interpreter}
    (attached : effect.scripts = some channel) (nothing : channel.receive = (none, after)) :
    effect.receiveScript = { effect with scripts := some after } := by
  rw [receiveScript, attached]
  dsimp only
  rw [nothing]

theorem receiveScript_of_some {effect : Effect} {channel after : Channel Interpreter}
    {next : Interpreter} (attached : effect.scripts = some channel)
    (newest : channel.receive = (some next, after)) :
    effect.receiveScript =
      { effect with
        interpreter := next.withTransport effect.interpreter.context.transport
        scripts := some (after.retire effect.interpreter)
        loaded := true
        ready := true } := by
  rw [receiveScript, attached]
  dsimp only
  rw [newest]
  rfl

/-- The effect has taken all that was handed over. -/
def UpToDate (effect : Effect) : Prop :=
  ∀ channel, effect.scripts = some channel → channel.ready = []

theorem UpToDate.receiveScript_eq {effect : Effect} (upToDate : effect.UpToDate) :
    effect.receiveScript = effect := by
  cases attached : effect.scripts with
  | none => rw [receiveScript, attached]
  | some channel =>
    have nothing := Channel.receive_of_nil (upToDate channel attached)
    rw [receiveScript_of_none attached nothing, ← attached]

theorem scripts_beginCall (effect : Effect) : effect.beginCall.scripts = effect.scripts := by
  rw [beginCall]
  dsimp only
  split <;> rfl

/-- Processing uses the channel only to take what was handed over. -/
theorem scripts_call {α : Type} (effect : Effect) (idle : α)
    (run : Interpreter → α × Interpreter) :
    (effect.call idle run).2.scripts = effect.receiveScript.scripts := by
  rw [call]
  split
  · exact scripts_beginCall _
  · rfl

variable {effect : Effect} {channel : Channel Interpreter}

theorem scripts_receiveScript (attached : effect.scripts = some channel) :
    effect.receiveScript.scripts = some (channel.moved effect.interpreter .call) := by
  rw [Channel.moved]
  rcases received : channel.receive with ⟨taken, after⟩
  cases taken with
  | none => rw [receiveScript_of_none attached received]
  | some next => rw [receiveScript_of_some attached received]

theorem upToDate_receiveScript (effect : Effect) : effect.receiveScript.UpToDate := by
  intro after received
  cases attached : effect.scripts with
  | none =>
    rw [receiveScript, attached] at received
    exact absurd (attached.symm.trans received) (Option.some_ne_none after).symm
  | some channel =>
    obtain rfl := Option.some.inj ((scripts_receiveScript attached).symm.trans received)
    rcases List.eq_nil_or_concat' channel.ready with empty | ⟨older, newest, ready⟩
    · rw [Channel.moved, Channel.receive_of_nil empty]
      exact empty
    · have sentBack := Channel.ready_foldl_retire { channel with ready := [] }
        (older ++ [effect.interpreter])
      rw [List.foldl_append] at sentBack
      rw [Channel.moved, Channel.receive_of_append ready]
      exact sentBack

/-- A processing call leaves nothing to take. -/
theorem upToDate_call {α : Type} (effect : Effect) (idle : α)
    (run : Interpreter → α × Interpreter) : (effect.call idle run).2.UpToDate := by
  intro channel attached
  rw [scripts_call] at attached
  exact effect.upToDate_receiveScript channel attached

/-- A call goes on as if what was handed over had been in place before. -/
theorem call_receiveScript {α : Type} (effect : Effect) (idle : α)
    (run : Interpreter → α × Interpreter) :
    effect.receiveScript.call idle run = effect.call idle run := by
  rw [call, call, runsCalls, runsCalls, effect.upToDate_receiveScript.receiveScript_eq]

/-- What an act does to the channel of the effect. -/
theorem scripts_perform (attached : effect.scripts = some channel) (act : Act) :
    (effect.perform act).scripts = some (channel.moved effect.interpreter act.move) := by
  have used (use : Channel Interpreter → Channel Interpreter) :
      (effect.useChannel use).scripts = some (use channel) := by
    rw [useChannel, attached, Option.map_some]
  cases act with
  | sendSource source sampleRate =>
    rw [perform, used, Act.move]
    cases compiled : (Script.compile source).value with
    | ok script =>
      rw [Channel.value_sendSource_of_ok _ compiled]
      rfl
    | error cause =>
      rw [Channel.value_sendSource_of_error _ compiled]
      rfl
  | sendScript | send | collect => exact used _
  | processSample left right =>
    rw [perform, processSample_eq_call, scripts_call]
    exact scripts_receiveScript attached
  | processBlock buffer =>
    rw [perform, processBlock_eq_call, scripts_call]
    exact scripts_receiveScript attached
  | host change =>
    rw [perform, change.keepsScripts]
    exact attached

end Effect

/-! ### Books -/

/-- An interpreter and the number under which the books have it. -/
structure Numbered where
  number : Nat
  interpreter : Interpreter

/-- What an onlooker writes down about the interpreters of an effect.  The one that the effect had
at the start has the number zero, the others are numbered as they are sent. -/
structure Books where
  channel : Channel Numbered
  /-- Number of the interpreter in the effect. -/
  current : Nat
  /-- Number given last. -/
  sent : Nat
  /-- Accepted before the last processing call, oldest first. -/
  settled : List Numbered
  /-- Accepted since the last processing call, oldest first. -/
  fresh : List Numbered
  /-- Numbers that the effect took over, oldest first. -/
  taken : List Nat
  /-- Numbers disposed of by collecting. -/
  collected : List Nat
  /-- Numbers disposed of because the channel was full. -/
  refused : List Nat
  /-- Sum of the counts that collecting gave. -/
  released : Nat
  /-- How many interpreters were sent back. -/
  returned : Nat

namespace Books

/-- Nothing was sent yet. -/
def opened (label capacity : Nat) : Books :=
  ⟨.ofCapacity label capacity, 0, 0, [], [], [], [], [], 0, 0⟩

/-- The books after a move, when the effect holds a given interpreter. -/
def after (books : Books) (held : Interpreter) (move : Move Interpreter) : Books :=
  let channel := books.channel.moved ⟨books.current, held⟩ (move.map (.mk (books.sent + 1)))
  match move with
  | .send interpreter =>
    let accepted := (books.channel.send ⟨books.sent + 1, interpreter⟩).value.1
    { books with
      channel
      sent := books.sent + 1
      fresh := if accepted then books.fresh ++ [⟨books.sent + 1, interpreter⟩] else books.fresh
      refused := if accepted then books.refused else books.refused ++ [books.sent + 1]
      collected := books.collected ++ books.channel.retired.map Numbered.number
      released := books.released + books.channel.collect.value.1 }
  | .collect =>
    { books with
      channel
      collected := books.collected ++ books.channel.retired.map Numbered.number
      released := books.released + books.channel.collect.value.1 }
  | .call =>
    let books := { books with settled := books.settled ++ books.fresh, fresh := [] }
    match books.channel.receive.1 with
    | none => { books with channel }
    | some next =>
      { books with
        channel
        current := next.number
        taken := books.taken ++ [next.number]
        -- Those passed over, and the one replaced.
        returned := books.returned + (books.channel.ready.dropLast.length + 1) }
  | .rest => books

theorem channel_after (books : Books) (held : Interpreter) (move : Move Interpreter) :
    (books.after held move).channel =
      books.channel.moved ⟨books.current, held⟩ (move.map (.mk (books.sent + 1))) := by
  cases move with
  | send | collect | rest => rfl
  | call =>
    rw [after]
    dsimp only
    split <;> rfl

/-- What holds of the channel between any two acts. -/
structure Tidy (capacity : Nat) (books : Books) : Prop where
  capacity_eq : books.channel.capacity = capacity
  ready_eq : books.channel.ready = books.fresh
  fresh_le : books.fresh.length ≤ capacity
  /-- Whoever sends has collected first, and whoever calls leaves nothing to take. -/
  oneWay : books.fresh = [] ∨ books.channel.retired = []

variable {books : Books} {capacity : Nat}

/-! What can happen to tidy books. -/

theorem after_send_of_room (tidy : books.Tidy capacity) (held interpreter : Interpreter)
    (room : books.fresh.length < capacity) :
    books.after held (.send interpreter) =
      { books with
        channel :=
          { books.channel with
            ready := books.fresh ++ [⟨books.sent + 1, interpreter⟩], retired := [] }
        sent := books.sent + 1
        fresh := books.fresh ++ [⟨books.sent + 1, interpreter⟩]
        collected := books.collected ++ books.channel.retired.map Numbered.number
        released := books.released + books.channel.retired.length } := by
  have accepted := books.channel.value_send ⟨books.sent + 1, interpreter⟩
  rw [if_pos (by rwa [tidy.ready_eq, tidy.capacity_eq]), tidy.ready_eq] at accepted
  simp only [after, Channel.moved, Move.map, accepted, Channel.value_collect, if_true]

theorem after_send_of_full (tidy : books.Tidy capacity) (held interpreter : Interpreter)
    (full : books.fresh.length = capacity) :
    books.after held (.send interpreter) =
      { books with
        channel := { books.channel with retired := [] }
        sent := books.sent + 1
        refused := books.refused ++ [books.sent + 1]
        collected := books.collected ++ books.channel.retired.map Numbered.number
        released := books.released + books.channel.retired.length } := by
  have refused := books.channel.value_send ⟨books.sent + 1, interpreter⟩
  rw [if_neg (by rw [tidy.ready_eq, tidy.capacity_eq]; omega)] at refused
  simp only [after, Channel.moved, Move.map, refused, Channel.value_collect, Bool.false_eq_true,
    if_false]

theorem after_collect (books : Books) (held : Interpreter) :
    books.after held .collect =
      { books with
        channel := { books.channel with retired := [] }
        collected := books.collected ++ books.channel.retired.map Numbered.number
        released := books.released + books.channel.retired.length } := by
  simp only [after, Channel.moved, Move.map, Channel.value_collect]

theorem after_call_of_nil (tidy : books.Tidy capacity) (held : Interpreter)
    (nothing : books.fresh = []) : books.after held .call = books := by
  have received := Channel.receive_of_nil (tidy.ready_eq.trans nothing)
  simp only [after, Channel.moved, Move.map, received, nothing, List.append_nil]
  rw [← nothing]

theorem after_call_of_append (tidy : books.Tidy capacity) (held : Interpreter)
    {older : List Numbered} {newest : Numbered} (accepted : books.fresh = older ++ [newest]) :
    books.after held .call =
      { books with
        channel :=
          { books.channel with ready := [], retired := older ++ [⟨books.current, held⟩] }
        current := newest.number
        settled := books.settled ++ books.fresh
        fresh := []
        taken := books.taken ++ [newest.number]
        returned := books.returned + (older.length + 1) } := by
  have received := Channel.receive_of_append (tidy.ready_eq.trans accepted)
  have collected : books.channel.retired = [] :=
    tidy.oneWay.resolve_left (by simp [accepted])
  have room : older.length + 1 ≤ books.channel.capacity := by
    have bound := tidy.fresh_le
    rwa [accepted, List.length_append, ← tidy.capacity_eq] at bound
  -- Everything taken out of one queue goes to the other, which was empty.
  have sentBack : (older.foldl Channel.retire { books.channel with ready := [] }).retire
      ⟨books.current, held⟩ =
        { books.channel with ready := [], retired := older ++ [⟨books.current, held⟩] } := by
    have all : (older ++ [Numbered.mk books.current held]).foldl Channel.retire
        { books.channel with ready := [] } =
          { books.channel with
            ready := []
            retired := books.channel.retired ++ (older ++ [Numbered.mk books.current held]) } :=
      Channel.foldl_retire_of_room (by simpa [collected] using room)
    rw [List.foldl_append] at all
    simpa [collected] using all
  simp only [after, Channel.moved, Move.map, received, sentBack, tidy.ready_eq, accepted,
    List.dropLast_concat]

theorem after_rest (books : Books) (held : Interpreter) : books.after held .rest = books := rfl

theorem tidy_opened (label capacity : Nat) : (opened label capacity).Tidy (max capacity 1) where
  capacity_eq := rfl
  ready_eq := rfl
  fresh_le := Nat.zero_le _
  oneWay := .inl rfl

/-- Every move keeps the books tidy. -/
theorem Tidy.after (tidy : books.Tidy capacity) (held : Interpreter) (move : Move Interpreter) :
    (books.after held move).Tidy capacity := by
  obtain ⟨capacity_eq, ready_eq, fresh_le, oneWay⟩ := id tidy
  cases move with
  | send interpreter =>
    rcases Nat.lt_or_eq_of_le fresh_le with room | full
    · rw [after_send_of_room tidy held interpreter room]
      exact ⟨capacity_eq, rfl, by rw [List.length_append]; exact room, .inr rfl⟩
    · rw [after_send_of_full tidy held interpreter full]
      exact ⟨capacity_eq, ready_eq, fresh_le, .inr rfl⟩
  | collect =>
    rw [after_collect]
    exact ⟨capacity_eq, ready_eq, fresh_le, .inr rfl⟩
  | call =>
    rcases List.eq_nil_or_concat' books.fresh with nothing | ⟨older, newest, accepted⟩
    · rw [after_call_of_nil tidy held nothing]
      exact tidy
    · rw [after_call_of_append tidy held accepted]
      exact ⟨capacity_eq, rfl, Nat.zero_le _, .inl rfl⟩
  | rest => exact tidy

end Books

/-! ### The effect and its books -/

/-- An effect, and the books that are kept on it. -/
structure ScriptTraffic where
  effect : Effect
  books : Books

namespace ScriptTraffic

/-- A channel is attached to an effect, and the books are opened. -/
def start (effect : Effect) (label capacity : Nat) : ScriptTraffic :=
  ⟨effect.attach (.ofCapacity label capacity), .opened label capacity⟩

/-- The traffic after an act. -/
def after (traffic : ScriptTraffic) (act : Act) : ScriptTraffic :=
  ⟨traffic.effect.perform act, traffic.books.after traffic.effect.interpreter act.move⟩

/-- The traffic after a history, whose newest act comes first. -/
def follow (start : ScriptTraffic) : List Act → ScriptTraffic
  | [] => start
  | act :: earlier => (start.follow earlier).after act

/-- The channel of the effect, as the books have it. -/
def channel (traffic : ScriptTraffic) : Channel Interpreter :=
  traffic.books.channel.map Numbered.interpreter

theorem scripts_after {traffic : ScriptTraffic}
    (attached : traffic.effect.scripts = some traffic.channel) (act : Act) :
    (traffic.after act).effect.scripts = some (traffic.after act).channel := by
  have plain : (act.move.map (Numbered.mk (traffic.books.sent + 1))).map Numbered.interpreter =
      act.move := by
    cases act.move <;> rfl
  have same := Channel.moved_map Numbered.interpreter traffic.books.channel
    ⟨traffic.books.current, traffic.effect.interpreter⟩
    (act.move.map (.mk (traffic.books.sent + 1)))
  rw [plain] at same
  rw [channel, after, Books.channel_after, ← same]
  exact Effect.scripts_perform attached act

section Call

variable {traffic : ScriptTraffic} {capacity : Nat}
  (attached : traffic.effect.scripts = some traffic.channel)
  (tidy : traffic.books.Tidy capacity) {act : Act} (calls : act.move = .call)
include attached tidy calls

theorem call_idle (nothing : traffic.books.fresh = []) :
    traffic.effect.receiveScript = traffic.effect ∧
      (traffic.after act).books.current = traffic.books.current := by
  have empty : traffic.channel.ready = [] := by
    rw [channel, Channel.map, tidy.ready_eq, nothing, List.map_nil]
  have upToDate : traffic.effect.UpToDate := by
    intro other found
    rwa [← Option.some.inj (attached.symm.trans found)]
  refine ⟨upToDate.receiveScript_eq, ?_⟩
  rw [after, calls, Books.after_call_of_nil tidy _ nothing]

theorem call_takes {newest : Numbered} (last : traffic.books.fresh.getLast? = some newest) :
    traffic.effect.receiveScript.interpreter =
        newest.interpreter.withTransport traffic.effect.interpreter.context.transport ∧
      (traffic.after act).books.current = newest.number := by
  obtain ⟨older, fresh⟩ := List.getLast?_eq_some_iff.1 last
  have ready : traffic.channel.ready =
      older.map Numbered.interpreter ++ [newest.interpreter] := by
    rw [channel, Channel.map, tidy.ready_eq, fresh, List.map_append, List.map_singleton]
  constructor
  · rw [Effect.receiveScript_of_some attached (Channel.receive_of_append ready)]
  · rw [after, calls, Books.after_call_of_append tidy _ fresh]

/-- What a call puts into the effect, and what the books say about it. -/
theorem call_takes_newest :
    match traffic.books.fresh.getLast? with
    | some newest =>
      traffic.effect.receiveScript.interpreter =
          newest.interpreter.withTransport traffic.effect.interpreter.context.transport ∧
        (traffic.after act).books.current = newest.number
    | none =>
      traffic.effect.receiveScript = traffic.effect ∧
        (traffic.after act).books.current = traffic.books.current := by
  split
  next newest last => exact call_takes attached tidy calls last
  next nothing => exact call_idle attached tidy calls (List.getLast?_eq_none_iff.1 nothing)

end Call

section Follow

variable (effect : Effect) (label capacity : Nat) (history : List Act)

/-- The channel of the books is the channel of the effect. -/
theorem scripts_follow :
    ((start effect label capacity).follow history).effect.scripts =
      some ((start effect label capacity).follow history).channel := by
  induction history with
  | nil => rfl
  | cons act earlier ih => exact scripts_after ih act

theorem tidy_follow :
    ((start effect label capacity).follow history).books.Tidy (max capacity 1) := by
  induction history with
  | nil => exact Books.tidy_opened label capacity
  | cons act earlier ih => exact ih.after _ _

end Follow

end ScriptTraffic

end EffectScript
