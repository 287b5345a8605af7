import EffectScript.Proofs.ScriptTraffic

/-!
# The newest script wins

A processing call, whether or not it does anything to the audio, first puts the newest accepted
interpreter into the effect, and then goes on as if that one had been there.  What is taken over
this way is numbered in strictly increasing order, so an older script never comes after a newer one
and none comes twice.  A sender is refused exactly when as many interpreters as the channel holds
were accepted since the last processing call, and loses nothing but what it tried to send.
-/

namespace EffectScript

open Control

/-! ### Answers to a sender -/

/-- What a sender is told. -/
def Act.answer? (channel : Channel Interpreter) : Act → Option (Except HandoffError Unit)
  | .sendSource source sampleRate => some (channel.sendSource source sampleRate).value.1
  | .sendScript script sampleRate => some (channel.sendScript script sampleRate).value.1
  | .send interpreter => some (channel.sendInterpreter interpreter).value.1
  | _ => none

theorem Act.answer?_of_send {act : Act} {interpreter : Interpreter}
    (sends : act.move = .send interpreter) (channel : Channel Interpreter) :
    act.answer? channel = some (channel.sendInterpreter interpreter).value.1 := by
  cases act with
  | sendSource source sampleRate =>
    rw [move] at sends
    split at sends
    next script compiled =>
      obtain rfl := Move.send.inj sends
      rw [answer?, Channel.value_sendSource_of_ok _ compiled]
      rfl
    next => contradiction
  | sendScript | send =>
    obtain rfl := Move.send.inj sends
    rfl
  | collect | processSample | processBlock | host => contradiction

/-- A sender touches nothing but the channel. -/
theorem Effect.perform_of_sender {act : Act} (effect : Effect) {channel : Channel Interpreter}
    (sender : (act.answer? channel).isSome = true) :
    effect.perform act = { effect with scripts := (effect.perform act).scripts } := by
  cases act with
  | sendSource | sendScript | send => rfl
  | collect | processSample | processBlock | host => contradiction

/-! ### The order of acceptance -/

namespace Books

/-- Everything that was accepted, oldest first. -/
def accepted (books : Books) : List Numbered :=
  books.settled ++ books.fresh

/-- What is known about the numbers of accepted interpreters. -/
structure InOrder (books : Books) : Prop where
  accepted_lt : (books.accepted.map Numbered.number).Pairwise (· < ·)
  accepted_le : ∀ numbered ∈ books.accepted, numbered.number ≤ books.sent
  /-- What the effect has taken over was accepted before the last call, and in that order. -/
  taken_sublist : books.taken.Sublist (books.settled.map Numbered.number)
  current_eq : books.current = books.taken.getLast?.getD 0

variable {books : Books} {capacity : Nat}

theorem inOrder_opened (label capacity : Nat) : (opened label capacity).InOrder where
  accepted_lt := .nil
  accepted_le _ member := absurd member List.not_mem_nil
  taken_sublist := .slnil
  current_eq := rfl

/-- A number given now is above all numbers given before. -/
theorem InOrder.accept (inOrder : books.InOrder) (interpreter : Interpreter) :
    ((books.accepted ++ [Numbered.mk (books.sent + 1) interpreter]).map Numbered.number).Pairwise
        (· < ·) ∧
      ∀ numbered ∈ books.accepted ++ [Numbered.mk (books.sent + 1) interpreter],
        numbered.number ≤ books.sent + 1 := by
  constructor
  · rw [List.map_append, List.pairwise_append]
    refine ⟨inOrder.accepted_lt, List.pairwise_singleton _ _, ?_⟩
    intro earlier member later last
    obtain ⟨numbered, found, rfl⟩ := List.mem_map.1 member
    obtain rfl := List.mem_singleton.1 last
    exact Nat.lt_succ_of_le (inOrder.accepted_le numbered found)
  · intro numbered member
    rcases List.mem_append.1 member with old | new
    · exact Nat.le_succ_of_le (inOrder.accepted_le numbered old)
    · obtain rfl := List.mem_singleton.1 new
      exact Nat.le_refl _

theorem InOrder.after (inOrder : books.InOrder) (tidy : books.Tidy capacity) (held : Interpreter)
    (move : Move Interpreter) : (books.after held move).InOrder := by
  cases move with
  | send interpreter =>
    rcases Nat.lt_or_eq_of_le tidy.fresh_le with room | full
    · rw [after_send_of_room tidy held interpreter room]
      obtain ⟨increasing, bounded⟩ := inOrder.accept interpreter
      rw [accepted, List.append_assoc] at increasing bounded
      exact ⟨increasing, bounded, inOrder.taken_sublist, inOrder.current_eq⟩
    · rw [after_send_of_full tidy held interpreter full]
      exact ⟨inOrder.accepted_lt,
        fun numbered member => Nat.le_succ_of_le (inOrder.accepted_le numbered member),
        inOrder.taken_sublist, inOrder.current_eq⟩
  | collect =>
    rw [after_collect]
    exact ⟨inOrder.accepted_lt, inOrder.accepted_le, inOrder.taken_sublist, inOrder.current_eq⟩
  | call =>
    rcases List.eq_nil_or_concat' books.fresh with nothing | ⟨older, newest, fresh⟩
    · rw [after_call_of_nil tidy held nothing]
      exact inOrder
    · rw [after_call_of_append tidy held fresh]
      have same : books.settled ++ books.fresh ++ [] = books.accepted := List.append_nil _
      constructor
      · rw [accepted, same]
        exact inOrder.accepted_lt
      · rw [accepted, same]
        exact inOrder.accepted_le
      · rw [List.map_append, fresh, List.map_append]
        exact inOrder.taken_sublist.append (List.sublist_append_right _ _)
      · simp
  | rest => exact inOrder

end Books

namespace ScriptTraffic

theorem inOrder_follow (effect : Effect) (label capacity : Nat) (history : List Act) :
    ((start effect label capacity).follow history).books.InOrder := by
  induction history with
  | nil => exact Books.inOrder_opened label capacity
  | cons act earlier ih => exact ih.after (tidy_follow effect label capacity earlier) _ _

/-! ### The next act -/

section Next

variable {traffic : ScriptTraffic} {capacity : Nat}
  (attached : traffic.effect.scripts = some traffic.channel)
  (tidy : traffic.books.Tidy capacity)
include attached tidy

omit attached in
/-- The answer to a sender, as far as the books know. -/
theorem answer?_of_send {act : Act} {interpreter : Interpreter}
    (sends : act.move = .send interpreter) :
    act.answer? traffic.channel =
      some (if traffic.books.fresh.length < capacity then .ok () else .error .queueFull) := by
  rw [Act.answer?_of_send sends, Channel.value_sendInterpreter, Channel.value_send]
  have ready : traffic.channel.ready.length = traffic.books.fresh.length := by
    rw [channel, Channel.map, tidy.ready_eq, List.length_map]
  have limit : traffic.channel.capacity = capacity := tidy.capacity_eq
  rw [ready, limit]
  split <;> rfl

theorem send_accepted {act : Act} {interpreter : Interpreter}
    (sends : act.move = .send interpreter) (room : traffic.books.fresh.length < capacity) :
    act.answer? traffic.channel = some (.ok ()) ∧
      (traffic.after act).books.fresh =
        traffic.books.fresh ++ [⟨traffic.books.sent + 1, interpreter⟩] ∧
      (traffic.after act).effect =
        { traffic.effect with scripts := some (traffic.after act).channel } := by
  have answer := answer?_of_send tidy sends
  rw [if_pos room] at answer
  refine ⟨answer, ?_, ?_⟩
  · rw [after, sends, Books.after_send_of_room tidy _ _ room]
  · rw [← scripts_after attached]
    exact traffic.effect.perform_of_sender (by rw [answer]; rfl)

theorem send_refused {act : Act} {interpreter : Interpreter}
    (sends : act.move = .send interpreter) (full : traffic.books.fresh.length = capacity) :
    act.answer? traffic.channel = some (.error .queueFull) ∧
      (traffic.after act).books.fresh = traffic.books.fresh ∧
      (traffic.after act).effect =
        { traffic.effect with scripts := some { traffic.channel with retired := [] } } := by
  have answer := answer?_of_send tidy sends
  rw [if_neg (by omega)] at answer
  have books := Books.after_send_of_full tidy traffic.effect.interpreter interpreter full
  refine ⟨answer, ?_, ?_⟩
  · rw [after, sends, books]
  · have collected : (traffic.after act).channel = { traffic.channel with retired := [] } := by
      rw [channel, after, sends, books]
      rfl
    rw [← collected, ← scripts_after attached]
    exact traffic.effect.perform_of_sender (by rw [answer]; rfl)

omit tidy in
theorem send_unreadable {source : String} {cause : Script.LoadError}
    (failed : (Script.compile source).value = .error cause) (sampleRate : Float) :
    (Act.sendSource source sampleRate).answer? traffic.channel = some (.error (.load cause)) ∧
      traffic.after (.sendSource source sampleRate) = traffic := by
  have rests : (Act.sendSource source sampleRate).move = .rest := by
    rw [Act.move, failed]
  have books : (traffic.after (.sendSource source sampleRate)).books = traffic.books := by
    rw [after, rests, Books.after_rest]
  constructor
  · rw [Act.answer?, Channel.value_sendSource_of_error _ failed]
  · have scripts := scripts_after attached (.sendSource source sampleRate)
    rw [channel, books, ← channel, ← attached] at scripts
    have same : (traffic.after (.sendSource source sampleRate)).effect = traffic.effect :=
      congrArg (fun scripts => { traffic.effect with scripts }) scripts
    exact congrArg₂ ScriptTraffic.mk same books

end Next

/-- Over any history of a channel and the effect at its other end.  A processing call puts the last
interpreter accepted since the call before into the effect, as it was sent but for the transport,
and otherwise leaves the one that is there; either way it goes on as if that one had been in place
before.  Those taken over come in the order in which they were accepted, each at most once.  A
sender is refused exactly when the channel is full of what was accepted since the last call, and a
sender that is refused, or whose source does not compile, leaves all that waits to be taken. -/
theorem newest_accepted_takes_over (effect : Effect) (label capacity : Nat)
    (history : List Act) :
    let traffic := (start effect label capacity).follow history
    let books := traffic.books
    traffic.effect.scripts = some traffic.channel ∧
    (∀ act : Act, act.move = .call →
      match books.fresh.getLast? with
      | some newest =>
        traffic.effect.receiveScript.interpreter =
            newest.interpreter.withTransport traffic.effect.interpreter.context.transport ∧
          (traffic.after act).books.current = newest.number
      | none =>
        traffic.effect.receiveScript = traffic.effect ∧
          (traffic.after act).books.current = books.current) ∧
    (∀ left right, traffic.effect.processSample left right =
      traffic.effect.receiveScript.processSample left right) ∧
    (∀ buffer, traffic.effect.processBlock buffer =
      traffic.effect.receiveScript.processBlock buffer) ∧
    (books.accepted.map Numbered.number).Pairwise (· < ·) ∧
    books.taken.Sublist (books.accepted.map Numbered.number) ∧
    books.current = books.taken.getLast?.getD 0 ∧
    (∀ act interpreter, act.move = .send interpreter →
      (act.answer? traffic.channel = some (.error .queueFull) ↔
        books.fresh.length = max capacity 1) ∧
      (act.answer? traffic.channel = some (.error .queueFull) →
        (traffic.after act).books.fresh = books.fresh ∧
          (traffic.after act).effect =
            { traffic.effect with scripts := some { traffic.channel with retired := [] } }) ∧
      (act.answer? traffic.channel ≠ some (.error .queueFull) →
        act.answer? traffic.channel = some (.ok ()) ∧
          (traffic.after act).books.fresh = books.fresh ++ [⟨books.sent + 1, interpreter⟩] ∧
          (traffic.after act).effect =
            { traffic.effect with scripts := some (traffic.after act).channel })) ∧
    ∀ source sampleRate cause, (Script.compile source).value = .error cause →
      (Act.sendSource source sampleRate).answer? traffic.channel =
          some (.error (.load cause)) ∧
        traffic.after (.sendSource source sampleRate) = traffic := by
  intro traffic books
  have attached : traffic.effect.scripts = some traffic.channel :=
    scripts_follow effect label capacity history
  have tidy : books.Tidy (max capacity 1) := tidy_follow effect label capacity history
  have inOrder : books.InOrder := inOrder_follow effect label capacity history
  refine ⟨attached, ?_, ?_, ?_, inOrder.accepted_lt, ?_, inOrder.current_eq, ?_, ?_⟩
  · intro act calls
    exact call_takes_newest attached tidy calls
  · intro left right
    rw [Effect.processSample_eq_call, Effect.processSample_eq_call, Effect.call_receiveScript]
  · intro buffer
    rw [Effect.processBlock_eq_call, Effect.processBlock_eq_call, Effect.call_receiveScript]
  · rw [Books.accepted, List.map_append]
    exact inOrder.taken_sublist.trans (List.sublist_append_left _ _)
  · intro act interpreter sends
    rcases Nat.lt_or_eq_of_le tidy.fresh_le with room | full
    · obtain ⟨answer, accepted⟩ := send_accepted attached tidy sends room
      rw [answer]
      exact ⟨⟨nofun, fun full => absurd full (Nat.ne_of_lt room)⟩, nofun, fun _ => ⟨rfl, accepted⟩⟩
    · obtain ⟨answer, refused⟩ := send_refused attached tidy sends full
      rw [answer]
      exact ⟨⟨fun _ => full, fun _ => rfl⟩, fun _ => refused, fun other => absurd rfl other⟩
  · intro source sampleRate cause failed
    exact send_unreadable attached failed sampleRate

/-- The host sets the bypass of the effect. -/
def bypassing : Act :=
  .host ⟨(·.setBypassed true), fun _ => rfl⟩

/-- Two interpreters are sent to a bypassed effect, which processes; two more follow. -/
def overtaking : List Act :=
  [.send .fresh, .send .fresh, .processSample 0.0 0.0, .collect, .send .fresh, bypassing,
    .send .fresh]

theorem newest_accepted_takes_over_twice :
    let traffic := (start .fresh 0 2).follow overtaking
    traffic.books.taken = [2] ∧
      (traffic.after (.processSample 0.0 0.0)).books.current = 4 ∧
      (Act.send .fresh).answer? traffic.channel = some (.error .queueFull) := by
  intro traffic
  have laws := newest_accepted_takes_over .fresh 0 2 overtaking
  refine ⟨rfl, ?_, ?_⟩
  · have newest : traffic.books.fresh.getLast? = some ⟨4, .fresh⟩ := rfl
    have taken := laws.2.1 (.processSample 0.0 0.0) rfl
    rw [newest] at taken
    exact taken.2
  · exact (laws.2.2.2.2.2.2.2.1 (.send .fresh) .fresh rfl).1.2 rfl

end ScriptTraffic

end EffectScript
