import EffectScript.Proofs.ScriptTraffic
import Mathlib.Data.List.Nodup
import Mathlib.Data.List.Pairwise

/-!
# Where the interpreters are

The audio side never disposes of an interpreter: whatever it has no use for goes back to the control
side.  It could only fail to do so if the way back were full, and it never is, since whoever sends
has emptied it first, and a call sends back no more than was sent.  So every interpreter is always
in exactly one place, and all that ever came back was either counted by the control side or waits to
be counted.
-/

namespace EffectScript

open Control

/-! ### The way back -/

/-- Whether a move collects what was sent back; sending does so first. -/
def Control.Move.collects {α : Type} : Move α → Bool
  | .send _ | .collect => true
  | .call | .rest => false

namespace Control.Channel

variable {α : Type}

/-- What a call sends back, in this order: the elements passed over, and the one held until then. -/
def returns (channel : Channel α) (held : α) : List α :=
  if channel.ready.isEmpty then [] else channel.ready.dropLast ++ [held]

theorem moved_call (channel : Channel α) (held : α) :
    channel.moved held .call =
      (channel.returns held).foldl retire { channel with ready := [] } := by
  rcases List.eq_nil_or_concat' channel.ready with empty | ⟨older, newest, ready⟩
  · rw [moved, receive_of_nil empty, returns, empty]
    exact congrArg (fun ready => { channel with ready }) empty
  · rw [moved, receive_of_append ready, returns, ready]
    simp

theorem length_returns (channel : Channel α) (held : α) :
    (channel.returns held).length = channel.ready.length := by
  rw [returns]
  cases channel.ready with
  | nil => rfl
  | cons first rest => simp

/-- If nothing waits to be collected, there is room for everything that a call sends back. -/
theorem room_returns {channel : Channel α} (held : α)
    (bounded : channel.ready.length ≤ channel.capacity)
    (oneWay : channel.ready = [] ∨ channel.retired = []) {count : Nat}
    (early : count < (channel.returns held).length) :
    (((channel.returns held).take count).foldl retire { channel with ready := [] }).retired.length <
      channel.capacity := by
  rw [length_returns] at early
  have collected : channel.retired = [] := by
    refine oneWay.resolve_left fun empty => ?_
    rw [empty] at early
    contradiction
  have taken : ((channel.returns held).take count).length = count := by
    rw [List.length_take, length_returns]
    omega
  rw [foldl_retire_of_room (by simp only [collected, taken, List.length_nil]; omega)]
  simp only [collected, List.nil_append, taken]
  omega

end Control.Channel

/-! ### Places -/

/-- Where an interpreter can be. -/
inductive Place where
  | effect
  /-- Sent and not yet taken. -/
  | ready
  /-- Sent back and not yet collected. -/
  | retired
  /-- Disposed of by the control side, which counted it. -/
  | collected
  /-- Disposed of by the control side, since the channel was full. -/
  | refused
  deriving DecidableEq

/-- All places. -/
def Place.all : List Place := [.effect, .ready, .retired, .collected, .refused]

theorem Place.mem_all (place : Place) : place ∈ all := by
  cases place <;> decide

namespace Books

/-- The numbers of the interpreters in a place. -/
def held (books : Books) : Place → List Nat
  | .effect => [books.current]
  | .ready => books.channel.ready.map Numbered.number
  | .retired => books.channel.retired.map Numbered.number
  | .collected => books.collected
  | .refused => books.refused

/-- The numbers in all places. -/
def numbers (books : Books) : List Nat :=
  Place.all.flatMap books.held

/-- The books add up what the control side counts: each time it sends, and each time it collects. -/
theorem released_after (books : Books) (held : Interpreter) (move : Move Interpreter) :
    (books.after held move).released =
      books.released + if move.collects then books.channel.collect.value.1 else 0 := by
  cases move with
  | send | collect | rest => rfl
  | call =>
    rw [after]
    dsimp only
    split <;> rfl

/-- Every number is somewhere, and what came back was counted or waits to be counted. -/
structure Accounted (books : Books) : Prop where
  numbers_perm : books.numbers.Perm (List.range (books.sent + 1))
  length_collected : books.collected.length = books.released
  released_add : books.released + books.channel.retired.length = books.returned

variable {books : Books} {capacity : Nat}

theorem count_numbers (books : Books) (number : Nat) :
    books.numbers.count number =
      [books.current].count number + (books.channel.ready.map Numbered.number).count number +
        (books.channel.retired.map Numbered.number).count number +
        books.collected.count number + books.refused.count number := by
  simp only [numbers, Place.all, held, List.flatMap_cons, List.flatMap_nil, List.append_nil,
    List.count_append]
  omega

theorem accounted_opened (label capacity : Nat) : (opened label capacity).Accounted where
  numbers_perm := .refl _
  length_collected := rfl
  released_add := rfl

theorem Accounted.after (accounted : books.Accounted) (tidy : books.Tidy capacity)
    (held : Interpreter) (move : Move Interpreter) : (books.after held move).Accounted := by
  have places (number : Nat) := List.perm_iff_count.1 accounted.numbers_perm number
  have length := accounted.length_collected
  have balance := accounted.released_add
  simp only [count_numbers] at places
  cases move with
  | send interpreter =>
    rcases Nat.lt_or_eq_of_le tidy.fresh_le with room | full
    · rw [after_send_of_room tidy held interpreter room]
      refine ⟨List.perm_iff_count.2 fun number => ?_, ?_, ?_⟩
      · have before := places number
        rw [tidy.ready_eq] at before
        simp only [count_numbers, List.range_succ (n := books.sent + 1), List.map_append,
          List.map_singleton, List.map_nil, List.count_append, List.count_nil]
        omega
      · simp only [List.length_append, List.length_map, length]
      · simpa using balance
    · rw [after_send_of_full tidy held interpreter full]
      refine ⟨List.perm_iff_count.2 fun number => ?_, ?_, ?_⟩
      · have before := places number
        simp only [count_numbers, List.range_succ (n := books.sent + 1), List.map_nil,
          List.count_append, List.count_nil]
        omega
      · simp only [List.length_append, List.length_map, length]
      · simpa using balance
  | collect =>
    rw [after_collect]
    refine ⟨List.perm_iff_count.2 fun number => ?_, ?_, ?_⟩
    · have before := places number
      simp only [count_numbers, List.map_nil, List.count_append, List.count_nil]
      omega
    · simp only [List.length_append, List.length_map, length]
    · simpa using balance
  | call =>
    rcases List.eq_nil_or_concat' books.fresh with nothing | ⟨older, newest, fresh⟩
    · rw [after_call_of_nil tidy held nothing]
      exact accounted
    · rw [after_call_of_append tidy held fresh]
      have collected : books.channel.retired = [] :=
        tidy.oneWay.resolve_left (by simp [fresh])
      refine ⟨List.perm_iff_count.2 fun number => ?_, length, ?_⟩
      · -- What leaves one queue enters the other, but the newest changes places with the held one.
        have before := places number
        rw [tidy.ready_eq, fresh, collected] at before
        simp only [List.map_append, List.map_singleton, List.map_nil, List.count_append,
          List.count_nil] at before
        simp only [count_numbers, List.map_append, List.map_singleton, List.map_nil,
          List.count_append, List.count_nil]
        omega
      · rw [collected] at balance
        simp only [List.length_append, List.length_singleton, List.length_nil] at balance ⊢
        omega
  | rest => exact accounted

theorem Accounted.nodup (accounted : books.Accounted) : books.numbers.Nodup :=
  accounted.numbers_perm.nodup_iff.2 List.nodup_range

theorem Accounted.mem_iff (accounted : books.Accounted) (number : Nat) :
    (∃ place, number ∈ books.held place) ↔ number ≤ books.sent := by
  rw [← Nat.lt_succ_iff, ← List.mem_range, ← accounted.numbers_perm.mem_iff, numbers,
    List.mem_flatMap]
  exact exists_congr fun place => (and_iff_right place.mem_all).symm

/-- No number is in two places. -/
theorem Accounted.place_eq (accounted : books.Accounted) {number : Nat} {first second : Place}
    (inFirst : number ∈ books.held first) (inSecond : number ∈ books.held second) :
    first = second := by
  have apart := (List.nodup_flatMap.1 accounted.nodup).2
  have symmetric : Std.Symm (Function.onFun List.Disjoint books.held) :=
    ⟨fun _ _ disjoint _ inSecond inFirst => disjoint inFirst inSecond⟩
  by_contra different
  exact apart.forall first.mem_all second.mem_all different inFirst inSecond

end Books

namespace ScriptTraffic

theorem accounted_follow (effect : Effect) (label capacity : Nat) (history : List Act) :
    ((start effect label capacity).follow history).books.Accounted := by
  induction history with
  | nil => exact Books.accounted_opened label capacity
  | cons act earlier ih => exact ih.after (tidy_follow effect label capacity earlier) _ _

/-- Over any history of a channel and the effect at its other end.  A call puts the newest
interpreter that waits into the effect, and every interpreter that it sends back finds room.  The
interpreter that the effect had at the start and every one that was sent is in exactly one place,
once: in the effect, in one of the queues, or disposed of by the control side.  What the control
side has counted, and what waits to be collected, is all that came back. -/
theorem interpreters_in_one_place (effect : Effect) (label capacity : Nat) (history : List Act) :
    let traffic := (start effect label capacity).follow history
    let books := traffic.books
    let returns := traffic.channel.returns traffic.effect.interpreter
    traffic.effect.scripts = some traffic.channel ∧
    (∀ act : Act, act.move = .call →
      (match books.channel.ready.getLast? with
      | some newest =>
        traffic.effect.receiveScript.interpreter =
            newest.interpreter.withTransport traffic.effect.interpreter.context.transport ∧
          (traffic.after act).books.held .effect = [newest.number]
      | none =>
        traffic.effect.receiveScript = traffic.effect ∧
          (traffic.after act).books.held .effect = books.held .effect) ∧
      (traffic.after act).effect.scripts =
          some (returns.foldl Channel.retire { traffic.channel with ready := [] }) ∧
        (traffic.after act).books.returned = books.returned + returns.length) ∧
    (∀ count < returns.length,
      ((returns.take count).foldl Channel.retire
        { traffic.channel with ready := [] }).retired.length < traffic.channel.capacity) ∧
    (∀ act : Act, (traffic.after act).books.released =
      books.released + if act.move.collects then traffic.channel.collect.value.1 else 0) ∧
    (∀ number, number ≤ books.sent ↔ ∃ place, number ∈ books.held place) ∧
    (∀ number ≤ books.sent, ∃! place, number ∈ books.held place) ∧
    (∀ place, (books.held place).Nodup) ∧
    books.collected.length = books.released ∧
    books.released + traffic.channel.retired.length = books.returned := by
  intro traffic books returns
  have attached : traffic.effect.scripts = some traffic.channel :=
    scripts_follow effect label capacity history
  have tidy : books.Tidy (max capacity 1) := tidy_follow effect label capacity history
  have accounted : books.Accounted := accounted_follow effect label capacity history
  have ready : traffic.channel.ready.length = books.fresh.length := by
    rw [channel, Channel.map, tidy.ready_eq, List.length_map]
  refine ⟨attached, ?_, ?_, ?_, fun number => (accounted.mem_iff number).symm, ?_, ?_,
    accounted.length_collected, ?_⟩
  · intro act calls
    refine ⟨?_, ?_, ?_⟩
    · have taken := call_takes_newest attached tidy calls
      rw [tidy.ready_eq]
      split
      next newest last =>
        rw [last] at taken
        exact ⟨taken.1, congrArg ([·]) taken.2⟩
      next nothing =>
        rw [nothing] at taken
        exact ⟨taken.1, congrArg ([·]) taken.2⟩
    · rw [after, Effect.scripts_perform attached, calls, Channel.moved_call]
    · rw [Channel.length_returns, ready, after, calls]
      rcases List.eq_nil_or_concat' books.fresh with nothing | ⟨older, newest, fresh⟩
      · rw [Books.after_call_of_nil tidy _ nothing, nothing]
        rfl
      · rw [Books.after_call_of_append tidy _ fresh, fresh, List.length_append]
        rfl
  · intro count early
    refine Channel.room_returns _ ?_ ?_ early
    · have limit : traffic.channel.capacity = max capacity 1 := tidy.capacity_eq
      rw [ready, limit]
      exact tidy.fresh_le
    · refine tidy.oneWay.imp (fun nothing => ?_) fun collected => ?_
      · exact List.length_eq_zero_iff.1 (by rw [ready, nothing]; rfl)
      · rw [channel, Channel.map, collected, List.map_nil]
  · intro act
    rw [channel, Channel.collect_map]
    exact books.released_after _ _
  · intro number known
    obtain ⟨place, inPlace⟩ := (accounted.mem_iff number).2 known
    exact ⟨place, inPlace, fun other inOther => accounted.place_eq inOther inPlace⟩
  · intro place
    exact (List.nodup_flatMap.1 accounted.nodup).1 place place.mem_all
  · have balance := accounted.released_add
    rwa [channel, Channel.map, List.length_map]

/-- One interpreter is taken over and one is passed over; of three sent later, one is refused. -/
def crowding : List Act :=
  [.send .fresh, .send .fresh, .send .fresh, .processBlock (.zeros 2 4), .send .fresh,
    .send .fresh]

theorem interpreters_in_one_place_crowded :
    let traffic := (start .fresh 0 2).follow crowding
    traffic.books.sent = 5 ∧
      (∀ number ≤ 5, ∃! place, number ∈ traffic.books.held place) ∧
      traffic.books.held .effect = [2] ∧ traffic.books.held .ready = [3, 4] ∧
      traffic.books.held .collected = [1, 0] ∧ traffic.books.held .refused = [5] ∧
      (traffic.after (.processSample 0.0 0.0)).books.returned = 4 := by
  intro traffic
  have laws := interpreters_in_one_place .fresh 0 2 crowding
  exact ⟨rfl, laws.2.2.2.2.2.1, rfl, rfl, rfl, rfl, (laws.2.1 (.processSample 0.0 0.0) rfl).2.2⟩

end ScriptTraffic

end EffectScript
