import EffectScript.Effect.Processor
import EffectScript.Proofs.BlockLayout
import EffectScript.Proofs.PoolCustody

/-!
# Processors play like plain effects

A processor borrows a buffer from its pool for each call and gives it back, so that between calls
nothing is lent out and there is always a buffer to borrow.  Whatever buffer it gets, and whatever
was in it before, the frames leave as a plain effect leaves them in a buffer of its own.
-/

namespace EffectScript

open Audio Script

/-! ### Frames of two arrays -/

namespace Audio.Buffer

variable {left right : Array Float32} {buffer other : Buffer}

/-- A buffer of two channels that holds the frames that two arrays have in common. -/
structure HoldsFrames (left right : Array Float32) (buffer : Buffer) : Prop where
  room : buffer.HasRoom
  channels_eq : buffer.channels = 2
  samples_eq : buffer.samples = min left.size right.size
  matrix_eq : buffer.matrix =
    [left.extract 0 (min left.size right.size), right.extract 0 (min left.size right.size)]

/-- All buffers that hold the same frames stand for the same matrix. -/
theorem HoldsFrames.alike (holds : buffer.HoldsFrames left right)
    (otherHolds : other.HoldsFrames left right) :
    Alike 2 (min left.size right.size) buffer other where
  room := holds.room
  otherRoom := otherHolds.room
  channels_eq := holds.channels_eq
  samples_eq := holds.samples_eq
  grid_eq := holds.room.grid_eq_of_matrix_eq otherHolds.room
    (holds.channels_eq.trans otherHolds.channels_eq.symm)
    (holds.samples_eq.trans otherHolds.samples_eq.symm)
    (holds.matrix_eq.trans otherHolds.matrix_eq.symm)

theorem HasRoom.matrix_eq_pair (room : buffer.HasRoom) (pair : buffer.channels = 2) :
    buffer.matrix = [buffer.grid.row 0, buffer.grid.row 1] := by
  rw [room.matrix_eq, pair]
  rfl

theorem row_eq_extract {channel frames : Nat} (inChannels : channel < buffer.channels)
    (samples : buffer.samples = frames) {values : Array Float32} (long : frames ≤ values.size)
    (held : ∀ index < frames, values[index]? = some (buffer.sample channel index)) :
    buffer.grid.row channel = values.extract 0 frames := by
  refine Array.ext (by simp [Grid.row, samples, long]) fun index before after => ?_
  have inSamples : index < buffer.samples := by simpa [Grid.row] using before
  have inFrames : index < frames := samples ▸ inSamples
  have value := held index inFrames
  rw [Array.getElem?_eq_getElem (Nat.lt_of_lt_of_le inFrames long)] at value
  simp [Grid.row, buffer.get_grid inChannels inSamples, ← Option.some.inj value]

/-- Filling the two channels of a buffer of the right length. -/
theorem HasRoom.holdsFrames_fill (room : buffer.HasRoom) (pair : buffer.channels = 2)
    (samples : buffer.samples = min left.size right.size) :
    ((buffer.fillChannel 0 left).fillChannel 1 right).HoldsFrames left right := by
  have one := room.maps_fillChannel 0 left
  have maps := one.trans ((one.hasRoom room).maps_fillChannel 1 right)
  have filled := maps.hasRoom room
  have channelCount := maps.channels_eq.trans pair
  have sampleCount := maps.samples_eq.trans samples
  refine ⟨filled, channelCount, sampleCount, ?_⟩
  rw [filled.matrix_eq_pair channelCount]
  congr 1
  · refine row_eq_extract (by omega) sampleCount (Nat.min_le_left _ _) fun index inside => ?_
    have bound : index < left.size := by omega
    rw [maps.sample_eq (by omega) (by omega)]
    simp [bound]
  · refine congrArg (fun row => [row]) ?_
    refine row_eq_extract (by omega) sampleCount (Nat.min_le_right _ _) fun index inside => ?_
    have bound : index < right.size := by omega
    rw [maps.sample_eq (by omega) (by omega)]
    simp [bound]

/-- A buffer of its own for the frames that two arrays have in common. -/
def ofFrames (left right : Array Float32) : Buffer :=
  ofChannels
    [left.extract 0 (min left.size right.size), right.extract 0 (min left.size right.size)]

theorem holdsFrames_ofFrames (left right : Array Float32) :
    (ofFrames left right).HoldsFrames left right := by
  let first := left.extract 0 (min left.size right.size)
  let second := right.extract 0 (min left.size right.size)
  have firstSize : first.size = min left.size right.size := by simp [first]
  have secondSize : second.size = min left.size right.size := by simp [second]
  obtain ⟨channels, samples⟩ := empty.shape_resizeFrom 0 2 first.size
  have frames : first.size = min first.size second.size := by
    rw [firstSize, secondSize, Nat.min_self]
  have holds : (ofFrames left right).HoldsFrames first second :=
    (hasRoom_zeros 2 first.size).holdsFrames_fill channels (samples.trans frames)
  refine ⟨holds.room, holds.channels_eq, ?_, ?_⟩
  · rw [holds.samples_eq, ← frames, firstSize]
  · rw [holds.matrix_eq, ← frames, firstSize]
    simp [first, second]

end Audio.Buffer

/-! ### Pools between calls -/

namespace Audio.Pool

/-- A pool of which nothing is lent out, and which is not larger than its capacity. -/
structure Idle (capacity : Nat) (pool : Pool) : Prop where
  sound : pool.Sound
  maxBuffers_eq : pool.maxBuffers = capacity
  length_le : pool.buffers.length ≤ capacity
  free (id : Nat) : ¬pool.Lends id

variable {capacity : Nat} {pool : Pool}

theorem idle_ofCapacity (capacity : Nat) : (ofCapacity capacity).Idle capacity :=
  ⟨sound_ofCapacity capacity, rfl, Nat.zero_le _, by rintro _ ⟨_, ⟨⟩, _⟩⟩

theorem Idle.preallocate (idle : pool.Idle capacity) (channels samples count : Nat) :
    (pool.preallocate channels samples count).Idle capacity := by
  obtain ⟨keep, made, outcome⟩ := pool.exists_outcome_preallocate channels samples count
  refine ⟨outcome.sound idle.sound, ?_, ?_, fun id => ?_⟩
  · rw [Pool.preallocate, growBy_eq]
    exact idle.maxBuffers_eq
  · have bound := idle.length_le
    rw [Pool.preallocate, growBy_eq, idle.maxBuffers_eq]
    simp
    omega
  · rw [lends_preallocate]
    exact idle.free id

theorem Idle.activeCount_eq_zero (idle : pool.Idle capacity) : pool.activeCount = 0 := by
  refine List.countP_eq_zero.mpr fun pooled member used => ?_
  exact idle.free pooled.id ⟨pooled, member, rfl, used⟩

/-- A pool that may hold a buffer at all always has one to lend, and does not outgrow its
capacity. -/
theorem Idle.exists_acquire (idle : pool.Idle capacity) (positive : 0 < capacity)
    (channels samples : Nat) :
    ∃ id after, (pool.acquire channels samples).value = (some id, after) ∧
      after.maxBuffers = capacity ∧ after.buffers.length ≤ capacity := by
  rcases idle.sound.acquire_cases channels samples with
    ⟨free, _, _, value⟩ | ⟨room, value⟩ | ⟨full, used, _⟩
  · refine ⟨_, _, value, idle.maxBuffers_eq, ?_⟩
    rw [lent, List.length_map]
    exact idle.length_le
  · refine ⟨_, _, value, idle.maxBuffers_eq, ?_⟩
    rw [idle.maxBuffers_eq] at room
    rw [List.length_append]
    exact room
  · have some : 0 < pool.buffers.length :=
      Nat.lt_of_lt_of_le positive (idle.maxBuffers_eq ▸ full)
    have member := List.getElem_mem some
    exact absurd ⟨_, member, rfl, used _ member⟩ (idle.free _)

/-- Whatever is put into the borrowed buffer, giving it back leaves nothing lent out. -/
theorem Idle.giveBack (idle : pool.Idle capacity) {channels samples id : Nat} {after : Pool}
    (lent : (pool.acquire channels samples).value = (some id, after))
    (maxBuffers : after.maxBuffers = capacity) (length : after.buffers.length ≤ capacity)
    {buffer : Buffer} (room : buffer.HasRoom) :
    ((after.update id fun _ => buffer).2.release id).2.Idle capacity := by
  obtain ⟨_, _, acquired⟩ := idle.sound.exists_outcome_acquire channels samples
  rw [lent] at acquired
  have borrowed : after.Sound := acquired.sound idle.sound
  obtain ⟨_, _, updated⟩ := borrowed.exists_outcome (.update id ⟨fun _ => buffer, fun _ => room⟩)
  have changed : (after.update id fun _ => buffer).2.Sound := updated.sound borrowed
  obtain ⟨_, _, released⟩ := changed.exists_outcome (.release id)
  refine ⟨released.sound changed, ?_, ?_, fun other => ?_⟩
  · rw [changed.release_snd, borrowed.update_snd]
    exact maxBuffers
  · rw [changed.release_snd, borrowed.update_snd]
    simpa using length
  · have granted := idle.sound.lends_acquire channels samples other
    rw [lent] at granted
    rw [changed.lends_release, borrowed.lends_update, granted]
    rintro ⟨distinct, same | held⟩
    · exact distinct (Option.some.inj same).symm
    · exact idle.free other held

end Audio.Pool

/-! ### Calls -/

namespace Processor

/-- What can be asked of a processor. -/
inductive Call where
  | process (left right : Array Float32)
  | setParameter (index : Nat) (value : Float)
  | setBypassed (bypassed : Bool)

/-- The processor after a call. -/
def after (processor : Processor) : Call → Processor
  | .process left right => (processor.process left right).value.2
  | .setParameter index value => processor.setParameter index value
  | .setBypassed bypassed => processor.setBypassed bypassed

/-- The processor after calls in turn. -/
def run (processor : Processor) (calls : List Call) : Processor :=
  calls.foldl after processor

/-- The plain effect after a call; it gets the frames in a buffer of their own. -/
def plainAfter (effect : Effect) : Call → Effect
  | .process left right => (effect.processBlock (.ofFrames left right)).2
  | .setParameter index value => effect.setParameter index value
  | .setBypassed bypassed => effect.setBypassed bypassed

/-- The plain effect after calls in turn. -/
def plainRun (effect : Effect) (calls : List Call) : Effect :=
  calls.foldl plainAfter effect

/-- The plain effect that runs a script. -/
def plainEffect (script : Script) (sampleRate : Float) : Effect :=
  ((Effect.fresh.loadScript script).value.prepareFor (config sampleRate)).value

theorem ofSource_of_compiled {source : String} {script : Script}
    (compiled : (compile source).value = .ok script) (sampleRate : Float) :
    (ofSource source sampleRate).value =
      .ok ⟨plainEffect script sampleRate, .ofConfig (config sampleRate)⟩ := by
  rw [ofSource, Logged.value_bind, compiled]
  rfl

/-- Processing gives the frames as the effect leaves them in any buffer that holds them, and leaves
the effect as that does, and the pool with nothing lent out. -/
theorem process_eq {processor : Processor} {capacity : Nat} (idle : processor.pool.Idle capacity)
    (positive : 0 < capacity) {left right : Array Float32} {buffer : Buffer}
    (holds : buffer.HoldsFrames left right) :
    ∃ first second, first.size = min left.size right.size ∧
      second.size = min left.size right.size ∧
      (processor.effect.processBlock buffer).1.matrix = [first, second] ∧
      (processor.process left right).value.1 =
        (first ++ left.extract (min left.size right.size) left.size,
          second ++ right.extract (min left.size right.size) right.size) ∧
      (processor.process left right).value.2.effect = (processor.effect.processBlock buffer).2 ∧
      (processor.process left right).value.2.pool.Idle capacity := by
  obtain ⟨id, after, lent, maxBuffers, length⟩ :=
    idle.exists_acquire positive 2 (min left.size right.size)
  obtain ⟨_, _, acquired⟩ := idle.sound.exists_outcome_acquire 2 (min left.size right.size)
  obtain ⟨_, _, borrowed, found, blank⟩ := idle.sound.acquire_some (congrArg Prod.fst lent)
  rw [lent] at found acquired
  have room : borrowed.HasRoom := (acquired.sound idle.sound).hasRoom_of_get? found
  let filled := (borrowed.fillChannel 0 left).fillChannel 1 right
  have filledHolds : filled.HoldsFrames left right :=
    room.holdsFrames_fill blank.channels_eq blank.samples_eq
  let played := processor.effect.processBlock filled
  obtain ⟨blocks, same⟩ : Buffer.Alike 2 (min left.size right.size) played.1
        (processor.effect.processBlock buffer).1 ∧
      played.2 = (processor.effect.processBlock buffer).2 :=
    processor.effect.processBlock_alike (filledHolds.alike holds)
  have value : (processor.process left right).value =
      ((overwrite ((played.1.channel? 0).getD #[]) left,
        overwrite ((played.1.channel? 1).getD #[]) right),
        ⟨played.2, ((after.update id fun _ => played.1).2.release id).2⟩) := by
    simp only [process, Logged.value_bind, lent, found]
    rfl
  have pair : played.1.channels = 2 := blocks.channels_eq
  have size (channel : Nat) : (played.1.grid.row channel).size = min left.size right.size := by
    rw [Grid.row, Array.size_ofFn]
    exact blocks.samples_eq
  refine ⟨played.1.grid.row 0, played.1.grid.row 1, size 0, size 1, ?_, ?_, ?_, ?_⟩
  · rw [blocks.otherRoom.matrix_eq_pair blocks.otherChannels_eq, ← blocks.grid_eq]
  · have channels := blocks.room.channel?_eq
    rw [value, channels, channels, pair]
    simp [overwrite, size]
  · rw [value]
    exact same
  · rw [value]
    exact idle.giveBack lent maxBuffers length blocks.room

/-- A processor and a plain effect in the same state, with nothing lent out between calls. -/
structure PlaysAs (effect : Effect) (capacity : Nat) (processor : Processor) : Prop where
  effect_eq : processor.effect = effect
  idle : processor.pool.Idle capacity

variable {processor : Processor} {effect : Effect} {capacity : Nat}

theorem PlaysAs.after (alike : processor.PlaysAs effect capacity) (positive : 0 < capacity)
    (call : Call) : (processor.after call).PlaysAs (plainAfter effect call) capacity := by
  obtain ⟨rfl, idle⟩ := alike
  cases call with
  | process left right =>
    obtain ⟨_, _, _, _, _, _, same, returned⟩ :=
      process_eq idle positive (Buffer.holdsFrames_ofFrames left right)
    exact ⟨same, returned⟩
  | setParameter index value => exact ⟨rfl, idle⟩
  | setBypassed bypassed => exact ⟨rfl, idle⟩

theorem PlaysAs.run (alike : processor.PlaysAs effect capacity) (positive : 0 < capacity)
    (calls : List Call) : (processor.run calls).PlaysAs (plainRun effect calls) capacity := by
  induction calls generalizing processor effect with
  | nil => exact alike
  | cons call calls ih => exact ih (alike.after positive call)

theorem idle_ofConfig (config : Config) : (Pool.ofConfig config).Idle config.poolCapacity :=
  (Pool.idle_ofCapacity config.poolCapacity).preallocate config.channels config.maxBlockSize 1

/-- Processors play like plain effects.  If a source compiles, a processor runs it, and after any
calls there is a buffer to borrow for the next call.  That call gives the frames that both arrays
have just as the plain effect after the same calls leaves them in whatever buffer of two channels
holds them, and keeps the rest of the arrays.  Between calls nothing is lent out, and there are at
most 32 buffers. -/
theorem ofSource_plays_like_effect {source : String} {script : Script}
    (compiled : (compile source).value = .ok script) (sampleRate : Float) (calls : List Call) :
    ∃ processor, (ofSource source sampleRate).value = .ok processor ∧
      let current := processor.run calls
      let effect := plainRun (plainEffect script sampleRate) calls
      (∀ left right : Array Float32,
        let frames := min left.size right.size
        (current.pool.acquire 2 frames).value.1 ≠ none ∧
        (Buffer.ofFrames left right).HoldsFrames left right ∧
        ∀ buffer : Buffer, buffer.HoldsFrames left right →
          (effect.processBlock buffer).2 = plainAfter effect (.process left right) ∧
          ∃ first second, first.size = frames ∧ second.size = frames ∧
            (effect.processBlock buffer).1.matrix = [first, second] ∧
            (current.process left right).value.1 =
              (first ++ left.extract frames left.size,
                second ++ right.extract frames right.size)) ∧
      current.pool.activeCount = 0 ∧ current.pool.buffers.length ≤ 32 := by
  refine ⟨_, ofSource_of_compiled compiled sampleRate, ?_⟩
  intro current effect
  have positive : 0 < (config sampleRate).poolCapacity := Nat.zero_lt_succ 31
  have start : PlaysAs (plainEffect script sampleRate) (config sampleRate).poolCapacity
      ⟨plainEffect script sampleRate, .ofConfig (config sampleRate)⟩ :=
    ⟨rfl, idle_ofConfig _⟩
  obtain ⟨same, idle⟩ : current.PlaysAs effect (config sampleRate).poolCapacity :=
    start.run positive calls
  refine ⟨fun left right => ?_, idle.activeCount_eq_zero, idle.length_le⟩
  refine ⟨?_, Buffer.holdsFrames_ofFrames left right, fun buffer holds => ⟨?_, ?_⟩⟩
  · obtain ⟨_, _, lent, _⟩ := idle.exists_acquire positive 2 (min left.size right.size)
    rw [lent]
    exact Option.some_ne_none _
  · exact (effect.processBlock_alike (holds.alike (Buffer.holdsFrames_ofFrames left right))).2
  · obtain ⟨first, second, firstSize, secondSize, matrix, frames, _⟩ :=
      process_eq idle positive holds
    exact ⟨first, second, firstSize, secondSize, same ▸ matrix, frames⟩

/-- A source that swaps and scales the sides. -/
def swapSource : String :=
  "slider1:0.5<0,1>Amount\n@sample\nheld = spl0;\nspl0 = spl1 * slider1;\nspl1 = held;\n"

/-- Arrays of different lengths, after calls with and without frames. -/
theorem ofSource_plays_like_effect_swapped :
    ∃ script, (compile swapSource).value = .ok script ∧
      ∃ processor, (ofSource swapSource 44100.0).value = .ok processor ∧
        let calls : List Call :=
          [.process #[1.0] #[2.0, 3.0], .setParameter 0 0.25, .process #[] #[4.0],
            .setBypassed true, .process #[5.0, 6.0] #[7.0, 8.0], .setBypassed false]
        let current := processor.run calls
        let effect := plainRun (plainEffect script 44100.0) calls
        (∃ first second, first.size = 2 ∧ second.size = 2 ∧
          (effect.processBlock (.ofFrames #[1.0, 2.0] #[3.0, 4.0, 5.0])).1.matrix =
            [first, second] ∧
          (current.process #[1.0, 2.0] #[3.0, 4.0, 5.0]).value.1 =
            (first ++ #[], second ++ #[5.0])) ∧
        current.pool.activeCount = 0 ∧ current.pool.buffers.length ≤ 32 := by
  have accepted : (compile swapSource).value.toOption.isSome = true := by decide +kernel
  cases compiled : (compile swapSource).value with
  | error cause => simp [compiled, Except.toOption] at accepted
  | ok script =>
    obtain ⟨processor, made, plays, idle⟩ := ofSource_plays_like_effect compiled 44100.0
      [.process #[1.0] #[2.0, 3.0], .setParameter 0 0.25, .process #[] #[4.0],
        .setBypassed true, .process #[5.0, 6.0] #[7.0, 8.0], .setBypassed false]
    obtain ⟨_, holds, outputs⟩ := plays #[1.0, 2.0] #[3.0, 4.0, 5.0]
    exact ⟨script, rfl, processor, made, (outputs _ holds).2, idle⟩

end Processor

end EffectScript
