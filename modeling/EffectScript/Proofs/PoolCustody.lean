import EffectScript.Proofs.PoolOperations

/-!
# Who holds the buffers of a pool

A buffer of a pool has one holder at a time, and whoever gets it finds it blank.  The holders are
counted on the side, from what was asked and answered alone, and after any sequence of operations
they hold exactly what the pool has marked as lent out.
-/

namespace EffectScript.Audio

/-! ### Blank buffers -/

namespace Buffer

/-- A buffer of a given shape in which every sample is zero. -/
structure IsBlank (channels samples : Nat) (buffer : Buffer) : Prop where
  channels_eq : buffer.channels = channels
  samples_eq : buffer.samples = samples
  matrix_eq : buffer.matrix = List.replicate channels (Array.replicate samples 0.0)

theorem HasRoom.isBlank {buffer : Buffer} (room : buffer.HasRoom) {channels samples : Nat}
    (zeros : buffer.grid = .zeros channels samples) : buffer.IsBlank channels samples where
  channels_eq := congrArg Grid.channels zeros
  samples_eq := congrArg Grid.samples zeros
  matrix_eq := by
    have count : buffer.channels = channels := congrArg Grid.channels zeros
    have row (channel : Nat) : buffer.grid.row channel = Array.replicate samples 0.0 := by
      rw [zeros]
      refine Array.ext (by simp [Grid.row, Grid.zeros]) fun index _ _ => ?_
      simp [Grid.row]
    rw [room.matrix_eq, funext row, count]
    simp

/-- A buffer that is reshaped and cleared is blank. -/
theorem HasRoom.isBlank_clear_resize {buffer : Buffer} (room : buffer.HasRoom)
    (channels samples : Nat) :
    (buffer.resize channels samples).clear.IsBlank channels samples := by
  obtain ⟨channelCount, sampleCount⟩ := buffer.shape_resizeFrom 0 channels samples
  have cleared : (buffer.resize channels samples).Maps (buffer.resize channels samples).clear _ :=
    Edit.maps_clear
  refine (cleared.hasRoom (room.resizeFrom 0 channels samples)).isBlank ?_
  calc
    (buffer.resize channels samples).clear.grid =
        .zeros (buffer.resizeFrom 0 channels samples).channels
          (buffer.resizeFrom 0 channels samples).samples := cleared.grid_eq
    _ = .zeros channels samples := by rw [channelCount, sampleCount]

end Buffer

/-! ### Holders -/

/-- Whoever asks gets a buffer that nobody held, blank and of the wanted shape. -/
theorem Pool.Sound.acquire_some {pool : Pool} (sound : pool.Sound) {channels samples id : Nat}
    (granted : (pool.acquire channels samples).value.1 = some id) :
    ¬pool.Lends id ∧ (pool.acquire channels samples).value.2.Lends id ∧
      ∃ buffer, (pool.acquire channels samples).value.2.get? id = some buffer ∧
        buffer.IsBlank channels samples := by
  obtain ⟨keep, made, outcome⟩ := sound.exists_outcome_acquire channels samples
  have after := outcome.sound sound
  have lends := (sound.lends_acquire channels samples id).mpr (.inl granted)
  rcases sound.acquire_cases channels samples with
    ⟨free, member, unused, value⟩ | ⟨_, value⟩ | ⟨_, _, value⟩
  · rw [value] at granted lends after ⊢
    obtain rfl := Option.some.inj granted
    have inside : free.lend channels samples (pool.requests + 1) ∈
        (pool.lent free.id channels samples).buffers :=
      List.mem_map.mpr ⟨free, member, if_pos rfl⟩
    have found := after.get?_eq inside
    refine ⟨?_, lends, _, found, (sound.hasRoom member).isBlank_clear_resize channels samples⟩
    rintro ⟨pooled, held, same, used⟩
    obtain rfl := sound.eq_of_id_eq held member same
    simp [used] at unused
  · rw [value] at granted lends after ⊢
    obtain rfl := Option.some.inj granted
    refine ⟨?_, lends, _, after.get?_eq (List.mem_append_right _ (List.mem_singleton_self _)),
      (Buffer.hasRoom_zeros channels samples).isBlank_clear_resize channels samples⟩
    rintro ⟨pooled, held, same, _⟩
    exact absurd (sound.id_lt held) (same ▸ Nat.lt_irrefl _)
  · rw [value] at granted
    contradiction

/-- A pool with the numbers that were granted and not yet given back. -/
structure Custody where
  pool : Pool
  held : List Nat

namespace Custody

/-- A pool of which nobody holds anything. -/
def ofCapacity (capacity : Nat) : Custody := ⟨.ofCapacity capacity, []⟩

/-- Carry out an operation; what is held changes by what is asked and answered. -/
def perform (custody : Custody) (operation : Pool.Operation) : Custody where
  pool := operation.apply custody.pool
  held :=
    match operation with
    | .acquire channels samples =>
      (custody.pool.acquire channels samples).value.1.toList ++ custody.held
    | .release id => custody.held.erase id
    | .releaseAll => []
    | _ => custody.held

/-- Carry out operations in turn. -/
def run (custody : Custody) (history : List Pool.Operation) : Custody :=
  history.foldl perform custody

/-- What is held is what the pool lends. -/
structure Accounted (custody : Custody) : Prop where
  sound : custody.pool.Sound
  nodup : custody.held.Nodup
  mem_held (id : Nat) : id ∈ custody.held ↔ custody.pool.Lends id

theorem accounted_ofCapacity (capacity : Nat) : (ofCapacity capacity).Accounted :=
  ⟨Pool.sound_ofCapacity capacity, List.nodup_nil, fun _ => iff_of_false List.not_mem_nil
    (by rintro ⟨_, ⟨⟩, _⟩)⟩

variable {custody : Custody}

theorem Accounted.perform (accounted : custody.Accounted) (operation : Pool.Operation) :
    (custody.perform operation).Accounted := by
  obtain ⟨sound, nodup, mem_held⟩ := accounted
  obtain ⟨keep, made, outcome⟩ := sound.exists_outcome operation
  have after := outcome.sound sound
  cases operation with
  | acquire channels samples =>
    refine ⟨after, ?_, fun id => ?_⟩
    · dsimp only [Custody.perform]
      cases granted : (custody.pool.acquire channels samples).value.1 with
      | none => exact nodup
      | some id =>
        have unheld : id ∉ custody.held := fun held =>
          (sound.acquire_some granted).1 ((mem_held id).mp held)
        exact List.nodup_cons.mpr ⟨unheld, nodup⟩
    · have lends := sound.lends_acquire channels samples id
      rw [← mem_held id, ← Option.mem_toList, ← List.mem_append] at lends
      exact lends.symm
  | release id =>
    refine ⟨after, nodup.erase id, fun other => ?_⟩
    have lends := sound.lends_release id other
    rw [← mem_held other] at lends
    exact nodup.mem_erase_iff.trans lends.symm
  | releaseAll =>
    refine ⟨after, List.nodup_nil, fun id => iff_of_false List.not_mem_nil ?_⟩
    rintro ⟨_, member, _, used⟩
    obtain ⟨pooled, _, rfl⟩ := List.mem_map.mp member
    contradiction
  | preallocate channels samples count =>
    exact ⟨after, nodup, fun id =>
      (mem_held id).trans (custody.pool.lends_preallocate channels samples count id).symm⟩
  | dropFree =>
    exact ⟨after, nodup, fun id => (mem_held id).trans (custody.pool.lends_dropFree id).symm⟩
  | setCapacity maxBuffers => exact ⟨after, nodup, mem_held⟩
  | update id mutation =>
    exact ⟨after, nodup, fun other =>
      (mem_held other).trans (sound.lends_update id other mutation.apply).symm⟩

theorem run_append (custody : Custody) (earlier later : List Pool.Operation) :
    custody.run (earlier ++ later) = (custody.run earlier).run later :=
  List.foldl_append

theorem Accounted.run (accounted : custody.Accounted) (history : List Pool.Operation) :
    (custody.run history).Accounted := by
  induction history generalizing custody with
  | nil => exact accounted
  | cons operation history ih => exact ih (accounted.perform operation)

/-- New numbers only go up. -/
theorem Accounted.nextId_le_run (accounted : custody.Accounted) (history : List Pool.Operation) :
    custody.pool.nextId ≤ (custody.run history).pool.nextId := by
  induction history generalizing custody with
  | nil => exact Nat.le_refl _
  | cons operation history ih =>
    obtain ⟨keep, made, outcome⟩ := accounted.sound.exists_outcome operation
    exact Nat.le_trans outcome.nextId_le (ih (accounted.perform operation))

/-- As many buffers are lent out as are held. -/
theorem Accounted.activeCount_eq (accounted : custody.Accounted) :
    custody.pool.activeCount = custody.held.length := by
  let lent := (custody.pool.buffers.filter PooledBuffer.inUse).map PooledBuffer.id
  have nodup : lent.Nodup := accounted.sound.nodup.sublist (List.filter_sublist.map _)
  have same : lent.Perm custody.held := by
    refine (List.perm_ext_iff_of_nodup nodup accounted.nodup).mpr fun id => ?_
    rw [accounted.mem_held id]
    simp [lent, Pool.Lends, and_assoc, and_comm, and_left_comm]
  rw [← same.length_eq, List.length_map, ← List.countP_eq_length_filter]
  rfl

-- A full pool gives the buffer that it took back to the next one who asks.
example :
    let custody := (ofCapacity 2).run
      [.acquire 1 3, .acquire 2 2, .update 0 (.reshape 4 2 5), .update 0 (.edit (.fill 1 #[7.0])),
        .release 0, .release 0, .acquire 1 4, .acquire 1 1]
    custody.held = [0, 1] ∧ custody.pool.ids = [0, 1] ∧
      (custody.pool.get? 0).map Buffer.matrix = some [#[0.0, 0.0, 0.0, 0.0]] := by
  decide +kernel

end Custody

end EffectScript.Audio
