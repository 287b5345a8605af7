import EffectScript.Proofs.PoolCustody

/-!
# Which buffer a pool lends

A request is met by the first free buffer of the wanted shape, else by a new buffer if there is
room, else by the free buffer that was used longest ago.  When a buffer was used is read off the
history of operations and their answers alone; the marks that the pool keeps agree with it after any
history.
-/

namespace EffectScript.Audio

theorem Buffer.grid_zeros (channels samples : Nat) :
    (Buffer.zeros channels samples).grid = .zeros channels samples := by
  rw [Buffer.zeros, Buffer.resize, Buffer.grid_resizeFrom]
  split
  · rename_i same
    obtain ⟨rfl, rfl⟩ := same
    exact Grid.ext_get rfl rfl fun _ none => absurd none (Nat.not_lt_zero _)
  · rfl

/-! ### The free buffer used longest ago -/

namespace PooledBuffer

/-- Numbers of channels and samples. -/
def shape (pooled : PooledBuffer) : Nat × Nat :=
  (pooled.buffer.channels, pooled.buffer.samples)

/-- A buffer that is not lent out and has the wanted shape. -/
def IsFreeOf (pooled : PooledBuffer) (channels samples : Nat) : Prop :=
  pooled.inUse = false ∧ pooled.shape = (channels, samples)

instance (pooled : PooledBuffer) (channels samples : Nat) :
    Decidable (pooled.IsFreeOf channels samples) :=
  inferInstanceAs (Decidable (_ ∧ _))

theorem fits_iff (pooled : PooledBuffer) (channels samples : Nat) :
    pooled.fits channels samples = true ↔ pooled.IsFreeOf channels samples := by
  simp [fits, IsFreeOf, shape, and_assoc]

theorem shape_lend (pooled : PooledBuffer) (channels samples request : Nat) :
    (pooled.lend channels samples request).shape = (channels, samples) := by
  obtain ⟨channelCount, sampleCount⟩ := pooled.buffer.shape_resizeFrom 0 channels samples
  exact Prod.ext channelCount sampleCount

end PooledBuffer

namespace Pool

/-- The first of two places is to be preferred: its buffer was lent earlier, or at the same request
and it is in front. -/
def Precedes (first second : PooledBuffer × Nat) : Prop :=
  first.1.lastUsed < second.1.lastUsed ∨
    first.1.lastUsed = second.1.lastUsed ∧ first.2 ≤ second.2

theorem Precedes.refl (entry : PooledBuffer × Nat) : Precedes entry entry :=
  .inr ⟨rfl, Nat.le_refl _⟩

theorem Precedes.trans {first second third : PooledBuffer × Nat} (left : Precedes first second)
    (right : Precedes second third) : Precedes first third := by
  unfold Precedes at *
  omega

/-- Of entries in the order of their places, the fold finds the one to be preferred. -/
theorem foldl_older_precedes (entries : List (PooledBuffer × Nat)) (first : PooledBuffer × Nat)
    (ordered : (first :: entries).Pairwise (·.2 < ·.2)) :
    ∀ entry ∈ first :: entries, Precedes
      (entries.foldl
        (fun best entry => if entry.1.lastUsed < best.1.lastUsed then entry else best) first)
      entry := by
  induction entries generalizing first with
  | nil =>
    intro entry member
    obtain rfl := List.mem_singleton.mp member
    exact .refl entry
  | cons second entries ih =>
    obtain ⟨before, orderedRest⟩ := List.pairwise_cons.mp ordered
    obtain ⟨_, orderedLast⟩ := List.pairwise_cons.mp orderedRest
    rw [List.foldl_cons]
    split
    · rename_i older
      have best := ih second orderedRest
      intro entry member
      rcases List.mem_cons.mp member with rfl | later
      · exact (best second List.mem_cons_self).trans (.inl older)
      · exact best entry later
    · rename_i notOlder
      have orderedFirst : (first :: entries).Pairwise (·.2 < ·.2) :=
        List.pairwise_cons.mpr
          ⟨fun entry member => before entry (List.mem_cons_of_mem _ member), orderedLast⟩
      have best := ih first orderedFirst
      intro entry member
      rcases List.mem_cons.mp member with rfl | later
      · exact best entry List.mem_cons_self
      rcases List.mem_cons.mp later with rfl | last
      · have inFront := before entry List.mem_cons_self
        refine (best first List.mem_cons_self).trans ?_
        unfold Precedes
        omega
      · exact best entry (List.mem_cons_of_mem _ last)

theorem oldestFree?_precedes {buffers : List PooledBuffer} {place : Nat}
    (oldest : oldestFree? buffers = some place) :
    ∃ victim, buffers[place]? = some victim ∧ victim.inUse = false ∧
      ∀ (other : Nat) (free : PooledBuffer), buffers[other]? = some free → free.inUse = false →
        Precedes (victim, place) (free, other) := by
  unfold oldestFree? at oldest
  dsimp only at oldest
  split at oldest
  · contradiction
  · rename_i first rest free
    have ordered : (first :: rest).Pairwise (·.2 < ·.2) := by
      rw [← free]
      refine List.Pairwise.filter _ (List.pairwise_map.mp ?_)
      rw [List.zipIdx_map_snd]
      exact List.pairwise_lt_range'
    have member := foldl_older_mem rest first
    have best := foldl_older_precedes rest first ordered
    generalize rest.foldl
      (fun best entry => if entry.1.lastUsed < best.1.lastUsed then entry else best) first =
        chosen at oldest member best
    obtain rfl := Option.some.inj oldest
    rw [← free] at member best
    obtain ⟨inside, unused⟩ := List.mem_filter.mp member
    refine ⟨chosen.1, List.mem_zipIdx_iff_getElem?.mp inside, by simpa using unused,
      fun other candidate found notUsed => ?_⟩
    have listed : (candidate, other) ∈ buffers.zipIdx := List.mem_zipIdx_iff_getElem?.mpr found
    exact best _ (List.mem_filter.mpr ⟨listed, by simpa using notUsed⟩)

/-! ### Requests -/

/-- The pool after lending out the buffer at a place. -/
def lending (pool : Pool) (place : Nat) (pooled : PooledBuffer) (channels samples : Nat) : Pool :=
  { pool with
    buffers := pool.buffers.set place (pooled.lend channels samples (pool.requests + 1))
    requests := pool.requests + 1 }

/-- What a request does: it lends the first free buffer of the wanted shape; where there is none, a
new buffer if there is room, and otherwise the free buffer to be preferred, if any is free. -/
theorem acquire_by_place (pool : Pool) (channels samples : Nat) :
    (∃ place first, pool.buffers[place]? = some first ∧ first.IsFreeOf channels samples ∧
      (∀ earlier < place, ∀ other, pool.buffers[earlier]? = some other →
        ¬other.IsFreeOf channels samples) ∧
      (pool.acquire channels samples).value =
        (some first.id, pool.lending place first channels samples)) ∨
    (∀ pooled ∈ pool.buffers, ¬pooled.IsFreeOf channels samples) ∧
      ((pool.buffers.length < pool.maxBuffers ∧
        (pool.acquire channels samples).value =
          (some pool.nextId, { pool with
            buffers := pool.buffers ++
              [(pool.newBuffer channels samples).lend channels samples (pool.requests + 1)]
            nextId := pool.nextId + 1
            requests := pool.requests + 1 })) ∨
      pool.maxBuffers ≤ pool.buffers.length ∧
        ((∃ place victim, pool.buffers[place]? = some victim ∧ victim.inUse = false ∧
          (∀ (other : Nat) (free : PooledBuffer), pool.buffers[other]? = some free →
            free.inUse = false → Precedes (victim, place) (free, other)) ∧
          (pool.acquire channels samples).value =
            (some victim.id, pool.lending place victim channels samples)) ∨
        (∀ pooled ∈ pool.buffers, pooled.inUse = true) ∧
          (pool.acquire channels samples).value =
            (none, { pool with requests := pool.requests + 1 }))) := by
  have reuse {place : Nat} {free : PooledBuffer} (found : pool.buffers[place]? = some free) :
      (pool.buffers[place]?.map PooledBuffer.id,
        lendAt { pool with requests := pool.requests + 1 } place channels samples) =
          (some free.id, pool.lending place free channels samples) := by
    rw [lendAt, List.modify_eq_set_getElem?, found]
    rfl
  unfold acquire
  dsimp only
  split
  · rename_i place found
    obtain ⟨bound, fits, first⟩ := List.findIdx?_eq_some_iff_getElem.mp found
    have here := List.getElem?_eq_getElem bound
    refine .inl ⟨place, _, here, (PooledBuffer.fits_iff _ _ _).mp fits,
      fun earlier before other atEarlier free => first earlier before ?_, reuse here⟩
    obtain ⟨_, rfl⟩ := List.getElem?_eq_some_iff.mp atEarlier
    exact (PooledBuffer.fits_iff _ _ _).mpr free
  · rename_i none
    refine .inr ⟨fun pooled member free => ?_, ?_⟩
    · have misfit := List.findIdx?_eq_none_iff.mp none pooled member
      rw [(PooledBuffer.fits_iff _ _ _).mpr free] at misfit
      contradiction
    split
    · rename_i room
      refine .inl ⟨room, ?_⟩
      simp [lendAt, grow, newBuffer, PooledBuffer.lend, List.modify_eq_take_drop]
    · rename_i full
      refine .inr ⟨Nat.le_of_not_lt full, ?_⟩
      split
      · rename_i place oldest
        obtain ⟨victim, found, unused, precedes⟩ := oldestFree?_precedes oldest
        exact .inl ⟨place, victim, found, unused, precedes, reuse found⟩
      · rename_i none
        exact .inr ⟨fun _ => oldestFree?_none none, rfl⟩

/-! ### Histories -/

/-- Whether an operation is a request. -/
def Operation.isRequest : Operation → Bool
  | .acquire _ _ => true
  | _ => false

/-- The number that an operation gives to whoever asked. -/
def Operation.answer? (pool : Pool) : Operation → Option Nat
  | .acquire channels samples => (pool.acquire channels samples).value.1
  | _ => none

/-- The pool after a history, which has what was done last in front. -/
def after (capacity : Nat) : List Operation → Pool
  | [] => ofCapacity capacity
  | operation :: earlier => operation.apply (after capacity earlier)

/-- Number of requests in a history. -/
def requestCount (history : List Operation) : Nat :=
  history.countP Operation.isRequest

/-- An operation hands out the buffer with a number. -/
def HandsOut (id : Nat) (pool : Pool) (operation : Operation) : Prop :=
  operation.answer? pool = some id

/-- An operation puts a buffer with a number into the pool. -/
def Creates (id : Nat) (pool : Pool) (operation : Operation) : Prop :=
  id ∉ pool.ids ∧ id ∈ (operation.apply pool).ids

instance (id : Nat) (pool : Pool) (operation : Operation) :
    Decidable (HandsOut id pool operation) :=
  inferInstanceAs (Decidable (_ = _))

instance (id : Nat) (pool : Pool) (operation : Operation) :
    Decidable (Creates id pool operation) :=
  inferInstanceAs (Decidable (_ ∧ _))

/-- How many requests had been made when something happened for the last time. -/
def lastMoment? (capacity : Nat) (happens : Pool → Operation → Prop)
    [∀ pool operation, Decidable (happens pool operation)] : List Operation → Option Nat
  | [] => none
  | operation :: earlier =>
    if happens (after capacity earlier) operation then some (requestCount (operation :: earlier))
    else lastMoment? capacity happens earlier

/-- How many requests had been made when a buffer was handed out for the last time, or when it was
created, if it never was. -/
def lastUse? (capacity : Nat) (history : List Operation) (id : Nat) : Option Nat :=
  (lastMoment? capacity (HandsOut id) history).or (lastMoment? capacity (Creates id) history)

theorem sound_after (capacity : Nat) (history : List Operation) :
    (after capacity history).Sound := by
  induction history with
  | nil => exact sound_ofCapacity capacity
  | cons operation earlier ih =>
    obtain ⟨keep, made, outcome⟩ := ih.exists_outcome operation
    exact outcome.sound ih

theorem requests_apply (pool : Pool) (operation : Operation) :
    (operation.apply pool).requests =
      pool.requests + if operation.isRequest = true then 1 else 0 := by
  cases operation with
  | acquire channels samples =>
    rcases pool.acquire_by_place channels samples with
      ⟨_, _, _, _, _, value⟩ | ⟨_, ⟨_, value⟩ | ⟨_, ⟨_, _, _, _, _, value⟩ | ⟨_, value⟩⟩⟩ <;>
      exact congrArg (fun outcome => outcome.2.requests) value
  | release id =>
    dsimp only [Operation.apply]
    unfold release
    split <;> rfl
  | preallocate channels samples count =>
    dsimp only [Operation.apply]
    rw [preallocate, growBy_eq]
    rfl
  | update id mutation =>
    dsimp only [Operation.apply]
    unfold update
    split <;> rfl
  | releaseAll | dropFree | setCapacity => rfl

/-- The pool counts its requests. -/
theorem requests_after (capacity : Nat) (history : List Operation) :
    (after capacity history).requests = requestCount history := by
  induction history with
  | nil => rfl
  | cons operation earlier ih =>
    rw [after, requests_apply, ih, requestCount, requestCount, List.countP_cons]

/-- What an operation does to the mark of a buffer: it sets it to the number of requests if it hands
the buffer out or creates it, and leaves it otherwise. -/
theorem Sound.lastUsed_apply {pool : Pool} (sound : pool.Sound) (operation : Operation)
    {pooled : PooledBuffer} (member : pooled ∈ (operation.apply pool).buffers) :
    (HandsOut pooled.id pool operation ∧ pooled.lastUsed = (operation.apply pool).requests) ∨
    ¬HandsOut pooled.id pool operation ∧
      ((pooled.id ∉ pool.ids ∧ pooled.lastUsed = (operation.apply pool).requests) ∨
      ∃ old ∈ pool.buffers, old.id = pooled.id ∧ old.lastUsed = pooled.lastUsed) := by
  have kept {old : PooledBuffer} (inside : old ∈ pool.buffers) (id_eq : old.id = pooled.id)
      (lastUsed_eq : old.lastUsed = pooled.lastUsed) :
      ∃ old ∈ pool.buffers, old.id = pooled.id ∧ old.lastUsed = pooled.lastUsed :=
    ⟨old, inside, id_eq, lastUsed_eq⟩
  have silent (none : operation.answer? pool = none) : ¬HandsOut pooled.id pool operation := by
    simp [HandsOut, none]
  cases operation with
  | acquire channels samples =>
    simp only [HandsOut, Operation.answer?, Operation.apply] at member ⊢
    rcases sound.acquire_cases channels samples with
      ⟨free, inside, _, value⟩ | ⟨_, value⟩ | ⟨_, _, value⟩ <;> rw [value] at member ⊢
    · obtain ⟨old, listed, rfl⟩ := List.mem_map.mp member
      by_cases same : old.id = free.id
      · rw [if_pos same]
        exact .inl ⟨congrArg some same.symm, rfl⟩
      · rw [if_neg same]
        exact .inr ⟨fun answer => same (Option.some.inj answer).symm, .inr ⟨old, listed, rfl, rfl⟩⟩
    · rcases List.mem_append.mp member with old | new
      · have below := sound.id_lt old
        exact .inr ⟨fun answer => Nat.ne_of_gt below (Option.some.inj answer),
          .inr (kept old rfl rfl)⟩
      · obtain rfl := List.mem_singleton.mp new
        exact .inl ⟨rfl, rfl⟩
    · exact .inr ⟨fun answer => Option.some_ne_none _ answer.symm, .inr (kept member rfl rfl)⟩
  | release id =>
    rw [Operation.apply, sound.release_snd id] at member
    obtain ⟨old, listed, rfl⟩ := List.mem_map.mp member
    refine .inr ⟨silent rfl, .inr (kept listed ?_ ?_)⟩ <;> split <;> rfl
  | releaseAll =>
    obtain ⟨old, listed, rfl⟩ := List.mem_map.mp member
    exact .inr ⟨silent rfl, .inr (kept listed rfl rfl)⟩
  | preallocate channels samples count =>
    simp only [Operation.apply] at member ⊢
    rw [preallocate, growBy_eq] at member ⊢
    refine .inr ⟨silent rfl, ?_⟩
    rcases List.mem_append.mp member with old | new
    · exact .inr (kept old rfl rfl)
    · obtain ⟨id, listed, rfl⟩ := List.mem_map.mp new
      refine .inl ⟨fun known => ?_, rfl⟩
      obtain ⟨old, inside, same⟩ := List.mem_map.mp known
      have below := sound.id_lt inside
      have above := (List.mem_range'_1.mp listed).1
      simp only at same
      omega
  | dropFree =>
    exact .inr ⟨silent rfl, .inr (kept (List.mem_filter.mp member).1 rfl rfl)⟩
  | setCapacity maxBuffers => exact .inr ⟨silent rfl, .inr (kept member rfl rfl)⟩
  | update id mutation =>
    rw [Operation.apply, sound.update_snd id mutation.apply] at member
    obtain ⟨old, listed, rfl⟩ := List.mem_map.mp member
    refine .inr ⟨silent rfl, .inr (kept listed ?_ ?_)⟩ <;> split <;> rfl

/-- What is handed out is in the pool, under a number given before. -/
theorem Sound.lt_nextId_of_handsOut {pool : Pool} (sound : pool.Sound) {operation : Operation}
    {id : Nat} (hands : HandsOut id pool operation) : id < (operation.apply pool).nextId := by
  obtain ⟨keep, made, outcome⟩ := sound.exists_outcome operation
  cases operation with
  | acquire channels samples =>
    obtain ⟨pooled, member, rfl, _⟩ := (sound.acquire_some hands).2.1
    exact (outcome.sound sound).id_lt member
  | _ => contradiction

/-- A number that was not given before was never handed out. -/
theorem lt_nextId_of_lastMoment? {capacity id moment : Nat} {history : List Operation}
    (handed : lastMoment? capacity (HandsOut id) history = some moment) :
    id < (after capacity history).nextId := by
  induction history with
  | nil => contradiction
  | cons operation earlier ih =>
    have sound := sound_after capacity earlier
    obtain ⟨keep, made, outcome⟩ := sound.exists_outcome operation
    rw [lastMoment?] at handed
    split at handed
    · rename_i hands
      exact sound.lt_nextId_of_handsOut hands
    · exact Nat.lt_of_lt_of_le (ih handed) outcome.nextId_le

/-- The marks of the pool agree with the history. -/
theorem lastUse?_eq {capacity : Nat} {history : List Operation} {pooled : PooledBuffer}
    (member : pooled ∈ (after capacity history).buffers) :
    lastUse? capacity history pooled.id = some pooled.lastUsed := by
  induction history generalizing pooled with
  | nil => contradiction
  | cons operation earlier ih =>
    have sound := sound_after capacity earlier
    have count := requests_after capacity (operation :: earlier)
    have appears : pooled.id ∈ (operation.apply (after capacity earlier)).ids :=
      List.mem_map_of_mem member
    rw [after] at member count
    rw [lastUse?, lastMoment?, lastMoment?]
    rcases sound.lastUsed_apply operation member with
      ⟨hands, mark⟩ | ⟨idle, ⟨absent, mark⟩ | ⟨old, inside, same, mark⟩⟩
    · rw [if_pos hands, mark, count]
      rfl
    · have never : lastMoment? capacity (HandsOut pooled.id) earlier = none := by
        by_contra handed
        obtain ⟨moment, handed⟩ := Option.ne_none_iff_exists'.mp handed
        obtain ⟨keep, made, outcome⟩ := sound.exists_outcome operation
        exact Nat.not_lt_of_le (outcome.nextId_le_of_appears appears absent)
          (lt_nextId_of_lastMoment? handed)
      rw [if_neg idle, never, if_pos ⟨absent, appears⟩, mark, count]
      rfl
    · have known : pooled.id ∈ (after capacity earlier).ids := same ▸ List.mem_map_of_mem inside
      rw [if_neg idle, if_neg fun creates => creates.1 known, ← same, ← mark]
      exact ih inside

/-! ### The policy -/

theorem acquire_eq_none_iff (pool : Pool) (channels samples : Nat) :
    (pool.acquire channels samples).value.1 = none ↔
      (∀ pooled ∈ pool.buffers, pooled.inUse = true) ∧
        pool.maxBuffers ≤ pool.buffers.length := by
  have notAllUsed {place : Nat} {pooled : PooledBuffer} (found : pool.buffers[place]? = some pooled)
      (unused : pooled.inUse = false) : ¬∀ pooled ∈ pool.buffers, pooled.inUse = true := by
    intro used
    simpa [unused] using used pooled (List.mem_of_getElem? found)
  rcases pool.acquire_by_place channels samples with
    ⟨_, _, found, free, _, value⟩ | ⟨_, ⟨room, value⟩ | ⟨full, ⟨_, _, found, unused, _, value⟩ |
      ⟨used, value⟩⟩⟩ <;> rw [value]
  · exact iff_of_false nofun fun refused => notAllUsed found free.1 refused.1
  · exact iff_of_false nofun fun refused => Nat.not_lt_of_le refused.2 room
  · exact iff_of_false nofun fun refused => notAllUsed found unused refused.1
  · exact iff_of_true rfl ⟨used, full⟩

/-- The buffer at a place is handed out: it is lent under its number, blank and of the wanted shape,
and the buffers at all other places stay as they are. -/
structure HandsOutBlank (before after : Pool) (place channels samples : Nat) : Prop where
  lent : ∃ old new, before.buffers[place]? = some old ∧ after.buffers[place]? = some new ∧
    new.id = old.id ∧ new.inUse = true ∧ new.buffer.IsBlank channels samples
  others (other : Nat) : other ≠ place → after.buffers[other]? = before.buffers[other]?

theorem Sound.handsOutBlank_lending {pool : Pool} (sound : pool.Sound) {place : Nat}
    {pooled : PooledBuffer} (found : pool.buffers[place]? = some pooled) (channels samples : Nat) :
    HandsOutBlank pool (pool.lending place pooled channels samples) place channels samples where
  lent := by
    obtain ⟨inside, _⟩ := List.getElem?_eq_some_iff.mp found
    have room := sound.hasRoom (List.mem_of_getElem? found)
    exact ⟨pooled, _, found, List.getElem?_set_self inside, rfl, rfl,
      room.isBlank_clear_resize channels samples⟩
  others _ apart := List.getElem?_set_ne apart.symm

/-- Lending a buffer of the wanted shape changes no number and no shape. -/
theorem shapes_lending {pool : Pool} {place : Nat} {pooled : PooledBuffer}
    (found : pool.buffers[place]? = some pooled) {channels samples : Nat}
    (fits : pooled.shape = (channels, samples)) :
    (pool.lending place pooled channels samples).buffers.map
        (fun pooled => (pooled.id, pooled.shape)) =
      pool.buffers.map fun pooled => (pooled.id, pooled.shape) := by
  have unchanged : pool.buffers.set place pooled = pool.buffers := by
    obtain ⟨bound, rfl⟩ := List.getElem?_eq_some_iff.mp found
    exact List.set_getElem_self bound
  rw [lending, List.map_set, PooledBuffer.shape_lend, ← fits]
  conv_rhs => rw [← unchanged, List.map_set]
  rfl

theorem acquire_of_free {pool : Pool} {channels samples : Nat}
    (free : ∃ pooled ∈ pool.buffers, pooled.IsFreeOf channels samples) :
    ∃ place first, pool.buffers[place]? = some first ∧ first.IsFreeOf channels samples ∧
      (∀ earlier < place, ∀ other, pool.buffers[earlier]? = some other →
        ¬other.IsFreeOf channels samples) ∧
      (pool.acquire channels samples).value =
        (some first.id, pool.lending place first channels samples) := by
  obtain ⟨pooled, member, isFree⟩ := free
  rcases pool.acquire_by_place channels samples with found | ⟨none, _⟩
  · exact found
  · exact absurd isFree (none pooled member)

theorem Sound.acquire_of_room {pool : Pool} (sound : pool.Sound) {channels samples : Nat}
    (none : ∀ pooled ∈ pool.buffers, ¬pooled.IsFreeOf channels samples)
    (room : pool.buffers.length < pool.maxBuffers) :
    ∃ made : PooledBuffer, made.inUse = true ∧ made.buffer.IsBlank channels samples ∧
      made.id ∉ pool.ids ∧ (pool.acquire channels samples).value.1 = some made.id ∧
      (pool.acquire channels samples).value.2.buffers = pool.buffers ++ [made] := by
  rcases pool.acquire_by_place channels samples with
    ⟨_, first, found, free, _⟩ | ⟨_, ⟨_, value⟩ | ⟨full, _⟩⟩
  · exact absurd free (none first (List.mem_of_getElem? found))
  · refine ⟨(pool.newBuffer channels samples).lend channels samples (pool.requests + 1), rfl,
      (Buffer.hasRoom_zeros channels samples).isBlank_clear_resize channels samples, ?_, ?_⟩
    · intro known
      obtain ⟨old, inside, same⟩ := List.mem_map.mp known
      exact Nat.ne_of_lt (sound.id_lt inside) same
    · rw [value]
      exact ⟨rfl, rfl⟩
  · exact absurd room (Nat.not_lt_of_le full)

theorem acquire_of_full {pool : Pool} {channels samples : Nat}
    (none : ∀ pooled ∈ pool.buffers, ¬pooled.IsFreeOf channels samples)
    (full : pool.maxBuffers ≤ pool.buffers.length)
    (unused : ∃ pooled ∈ pool.buffers, pooled.inUse = false) :
    ∃ place victim, pool.buffers[place]? = some victim ∧ victim.inUse = false ∧
      victim.shape ≠ (channels, samples) ∧
      (pool.acquire channels samples).value =
        (some victim.id, pool.lending place victim channels samples) ∧
      ∀ (other : Nat) (free : PooledBuffer), pool.buffers[other]? = some free →
        free.inUse = false → Precedes (victim, place) (free, other) := by
  obtain ⟨pooled, member, notUsed⟩ := unused
  rcases pool.acquire_by_place channels samples with
    ⟨_, first, found, free, _⟩ | ⟨_, ⟨room, _⟩ | ⟨_, ⟨place, victim, found, free, precedes, value⟩ |
      ⟨used, _⟩⟩⟩
  · exact absurd free (none first (List.mem_of_getElem? found))
  · exact absurd room (Nat.not_lt_of_le full)
  · exact ⟨place, victim, found, free,
      fun same => none victim (List.mem_of_getElem? found) ⟨free, same⟩, value, precedes⟩
  · have isUsed := used pooled member
    simp [notUsed] at isUsed

theorem acquire_of_refused {pool : Pool} {channels samples : Nat}
    (refused : (pool.acquire channels samples).value.1 = none) :
    (pool.acquire channels samples).value.2.buffers = pool.buffers := by
  rcases pool.acquire_by_place channels samples with
    ⟨_, _, _, _, _, value⟩ | ⟨_, ⟨_, value⟩ | ⟨_, ⟨_, _, _, _, _, value⟩ | ⟨_, value⟩⟩⟩ <;>
    rw [value] at refused ⊢ <;> contradiction

/-- Making buffers ahead puts free blank ones behind the others, as many as there is room for. -/
theorem exists_preallocate_eq (pool : Pool) (channels samples count : Nat) :
    ∃ made, (pool.preallocate channels samples count).buffers = pool.buffers ++ made ∧
      made.length = min count (pool.maxBuffers - pool.buffers.length) ∧
      ∀ new ∈ made, new.inUse = false ∧ new.buffer.IsBlank channels samples := by
  rw [preallocate, growBy_eq]
  refine ⟨_, rfl, by simp, fun new made => ?_⟩
  obtain ⟨id, _, rfl⟩ := List.mem_map.mp made
  exact ⟨rfl, (Buffer.hasRoom_zeros channels samples).isBlank (Buffer.grid_zeros _ _)⟩

/-- Two buffers that were given back, of which the first in the pool was lent again later. -/
def restedHistory : List Operation :=
  [.release 0, .acquire 1 2, .release 0, .release 1, .acquire 1 3, .acquire 1 2]

end Pool

end EffectScript.Audio
