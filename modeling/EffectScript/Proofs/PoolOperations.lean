import EffectScript.Audio.Pool
import EffectScript.Proofs.BufferEdits
import Mathlib.Data.List.Nodup

/-!
# Operations on pools

An operation on a pool leaves each buffer in its place under its number, or drops it if it is free,
and puts new buffers under new numbers behind the others.  `Outcome` says this once for all
operations, and what every operation preserves follows from it: distinct numbers, room for the
samples, and the contents of whatever is lent out.
-/

namespace EffectScript.Audio

/-- With distinct keys, changing the element at a place changes the element with its key. -/
theorem modify_eq_map_of_nodup {α β : Type} [DecidableEq β] {key : α → β} {elements : List α}
    (nodup : (elements.map key).Nodup) {place : Nat} {element : α}
    (found : elements[place]? = some element) (change : α → α) :
    elements.modify place change =
      elements.map fun other => if key other = key element then change other else other := by
  obtain ⟨bound, rfl⟩ := List.getElem?_eq_some_iff.mp found
  refine List.ext_getElem (by simp) fun position before _ => ?_
  have inside : position < elements.length := by simpa using before
  have same : key elements[position] = key elements[place] ↔ position = place := by
    have placed : place < (elements.map key).length := by simpa using bound
    have positioned : position < (elements.map key).length := by simpa using inside
    have distinct : (elements.map key)[position] = (elements.map key)[place] ↔ position = place :=
      nodup.getElem_inj_iff
    simpa using distinct
  rw [List.getElem_modify, List.getElem_map]
  by_cases here : place = position
  · subst here
    simp
  · rw [if_neg here, if_neg fun equal => here (same.mp equal).symm]

/-! ### Operations -/

/-- A change of a buffer that keeps room for its samples, as all operations on buffers do. -/
structure Buffer.Mutation where
  apply : Buffer → Buffer
  hasRoom {buffer : Buffer} : buffer.HasRoom → (apply buffer).HasRoom

namespace Buffer.Mutation

/-- An operation that keeps the shape. -/
def edit (edit : Edit) : Mutation :=
  ⟨edit.apply, fun room => (Edit.maps_apply room edit).hasRoom room⟩

/-- A change of shape. -/
def reshape (lead channels samples : Nat) : Mutation :=
  ⟨(·.resizeFrom lead channels samples), fun room => room.resizeFrom lead channels samples⟩

end Buffer.Mutation

namespace Pool

/-- An operation on a pool. -/
inductive Operation where
  | acquire (channels samples : Nat)
  | release (id : Nat)
  | releaseAll
  | preallocate (channels samples count : Nat)
  | dropFree
  | setCapacity (maxBuffers : Nat)
  | update (id : Nat) (mutation : Buffer.Mutation)

namespace Operation

/-- The pool after an operation. -/
def apply (pool : Pool) : Operation → Pool
  | .acquire channels samples => (pool.acquire channels samples).value.2
  | .release id => (pool.release id).2
  | .releaseAll => pool.releaseAll
  | .preallocate channels samples count => pool.preallocate channels samples count
  | .dropFree => pool.dropFree
  | .setCapacity maxBuffers => pool.setCapacity maxBuffers
  | .update id mutation => (pool.update id mutation.apply).2

/-- The number of the buffer whose contents an operation is asked to change. -/
def target? : Operation → Option Nat
  | .update id _ => some id
  | _ => none

/-- Whether an operation takes back the buffer with a number. -/
def Frees (id : Nat) : Operation → Prop
  | .release other => other = id
  | .releaseAll => True
  | _ => False

end Operation

variable {pool : Pool}

/-- The numbers of the buffers. -/
def ids (pool : Pool) : List Nat := pool.buffers.map PooledBuffer.id

/-- The buffer with a number is lent out. -/
def Lends (pool : Pool) (id : Nat) : Prop :=
  ∃ pooled ∈ pool.buffers, pooled.id = id ∧ pooled.inUse = true

/-- The numbers are distinct and below the next one, and every buffer has room for its samples. -/
structure Sound (pool : Pool) : Prop where
  nodup : pool.ids.Nodup
  id_lt {pooled : PooledBuffer} : pooled ∈ pool.buffers → pooled.id < pool.nextId
  hasRoom {pooled : PooledBuffer} : pooled ∈ pool.buffers → pooled.buffer.HasRoom

theorem sound_ofCapacity (capacity : Nat) : (ofCapacity capacity).Sound :=
  ⟨List.nodup_nil, by rintro _ ⟨⟩, by rintro _ ⟨⟩⟩

namespace Sound

variable (sound : pool.Sound)
include sound

/-- There is one buffer under a number. -/
theorem eq_of_id_eq {first second : PooledBuffer} (left : first ∈ pool.buffers)
    (right : second ∈ pool.buffers) (same : first.id = second.id) : first = second :=
  List.inj_on_of_nodup_map sound.nodup left right same

theorem get?_eq {pooled : PooledBuffer} (member : pooled ∈ pool.buffers) :
    pool.get? pooled.id = some pooled.buffer := by
  cases found : pool.buffers.find? (fun other => other.id == pooled.id) with
  | none => simpa using List.find?_eq_none.mp found pooled member
  | some other =>
    have same : other = pooled := by
      refine sound.eq_of_id_eq (List.mem_of_find?_eq_some found) member ?_
      simpa using List.find?_some found
    rw [get?, found, same]
    rfl

theorem hasRoom_of_get? {id : Nat} {buffer : Buffer} (found : pool.get? id = some buffer) :
    buffer.HasRoom := by
  obtain ⟨pooled, present, rfl⟩ := Option.map_eq_some_iff.mp found
  exact sound.hasRoom (List.mem_of_find?_eq_some present)

end Sound

/-! ### Requests -/

/-- The one lent longest ago is one of those to choose from. -/
theorem foldl_older_mem (entries : List (PooledBuffer × Nat)) (first : PooledBuffer × Nat) :
    entries.foldl
      (fun best entry => if entry.1.lastUsed < best.1.lastUsed then entry else best) first ∈
        first :: entries := by
  induction entries generalizing first with
  | nil => exact List.mem_singleton_self first
  | cons entry entries ih =>
    rw [List.foldl_cons]
    rcases List.mem_cons.mp (ih (if entry.1.lastUsed < first.1.lastUsed then entry else first))
      with same | later
    · rw [same]
      split <;> simp
    · exact List.mem_cons_of_mem _ (List.mem_cons_of_mem _ later)

theorem oldestFree?_some {buffers : List PooledBuffer} {place : Nat}
    (oldest : oldestFree? buffers = some place) :
    ∃ pooled, buffers[place]? = some pooled ∧ pooled.inUse = false := by
  unfold oldestFree? at oldest
  dsimp only at oldest
  split at oldest
  · contradiction
  · rename_i first rest free
    have member := foldl_older_mem rest first
    rw [← free] at member
    obtain ⟨inside, unused⟩ := List.mem_filter.mp member
    obtain rfl := Option.some.inj oldest
    exact ⟨_, List.mem_zipIdx_iff_getElem?.mp inside, by simpa using unused⟩

theorem oldestFree?_none {buffers : List PooledBuffer} (none : oldestFree? buffers = none)
    {pooled : PooledBuffer} (member : pooled ∈ buffers) : pooled.inUse = true := by
  unfold oldestFree? at none
  dsimp only at none
  split at none
  · rename_i free
    obtain ⟨place, bound, rfl⟩ := List.getElem_of_mem member
    have entry : (buffers[place], place) ∈ buffers.zipIdx :=
      List.mem_zipIdx_iff_getElem?.mpr (List.getElem?_eq_getElem bound)
    simpa using List.filter_eq_nil_iff.mp free _ entry
  · contradiction

/-- The pool after lending out the buffer with a number. -/
def lent (pool : Pool) (id channels samples : Nat) : Pool :=
  { pool with
    requests := pool.requests + 1
    buffers := pool.buffers.map fun pooled =>
      if pooled.id = id then pooled.lend channels samples (pool.requests + 1) else pooled }

/-- What a request can do: lend out a free buffer, or a new one if there is room, or nothing if all
are lent out and there is no room. -/
theorem Sound.acquire_cases (sound : pool.Sound) (channels samples : Nat) :
    (∃ free ∈ pool.buffers, free.inUse = false ∧
      (pool.acquire channels samples).value = (some free.id, pool.lent free.id channels samples)) ∨
    (pool.buffers.length < pool.maxBuffers ∧
      (pool.acquire channels samples).value =
        (some pool.nextId, { pool with
          buffers := pool.buffers ++
            [(pool.newBuffer channels samples).lend channels samples (pool.requests + 1)]
          nextId := pool.nextId + 1
          requests := pool.requests + 1 })) ∨
    (pool.maxBuffers ≤ pool.buffers.length ∧ (∀ pooled ∈ pool.buffers, pooled.inUse = true) ∧
      (pool.acquire channels samples).value =
        (none, { pool with requests := pool.requests + 1 })) := by
  have reuse {place : Nat} {free : PooledBuffer} (found : pool.buffers[place]? = some free) :
      (pool.buffers[place]?.map PooledBuffer.id,
        lendAt { pool with requests := pool.requests + 1 } place channels samples) =
          (some free.id, pool.lent free.id channels samples) := by
    rw [lendAt, modify_eq_map_of_nodup sound.nodup found, found]
    rfl
  unfold acquire
  dsimp only
  split
  · rename_i place found
    obtain ⟨bound, fits, _⟩ := List.findIdx?_eq_some_iff_getElem.mp found
    have unused : pool.buffers[place].inUse = false := by
      simp only [PooledBuffer.fits, Bool.and_eq_true, Bool.not_eq_true'] at fits
      exact fits.1.1
    exact .inl ⟨_, List.getElem_mem bound, unused, reuse (List.getElem?_eq_getElem bound)⟩
  · split
    · rename_i room
      refine .inr (.inl ⟨room, ?_⟩)
      simp [lendAt, grow, newBuffer, PooledBuffer.lend, List.modify_eq_take_drop]
    · rename_i full
      split
      · rename_i place oldest
        obtain ⟨free, found, unused⟩ := oldestFree?_some oldest
        exact .inl ⟨free, List.mem_of_getElem? found, unused, reuse found⟩
      · rename_i none
        exact .inr (.inr ⟨Nat.le_of_not_lt full, fun _ => oldestFree?_none none, rfl⟩)

/-! ### The other operations -/

/-- Taking back a buffer changes nothing but whether it is lent out. -/
theorem Sound.release_snd (sound : pool.Sound) (id : Nat) :
    (pool.release id).2 = { pool with
      buffers := pool.buffers.map fun pooled =>
        if pooled.id = id then { pooled with inUse := false } else pooled } := by
  unfold release
  split
  · rename_i place found
    obtain ⟨bound, lent, _⟩ := List.findIdx?_eq_some_iff_getElem.mp found
    simp only [Bool.and_eq_true, beq_iff_eq] at lent
    obtain ⟨rfl, _⟩ := lent
    rw [modify_eq_map_of_nodup sound.nodup (List.getElem?_eq_getElem bound)]
  · rename_i missing
    -- No buffer with the number is lent out, so lowering its mark changes nothing.
    have same : ∀ pooled ∈ pool.buffers,
        (if pooled.id = id then { pooled with inUse := false } else pooled) = pooled := by
      intro pooled member
      have free := List.findIdx?_eq_none_iff.mp missing pooled member
      split
      · rename_i equal
        have unused : pooled.inUse = false := by simpa [equal] using free
        rw [← unused]
      · rfl
    rw [List.map_congr_left same, List.map_id']

theorem release_fst_iff (pool : Pool) (id : Nat) : (pool.release id).1 = true ↔ pool.Lends id := by
  unfold release Lends
  split
  · rename_i place found
    obtain ⟨bound, lent, _⟩ := List.findIdx?_eq_some_iff_getElem.mp found
    simp only [Bool.and_eq_true, beq_iff_eq] at lent
    exact iff_of_true rfl ⟨_, List.getElem_mem bound, lent⟩
  · rename_i missing
    refine iff_of_false (by simp) ?_
    rintro ⟨pooled, member, same, used⟩
    simpa [same, used] using List.findIdx?_eq_none_iff.mp missing pooled member

theorem Sound.update_snd (sound : pool.Sound) (id : Nat) (change : Buffer → Buffer) :
    (pool.update id change).2 = { pool with
      buffers := pool.buffers.map fun pooled =>
        if pooled.id = id then { pooled with buffer := change pooled.buffer } else pooled } := by
  unfold update
  split
  · rename_i place found
    obtain ⟨bound, same, _⟩ := List.findIdx?_eq_some_iff_getElem.mp found
    obtain rfl := beq_iff_eq.mp same
    dsimp only
    rw [modify_eq_map_of_nodup sound.nodup (List.getElem?_eq_getElem bound)]
  · rename_i missing
    have same : ∀ pooled ∈ pool.buffers,
        (if pooled.id = id then { pooled with buffer := change pooled.buffer } else pooled) =
          pooled := by
      intro pooled member
      have other := List.findIdx?_eq_none_iff.mp missing pooled member
      rw [if_neg (by simpa using other)]
    rw [List.map_congr_left same, List.map_id']

theorem growBy_eq (pool : Pool) (channels samples count : Nat) :
    pool.growBy channels samples count = { pool with
      buffers := pool.buffers ++ (List.range' pool.nextId count).map fun id =>
        ⟨id, .zeros channels samples, false, pool.requests⟩
      nextId := pool.nextId + count } := by
  induction count generalizing pool with
  | zero => simp [growBy]
  | succ count ih =>
    rw [growBy, ih]
    simp [grow, newBuffer, List.range'_succ, Nat.add_assoc, Nat.add_comm 1 count]

theorem dropFree_eq (pool : Pool) :
    pool.dropFree.buffers =
      pool.buffers.filterMap fun pooled => if pooled.inUse then some pooled else none := by
  rw [dropFree, ← List.filterMap_eq_filter]
  rfl

/-! ### What an operation can do -/

/-- What an operation does: each buffer stays under its number, perhaps changed, or is dropped, and
new buffers with new numbers follow, if the pool has room for them.  A buffer that is lent out stays
as it is unless the operation is on it. -/
structure Outcome (operation : Operation) (before after : Pool)
    (keep : PooledBuffer → Option PooledBuffer) (made : List PooledBuffer) : Prop where
  buffers_eq : after.buffers = before.buffers.filterMap keep ++ made
  id_eq {old new : PooledBuffer} : keep old = some new → new.id = old.id
  hasRoom {old new : PooledBuffer} : keep old = some new → old.buffer.HasRoom →
    new.buffer.HasRoom
  keeps_lent {old : PooledBuffer} : old ∈ before.buffers → old.inUse = true →
    operation.target? ≠ some old.id →
      ∃ new, keep old = some new ∧ new.buffer = old.buffer ∧
        (¬operation.Frees old.id → new.inUse = true)
  made_ids : made.map PooledBuffer.id = List.range' before.nextId made.length
  made_hasRoom {new : PooledBuffer} : new ∈ made → new.buffer.HasRoom
  nextId_eq : after.nextId = before.nextId + made.length
  fits : made = [] ∨ after.buffers.length ≤ after.maxBuffers

theorem hasRoom_lend {pooled : PooledBuffer} (room : pooled.buffer.HasRoom)
    (channels samples request : Nat) : (pooled.lend channels samples request).buffer.HasRoom :=
  Edit.maps_clear.hasRoom (room.resizeFrom 0 channels samples)

/-- An operation that makes and drops nothing. -/
theorem Outcome.of_map {operation : Operation} {before after : Pool}
    {change : PooledBuffer → PooledBuffer} (buffers_eq : after.buffers = before.buffers.map change)
    (nextId_eq : after.nextId = before.nextId)
    (id_eq : ∀ pooled, (change pooled).id = pooled.id)
    (hasRoom : ∀ pooled : PooledBuffer, pooled.buffer.HasRoom → (change pooled).buffer.HasRoom)
    (keeps_lent : ∀ pooled ∈ before.buffers, pooled.inUse = true →
      operation.target? ≠ some pooled.id →
        (change pooled).buffer = pooled.buffer ∧
          (¬operation.Frees pooled.id → (change pooled).inUse = true)) :
    Outcome operation before after (some ∘ change) [] where
  buffers_eq := by rw [buffers_eq, List.filterMap_eq_map, List.append_nil]
  id_eq kept := Option.some.inj kept ▸ id_eq _
  hasRoom kept := Option.some.inj kept ▸ hasRoom _
  keeps_lent {old} member used other := ⟨_, rfl, keeps_lent old member used other⟩
  made_ids := rfl
  made_hasRoom member := by cases member
  nextId_eq := nextId_eq
  fits := .inl rfl

/-- An operation that at most puts new buffers behind the others. -/
theorem Outcome.of_append {operation : Operation} {before after : Pool} {made : List PooledBuffer}
    (buffers_eq : after.buffers = before.buffers ++ made)
    (made_ids : made.map PooledBuffer.id = List.range' before.nextId made.length)
    (made_hasRoom : ∀ new ∈ made, new.buffer.HasRoom)
    (nextId_eq : after.nextId = before.nextId + made.length)
    (fits : made = [] ∨ after.buffers.length ≤ after.maxBuffers) :
    Outcome operation before after some made where
  buffers_eq := by rw [buffers_eq, List.filterMap_some]
  id_eq kept := Option.some.inj kept ▸ rfl
  hasRoom kept := Option.some.inj kept ▸ id
  keeps_lent _ used _ := ⟨_, rfl, rfl, fun _ => used⟩
  made_ids := made_ids
  made_hasRoom := made_hasRoom _
  nextId_eq := nextId_eq
  fits := fits

theorem Outcome.of_same {operation : Operation} {before after : Pool}
    (buffers_eq : after.buffers = before.buffers) (nextId_eq : after.nextId = before.nextId) :
    Outcome operation before after some [] :=
  .of_append (buffers_eq.trans (List.append_nil _).symm) rfl (by rintro _ ⟨⟩) nextId_eq (.inl rfl)

theorem Sound.exists_outcome_acquire (sound : pool.Sound) (channels samples : Nat) :
    ∃ keep made, Outcome (.acquire channels samples) pool (pool.acquire channels samples).value.2
      keep made := by
  rcases sound.acquire_cases channels samples with
    ⟨free, member, unused, value⟩ | ⟨room, value⟩ | ⟨_, _, value⟩
  · rw [value]
    refine ⟨_, _, .of_map rfl rfl (fun pooled => ?_) (fun pooled room => ?_)
      fun pooled inside used _ => ?_⟩
    · split <;> rfl
    · split
      · exact hasRoom_lend room channels samples _
      · exact room
    · -- What is lent out is not the free buffer.
      rw [if_neg fun same => ?_]
      · exact ⟨rfl, fun _ => used⟩
      · obtain rfl := sound.eq_of_id_eq inside member same
        simp [used] at unused
  · rw [value]
    refine ⟨_, _, .of_append rfl rfl (fun new made => ?_) rfl (.inr ?_)⟩
    · rw [List.mem_singleton.mp made]
      exact hasRoom_lend (Buffer.hasRoom_zeros channels samples) _ _ _
    · rw [List.length_append]
      exact room
  · rw [value]
    exact ⟨_, _, .of_same rfl rfl⟩

theorem exists_outcome_preallocate (pool : Pool) (channels samples count : Nat) :
    ∃ keep made, Outcome (.preallocate channels samples count) pool
      (pool.preallocate channels samples count) keep made := by
  rw [preallocate, growBy_eq]
  refine ⟨_, _, .of_append rfl (by simp [Function.comp_def]) (fun new made => ?_) (by simp) ?_⟩
  · obtain ⟨_, _, rfl⟩ := List.mem_map.mp made
    exact Buffer.hasRoom_zeros channels samples
  · simp
    omega

theorem exists_outcome_dropFree (pool : Pool) :
    ∃ keep made, Outcome .dropFree pool pool.dropFree keep made := by
  refine ⟨fun pooled => if pooled.inUse then some pooled else none, [], ?_⟩
  have kept {old new : PooledBuffer} (kept : (if old.inUse then some old else none) = some new) :
      old = new := by
    split at kept
    · exact Option.some.inj kept
    · contradiction
  exact {
    buffers_eq := by rw [dropFree_eq, List.append_nil]
    id_eq := fun same => kept same ▸ rfl
    hasRoom := fun same => kept same ▸ id
    keeps_lent := fun _ used _ => ⟨_, if_pos used, rfl, fun _ => used⟩
    made_ids := rfl
    made_hasRoom := by rintro _ ⟨⟩
    nextId_eq := rfl
    fits := .inl rfl }

/-- Every operation does what an operation can do. -/
theorem Sound.exists_outcome (sound : pool.Sound) (operation : Operation) :
    ∃ keep made, Outcome operation pool (operation.apply pool) keep made := by
  cases operation with
  | acquire channels samples => exact sound.exists_outcome_acquire channels samples
  | release id =>
    rw [Operation.apply, sound.release_snd id]
    refine ⟨_, _, .of_map rfl rfl (fun pooled => ?_) (fun pooled room => ?_)
      fun pooled inside used _ => ?_⟩
    · split <;> rfl
    · split <;> exact room
    · split
      · rename_i same
        exact ⟨rfl, fun kept => absurd same.symm kept⟩
      · exact ⟨rfl, fun _ => used⟩
  | releaseAll =>
    exact ⟨_, _, .of_map rfl rfl (fun _ => rfl) (fun _ => id)
      fun _ _ _ _ => ⟨rfl, fun kept => absurd trivial kept⟩⟩
  | preallocate channels samples count =>
    exact pool.exists_outcome_preallocate channels samples count
  | dropFree => exact pool.exists_outcome_dropFree
  | setCapacity maxBuffers => exact ⟨_, _, .of_same rfl rfl⟩
  | update id mutation =>
    rw [Operation.apply, sound.update_snd id mutation.apply]
    refine ⟨_, _, .of_map rfl rfl (fun pooled => ?_) (fun pooled room => ?_)
      fun pooled inside used other => ?_⟩
    · split <;> rfl
    · split
      · exact mutation.hasRoom room
      · exact room
    · rw [if_neg fun same => other (congrArg some same.symm)]
      exact ⟨rfl, fun _ => used⟩

/-! ### What every operation preserves -/

namespace Outcome

variable {operation : Operation} {before after : Pool}
  {keep : PooledBuffer → Option PooledBuffer} {made : List PooledBuffer}
  (outcome : Outcome operation before after keep made)
include outcome

/-- A buffer afterwards was kept, or is new under a new number. -/
theorem mem_buffers {pooled : PooledBuffer} (member : pooled ∈ after.buffers) :
    (∃ old ∈ before.buffers, keep old = some pooled) ∨
      (pooled ∈ made ∧ before.nextId ≤ pooled.id ∧ pooled.id < after.nextId) := by
  rw [outcome.buffers_eq, List.mem_append, List.mem_filterMap] at member
  refine member.imp id fun new => ⟨new, ?_⟩
  have number := List.mem_map_of_mem (f := PooledBuffer.id) new
  rw [outcome.made_ids, List.mem_range'_1] at number
  rw [outcome.nextId_eq]
  exact number

theorem nextId_le : before.nextId ≤ after.nextId :=
  outcome.nextId_eq ▸ Nat.le_add_right _ _

theorem ids_eq : ∃ kept, kept.Sublist before.ids ∧
    after.ids = kept ++ List.range' before.nextId made.length := by
  refine ⟨(before.buffers.filterMap keep).map PooledBuffer.id, ?_, ?_⟩
  · have ids : (before.buffers.filterMap keep).map PooledBuffer.id =
        (before.buffers.filter fun old => (keep old).isSome).map PooledBuffer.id := by
      induction before.buffers with
      | nil => rfl
      | cons old rest ih =>
        cases kept : keep old with
        | none => simp [kept, ih]
        | some new => simp [kept, ih, outcome.id_eq kept]
    rw [ids]
    exact List.filter_sublist.map _
  · rw [ids, outcome.buffers_eq, List.map_append, outcome.made_ids]

theorem sound (start : before.Sound) : after.Sound where
  nodup := by
    obtain ⟨kept, sublist, ids⟩ := outcome.ids_eq
    rw [ids, List.nodup_append]
    refine ⟨start.nodup.sublist sublist, List.nodup_range', fun old inside new fresh same => ?_⟩
    obtain ⟨pooled, member, rfl⟩ := List.mem_map.mp (sublist.subset inside)
    have below := start.id_lt member
    rw [← same, List.mem_range'_1] at fresh
    omega
  id_lt {pooled} member := by
    rcases outcome.mem_buffers member with ⟨old, inside, kept⟩ | ⟨_, _, below⟩
    · rw [outcome.id_eq kept]
      exact Nat.lt_of_lt_of_le (start.id_lt inside) outcome.nextId_le
    · exact below
  hasRoom {pooled} member := by
    rcases outcome.mem_buffers member with ⟨old, inside, kept⟩ | ⟨new, _, _⟩
    · exact outcome.hasRoom kept (start.hasRoom inside)
    · exact outcome.made_hasRoom new

/-- A number that appears is a new one. -/
theorem nextId_le_of_appears {id : Nat} (present : id ∈ after.ids) (absent : id ∉ before.ids) :
    before.nextId ≤ id := by
  obtain ⟨pooled, member, rfl⟩ := List.mem_map.mp present
  rcases outcome.mem_buffers member with ⟨old, inside, kept⟩ | ⟨_, new, _⟩
  · rw [outcome.id_eq kept] at absent
    exact absurd (List.mem_map_of_mem inside) absent
  · exact new

/-- A buffer that is lent out keeps its number, its shape and its samples, and stays lent out unless
it is taken back. -/
theorem get?_of_lent (start : before.Sound) {pooled : PooledBuffer}
    (member : pooled ∈ before.buffers) (lent : pooled.inUse = true)
    (other : operation.target? ≠ some pooled.id) :
    after.get? pooled.id = some pooled.buffer ∧
      (¬operation.Frees pooled.id → after.Lends pooled.id) := by
  obtain ⟨new, kept, same, used⟩ := outcome.keeps_lent member lent other
  have inside : new ∈ after.buffers := by
    rw [outcome.buffers_eq]
    exact List.mem_append_left _ (List.mem_filterMap.mpr ⟨pooled, member, kept⟩)
  rw [← outcome.id_eq kept, ← same]
  exact ⟨(outcome.sound start).get?_eq inside,
    fun stays => ⟨new, inside, rfl, used (outcome.id_eq kept ▸ stays)⟩⟩

/-- The pool grows only up to its capacity. -/
theorem length_le (grown : before.buffers.length < after.buffers.length) :
    after.buffers.length ≤ after.maxBuffers := by
  refine outcome.fits.resolve_left fun none => ?_
  have kept := List.length_filterMap_le keep before.buffers
  rw [outcome.buffers_eq, none, List.append_nil] at grown
  omega

end Outcome

/-! ### Lending -/

theorem Sound.lends_acquire (sound : pool.Sound) (channels samples id : Nat) :
    (pool.acquire channels samples).value.2.Lends id ↔
      (pool.acquire channels samples).value.1 = some id ∨ pool.Lends id := by
  rcases sound.acquire_cases channels samples with
    ⟨free, member, _, value⟩ | ⟨_, value⟩ | ⟨_, _, value⟩
  · rw [value]
    simp only [Lends, lent, List.mem_map, Option.some.injEq]
    constructor
    · rintro ⟨_, ⟨pooled, inside, rfl⟩, same, used⟩
      split at same
      · rename_i freed
        exact .inl (freed.symm.trans same)
      · rename_i other
        rw [if_neg other] at used
        exact .inr ⟨pooled, inside, same, used⟩
    · rintro (rfl | ⟨pooled, inside, rfl, used⟩)
      · exact ⟨_, ⟨free, member, if_pos rfl⟩, rfl, rfl⟩
      · refine ⟨_, ⟨pooled, inside, rfl⟩, ?_⟩
        split
        · exact ⟨rfl, rfl⟩
        · exact ⟨rfl, used⟩
  · rw [value]
    simp [Lends, PooledBuffer.lend, newBuffer, or_and_right, exists_or, or_comm]
  · rw [value]
    simp [Lends]

theorem Sound.lends_release (sound : pool.Sound) (freed id : Nat) :
    (pool.release freed).2.Lends id ↔ id ≠ freed ∧ pool.Lends id := by
  rw [sound.release_snd]
  simp only [Lends, List.mem_map]
  constructor
  · rintro ⟨_, ⟨pooled, inside, rfl⟩, same, used⟩
    split at same
    · rename_i released
      simp [released] at used
    · rename_i other
      rw [if_neg other] at used
      exact ⟨same ▸ other, pooled, inside, same, used⟩
  · rintro ⟨other, pooled, inside, rfl, used⟩
    exact ⟨pooled, ⟨pooled, inside, if_neg other⟩, rfl, used⟩

theorem lends_preallocate (pool : Pool) (channels samples count id : Nat) :
    (pool.preallocate channels samples count).Lends id ↔ pool.Lends id := by
  rw [preallocate, growBy_eq]
  simp [Lends, or_and_right, exists_or]

theorem lends_dropFree (pool : Pool) (id : Nat) : pool.dropFree.Lends id ↔ pool.Lends id := by
  simp only [Lends, dropFree, List.mem_filter]
  grind

theorem Sound.lends_update (sound : pool.Sound) (changed id : Nat) (change : Buffer → Buffer) :
    (pool.update changed change).2.Lends id ↔ pool.Lends id := by
  rw [sound.update_snd]
  simp only [Lends, List.mem_map]
  constructor
  · rintro ⟨_, ⟨pooled, inside, rfl⟩, same, used⟩
    refine ⟨pooled, inside, ?_⟩
    split at same <;> simp_all
  · rintro ⟨pooled, inside, rfl, used⟩
    refine ⟨_, ⟨pooled, inside, rfl⟩, ?_⟩
    split <;> exact ⟨rfl, used⟩

end Pool

end EffectScript.Audio
