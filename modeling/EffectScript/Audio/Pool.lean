import EffectScript.Audio.Buffer
import EffectScript.Config
import EffectScript.Log

/-!
# Buffer pools

A pool owns a bounded number of buffers and lends them out under numbers.  A request is met by a
free buffer of the wanted shape, else by a new buffer if there is room, else by the free buffer that
was lent longest ago, which is reshaped.
-/

namespace EffectScript.Audio

/-- A buffer of a pool. -/
structure PooledBuffer where
  /-- The number under which the buffer is lent, never given to another one. -/
  id : Nat
  buffer : Buffer
  inUse : Bool
  /-- The request at which the buffer was last lent, or made. -/
  lastUsed : Nat

namespace PooledBuffer

/-- A free buffer of a given shape. -/
def fits (pooled : PooledBuffer) (channels samples : Nat) : Bool :=
  !pooled.inUse && pooled.buffer.channels == channels && pooled.buffer.samples == samples

/-- The buffer lent out at a request: reshaped if needed, and zeroed. -/
def lend (pooled : PooledBuffer) (channels samples request : Nat) : PooledBuffer :=
  { pooled with
    buffer := (pooled.buffer.resize channels samples).clear
    inUse := true
    lastUsed := request }

end PooledBuffer

/-- Buffers that are lent out and taken back. -/
structure Pool where
  buffers : List PooledBuffer
  /-- Number of buffers beyond which the pool does not grow. -/
  maxBuffers : Nat
  /-- Number of requests so far. -/
  requests : Nat
  /-- Number of the next new buffer. -/
  nextId : Nat

namespace Pool

/-- A pool without buffers. -/
def ofCapacity (maxBuffers : Nat) : Pool := ⟨[], maxBuffers, 0, 0⟩

/-- The capacity of a pool unless another one is given. -/
def standardCapacity : Nat := 32

/-- A new free buffer. -/
def newBuffer (pool : Pool) (channels samples : Nat) : PooledBuffer :=
  ⟨pool.nextId, .zeros channels samples, false, pool.requests⟩

/-- Add a free buffer. -/
def grow (pool : Pool) (channels samples : Nat) : Pool :=
  { pool with
    buffers := pool.buffers ++ [pool.newBuffer channels samples]
    nextId := pool.nextId + 1 }

/-- Add buffers one by one. -/
def growBy (pool : Pool) (channels samples : Nat) : Nat → Pool
  | 0 => pool
  | count + 1 => (pool.grow channels samples).growBy channels samples count

/-- Add free buffers, as far as there is room. -/
def preallocate (pool : Pool) (channels samples count : Nat) : Pool :=
  pool.growBy channels samples (min count (pool.maxBuffers - pool.buffers.length))

/-- A pool for given settings, with one buffer of the usual shape. -/
def ofConfig (config : Config) : Pool :=
  (ofCapacity config.poolCapacity).preallocate config.channels config.maxBlockSize 1

/-- Place of the free buffer that was lent longest ago, the first one of several. -/
def oldestFree? (buffers : List PooledBuffer) : Option Nat :=
  let free := buffers.zipIdx.filter fun entry => !entry.1.inUse
  let older (best entry : PooledBuffer × Nat) :=
    if entry.1.lastUsed < best.1.lastUsed then entry else best
  match free with
  | [] => none
  | first :: rest => some (rest.foldl older first).2

/-- Lend out the buffer at a place. -/
def lendAt (pool : Pool) (place channels samples : Nat) : Pool :=
  { pool with
    buffers := pool.buffers.modify place (·.lend channels samples pool.requests) }

/-- Lend out a zeroed buffer of the wanted shape, under its number; none if all are in use and the
pool is full. -/
def acquire (pool : Pool) (channels samples : Nat) : Logged (Option Nat × Pool) :=
  let pool := { pool with requests := pool.requests + 1 }
  match pool.buffers.findIdx? (·.fits channels samples) with
  | some place =>
    return (pool.buffers[place]?.map PooledBuffer.id, pool.lendAt place channels samples)
  | none =>
    if pool.buffers.length < pool.maxBuffers then
      let place := pool.buffers.length
      return (some pool.nextId, (pool.grow channels samples).lendAt place channels samples)
    else
      match oldestFree? pool.buffers with
      | some place =>
        return (pool.buffers[place]?.map PooledBuffer.id, pool.lendAt place channels samples)
      | none => do
        let inUse := pool.buffers.length
        .note .warn
          s!"buffer pool exhausted ({inUse} in use), cannot provide {channels}x{samples}"
        return (none, pool)

/-- Take a buffer back, its contents staying as they are; whether it was lent out. -/
def release (pool : Pool) (id : Nat) : Bool × Pool :=
  match pool.buffers.findIdx? fun pooled => pooled.id == id && pooled.inUse with
  | some place =>
    (true, { pool with buffers := pool.buffers.modify place ({ · with inUse := false }) })
  | none => (false, pool)

/-- Take all buffers back. -/
def releaseAll (pool : Pool) : Pool :=
  { pool with buffers := pool.buffers.map ({ · with inUse := false }) }

/-- The buffer with a number. -/
def get? (pool : Pool) (id : Nat) : Option Buffer :=
  (pool.buffers.find? fun pooled => pooled.id == id).map PooledBuffer.buffer

/-- Change the buffer with a number; whether there is one. -/
def update (pool : Pool) (id : Nat) (change : Buffer → Buffer) : Bool × Pool :=
  match pool.buffers.findIdx? fun pooled => pooled.id == id with
  | some place =>
    let buffers := pool.buffers.modify place fun pooled =>
      { pooled with buffer := change pooled.buffer }
    (true, { pool with buffers })
  | none => (false, pool)

/-- Drop all free buffers. -/
def dropFree (pool : Pool) : Pool :=
  { pool with buffers := pool.buffers.filter PooledBuffer.inUse }

/-- Change the capacity; buffers beyond it stay. -/
def setCapacity (pool : Pool) (maxBuffers : Nat) : Pool :=
  { pool with maxBuffers }

/-- Number of buffers lent out. -/
def activeCount (pool : Pool) : Nat :=
  pool.buffers.countP PooledBuffer.inUse

end Pool

end EffectScript.Audio
