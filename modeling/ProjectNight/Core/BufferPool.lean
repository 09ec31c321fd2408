import ProjectNight.Core.Wire

/-!
# Buffer Pool

`BufferPool.h`, and the frame builders of `TransportDetail.h` with the pool
they take their buffers from. `Wire.lean` has the same builders with a fresh
buffer each time; that nobody can tell the difference is proved in
`Theory.Pooling`.

A `std::vector<uint8_t>` is its elements and its capacity. The pool is one
stack of vectors for each thread, shared by all instances of `BufferPool` on
that thread; an instance has nothing of its own but the limit it keeps when a
buffer comes back. So the functions take the stack of the thread they run on
and return it, and `release` takes the limit of its instance.

Vectors are moved and never copied, so a buffer is in one place at a time: on
a stack, or with whoever acquired it. What its owner does with it meanwhile,
and on which thread it is released, is not up to the pool.

## Main definitions

* `Buffer`: A vector, with the operations the pool and the builders use.
* `BufferPool.acquire`, `BufferPool.release`: The pool.
* `BufferPool.buildFrame`, `BufferPool.buildDataFrame`,
  `BufferPool.cloneFrame`: The builders.
-/

namespace ProjectNight

open Wire

/-- A `std::vector<uint8_t>`. -/
structure Buffer where
  data : Bytes
  capacity : Nat
  length_le : data.length ≤ capacity
  deriving DecidableEq

namespace Buffer

/-- A vector that has not allocated anything. -/
def empty : Buffer := ⟨[], 0, Nat.le_refl 0⟩

def reserve (buf : Buffer) (size : Nat) : Buffer where
  data := buf.data
  capacity := max buf.capacity size
  length_le := Nat.le_trans buf.length_le (Nat.le_max_left _ _)

/-- New elements are zero, old ones stay. Growth beyond the capacity would
    reallocate; it does not occur here. -/
def resize (buf : Buffer) (size : Nat) : Buffer where
  data := buf.data.take size ++ List.replicate (size - buf.data.length) 0
  capacity := max buf.capacity size
  length_le := by
    have hle := buf.length_le
    rw [List.length_append, List.length_take, List.length_replicate]
    omega

def clear (buf : Buffer) : Buffer := ⟨[], buf.capacity, Nat.zero_le _⟩

/-- `memcpy` to `data() + offset`. -/
def write (buf : Buffer) (offset : Nat) (bytes : Bytes) : Buffer where
  data := buf.data.mapIdx fun i old => if i < offset then old else bytes.getD (i - offset) old
  capacity := buf.capacity
  length_le := by
    rw [List.length_mapIdx]
    exact buf.length_le

end Buffer

namespace BufferPool

/-- `acquire`, on the stack of the thread it runs on; the back of the vector
    `thread_local_pool` is the front of the list. -/
def acquire (pool : List Buffer) (size : Nat) : Buffer × List Buffer :=
  if size > blockSize then (.empty, pool)
  else match pool with
    | buf :: pool => (buf.resize size, pool)
    | [] => ((Buffer.empty.reserve blockSize).resize size, [])

def release (maxSizePerThread : Nat) (pool : List Buffer) (buf : Buffer) : List Buffer :=
  if buf.capacity ≠ blockSize then pool
  else if pool.length < maxSizePerThread then buf.clear :: pool
  else pool

def buildFrame (pool : List Buffer) (flags : UInt8) (payload : Bytes) : Buffer × List Buffer :=
  let size := UInt32.ofNat payload.length
  let (frame, pool) := acquire pool (headerSize + size.toNat)
  if frame.data.isEmpty then (frame, pool)
  else
    let frame := frame.write 0 (writeHeader flags size)
    let frame := if payload.isEmpty then frame
      else frame.write headerSize (payload.take size.toNat)
    (frame, pool)

def buildDataFrame (pool : List Buffer) (payload : Bytes) : Buffer × List Buffer :=
  if payload.isEmpty then (.empty, pool) else buildFrame pool 0 payload

def cloneFrame (pool : List Buffer) (frameTemplate : Bytes) : Buffer × List Buffer :=
  if frameTemplate.isEmpty then (.empty, pool)
  else
    let (frame, pool) := acquire pool frameTemplate.length
    if frame.data.isEmpty then (frame, pool) else (frame.write 0 frameTemplate, pool)

end BufferPool

end ProjectNight
