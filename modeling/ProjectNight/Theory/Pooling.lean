import ProjectNight.Core.BufferPool
import ProjectNight.Theory.Framing

/-!
# Pooling

Nobody can tell a recycled buffer from a fresh one. A thread of calls is any
list of acquires, releases and writes: the acquires and releases may come from
any number of `BufferPool` instances with limits of their own, a released
buffer may be any vector (one of this thread or one that was acquired on
another, with whatever its owners left in it), and a buffer that was acquired
may be changed in any way while it is out.

What makes it work is that `release` empties a buffer before it goes onto the
stack and keeps only those of one capacity. So a buffer on the stack is the
same as a new one with its capacity reserved, and `acquire` cannot return
anything else whether it finds one or not.

The frame builders do not even need that: they write every byte of the frame
they return (`data_buildFrame`, `data_cloneFrame`), whatever is on the stack.

## Main definitions

* `PoolCall`, `PoolThread`: Calls on one thread, and its buffers.
* `Buffer.blank`: A new buffer with the capacity of a block.

## Theorems

* `write_eq`: Writing inside a buffer.
* `data_buildFrame`, `data_buildDataFrame`, `data_cloneFrame`: Frames do not
  depend on the stack.
* `frame_passes`: What the peer makes of a frame.
* `clean_run`, `length_pool_run`: What is on a stack, and how much of it.
* `pooling_unobservable`: Every history of calls.
-/

namespace ProjectNight

open Wire

/-! ### Writing into a buffer -/

namespace Buffer

theorem length_write (buf : Buffer) (offset : Nat) (bytes : Bytes) :
    (buf.write offset bytes).data.length = buf.data.length := List.length_mapIdx

@[simp] theorem capacity_write (buf : Buffer) (offset : Nat) (bytes : Bytes) :
    (buf.write offset bytes).capacity = buf.capacity := rfl

/-- Writing inside a buffer replaces the bytes in the middle. -/
theorem write_eq (buf : Buffer) (offset : Nat) (bytes : Bytes)
    (h : offset + bytes.length ≤ buf.data.length) :
    (buf.write offset bytes).data
      = buf.data.take offset ++ bytes ++ buf.data.drop (offset + bytes.length) := by
  refine List.ext_getElem? (fun i => ?_)
  have htake : (buf.data.take offset).length = offset := by
    rw [List.length_take]
    omega
  have hmiddle : (buf.data.take offset ++ bytes).length = offset + bytes.length := by
    rw [List.length_append, htake]
  unfold write
  rw [List.getElem?_mapIdx]
  by_cases hbefore : i < offset
  · rw [List.getElem?_append_left (by omega), List.getElem?_append_left (by omega),
      List.getElem?_take_of_lt hbefore]
    simp [hbefore]
  by_cases hinside : i < offset + bytes.length
  · have hlt : i < buf.data.length := by omega
    have hbyte : i - offset < bytes.length := by omega
    rw [List.getElem?_append_left (by omega), List.getElem?_append_right (by omega), htake,
      List.getElem?_eq_getElem hlt, List.getElem?_eq_getElem hbyte, Option.map_some,
      if_neg hbefore, List.getD_eq_getElem?_getD, List.getElem?_eq_getElem hbyte,
      Option.getD_some]
  · have hbeyond : bytes[i - offset]? = none := List.getElem?_eq_none (by omega)
    rw [List.getElem?_append_right (by omega), hmiddle, List.getElem?_drop,
      show offset + bytes.length + (i - (offset + bytes.length)) = i by omega]
    simp [hbefore, List.getD_eq_getElem?_getD, hbeyond]

theorem length_resize (buf : Buffer) (size : Nat) : (buf.resize size).data.length = size := by
  simp only [resize, List.length_append, List.length_take, List.length_replicate]
  omega

/-- A new buffer with the capacity of a block. -/
def blank : Buffer := empty.reserve blockSize

end Buffer

/-! ### The builders, on any stack -/

namespace BufferPool

open Buffer

theorem length_acquire (pool : List Buffer) {size : Nat} (h : size ≤ blockSize) :
    (acquire pool size).1.data.length = size := by
  unfold acquire
  rw [if_neg (by omega)]
  cases pool with
  | nil => exact length_resize _ _
  | cons buf pool => exact length_resize _ _

/-- A frame with room for its payload is its header and its payload, whatever
    the buffer held before. -/
theorem data_buildFrame (pool : List Buffer) (flags : UInt8) {payload : Bytes}
    (h : payload.length ≤ maxPayloadSize) :
    (buildFrame pool flags payload).1.data
      = writeHeader flags (UInt32.ofNat payload.length) ++ payload := by
  have hsize : (UInt32.ofNat payload.length).toNat = payload.length := by
    unfold maxPayloadSize at h
    rw [UInt32.toNat_ofNat', Nat.mod_eq_of_lt (by omega)]
  have hlen : (acquire pool (headerSize + payload.length)).1.data.length
      = headerSize + payload.length := length_acquire pool (by unfold blockSize; omega)
  have hheader : (writeHeader flags (UInt32.ofNat payload.length)).length = headerSize := rfl
  unfold buildFrame
  simp only [hsize, List.take_length]
  rw [if_neg (by
    rw [List.isEmpty_iff, ← List.length_eq_zero_iff, hlen]
    unfold headerSize
    omega)]
  -- After the header is written, what is left of the buffer is behind it.
  have hfirst := write_eq (acquire pool (headerSize + payload.length)).1 0
    (writeHeader flags (UInt32.ofNat payload.length)) (by rw [hlen, hheader]; omega)
  rw [hheader, List.take_zero, List.nil_append, Nat.zero_add] at hfirst
  by_cases hempty : payload.isEmpty = true
  · rw [if_pos hempty, hfirst, List.drop_of_length_le (by
      rw [List.isEmpty_iff] at hempty
      rw [hlen, hempty]
      exact Nat.le_refl _)]
    rw [List.isEmpty_iff.mp hempty]
  · rw [if_neg hempty]
    simp only
    rw [write_eq _ _ _ (by rw [length_write, hlen]), hfirst, List.take_left' hheader,
      List.drop_of_length_le (by rw [← hfirst, length_write, hlen]), List.append_nil]

/-- The builder without a pool returns the same bytes. -/
theorem data_buildDataFrame (pool : List Buffer) {payload : Bytes}
    (h : payload.length ≤ maxPayloadSize) :
    (buildDataFrame pool payload).1.data = Wire.buildDataFrame payload := by
  unfold buildDataFrame
  by_cases hempty : payload.isEmpty = true
  · rw [if_pos hempty, Wire.buildDataFrame, if_pos hempty]
    rfl
  · rw [if_neg hempty, data_buildFrame pool 0 h]
    rw [List.isEmpty_iff] at hempty
    rw [buildDataFrame_eq ⟨hempty, h⟩]

/-- A clone has the bytes of its template. -/
theorem data_cloneFrame (pool : List Buffer) {frameTemplate : Bytes}
    (h : frameTemplate.length ≤ blockSize) :
    (cloneFrame pool frameTemplate).1.data = frameTemplate := by
  unfold cloneFrame
  by_cases hempty : frameTemplate.isEmpty = true
  · rw [if_pos hempty, List.isEmpty_iff.mp hempty]
    rfl
  · have hlen := length_acquire pool h
    rw [List.isEmpty_iff] at hempty
    rw [if_neg (by rw [List.isEmpty_iff]; exact hempty)]
    simp only
    rw [if_neg (by
      rw [List.isEmpty_iff, ← List.length_eq_zero_iff, hlen, List.length_eq_zero_iff]
      exact hempty)]
    simp only
    rw [write_eq _ _ _ (by rw [hlen]; omega), List.take_zero, List.nil_append,
      List.drop_of_length_le (by rw [hlen]; omega), List.append_nil]

theorem length_buildDataFrame_le {data : Bytes} (h : Sendable data) :
    (Wire.buildDataFrame data).length ≤ blockSize := by
  have hlen := h.2
  rw [length_buildDataFrame h]
  unfold blockSize
  omega

/-- A payload that passes the guards becomes one frame of a block, whatever is
    on the stack of the pool, and the header handler of the peer accepts it. -/
theorem frame_passes {data : Bytes} (h : Sendable data) (pool : List Buffer) :
    (buildDataFrame pool data).1.data ≠ [] ∧
    (buildDataFrame pool data).1.data.length ≤ blockSize ∧
    decodeHeader ((buildDataFrame pool data).1.data.take headerSize)
      = .ok ⟨magic, version, 0, UInt32.ofNat data.length⟩ ∧
    (buildDataFrame pool data).1.data.drop headerSize = data := by
  rw [data_buildDataFrame pool h.2]
  refine ⟨buildDataFrame_ne_nil h, length_buildDataFrame_le h, ?_, drop_buildDataFrame h⟩
  rw [take_buildDataFrame h, decodeHeader_data h]

end BufferPool

/-! ### Histories -/

/-- A call of an instance with the given limit, or a write of the owner to a
    buffer that is out. -/
inductive PoolCall where
  | acquire (maxSizePerThread size : Nat)
  | release (maxSizePerThread : Nat) (buf : Buffer)
  | write (index : Nat) (buf : Buffer)

/-- The limit of the instance that is called. -/
def PoolCall.limit : PoolCall → Nat
  | .acquire maxSizePerThread _ => maxSizePerThread
  | .release maxSizePerThread _ => maxSizePerThread
  | .write _ _ => 0

/-- The stack of a thread, and the buffers that were acquired on it. -/
structure PoolThread where
  pool : List Buffer := []
  acquired : List Buffer := []

namespace PoolThread

open BufferPool Buffer

def call (t : PoolThread) : PoolCall → PoolThread
  | .acquire _ size =>
    let (buf, pool) := BufferPool.acquire t.pool size
    { pool, acquired := t.acquired ++ [buf] }
  | .release maxSizePerThread buf =>
    { t with pool := BufferPool.release maxSizePerThread t.pool buf }
  | .write index buf => { t with acquired := t.acquired.set index buf }

def run (t : PoolThread) (calls : List PoolCall) : PoolThread := calls.foldl call t

/-- Every buffer on the stack is as good as new. -/
def Clean (pool : List Buffer) : Prop := ∀ buf ∈ pool, buf = blank

theorem blank_iff (buf : Buffer) : buf = blank ↔ buf.data = [] ∧ buf.capacity = blockSize := by
  constructor
  · rintro rfl
    exact ⟨rfl, rfl⟩
  · rintro ⟨hdata, hcapacity⟩
    rcases buf with ⟨data, capacity, hle⟩
    simp only at hdata hcapacity
    subst hdata hcapacity
    rfl

theorem clean_call {t : PoolThread} (h : Clean t.pool) (c : PoolCall) : Clean (t.call c).pool := by
  cases c with
  | acquire maxSizePerThread size =>
      simp only [call, BufferPool.acquire]
      split_ifs
      · exact h
      · cases hpool : t.pool with
        | nil => exact fun buf hbuf => absurd hbuf List.not_mem_nil
        | cons buf pool => exact fun other hother => h other (by rw [hpool]; exact .tail _ hother)
  | release maxSizePerThread buf =>
      simp only [call, BufferPool.release]
      split_ifs with hcapacity hroom
      · exact h
      · intro other hother
        rcases List.mem_cons.mp hother with rfl | hother
        · rw [not_not] at hcapacity
          exact (blank_iff _).mpr ⟨rfl, hcapacity⟩
        · exact h other hother
      · exact h
  | write index buf => exact h

theorem clean_run (calls : List PoolCall) : Clean (run {} calls).pool := by
  have hrun : ∀ (calls : List PoolCall) (t : PoolThread), Clean t.pool →
      Clean (run t calls).pool := by
    intro calls
    induction calls with
    | nil => exact fun t h => h
    | cons c calls ih => exact fun t h => ih (t.call c) (clean_call h c)
  exact hrun calls {} (fun buf hbuf => absurd hbuf List.not_mem_nil)

theorem length_pool_call {t : PoolThread} {bound : Nat} (h : t.pool.length ≤ bound)
    {c : PoolCall} (hc : c.limit ≤ bound) : (t.call c).pool.length ≤ bound := by
  cases c with
  | acquire maxSizePerThread size =>
      simp only [call, BufferPool.acquire]
      split_ifs
      · exact h
      · cases hpool : t.pool with
        | nil => exact Nat.zero_le _
        | cons buf pool =>
            rw [hpool, List.length_cons] at h
            exact Nat.le_of_succ_le h
  | release maxSizePerThread buf =>
      simp only [call, BufferPool.release]
      split_ifs with hcapacity hroom
      · exact h
      · simp only [PoolCall.limit] at hc
        rw [List.length_cons]
        omega
      · exact h
  | write index buf => exact h

theorem length_pool_run {calls : List PoolCall} {bound : Nat}
    (hcalls : ∀ c ∈ calls, c.limit ≤ bound) : (run {} calls).pool.length ≤ bound := by
  have hrun : ∀ (calls : List PoolCall) (t : PoolThread), t.pool.length ≤ bound →
      (∀ c ∈ calls, c.limit ≤ bound) → (run t calls).pool.length ≤ bound := by
    intro calls
    induction calls with
    | nil => exact fun t h _ => h
    | cons c calls ih =>
        intro t h hlimits
        exact ih (t.call c) (length_pool_call h (hlimits c List.mem_cons_self))
          (fun c' hc' => hlimits c' (List.mem_cons_of_mem _ hc'))
  exact hrun calls {} (Nat.zero_le _) hcalls

/-- From a clean stack, `acquire` returns what it would return from none. -/
theorem acquire_of_clean {pool : List Buffer} (h : Clean pool) (size : Nat) :
    (BufferPool.acquire pool size).1 = (BufferPool.acquire [] size).1 := by
  unfold BufferPool.acquire
  split_ifs
  · rfl
  · cases pool with
    | nil => rfl
    | cons buf pool => rw [h buf List.mem_cons_self]; rfl

theorem data_acquire_nil (size : Nat) :
    (BufferPool.acquire [] size).1.data
      = if size ≤ blockSize then List.replicate size 0 else [] := by
  unfold BufferPool.acquire
  by_cases hsize : size ≤ blockSize
  · rw [if_neg (by omega), if_pos hsize]
    simp [Buffer.resize, Buffer.reserve, Buffer.empty]
  · rw [if_pos (by omega), if_neg hsize]
    rfl

/-- The capacity of a frame is that of a block, wherever its buffer comes
    from. -/
theorem buildFrame_of_clean {pool : List Buffer} (h : Clean pool) (flags : UInt8)
    (payload : Bytes) :
    (BufferPool.buildFrame pool flags payload).1 = (BufferPool.buildFrame [] flags payload).1 := by
  have hacquire := acquire_of_clean h (headerSize + (UInt32.ofNat payload.length).toNat)
  unfold BufferPool.buildFrame
  simp only [hacquire]
  split_ifs <;> rfl

/-- After every history of calls on a thread: the buffers on its stack are
    empty and have the capacity of a block, there are no more of them than the
    largest limit among the instances that were called, and `acquire` returns
    what it returns when there is no pool. So a frame is its header and its
    payload, and the same one after every history. -/
theorem pooling_unobservable (calls : List PoolCall) :
    let pool := (run {} calls).pool
    (∀ buf ∈ pool, buf.data = [] ∧ buf.capacity = blockSize) ∧
    (∀ bound, (∀ c ∈ calls, c.limit ≤ bound) → pool.length ≤ bound) ∧
    (∀ size, (BufferPool.acquire pool size).1 = (BufferPool.acquire [] size).1 ∧
      (BufferPool.acquire pool size).1.data
        = if size ≤ blockSize then List.replicate size 0 else []) ∧
    (∀ flags payload, payload.length ≤ 2048 →
      (BufferPool.buildFrame pool flags payload).1.data
        = writeHeader flags (UInt32.ofNat payload.length) ++ payload) ∧
    ∀ (others : List PoolCall) (flags : UInt8) (payload : Bytes),
      (BufferPool.buildFrame pool flags payload).1
        = (BufferPool.buildFrame (run {} others).pool flags payload).1 := by
  intro pool
  have hclean : Clean pool := clean_run calls
  refine ⟨fun buf hbuf => ?_, fun bound hbound => length_pool_run hbound, fun size => ?_,
    fun flags payload hlen => data_buildFrame pool flags hlen, fun others flags payload => ?_⟩
  · exact (blank_iff buf).mp (hclean buf hbuf)
  · have hfresh := acquire_of_clean hclean size
    refine ⟨hfresh, ?_⟩
    rw [hfresh]
    exact data_acquire_nil size
  · rw [buildFrame_of_clean hclean, buildFrame_of_clean (clean_run others)]

end PoolThread

end ProjectNight
