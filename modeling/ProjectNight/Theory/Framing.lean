import Mathlib.Tactic
import ProjectNight.Core.Session

/-!
# Framing

What the sender's frame builder writes, the receiver's header handler reads.
Two kinds of frames ever enter a write queue: a data frame of one to 2048
payload bytes, and the keepalive, a header alone. A header says which of the
two it starts and how long the frame is, so a stream of frames can be cut up
again.

The size travels as four bytes in big-endian order; `toNat_readU32Be` is the
arithmetic behind reading it back.

## Main definitions

* `Sendable`: A payload that `send` does not refuse.
* `IsFrame`: A data frame or the keepalive.
* `framePayload`, `payloads`: The payloads in a list of frames.

## Theorems

* `readU32Be_writeHeader`: The size field is read back as it was written.
* `refused_iff`: What the guard of `send` refuses.
* `afterHeader_data`, `afterHeader_keepalive`: What the header of a frame leads
  to.
-/

namespace ProjectNight

open Wire

/-! ### The size field -/

namespace Wire

/-- A value shifted past another one does not touch it. -/
theorem shiftLeft_or_of_lt {a b n : Nat} (h : b < 2 ^ n) : a <<< n ||| b = a * 2 ^ n + b := by
  rw [← Nat.shiftLeft_add_eq_or_of_lt h, Nat.shiftLeft_eq]

theorem or_bytes {a b c d : Nat} (hb : b < 2 ^ 8) (hc : c < 2 ^ 8) (hd : d < 2 ^ 8) :
    a <<< 24 ||| b <<< 16 ||| c <<< 8 ||| d
      = a * 2 ^ 24 + b * 2 ^ 16 + c * 2 ^ 8 + d := by
  have h1 : b <<< 16 ||| c <<< 8 ||| d = b * 2 ^ 16 + c * 2 ^ 8 + d := by
    rw [Nat.or_assoc, shiftLeft_or_of_lt hd, shiftLeft_or_of_lt (by omega), Nat.add_assoc]
  rw [Nat.or_assoc, Nat.or_assoc, ← Nat.or_assoc (b <<< 16), h1,
    shiftLeft_or_of_lt (by omega)]
  omega

theorem toNat_readU32Be (p0 p1 p2 p3 : UInt8) :
    (readU32Be p0 p1 p2 p3).toNat
      = p0.toNat * 2 ^ 24 + p1.toNat * 2 ^ 16 + p2.toNat * 2 ^ 8 + p3.toNat := by
  have h0 := p0.toNat_lt
  have h1 := p1.toNat_lt
  have h2 := p2.toNat_lt
  have h3 := p3.toNat_lt
  unfold readU32Be
  simp only [UInt32.toNat_or, UInt32.toNat_shiftLeft, UInt8.toNat_toUInt32, UInt32.reduceToNat,
    Nat.reduceMod]
  rw [← or_bytes h1 h2 h3]
  rw [Nat.mod_eq_of_lt, Nat.mod_eq_of_lt, Nat.mod_eq_of_lt] <;> rw [Nat.shiftLeft_eq] <;> omega

/-- The size field is read back as it was written. -/
theorem readU32Be_writeHeader (n : UInt32) :
    readU32Be (n >>> 24).toUInt8 (n >>> 16).toUInt8 (n >>> 8).toUInt8 n.toUInt8 = n := by
  apply UInt32.toNat_inj.mp
  have h := n.toNat_lt
  rw [toNat_readU32Be]
  simp only [UInt32.toNat_toUInt8, UInt32.toNat_shiftRight, UInt32.reduceToNat, Nat.reduceMod,
    Nat.shiftRight_eq_div_pow]
  omega

@[simp] theorem length_writeHeader (flags : UInt8) (n : UInt32) :
    (writeHeader flags n).length = headerSize := rfl

end Wire

/-! ### Frames -/

/-- A payload that `send` does not refuse. -/
def Sendable (payload : Bytes) : Prop := payload ≠ [] ∧ payload.length ≤ maxPayloadSize

instance (payload : Bytes) : Decidable (Sendable payload) :=
  inferInstanceAs (Decidable (_ ∧ _))

/-- The guard in front of every `send`. -/
theorem refused_iff (payload : Bytes) :
    (payload.isEmpty = true ∨ payload.length > maxPayloadSize) ↔ ¬ Sendable payload := by
  unfold Sendable
  rw [List.isEmpty_iff, not_and_or, not_not, not_le]

theorem Sendable.length_pos {payload : Bytes} (h : Sendable payload) : 0 < payload.length :=
  List.length_pos_iff.mpr h.1

/-- A data frame or the keepalive. -/
inductive IsFrame : Bytes → Prop where
  | data {payload : Bytes} (h : Sendable payload) : IsFrame (buildDataFrame payload)
  | keepalive : IsFrame buildKeepaliveFrame

/-- The payload of a frame; a header alone has none. -/
def framePayload (frame : Bytes) : Option Bytes :=
  if frame.length ≤ headerSize then none else some (frame.drop headerSize)

def payloads (frames : List Bytes) : List Bytes := frames.filterMap framePayload

theorem toNat_ofNat_length {payload : Bytes} (h : Sendable payload) :
    (UInt32.ofNat payload.length).toNat = payload.length := by
  have hle := h.2
  unfold maxPayloadSize at hle
  rw [UInt32.toNat_ofNat', Nat.mod_eq_of_lt (by omega)]

/-- A data frame is a header and the payload. -/
theorem buildDataFrame_eq {payload : Bytes} (h : Sendable payload) :
    buildDataFrame payload
      = writeHeader 0 (UInt32.ofNat payload.length) ++ payload := by
  have hle := h.2
  unfold buildDataFrame buildFrame
  rw [if_neg (by rw [List.isEmpty_iff]; exact h.1)]
  simp only [toNat_ofNat_length h, List.take_length]
  rw [if_neg]
  unfold acquire blockSize
  rw [if_neg (by omega), List.isEmpty_iff, List.replicate_eq_nil_iff]
  unfold headerSize
  omega

theorem buildDataFrame_ne_nil {payload : Bytes} (h : Sendable payload) :
    buildDataFrame payload ≠ [] := by
  rw [buildDataFrame_eq h]
  exact List.append_ne_nil_of_left_ne_nil (List.cons_ne_nil _ _) _

theorem take_buildDataFrame {payload : Bytes} (h : Sendable payload) :
    (buildDataFrame payload).take headerSize
      = writeHeader 0 (UInt32.ofNat payload.length) := by
  rw [buildDataFrame_eq h]
  exact List.take_left' rfl

theorem drop_buildDataFrame {payload : Bytes} (h : Sendable payload) :
    (buildDataFrame payload).drop headerSize = payload := by
  rw [buildDataFrame_eq h]
  exact List.drop_left' rfl

theorem length_buildDataFrame {payload : Bytes} (h : Sendable payload) :
    (buildDataFrame payload).length = headerSize + payload.length := by
  rw [buildDataFrame_eq h, List.length_append, length_writeHeader]

theorem length_buildKeepaliveFrame : buildKeepaliveFrame.length = headerSize := by decide

theorem IsFrame.headerSize_le {frame : Bytes} (h : IsFrame frame) :
    headerSize ≤ frame.length := by
  cases h with
  | data h =>
      rw [length_buildDataFrame h]
      exact Nat.le_add_right _ _
  | keepalive => rw [length_buildKeepaliveFrame]

@[simp] theorem framePayload_data {payload : Bytes} (h : Sendable payload) :
    framePayload (buildDataFrame payload) = some payload := by
  have hpos := h.length_pos
  unfold framePayload
  rw [length_buildDataFrame h, if_neg (by omega), drop_buildDataFrame h]

@[simp] theorem framePayload_keepalive : framePayload buildKeepaliveFrame = none := by
  unfold framePayload
  rw [length_buildKeepaliveFrame, if_pos (le_refl _)]

theorem payloads_append (fs gs : List Bytes) : payloads (fs ++ gs) = payloads fs ++ payloads gs :=
  List.filterMap_append

theorem payloads_data {payload : Bytes} (h : Sendable payload) :
    payloads [buildDataFrame payload] = [payload] := by
  rw [payloads, List.filterMap_cons, framePayload_data h, List.filterMap_nil]

theorem payloads_keepalive : payloads [buildKeepaliveFrame] = [] := by
  rw [payloads, List.filterMap_cons, framePayload_keepalive, List.filterMap_nil]

/-! ### What a header leads to -/

theorem decodeHeader_data {payload : Bytes} (h : Sendable payload) :
    decodeHeader (writeHeader 0 (UInt32.ofNat payload.length))
      = .ok ⟨magic, version, 0, UInt32.ofNat payload.length⟩ := by
  have hpos := h.length_pos
  have hsize := toNat_ofNat_length h
  have hread := readU32Be_writeHeader (UInt32.ofNat payload.length)
  have hne : UInt32.ofNat payload.length ≠ 0 := by
    intro hzero
    rw [hzero, UInt32.toNat_zero] at hsize
    omega
  have hle : ¬ (UInt32.ofNat payload.length).toNat > maxPayloadSize := by
    rw [hsize]
    exact Nat.not_lt.mpr h.2
  unfold decodeHeader
  simp only [writeHeader, magicOffset, versionOffset, flagsOffset, payloadSizeOffset,
    List.getD_cons_zero, List.getD_cons_succ, hread]
  rw [if_neg (by decide), if_neg (by decide), if_neg (by decide), if_neg hle,
    if_neg (by simp only [Header.isKeepalive]; decide), if_neg hne]
  rfl

/-- A data header leads to a body of the announced size. -/
theorem afterHeader_data {payload : Bytes} (h : Sendable payload) :
    Reader.afterHeader ((buildDataFrame payload).take headerSize)
      = some (.waiting (.body payload.length)) := by
  rw [take_buildDataFrame h, Reader.afterHeader, decodeHeader_data h]
  simp only [Header.isKeepalive, toNat_ofNat_length h]
  rw [if_neg (by decide)]

/-- A keepalive leads to the next header. -/
theorem afterHeader_keepalive :
    Reader.afterHeader (buildKeepaliveFrame.take headerSize) = some (.waiting .header) := by
  decide

end ProjectNight
