import ProjectNight.Core.Protocol

/-!
# Wire Format

`Protocol.h` and `TransportDetail.h`: the eight-byte header in front of every
payload, and the functions that write and read it.

A frame is a header and a payload. A data frame has flags 0 and a payload of 1
to 2048 bytes, a keepalive frame has the keepalive flag and no payload, and
`decode_header` accepts these two kinds of header and no other.

`BufferPool::acquire` appears as what it returns: `size` zero bytes, or an
empty vector when `size` exceeds a block.

## Main definitions

* `Header`, `HeaderDecodeError`: A decoded header, and why there is none.
* `writeHeader`, `decodeHeader`: The codec.
* `acquire`: A buffer of a given size.
* `buildFrame`, `buildDataFrame`, `buildKeepaliveFrame`: Frames.
-/

namespace ProjectNight

namespace Wire

/-- `MAGIC`, the letters `NN`. -/
def magic : UInt16 := 0x4E4E

def version : UInt8 := 1

def flagKeepalive : UInt8 := 0x01

def knownFlagsMask : UInt8 := flagKeepalive

def magicOffset : Nat := 0

def versionOffset : Nat := 2

def flagsOffset : Nat := 3

def payloadSizeOffset : Nat := 4

def headerSize : Nat := 8

def maxPayloadSize : Nat := 2048

/-- `BufferPool::BLOCK_SIZE`. -/
def blockSize : Nat := headerSize + maxPayloadSize

structure Header where
  magic : UInt16
  version : UInt8
  flags : UInt8
  payloadSize : UInt32
  deriving DecidableEq, Repr

def Header.isKeepalive (header : Header) : Bool := header.flags &&& flagKeepalive != 0

inductive HeaderDecodeError where
  | invalidMagic
  | unsupportedVersion
  | invalidFlags
  | invalidPayloadSize
  deriving DecidableEq, Repr

def readU16Be (p0 p1 : UInt8) : UInt16 := p0.toUInt16 <<< 8 ||| p1.toUInt16

def readU32Be (p0 p1 p2 p3 : UInt8) : UInt32 :=
  p0.toUInt32 <<< 24 ||| p1.toUInt32 <<< 16 ||| p2.toUInt32 <<< 8 ||| p3.toUInt32

def writeHeader (flags : UInt8) (payloadSize : UInt32) : Bytes :=
  [(magic >>> 8).toUInt8, (magic &&& 0xFF).toUInt8, version, flags,
    (payloadSize >>> 24).toUInt8, (payloadSize >>> 16).toUInt8, (payloadSize >>> 8).toUInt8,
    payloadSize.toUInt8]

/-- The input is a buffer of `headerSize` bytes. -/
def decodeHeader (input : Bytes) : Except HeaderDecodeError Header :=
  let byte := fun i => input.getD i 0
  let header : Header := {
    magic := readU16Be (byte magicOffset) (byte (magicOffset + 1))
    version := byte versionOffset
    flags := byte flagsOffset
    payloadSize := readU32Be (byte payloadSizeOffset) (byte (payloadSizeOffset + 1))
      (byte (payloadSizeOffset + 2)) (byte (payloadSizeOffset + 3)) }
  if header.magic ≠ magic then .error .invalidMagic
  else if header.version ≠ version then .error .unsupportedVersion
  else if header.flags &&& ~~~knownFlagsMask ≠ 0 then .error .invalidFlags
  else if header.payloadSize.toNat > maxPayloadSize then .error .invalidPayloadSize
  else if header.isKeepalive then
    if header.payloadSize ≠ 0 then .error .invalidPayloadSize else .ok header
  else if header.payloadSize = 0 then .error .invalidPayloadSize
  else .ok header

/-- `BufferPool::acquire`. -/
def acquire (size : Nat) : Bytes := if size > blockSize then [] else List.replicate size 0

/-- The header and the payload overwrite the acquired buffer; the size is
    narrowed to 32 bits first. -/
def buildFrame (flags : UInt8) (payload : Bytes) : Bytes :=
  let size := UInt32.ofNat payload.length
  let frame := acquire (headerSize + size.toNat)
  if frame.isEmpty then frame
  else writeHeader flags size ++ payload.take size.toNat

def buildDataFrame (payload : Bytes) : Bytes :=
  if payload.isEmpty then [] else buildFrame 0 payload

def buildKeepaliveFrame : Bytes := buildFrame flagKeepalive []

end Wire

end ProjectNight
