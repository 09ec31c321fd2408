import ProjectNight.Theory.StreamParsing

/-!
# Header Codec

`write_header` and `decode_header` against each other, over all 2^64 inputs of
eight bytes. Decoding is the inverse of writing on the two kinds of header the
protocol has, and fails on everything else; and each of its four errors says
what is wrong with the header.

An input of eight bytes that starts with the magic and the version is written
by `write_header` from its own flags and size (`writeHeader_of_bytes`), so the
whole codec follows from what `decode_header` makes of a written header
(`decodeHeader_writeHeader`).

The source masks the flags with `~KNOWN_FLAGS_MASK`, which is an `int`; the
bits above the eight of a flags byte are zero on the other side of the `&`, so
the complement may be taken over eight bits.

## Main definitions

* `SizeRule`: The flags and sizes of the two kinds of header.
* `HasUnknownFlag`: A bit other than bit 0 is set.

## Theorems

* `decodeHeader_writeHeader`: Decoding a written header.
* `writeHeader_of_bytes`: The header that eight bytes are.
* `header_codec`: The codec.
-/

namespace ProjectNight

open Wire

/-- A data header announces 1 to 2048 bytes, a keepalive none. -/
def SizeRule (flags : UInt8) (payloadSize : UInt32) : Prop :=
  flags = 0 ∧ 1 ≤ payloadSize.toNat ∧ payloadSize.toNat ≤ 2048 ∨ flags = 1 ∧ payloadSize = 0

instance (flags : UInt8) (payloadSize : UInt32) : Decidable (SizeRule flags payloadSize) :=
  inferInstanceAs (Decidable (_ ∨ _))

/-- A bit other than bit 0 is set. -/
def HasUnknownFlag (flags : UInt8) : Prop := ∃ i, 1 ≤ i ∧ i < 8 ∧ flags.toNat.testBit i = true

namespace Wire

-- All 256 flag bytes.
theorem hasUnknownFlag_iff (flags : UInt8) :
    HasUnknownFlag flags ↔ ¬ (flags = 0 ∨ flags = 1) := by
  have hbits : HasUnknownFlag flags ↔
      ∃ i : Fin 8, 1 ≤ i.val ∧ flags.toNat.testBit i.val = true := by
    constructor
    · rintro ⟨i, hpos, hlt, hbit⟩
      exact ⟨⟨i, hlt⟩, hpos, hbit⟩
    · rintro ⟨i, hpos, hbit⟩
      exact ⟨i.val, hpos, i.isLt, hbit⟩
  rw [hbits]
  clear hbits
  rcases flags with ⟨v⟩
  revert v
  decide +kernel

theorem sizeRule_data {payloadSize : UInt32} :
    SizeRule 0 payloadSize ↔ 1 ≤ payloadSize.toNat ∧ payloadSize.toNat ≤ 2048 := by
  have hzero : ¬ (0 : UInt8) = 1 := by decide
  simp only [SizeRule, true_and, hzero, false_and, or_false]

theorem sizeRule_keepalive {payloadSize : UInt32} : SizeRule 1 payloadSize ↔ payloadSize = 0 := by
  have hone : ¬ (1 : UInt8) = 0 := by decide
  simp only [SizeRule, true_and, hone, false_and, false_or]

/-- A written header passes the first two checks, and what is left to check are
    the flags and then the size. -/
theorem decodeHeader_writeHeader (flags : UInt8) (payloadSize : UInt32) :
    decodeHeader (writeHeader flags payloadSize)
      = if ¬ (flags = 0 ∨ flags = 1) then .error .invalidFlags
        else if SizeRule flags payloadSize then .ok ⟨magic, version, flags, payloadSize⟩
        else .error .invalidPayloadSize := by
  have hread := readU32Be_writeHeader payloadSize
  have hmagic : readU16Be (magic >>> 8).toUInt8 (magic &&& 0xFF).toUInt8 = magic := by decide
  have hzero : payloadSize = 0 ↔ payloadSize.toNat = 0 := by
    rw [← UInt32.toNat_inj, UInt32.toNat_zero]
  unfold decodeHeader
  simp only [writeHeader, magicOffset, versionOffset, flagsOffset, payloadSizeOffset,
    List.getD_cons_zero, List.getD_cons_succ, hread, hmagic, ne_eq, not_true_eq_false, if_false,
    unknownFlags_eq_zero]
  by_cases hflags : flags = 0 ∨ flags = 1
  · rw [if_neg (not_not.mpr hflags), if_neg (not_not.mpr hflags)]
    rcases hflags with rfl | rfl
    · have hdata : (Header.mk magic version 0 payloadSize).isKeepalive = false := by
        simp only [Header.isKeepalive]
        decide
      simp only [hdata, Bool.false_eq_true, if_false]
      by_cases hrule : SizeRule 0 payloadSize
      · rw [sizeRule_data] at hrule
        rw [if_neg (by unfold maxPayloadSize; omega), if_neg (by rw [hzero]; omega),
          if_pos (sizeRule_data.mpr hrule)]
      · rw [if_neg hrule]
        rw [sizeRule_data] at hrule
        by_cases hlong : payloadSize.toNat > maxPayloadSize
        · rw [if_pos hlong]
        · unfold maxPayloadSize at hlong
          rw [if_neg (by unfold maxPayloadSize; omega), if_pos (by rw [hzero]; omega)]
    · have hkeepalive : (Header.mk magic version 1 payloadSize).isKeepalive = true := by
        simp only [Header.isKeepalive]
        decide
      simp only [hkeepalive, if_true]
      by_cases hempty : payloadSize = 0
      · rw [if_neg (by rw [hempty]; decide), if_neg (not_not.mpr hempty),
          if_pos (sizeRule_keepalive.mpr hempty)]
      · rw [if_pos hempty, if_neg (sizeRule_keepalive.not.mpr hempty), ite_self]
  · rw [if_pos hflags, if_pos hflags]

/-- The size bytes of a header are written from the size that is read from
    them. -/
theorem bytes_readU32Be (p0 p1 p2 p3 : UInt8) :
    ((readU32Be p0 p1 p2 p3) >>> 24).toUInt8 = p0 ∧
    ((readU32Be p0 p1 p2 p3) >>> 16).toUInt8 = p1 ∧
    ((readU32Be p0 p1 p2 p3) >>> 8).toUInt8 = p2 ∧ (readU32Be p0 p1 p2 p3).toUInt8 = p3 := by
  have h0 := p0.toNat_lt
  have h1 := p1.toNat_lt
  have h2 := p2.toNat_lt
  have h3 := p3.toNat_lt
  have hword := toNat_readU32Be p0 p1 p2 p3
  refine ⟨?_, ?_, ?_, ?_⟩ <;>
    · rw [← UInt8.toNat_inj]
      simp only [UInt32.toNat_toUInt8, UInt32.toNat_shiftRight, UInt32.reduceToNat,
        Nat.reduceMod, Nat.shiftRight_eq_div_pow, hword]
      omega

/-- Eight bytes that start with the magic and the version are the header with
    their flags and size. -/
theorem writeHeader_of_bytes {b0 b1 b2 : UInt8} (hmagic : readU16Be b0 b1 = magic)
    (hversion : b2 = version) (b3 b4 b5 b6 b7 : UInt8) :
    writeHeader b3 (readU32Be b4 b5 b6 b7) = [b0, b1, b2, b3, b4, b5, b6, b7] := by
  rcases bytes_readU32Be b4 b5 b6 b7 with ⟨h4, h5, h6, h7⟩
  rw [readU16Be_eq_magic] at hmagic
  unfold writeHeader
  rw [h4, h5, h6, h7, hmagic.1, hmagic.2, hversion]
  rfl

end Wire

-- A header that is decoded was written, from its own flags and size.
theorem eq_writeHeader_of_decodeHeader {x : Bytes} (hx : x.length = headerSize) {header : Header}
    (h : decodeHeader x = .ok header) : x = writeHeader header.flags header.payloadSize := by
  rcases x with _ | ⟨b0, _ | ⟨b1, _ | ⟨b2, _ | ⟨b3, _ | ⟨b4, _ | ⟨b5, _ | ⟨b6, _ | ⟨b7,
    _ | ⟨b8, rest⟩⟩⟩⟩⟩⟩⟩⟩⟩ <;> simp only [List.length_cons, List.length_nil, headerSize] at hx <;>
    try omega
  have hmagic : readU16Be b0 b1 = magic := by
    by_contra hne
    simp [decodeHeader, magicOffset, hne] at h
  have hversion : b2 = version := by
    by_contra hne
    simp [decodeHeader, magicOffset, versionOffset, hmagic, hne] at h
  have hwritten := writeHeader_of_bytes hmagic hversion b3 b4 b5 b6 b7
  rw [← hwritten, decodeHeader_writeHeader] at h
  rw [← hwritten]
  split_ifs at h
  rw [← Except.ok.inj h]

/-- Of all inputs of eight bytes, `decode_header` accepts those that
    `write_header` makes of the two kinds of header, and returns what they were
    made of. The size is read back from a written header whatever it is, the
    magic and the version of a written header are never refused, its flags are
    when an unknown bit is set, and otherwise its size is when it breaks the
    rule for its kind. -/
theorem header_codec (x : Bytes) (hx : x.length = headerSize) (header : Header) (flags : UInt8)
    (payloadSize : UInt32) :
    (decodeHeader x = .ok header ↔
      header.magic = magic ∧ header.version = version ∧
        x = writeHeader header.flags header.payloadSize ∧
        SizeRule header.flags header.payloadSize) ∧
    (∃ p4 p5 p6 p7, (writeHeader flags payloadSize).drop payloadSizeOffset = [p4, p5, p6, p7] ∧
      readU32Be p4 p5 p6 p7 = payloadSize) ∧
    decodeHeader (writeHeader flags payloadSize) ≠ .error .invalidMagic ∧
    decodeHeader (writeHeader flags payloadSize) ≠ .error .unsupportedVersion ∧
    (decodeHeader (writeHeader flags payloadSize) = .error .invalidFlags ↔
      HasUnknownFlag flags) ∧
    (¬ HasUnknownFlag flags →
      (decodeHeader (writeHeader flags payloadSize) = .error .invalidPayloadSize ↔
        ¬ SizeRule flags payloadSize)) := by
  refine ⟨⟨fun h => ?_, ?_⟩, ⟨_, _, _, _, rfl, readU32Be_writeHeader payloadSize⟩, ?_⟩
  · have hwritten := eq_writeHeader_of_decodeHeader hx h
    rw [hwritten, decodeHeader_writeHeader] at h
    split_ifs at h with hflags hrule
    have hheader := Except.ok.inj h
    rw [← hheader] at hwritten ⊢
    exact ⟨rfl, rfl, hwritten, hrule⟩
  · rintro ⟨hmagic, hversion, hwritten, hrule⟩
    have hflags : header.flags = 0 ∨ header.flags = 1 := by
      rcases hrule with ⟨hdata, _⟩ | ⟨hkeepalive, _⟩
      · exact Or.inl hdata
      · exact Or.inr hkeepalive
    rw [hwritten, decodeHeader_writeHeader, if_neg (not_not.mpr hflags), if_pos hrule,
      ← hmagic, ← hversion]
  · rw [decodeHeader_writeHeader, hasUnknownFlag_iff]
    by_cases hflags : flags = 0 ∨ flags = 1
    · by_cases hrule : SizeRule flags payloadSize
      · simp [hflags, hrule]
      · simp [hflags, hrule]
    · simp [hflags]

/-- The data header of three bytes. -/
theorem header_codec_three :
    decodeHeader [0x4E, 0x4E, 1, 0, 0, 0, 0, 3] = .ok ⟨magic, version, 0, 3⟩ :=
  (header_codec [0x4E, 0x4E, 1, 0, 0, 0, 0, 3] rfl ⟨magic, version, 0, 3⟩ 0 3).1.mpr
    ⟨rfl, rfl, by decide, by decide⟩

end ProjectNight
