import Mathlib.Tactic
import ProjectNight.Lib.Feed
import ProjectNight.Theory.Transitions

/-!
# Parsing the Stream

The read loop of a connection, on any byte stream whatever. `do_read_header`
and `do_read_body` ask for eight bytes and then, after a data header, for as
many as the header announced; the same two functions stand in `Session.cpp`
and in `Client.cpp`. What they accept is a grammar, and the grammar is written
down here without them (`WellFormedHeader`, `WellFormedFrame`): a stream is a
concatenation of frames, and a header says where its frame ends.

The two loops are instances of `Feed.Loop`, each made of the handlers of its
own side. Both correspond, read by read, to one small parser whose state is
the outstanding read (`parser`), and the parser is compared with the grammar.

A body is copied into a buffer from the pool before it is handed over. The
pool refuses sizes above its block; no body is that large.

## Main definitions

* `WellFormedHeader`, `WellFormedFrame`: The grammar.
* `LongestFrames`: The longest prefix of a stream that is made of frames.
* `Session.readLoop`, `Client.readLoop`: The two read loops.
* `ParsesStreams`: What a read loop has to do with every stream.

## Theorems

* `afterHeader_eq`: `decode_header` accepts the well-formed headers.
* `drain_longest`: The parser reads the longest prefix made of frames.
* `Session.readLoop_sim`, `Client.readLoop_sim`: Both loops are the
  parser.
-/

namespace ProjectNight

open Wire Feed

/-! ### The grammar -/

/-- The size a header announces, most significant byte first. -/
def announcedSize (header : Bytes) : Nat :=
  (header.getD 4 0).toNat * 2 ^ 24 + (header.getD 5 0).toNat * 2 ^ 16
    + (header.getD 6 0).toNat * 2 ^ 8 + (header.getD 7 0).toNat

/-- Eight bytes: the letters `NN`, version 1, and either flags 0 with a size of
    1 to 2048 or flags 1 with size 0. -/
def WellFormedHeader (header : Bytes) : Prop :=
  header.length = 8 ∧ header.getD 0 0 = 0x4E ∧ header.getD 1 0 = 0x4E ∧ header.getD 2 0 = 1 ∧
    (header.getD 3 0 = 0 ∧ 1 ≤ announcedSize header ∧ announcedSize header ≤ 2048 ∨
      header.getD 3 0 = 1 ∧ announcedSize header = 0)

instance (header : Bytes) : Decidable (WellFormedHeader header) :=
  inferInstanceAs (Decidable (_ ∧ _))

/-- A well-formed header and as many bytes as it announces. -/
def WellFormedFrame (frame : Bytes) : Prop :=
  WellFormedHeader (frame.take 8) ∧ frame.length = 8 + announcedSize (frame.take 8)

instance (frame : Bytes) : Decidable (WellFormedFrame frame) :=
  inferInstanceAs (Decidable (_ ∧ _))

/-- The longest prefix of a stream that is a concatenation of well-formed
    frames, and the remainder. -/
structure LongestFrames (stream : Bytes) (frames : List Bytes) (rest : Bytes) : Prop where
  wellFormed : ∀ frame ∈ frames, WellFormedFrame frame
  split : stream = frames.flatten ++ rest
  longest : ∀ gs : List Bytes, (∀ g ∈ gs, WellFormedFrame g) → gs.flatten <+: stream →
    gs.flatten <+: frames.flatten

/-! ### `decode_header` -/

namespace Wire

theorem toNat_readU16Be (p0 p1 : UInt8) :
    (readU16Be p0 p1).toNat = p0.toNat * 2 ^ 8 + p1.toNat := by
  have h0 := p0.toNat_lt
  have h1 := p1.toNat_lt
  unfold readU16Be
  simp only [UInt16.toNat_or, UInt16.toNat_shiftLeft, UInt8.toNat_toUInt16, UInt16.reduceToNat,
    Nat.reduceMod]
  rw [Nat.mod_eq_of_lt, shiftLeft_or_of_lt h1]
  rw [Nat.shiftLeft_eq]
  omega

theorem readU16Be_eq_magic (p0 p1 : UInt8) :
    readU16Be p0 p1 = magic ↔ p0 = 0x4E ∧ p1 = 0x4E := by
  have h1 := p1.toNat_lt
  rw [← UInt16.toNat_inj, ← UInt8.toNat_inj, ← UInt8.toNat_inj, toNat_readU16Be]
  simp only [magic, UInt16.reduceToNat, UInt8.reduceToNat]
  omega

/-- The mask of known flags leaves two values. -/
theorem unknownFlags_eq_zero (flags : UInt8) :
    flags &&& ~~~knownFlagsMask = 0 ↔ flags = 0 ∨ flags = 1 := by
  rcases flags with ⟨v⟩
  revert v
  decide +kernel

end Wire

/-- What a header leads to, by the grammar. -/
theorem afterHeader_eq {header : Bytes} (hlen : header.length = 8) :
    Reader.afterHeader header
      = if WellFormedHeader header then
          some (.waiting (if header.getD 3 0 = 0 then .body (announcedSize header) else .header))
        else none := by
  have hsize : (readU32Be (header.getD 4 0) (header.getD 5 0) (header.getD 6 0)
      (header.getD 7 0)).toNat = announcedSize header := toNat_readU32Be _ _ _ _
  have hzero : readU32Be (header.getD 4 0) (header.getD 5 0) (header.getD 6 0)
      (header.getD 7 0) = 0 ↔ announcedSize header = 0 := by
    rw [← UInt32.toNat_inj, hsize, UInt32.toNat_zero]
  unfold Reader.afterHeader decodeHeader WellFormedHeader
  simp only [magicOffset, versionOffset, flagsOffset, payloadSizeOffset, Nat.zero_add,
    Nat.reduceAdd, ne_eq, readU16Be_eq_magic, unknownFlags_eq_zero, hsize, hzero,
    maxPayloadSize, hlen, true_and, Header.isKeepalive, version]
  -- Only equations between bytes are left: the fields can be taken one by one.
  generalize readU32Be (header.getD 4 0) (header.getD 5 0) (header.getD 6 0) (header.getD 7 0)
    = word at *
  generalize announcedSize header = size at *
  generalize header.getD 0 0 = m0, header.getD 1 0 = m1, header.getD 2 0 = v,
    header.getD 3 0 = flags at *
  by_cases hm0 : m0 = 0x4E
  · by_cases hm1 : m1 = 0x4E
    · by_cases hv : v = 1
      · by_cases hf : flags = 0 ∨ flags = 1
        · have hcases : 2048 < size ∨ size = 0 ∨ 1 ≤ size ∧ size ≤ 2048 := by omega
          rcases hf with hf | hf <;> rcases hcases with hsz | hsz | ⟨hpos, hle⟩
          · simp [hm0, hm1, hv, hf, hsz, Nat.not_le.mpr hsz]
          · simp [hm0, hm1, hv, hf, hsz, flagKeepalive]
          · simp [hm0, hm1, hv, hf, hpos, hle, Nat.not_lt.mpr hle, Nat.pos_iff_ne_zero.mp hpos,
              flagKeepalive, hsize]
          · simp [hm0, hm1, hv, hf, hsz, Nat.pos_iff_ne_zero.mp (Nat.zero_lt_of_lt hsz)]
          · simp [hm0, hm1, hv, hf, hsz, flagKeepalive]
          · simp [hm0, hm1, hv, hf, Nat.not_lt.mpr hle, Nat.pos_iff_ne_zero.mp hpos,
              flagKeepalive]
        · simp [hm0, hm1, hv, not_or.mp hf]
      · simp [hm0, hm1, hv]
    · simp [hm0, hm1]
  · simp [hm0]

/-- A header leads to a read. -/
theorem afterHeader_waiting {header : Bytes} {reader : Reader}
    (h : Reader.afterHeader header = some reader) : ∃ target, reader = .waiting target := by
  unfold Reader.afterHeader at h
  split at h
  · simp at h
  · split_ifs at h
    · exact ⟨_, (Option.some.inj h).symm⟩
    · exact ⟨_, (Option.some.inj h).symm⟩

/-! ### Frames of the grammar -/

theorem WellFormedFrame.length_take {frame : Bytes} (h : WellFormedFrame frame) :
    (frame.take 8).length = 8 := h.1.1

/-- A header says where its frame ends. -/
theorem WellFormedFrame.append_inj {f g x y : Bytes} (hf : WellFormedFrame f)
    (hg : WellFormedFrame g) (h : f ++ x = g ++ y) : f = g ∧ x = y := by
  have hflen : 8 ≤ f.length := by
    have := hf.2
    omega
  have hglen : 8 ≤ g.length := by
    have := hg.2
    omega
  have hheader : f.take 8 = g.take 8 := by
    rw [← List.take_append_of_le_length hflen, h, List.take_append_of_le_length hglen]
  have hlen : f.length = g.length := by rw [hf.2, hg.2, hheader]
  exact List.append_inj h hlen

theorem WellFormedFrame.ne_nil {frame : Bytes} (h : WellFormedFrame frame) : frame ≠ [] := by
  rintro rfl
  have hlen := h.2
  rw [List.length_nil] at hlen
  omega

/-- Frames before a remainder that starts with no frame: no other frames go
    further. -/
theorem flatten_isPrefix {frames gs : List Bytes} {rest : Bytes}
    (hframes : ∀ frame ∈ frames, WellFormedFrame frame) (hgs : ∀ g ∈ gs, WellFormedFrame g)
    (hrest : ∀ frame, WellFormedFrame frame → ¬ frame <+: rest)
    (h : gs.flatten <+: frames.flatten ++ rest) : gs.flatten <+: frames.flatten := by
  induction gs generalizing frames with
  | nil => exact List.nil_prefix
  | cons g gs ih =>
      have hg := hgs g (List.mem_cons_self ..)
      rcases h with ⟨y, hy⟩
      rw [List.flatten_cons, List.append_assoc] at hy
      cases frames with
      | nil =>
          rw [List.flatten_nil, List.nil_append] at hy
          exact absurd ⟨_, hy⟩ (hrest g hg)
      | cons frame frames =>
          have hframe := hframes frame (List.mem_cons_self ..)
          rw [List.flatten_cons, List.append_assoc] at hy
          rcases hg.append_inj hframe hy with ⟨rfl, htail⟩
          rw [List.flatten_cons, List.flatten_cons, List.prefix_append_right_inj]
          exact ih (fun f hf => hframes f (List.mem_cons_of_mem _ hf))
            (fun f hf => hgs f (List.mem_cons_of_mem _ hf)) ⟨y, htail⟩

/-- After the longest prefix made of frames there is no further frame. -/
theorem LongestFrames.no_frame {stream rest : Bytes} {frames : List Bytes}
    (h : LongestFrames stream frames rest) {frame : Bytes} (hframe : WellFormedFrame frame) :
    ¬ frame <+: rest := by
  rintro ⟨tail, htail⟩
  have hlonger : (frames ++ [frame]).flatten <+: frames.flatten := by
    apply h.longest
    · intro g hg
      rcases List.mem_append.mp hg with hg | hg
      · exact h.wellFormed g hg
      · rw [List.mem_singleton.mp hg]
        exact hframe
    · refine ⟨tail, ?_⟩
      rw [h.split, ← htail]
      simp
  have hlen := hlonger.length_le
  have hpos := List.length_pos_iff.mpr hframe.ne_nil
  rw [List.flatten_append, List.length_append, List.flatten_singleton] at hlen
  omega

/-- Every stream has a longest prefix made of frames. -/
theorem exists_longestFrames (stream : Bytes) :
    ∃ frames rest, LongestFrames stream frames rest := by
  have hsplit : ∃ frames : List Bytes, ∃ rest : Bytes,
      (∀ frame ∈ frames, WellFormedFrame frame) ∧ stream = frames.flatten ++ rest ∧
        ∀ frame, WellFormedFrame frame → ¬ frame <+: rest := by
    induction hn : stream.length using Nat.strong_induction_on generalizing stream with
    | _ n ih =>
        by_cases hframe : ∃ frame, WellFormedFrame frame ∧ frame <+: stream
        · rcases hframe with ⟨frame, hwf, tail, htail⟩
          have hpos := List.length_pos_iff.mpr hwf.ne_nil
          have hlen : tail.length < n := by
            rw [← hn, ← htail, List.length_append]
            omega
          rcases ih _ hlen tail rfl with ⟨frames, rest, hframes, hsplit, hrest⟩
          refine ⟨frame :: frames, rest, ?_, ?_, hrest⟩
          · intro g hg
            rcases List.mem_cons.mp hg with rfl | hg
            · exact hwf
            · exact hframes g hg
          · rw [← htail, hsplit, List.flatten_cons, List.append_assoc]
        · refine ⟨[], stream, by simp, rfl, ?_⟩
          intro frame hwf hprefix
          exact hframe ⟨frame, hwf, hprefix⟩
  rcases hsplit with ⟨frames, rest, hframes, hsplit, hrest⟩
  refine ⟨frames, rest, hframes, hsplit, ?_⟩
  intro gs hgs hprefix
  exact flatten_isPrefix hframes hgs hrest (hsplit ▸ hprefix)

/-- A concatenation of frames is its own longest prefix. -/
theorem longestFrames_flatten {frames : List Bytes}
    (h : ∀ frame ∈ frames, WellFormedFrame frame) : LongestFrames frames.flatten frames [] := by
  refine ⟨h, by simp, ?_⟩
  intro gs _ hprefix
  exact hprefix

/-- The frames the code builds are well formed. -/
theorem IsFrame.wellFormed {frame : Bytes} (h : IsFrame frame) : WellFormedFrame frame := by
  cases h with
  | keepalive => decide
  | @data payload h =>
      have hheader := take_buildDataFrame h
      have hlen : ((buildDataFrame payload).take 8).length = 8 := by
        rw [show (8 : Nat) = headerSize from rfl, hheader, length_writeHeader]
      have hafter := afterHeader_data h
      rw [show headerSize = 8 from rfl, afterHeader_eq hlen] at hafter
      split_ifs at hafter with hwf hflags
      · simp only [Option.some.injEq, Reader.waiting.injEq, ReadTarget.body.injEq] at hafter
        refine ⟨hwf, ?_⟩
        rw [length_buildDataFrame h, hafter]
        rfl
      · simp at hafter

/-! ### The parser -/

/-- The read loop, reduced to the read that is outstanding; `none` once the
    connection is closed. -/
def parser : Loop UInt8 (Option ReadTarget) Bytes where
  need := fun
    | none => 0
    | some target => target.size
  take := fun state bytes =>
    match state with
    | none => (none, [])
    | some .header =>
      match Reader.afterHeader bytes with
      | some (.waiting target) => (some target, [])
      | _ => (none, [])
    | some (.body _) => (some .header, [bytes])

theorem drain_header {stream : Bytes} (hlen : 8 ≤ stream.length) :
    parser.drain (some .header) stream
      = parser.drain (if WellFormedHeader (stream.take 8) then
          some (if (stream.take 8).getD 3 0 = 0 then .body (announcedSize (stream.take 8))
            else .header) else none) (stream.drop 8) := by
  have htake : (stream.take 8).length = 8 := by
    rw [List.length_take]
    omega
  rw [Loop.drain_read parser (s := some .header) (show 0 < 8 by omega) hlen]
  simp only [parser, ReadTarget.size, headerSize, afterHeader_eq htake]
  split_ifs <;> rfl

theorem drain_body {size : Nat} {stream : Bytes} (hpos : 0 < size)
    (hlen : size ≤ stream.length) :
    parser.drain (some (.body size)) stream
      = (parser.drain (some .header) (stream.drop size)).after [stream.take size] :=
  Loop.drain_read parser (s := some (.body size)) hpos hlen

/-- A frame at the front of the stream is read as a whole. -/
theorem drain_frame {frame : Bytes} (h : WellFormedFrame frame) (tail : Bytes) :
    parser.drain (some .header) (frame ++ tail)
      = (parser.drain (some .header) tail).after (framePayload frame).toList := by
  have hlen := h.2
  have hle : 8 ≤ frame.length := by omega
  rw [drain_header (by rw [List.length_append]; omega), List.take_append_of_le_length hle,
    List.drop_append_of_le_length hle, if_pos h.1]
  rcases h.1.2.2.2.2 with ⟨hflags, hpos, hmax⟩ | ⟨hflags, hzero⟩
  · -- A data header: the body is what is left of the frame.
    have hbody : announcedSize (frame.take 8) = (frame.drop 8).length := by
      rw [List.length_drop]
      omega
    rw [if_pos hflags, hbody, drain_body (by omega) (by rw [List.length_append]; omega),
      List.take_left, List.drop_left, framePayload, if_neg (by unfold headerSize; omega)]
    rfl
  · -- A keepalive: nothing is left of the frame.
    rw [if_neg (by rw [hflags]; decide), List.drop_of_length_le (by omega), List.nil_append,
      framePayload, if_pos (by unfold headerSize; omega)]
    rfl

/-- Where there is no whole frame, nothing is delivered, and the loop ends if
    and only if it meets a header that is not one. -/
theorem drain_rest {rest : Bytes} (hrest : ∀ frame, WellFormedFrame frame → ¬ frame <+: rest) :
    (parser.drain (some .header) rest).outputs = [] ∧
      ((parser.drain (some .header) rest).state = none ↔
        8 ≤ rest.length ∧ ¬ WellFormedHeader (rest.take 8)) := by
  by_cases hlen : 8 ≤ rest.length
  · rw [drain_header hlen]
    by_cases hwf : WellFormedHeader (rest.take 8)
    · -- The frame that the header starts is not all there.
      have hshort : (rest.drop 8).length < announcedSize (rest.take 8) := by
        by_contra hnot
        rw [List.length_drop] at hnot
        have hheader : (rest.take (8 + announcedSize (rest.take 8))).take 8 = rest.take 8 := by
          rw [List.take_take, Nat.min_eq_left (by omega)]
        refine hrest (rest.take (8 + announcedSize (rest.take 8))) ⟨hheader.symm ▸ hwf, ?_⟩
          (List.take_prefix _ _)
        rw [hheader, List.length_take]
        omega
      have hflags : (rest.take 8).getD 3 0 = 0 := by
        rcases hwf.2.2.2.2 with ⟨hflags, _, _⟩ | ⟨_, hzero⟩
        · exact hflags
        · omega
      rw [if_pos hwf, if_pos hflags, Loop.drain_wait parser (Or.inr hshort)]
      simp [hwf]
    · rw [if_neg hwf, Loop.drain_wait parser (Or.inl rfl)]
      simp [hlen, hwf]
  · rw [Loop.drain_wait parser (s := some .header) (Or.inr (Nat.lt_of_not_le hlen))]
    simp [hlen]

/-- The parser reads the longest prefix made of frames. -/
theorem drain_longest {stream rest : Bytes} {frames : List Bytes}
    (h : LongestFrames stream frames rest) :
    (parser.drain (some .header) stream).outputs = payloads frames ∧
      ((parser.drain (some .header) stream).state = none ↔
        8 ≤ rest.length ∧ ¬ WellFormedHeader (rest.take 8)) := by
  have hrest := drain_rest fun frame (hframe : WellFormedFrame frame) => h.no_frame hframe
  rw [h.split]
  have hwf := h.wellFormed
  clear h
  induction frames with
  | nil => exact hrest
  | cons frame frames ih =>
      rcases ih (fun f hf => hwf f (List.mem_cons_of_mem _ hf)) with ⟨houtputs, hstate⟩
      rw [List.flatten_cons, List.append_assoc,
        drain_frame (hwf frame (List.mem_cons_self ..))]
      refine ⟨?_, hstate⟩
      rw [Fed.after, houtputs, payloads, payloads, List.filterMap_cons]
      cases framePayload frame <;> rfl

/-! ### The two read loops -/

/-- The data of a call of `on_receive_`. -/
def SessionEffect.delivered : SessionEffect → Option Bytes
  | .receive data => some data
  | .close => none

/-- The outstanding read, while the socket is open. -/
def Reader.outstanding (reader : Reader) (isOpen : Bool) : Option ReadTarget :=
  match reader with
  | .waiting target => if isOpen then some target else none
  | _ => none

theorem Reader.outstanding_eq_none {reader : Reader} {isOpen : Bool}
    (h : isOpen = true → ∃ target, reader = .waiting target) :
    reader.outstanding isOpen = none ↔ isOpen = false := by
  unfold outstanding
  cases isOpen with
  | true =>
      rcases h rfl with ⟨target, hreader⟩
      simp [hreader]
  | false => cases reader <;> simp

/-- Bytes that complete a read are as many as the outstanding one asked for. -/
theorem Reader.exists_outstanding (reader : Reader) (isOpen : Bool) {bytes : Bytes}
    (hlen : bytes.length = parser.need (reader.outstanding isOpen))
    (hneed : 0 < parser.need (reader.outstanding isOpen)) :
    ∃ target, reader.outstanding isOpen = some target ∧ reader = .waiting target ∧
      isOpen = true ∧ bytes.length = target.size := by
  cases reader with
  | waiting target =>
      cases isOpen with
      | true => exact ⟨target, rfl, rfl, rfl, hlen⟩
      | false => exact absurd hneed (Nat.lt_irrefl 0)
  | idle => exact absurd hneed (Nat.lt_irrefl 0)
  | completed target bytes => exact absurd hneed (Nat.lt_irrefl 0)

namespace Session

def readTarget (s : Session) : Option ReadTarget := s.reader.outstanding (!s.closed)

/-- The outstanding read of a session completes, and its handler runs. -/
def readLoop : Loop UInt8 Session Bytes where
  need s := parser.need s.readTarget
  take s bytes :=
    match (s.step (.arrive bytes)).bind fun arrived => arrived.1.step .read with
    | none => (s, [])
    | some (s, effects) => (s, effects.filterMap SessionEffect.delivered)

/-- An open session has a read outstanding. -/
def Reading (s : Session) : Prop := s.closed = false → ∃ target, s.reader = .waiting target

theorem readTarget_eq_none {s : Session} (h : s.Reading) :
    s.readTarget = none ↔ s.closed = true := by
  unfold readTarget
  rw [Reader.outstanding_eq_none, Bool.not_eq_false']
  intro hopen
  rw [Bool.not_eq_true'] at hopen
  exact h hopen

/-- The handler finds the bytes of the read it was started for. -/
theorem take_readLoop {s : Session} {target : ReadTarget} {bytes : Bytes}
    (hreader : s.reader = .waiting target) (hopen : s.closed = false)
    (hsize : bytes.length = target.size) :
    readLoop.take s bytes
      = ((onRead { s with reader := .completed target bytes } target bytes).1,
        (onRead { s with reader := .completed target bytes } target bytes).2.filterMap
          SessionEffect.delivered) := by
  simp [readLoop, step, hreader, hopen, hsize]

/-- One read of a session is one read of the parser. -/
theorem readLoop_sim {s : Session} {bytes : Bytes}
    (hlen : bytes.length = readLoop.need s) (hneed : 0 < readLoop.need s) :
    (readLoop.take s bytes).1.Reading ∧
      parser.take s.readTarget bytes
        = ((readLoop.take s bytes).1.readTarget, (readLoop.take s bytes).2) := by
  rcases Reader.exists_outstanding s.reader (!s.closed) hlen hneed with
    ⟨target, htarget, hreader, hopen, hsize⟩
  rw [Bool.not_eq_true'] at hopen
  rw [show s.readTarget = some target from htarget, take_readLoop hreader hopen hsize]
  cases target with
  | body size =>
      simp [onRead, onBody, doReadHeader, Reading, readTarget, Reader.outstanding, hopen,
        parser, SessionEffect.delivered]
  | header =>
      cases hafter : Reader.afterHeader bytes with
      | none =>
          simp [onRead, onHeader, hafter, handleClose, hopen, Reading, readTarget,
            Reader.outstanding, parser, SessionEffect.delivered]
      | some reader =>
          rcases afterHeader_waiting hafter with ⟨next, rfl⟩
          simp [onRead, onHeader, hafter, hopen, Reading, readTarget, Reader.outstanding,
            parser]

end Session

namespace Client

def readTarget (c : Client) : Option ReadTarget := c.reader.outstanding c.socketOpen

/-- The outstanding read of a client completes, and its handler runs to its
    end. What the handler of a body pushes is delivered. -/
def readLoop : Loop UInt8 Client Bytes where
  need c := parser.need c.readTarget
  take c bytes :=
    match (c.step (.arrive bytes)).bind fun arrived => arrived.step .read with
    | none => (c, [])
    | some handled =>
      match handled.step .copied with
      | none => (handled, [])
      | some pushed => (pushed, handled.copied.toList)

/-- A client that is not being destroyed, between two handlers: an open socket
    has a read outstanding. -/
structure Reading (c : Client) : Prop where
  running : c.shuttingDown = false
  released : c.copied = none
  connected : c.connected = c.socketOpen
  outstanding : c.socketOpen = true → ∃ target, c.reader = .waiting target

theorem readTarget_eq_none {c : Client} (h : c.Reading) :
    c.readTarget = none ↔ c.socketOpen = false :=
  Reader.outstanding_eq_none h.outstanding

/-- A header: the handler has nothing to push. -/
theorem take_header {c : Client} {bytes : Bytes} (h : c.Reading)
    (hreader : c.reader = .waiting .header) (hopen : c.socketOpen = true)
    (hsize : bytes.length = headerSize) :
    readLoop.take c bytes = (onHeader { c with reader := .completed .header bytes } bytes, []) := by
  have hcopied : (onHeader { c with reader := .completed .header bytes } bytes).copied = none := by
    unfold onHeader
    split_ifs
    · simp [h.released]
    · split <;> simp [h.released]
  have hread : (c.step (.arrive bytes)).bind (fun arrived => arrived.step .read)
      = some (onHeader { c with reader := .completed .header bytes } bytes) := by
    simp [step, hreader, hopen, hsize, h.released, onRead, ReadTarget.size]
  unfold readLoop
  simp only [hread]
  simp [step, hcopied]

/-- A body: it is pushed. -/
theorem take_body {c : Client} {size : Nat} {bytes : Bytes} (h : c.Reading)
    (hreader : c.reader = .waiting (.body size)) (hopen : c.socketOpen = true)
    (hsize : bytes.length = size) :
    readLoop.take c bytes
      = (onCopied { c with reader := .idle, copied := some bytes } bytes, [bytes]) := by
  have hread : (c.step (.arrive bytes)).bind (fun arrived => arrived.step .read)
      = some { c with reader := .idle, copied := some bytes } := by
    simp [step, hreader, hopen, hsize, h.released, onRead, onBody, h.running, ReadTarget.size]
  unfold readLoop
  simp only [hread]
  simp [step]

/-- One read of a client is one read of the parser. -/
theorem readLoop_sim {c : Client} {bytes : Bytes} (h : c.Reading)
    (hlen : bytes.length = readLoop.need c) (hneed : 0 < readLoop.need c) :
    (readLoop.take c bytes).1.Reading ∧
      parser.take c.readTarget bytes
        = ((readLoop.take c bytes).1.readTarget, (readLoop.take c bytes).2) := by
  rcases Reader.exists_outstanding c.reader c.socketOpen hlen hneed with
    ⟨target, htarget, hreader, hopen, hsize⟩
  have hconnected : c.connected = true := by rw [h.connected, hopen]
  rw [show c.readTarget = some target from htarget]
  cases target with
  | body size =>
      rw [take_body h hreader hopen hsize]
      unfold onCopied
      rw [if_neg (by simp [h.running])]
      split_ifs
      · exact ⟨⟨h.running, rfl, h.connected, fun _ => ⟨_, rfl⟩⟩, by
          simp [parser, readTarget, Reader.outstanding, hopen]⟩
      · exact ⟨⟨h.running, rfl, h.connected, fun _ => ⟨_, rfl⟩⟩, by
          simp [parser, readTarget, Reader.outstanding, hopen]⟩
  | header =>
      rw [take_header h hreader hopen hsize]
      unfold onHeader
      rw [if_neg (by simp [h.running])]
      cases hafter : Reader.afterHeader bytes with
      | none =>
          refine ⟨⟨?_, ?_, ?_, ?_⟩, ?_⟩
          · simp [h.running]
          · simp [h.released]
          · simp [handleDisconnect, closeSocket, hconnected]
          · simp [handleDisconnect, closeSocket, hconnected]
          · simp [handleDisconnect, closeSocket, hconnected, parser, hafter, readTarget,
              Reader.outstanding]
      | some reader =>
          rcases afterHeader_waiting hafter with ⟨next, rfl⟩
          exact ⟨⟨h.running, h.released, h.connected, fun _ => ⟨next, rfl⟩⟩, by
            simp [parser, hafter, readTarget, Reader.outstanding, hopen]⟩

/-- Of the packets it is given, the receive queue keeps the first ones that fit
    and counts the others. -/
structure Keeps (c : Client) (packets : List Bytes) (c' : Client) : Prop where
  queue : c'.receiveQueue
    = c.receiveQueue ++ packets.take (receiveQueueCapacity - c.receiveQueue.length)
  dropped : c'.droppedPackets
    = c.droppedPackets + (packets.length - (receiveQueueCapacity - c.receiveQueue.length))

theorem keeps_onCopied {c : Client} (h : c.shuttingDown = false) (bytes : Bytes)
    {packets : List Bytes} {c' : Client} (hrest : Keeps (c.onCopied bytes) packets c') :
    Keeps c (bytes :: packets) c' := by
  rcases hrest with ⟨hqueue, hdropped⟩
  unfold onCopied at hqueue hdropped
  rw [if_neg (by simp [h])] at hqueue hdropped
  by_cases hroom : c.receiveQueue.length < receiveQueueCapacity
  · simp only [if_pos hroom, List.length_append, List.length_singleton, List.append_assoc]
      at hqueue hdropped
    have hone : receiveQueueCapacity - c.receiveQueue.length
        = receiveQueueCapacity - (c.receiveQueue.length + 1) + 1 := by omega
    constructor
    · rw [hqueue, hone, List.take_succ_cons]
      rfl
    · rw [hdropped, List.length_cons]
      omega
  · simp only [if_neg hroom] at hqueue hdropped
    have hfull : receiveQueueCapacity - c.receiveQueue.length = 0 := by omega
    rw [hfull] at hqueue hdropped
    constructor
    · rw [hqueue, hfull]
      simp
    · rw [hdropped, hfull, List.length_cons]
      omega

theorem keeps_header {c : Client} (bytes : Bytes) {packets : List Bytes} {c' : Client}
    (hrest : Keeps (c.onHeader bytes) packets c') : Keeps c packets c' := by
  rcases hrest with ⟨hqueue, hdropped⟩
  have hsame : (c.onHeader bytes).receiveQueue = c.receiveQueue ∧
      (c.onHeader bytes).droppedPackets = c.droppedPackets := by
    unfold onHeader
    split_ifs
    · exact ⟨by simp, by rw [handleDisconnect_eq]⟩
    · split
      · exact ⟨by simp, by rw [handleDisconnect_eq]⟩
      · exact ⟨rfl, rfl⟩
  rw [hsame.1] at hqueue hdropped
  rw [hsame.2] at hdropped
  exact ⟨hqueue, hdropped⟩

/-- What the read loop delivers goes into the receive queue. -/
theorem keeps_drain {c : Client} (h : c.Reading) (stream : Bytes) :
    Keeps c (readLoop.drain c stream).outputs (readLoop.drain c stream).state := by
  refine readLoop.drain_rec (R := fun c packets c' => c.Reading → Keeps c packets c') ?_ ?_ c
    stream h
  · intro c _
    exact ⟨by simp, by simp⟩
  · intro c bytes packets c' hlen hneed ih hc
    have hkeeps := ih (readLoop_sim hc hlen hneed).1
    rcases Reader.exists_outstanding c.reader c.socketOpen hlen hneed with
      ⟨target, _, hreader, hopen, hsize⟩
    cases target with
    | body size =>
        rw [take_body hc hreader hopen hsize] at hkeeps ⊢
        rcases keeps_onCopied (c := { c with reader := .idle, copied := some bytes })
          hc.running bytes hkeeps with ⟨hqueue, hdropped⟩
        exact ⟨hqueue, hdropped⟩
    | header =>
        rw [take_header hc hreader hopen hsize] at hkeeps ⊢
        rcases keeps_header (c := { c with reader := .completed .header bytes }) bytes
          hkeeps with ⟨hqueue, hdropped⟩
        exact ⟨hqueue, hdropped⟩

end Client

/-! ### Every stream -/

/-- The frame of a payload, or the keepalive. -/
def frameOf : Option Bytes → Bytes
  | some payload => buildDataFrame payload
  | none => buildKeepaliveFrame

/-- What a read loop has to do with every stream, started in front of a
    header. -/
structure ParsesStreams {σ : Type} (loop : Loop UInt8 σ Bytes) (closed : σ → Bool) (s : σ) :
    Prop where
  /-- Every stream has a longest prefix made of well-formed frames. -/
  parsed : ∀ stream, ∃ frames rest, LongestFrames stream frames rest
  /-- Its data payloads are delivered, and nothing else. -/
  delivers : ∀ stream frames rest, LongestFrames stream frames rest →
    (loop.feed ⟨s, [], []⟩ stream).outputs = payloads frames
  /-- The remainder closes the connection if and only if it starts with eight
      bytes that are not a well-formed header. -/
  closes : ∀ stream frames rest, LongestFrames stream frames rest →
    (closed (loop.feed ⟨s, [], []⟩ stream).state = true ↔
      8 ≤ rest.length ∧ ¬ WellFormedHeader (rest.take 8))
  /-- The stream may come in pieces. -/
  pieces : ∀ f b1 b2, loop.feed (loop.feed f b1) b2 = loop.feed f (b1 ++ b2)
  /-- What the code builds is read back. -/
  reads : ∀ contents : List (Option Bytes), (∀ payload, some payload ∈ contents →
      Sendable payload) →
    (loop.feed ⟨s, [], []⟩ (contents.map frameOf).flatten).outputs = contents.filterMap id ∧
      closed (loop.feed ⟨s, [], []⟩ (contents.map frameOf).flatten).state = false
  /-- The buffer from the pool is as long as the body. -/
  buffers : ∀ stream, ∀ body ∈ (loop.feed ⟨s, [], []⟩ stream).outputs,
    (acquire body.length).length = body.length

theorem frameOf_isFrame {contents : List (Option Bytes)}
    (h : ∀ payload, some payload ∈ contents → Sendable payload) :
    ∀ frame ∈ contents.map frameOf, IsFrame frame := by
  intro frame hframe
  rcases List.mem_map.mp hframe with ⟨content, hmem, rfl⟩
  cases content with
  | none => exact .keepalive
  | some payload => exact .data (h payload hmem)

theorem payloads_frameOf {contents : List (Option Bytes)}
    (h : ∀ payload, some payload ∈ contents → Sendable payload) :
    payloads (contents.map frameOf) = contents.filterMap id := by
  induction contents with
  | nil => rfl
  | cons content contents ih =>
      have ih := ih fun payload hmem => h payload (List.mem_cons_of_mem _ hmem)
      rw [payloads] at ih
      cases content with
      | none => simp [payloads, frameOf, ih]
      | some payload =>
          simp [payloads, frameOf, ih, framePayload_data (h payload (List.mem_cons_self ..))]

theorem WellFormedFrame.length_payload_le {frame payload : Bytes} (h : WellFormedFrame frame)
    (hpayload : framePayload frame = some payload) : payload.length ≤ 2048 := by
  have hlen := h.2
  have hsize := h.1.2.2.2.2
  unfold framePayload at hpayload
  split_ifs at hpayload
  rw [← Option.some.inj hpayload, List.length_drop]
  unfold headerSize
  omega

/-- A loop that corresponds to the parser parses every stream. -/
theorem parsesStreams_of_sim {σ : Type} {loop : Loop UInt8 σ Bytes} {closed : σ → Bool}
    (target : σ → Option ReadTarget) (P : σ → Prop) {s : σ}
    (hneed : ∀ s, P s → parser.need (target s) = loop.need s)
    (htake : ∀ s bytes, P s → bytes.length = loop.need s → 0 < loop.need s →
      P (loop.take s bytes).1 ∧
        parser.take (target s) bytes = (target (loop.take s bytes).1, (loop.take s bytes).2))
    (hclosed : ∀ s, P s → (target s = none ↔ closed s = true)) (hs : P s)
    (hstart : target s = some .header) : ParsesStreams loop closed s := by
  have hfeed : ∀ stream, loop.feed ⟨s, [], []⟩ stream = loop.drain s stream := fun _ => rfl
  have hsim := fun stream => loop.drain_map hneed htake hs stream
  rw [hstart] at hsim
  have hdelivers : ∀ stream frames rest, LongestFrames stream frames rest →
      (loop.drain s stream).outputs = payloads frames := by
    intro stream frames rest h
    have houtputs := (drain_longest h).1
    rw [(hsim stream).2] at houtputs
    exact houtputs
  have hcloses : ∀ stream frames rest, LongestFrames stream frames rest →
      (closed (loop.drain s stream).state = true ↔
        8 ≤ rest.length ∧ ¬ WellFormedHeader (rest.take 8)) := by
    intro stream frames rest h
    have hstate := (drain_longest h).2
    rw [(hsim stream).2] at hstate
    rw [← hclosed _ (hsim stream).1, hstate]
  simp only [← hfeed] at hdelivers hcloses
  refine ⟨exists_longestFrames, hdelivers, hcloses, loop.feed_append, ?_, ?_⟩
  · intro contents hcontents
    have hlongest := longestFrames_flatten fun frame hframe =>
      (frameOf_isFrame hcontents frame hframe).wellFormed
    refine ⟨?_, ?_⟩
    · rw [hdelivers _ _ _ hlongest, payloads_frameOf hcontents]
    · rw [Bool.eq_false_iff, ne_eq, hcloses _ _ _ hlongest, List.length_nil]
      omega
  · intro stream body hbody
    rcases exists_longestFrames stream with ⟨frames, rest, hlongest⟩
    rw [hdelivers _ _ _ hlongest, payloads, List.mem_filterMap] at hbody
    rcases hbody with ⟨frame, hframe, hpayload⟩
    have hle := (hlongest.wellFormed frame hframe).length_payload_le hpayload
    rw [acquire, if_neg (by unfold blockSize headerSize maxPayloadSize; omega),
      List.length_replicate]

/-- A session that waits for a header on an open connection. -/
def Session.AtHeader (s : Session) : Prop := s.closed = false ∧ s.reader = .waiting .header

/-- A client that waits for a header on an open connection. -/
structure Client.AtHeader (c : Client) : Prop where
  live : c.live = true
  socket : c.socketOpen = true
  released : c.copied = none
  reader : c.reader = .waiting .header

theorem Session.parsesStreams {s : Session} (hs : s.AtHeader) :
    ParsesStreams Session.readLoop Session.closed s := by
  refine parsesStreams_of_sim Session.readTarget Session.Reading
    (fun _ _ => rfl) (fun s bytes _ => Session.readLoop_sim)
    (fun s h => Session.readTarget_eq_none h) ?_ ?_
  · exact fun _ => ⟨_, hs.2⟩
  · simp [Session.readTarget, Reader.outstanding, hs.1, hs.2]

/-- Both ends parse every stream: they deliver the data payloads of the longest
    prefix made of frames and close on a header that is not one, wherever the
    stream is cut. The client delivers into its receive queue, which keeps what
    fits and counts the rest. -/
theorem stream_parsing (s : Session) (hs : s.AtHeader) (c : Client) (hc : c.AtHeader) :
    ParsesStreams Session.readLoop Session.closed s ∧
    ParsesStreams Client.readLoop (fun c => !c.socketOpen) c ∧
    ∀ stream, Client.Keeps c (Client.readLoop.feed ⟨c, [], []⟩ stream).outputs
      (Client.readLoop.feed ⟨c, [], []⟩ stream).state := by
  have hlive := hc.live
  rw [Client.live, Bool.and_eq_true, Bool.not_eq_true'] at hlive
  have hreading : c.Reading :=
    ⟨hlive.2, hc.released, by rw [hlive.1, hc.socket], fun _ => ⟨_, hc.reader⟩⟩
  refine ⟨Session.parsesStreams hs, ?_, Client.keeps_drain hreading⟩
  refine parsesStreams_of_sim Client.readTarget Client.Reading
    (fun _ _ => rfl) (fun c bytes h => Client.readLoop_sim h) ?_ hreading ?_
  · intro c h
    rw [Client.readTarget_eq_none h, Bool.not_eq_true']
  · simp [Client.readTarget, Reader.outstanding, hc.socket, hc.reader]

/-- A session that has just been started, and a client that has just
    connected. -/
theorem stream_parsing_started :
    ParsesStreams Session.readLoop Session.closed (Session.start { id := 1 }) ∧
    ParsesStreams Client.readLoop (fun c => !c.socketOpen) {} ∧
    ∀ stream, Client.Keeps {} (Client.readLoop.feed ⟨{}, [], []⟩ stream).outputs
      (Client.readLoop.feed ⟨{}, [], []⟩ stream).state :=
  stream_parsing _ ⟨rfl, rfl⟩ _ ⟨rfl, rfl, rfl, rfl⟩

end ProjectNight
