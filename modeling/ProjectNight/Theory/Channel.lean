import ProjectNight.Theory.Framing

/-!
# Channels

One direction of a connection, away from the threads: a write queue, the bytes
on their way, and a read chain. Both directions work this way, whatever the
machinery around them, so what a channel delivers is settled here once.

The write queue is idle, busy with its front, or dead after a write that
failed; in each case what the socket has taken is known (`Writer.Sent`). The
read chain always stands at a place in the stream of frames that the queue
accepted (`Positioned`): between two frames, behind a header, or behind a
frame it has not handed over yet. Bytes arrive in order, so the chain takes a
header where a frame starts and a body where its payload is, and never meets
a header that is none.

## Main definitions

* `Writer.Sent`: How the state of a write queue and the bytes taken from it
  fit together.
* `Positioned`: Where a read chain stands.
* `Channel`, `Channel.Step`: A direction and what can happen to it.
* `Channel.Sound`: The invariant.

## Theorems

* `Channel.sound_step`: Every step keeps the invariant.
* `Channel.Sound.log_initial`: What was read is a prefix of what was accepted.
-/

namespace ProjectNight

open Wire

/-! ### The write queue -/

namespace Writer

/-- What has been taken from a write queue. -/
inductive Sent (w : Writer) (taken : Bytes) : Prop where
  | idle (hwriting : w.writing = false) (hflight : w.inFlight = none) (hqueue : w.queue = [])
      (htaken : taken = w.accepted.flatten)
  | busy (done tail : List Bytes) (start rest : Bytes) (hwriting : w.writing = true)
      (hflight : w.inFlight = some rest) (hqueue : w.queue = (start ++ rest) :: tail)
      (haccepted : w.accepted = done ++ w.queue) (htaken : taken = done.flatten ++ start)
  | dead (hwriting : w.writing = true) (hflight : w.inFlight = none)
      (htaken : taken <+: w.accepted.flatten)

theorem sent_empty : Sent {} [] := .idle rfl rfl rfl rfl

/-- Only accepted frames are ever taken. -/
theorem Sent.taken_initial {w : Writer} {taken : Bytes} (h : w.Sent taken) :
    taken <+: w.accepted.flatten := by
  cases h with
  | idle _ _ _ htaken => exact htaken ▸ List.prefix_refl _
  | busy done tail start rest _ _ hqueue haccepted htaken =>
      rw [haccepted, hqueue, htaken, List.flatten_append, List.flatten_cons]
      exact (List.prefix_append_right_inj _).mpr
        ⟨rest ++ tail.flatten, (List.append_assoc _ _ _).symm⟩
  | dead _ _ htaken => exact htaken

theorem accepted_enqueueFrame {w w' : Writer} {frame : Bytes}
    (h : w.enqueueFrame frame = some w') : w'.accepted = w.accepted ++ [frame] := by
  unfold enqueueFrame at h
  split_ifs at h with hfull
  rw [← Option.some.inj h]
  simp only
  split_ifs
  · rfl
  · unfold doWrite
    split <;> rfl

theorem sent_enqueueFrame {w w' : Writer} {frame taken : Bytes}
    (h : w.enqueueFrame frame = some w') (hsent : w.Sent taken) : w'.Sent taken := by
  have haccepted := accepted_enqueueFrame h
  unfold enqueueFrame at h
  split_ifs at h with hfull
  have hw' := Option.some.inj h
  cases hsent with
  | idle hwriting hflight hqueue htaken =>
      -- The frame is alone in the queue and goes to the socket at once.
      simp only [hwriting, hqueue, List.nil_append, Bool.false_eq_true, if_false, doWrite] at hw'
      rw [← hw']
      exact .busy w.accepted [] [] frame rfl rfl rfl rfl
        (by rw [htaken, List.append_nil])
  | busy done tail start rest hwriting hflight hqueue hdone htaken =>
      -- The frame waits behind the one in flight.
      simp only [hwriting, if_true] at hw'
      rw [← hw']
      refine .busy done (tail ++ [frame]) start rest rfl hflight ?_ ?_ htaken
      · simp only
        rw [hqueue, List.cons_append]
      · simp only
        rw [hdone, List.append_assoc]
  | dead hwriting hflight htaken =>
      -- `writing` stays set after a failed write, so nothing starts.
      simp only [hwriting, if_true] at hw'
      rw [← hw']
      refine .dead rfl hflight (htaken.trans ?_)
      simp only [List.flatten_append]
      exact List.prefix_append _ _

/-- The socket takes some more of the front. -/
theorem sent_transmit {w : Writer} {rest taken : Bytes} (count : Nat)
    (hflight : w.inFlight = some rest) (hsent : w.Sent taken) :
    Sent { w with inFlight := some (rest.drop count) } (taken ++ rest.take count) := by
  cases hsent with
  | idle _ hnone => exact absurd (hnone.symm.trans hflight) (Option.some_ne_none rest).symm
  | busy done tail start rest' hwriting hflight' hqueue haccepted htaken =>
      have heq : rest' = rest := Option.some.inj (hflight'.symm.trans hflight)
      refine .busy done tail (start ++ rest.take count) (rest.drop count) hwriting rfl ?_
        haccepted ?_
      · simp only
        rw [hqueue, heq, List.append_assoc, List.take_append_drop]
      · rw [htaken, List.append_assoc]
  | dead _ hnone => exact absurd (hnone.symm.trans hflight) (Option.some_ne_none rest).symm

theorem accepted_doWrite (w : Writer) : w.doWrite.accepted = w.accepted := by
  unfold doWrite
  split <;> rfl

/-- The write has completed, and the next one starts if there is one. -/
theorem sent_finish {w : Writer} {taken : Bytes} (hflight : w.inFlight = some [])
    (hsent : w.Sent taken) : w.pop.doWrite.Sent taken := by
  cases hsent with
  | idle _ hnone => exact absurd (hnone.symm.trans hflight) (Option.some_ne_none []).symm
  | busy done tail start rest hwriting hflight' hqueue haccepted htaken =>
      -- All of the front was taken; it joins the frames that are done.
      have hrest : rest = [] := Option.some.inj (hflight'.symm.trans hflight)
      rw [hrest, List.append_nil] at hqueue
      have hdone : w.accepted = (done ++ [start]) ++ tail := by
        rw [haccepted, hqueue, List.append_assoc, List.singleton_append]
      have htaken' : taken = (done ++ [start]).flatten := by
        rw [htaken, List.flatten_append, List.flatten_singleton]
      cases htail : tail with
      | nil =>
          have hpop : w.pop.doWrite
              = { w with queue := [], inFlight := none, writing := false } := by
            simp only [pop, hqueue, htail, List.tail_cons, doWrite]
          rw [hpop]
          refine .idle rfl rfl rfl ?_
          rw [htaken', hdone, htail, List.append_nil]
      | cons front tail' =>
          have hpop : w.pop.doWrite
              = { w with queue := front :: tail', inFlight := some front, writing := true } := by
            simp only [pop, hqueue, htail, List.tail_cons, doWrite]
          rw [hpop]
          refine .busy (done ++ [start]) tail' [] front rfl rfl rfl ?_ ?_
          · rw [hdone, htail]
          · rw [htaken', List.append_nil]
  | dead _ hnone => exact absurd (hnone.symm.trans hflight) (Option.some_ne_none []).symm

/-- The write has failed, or nobody cares any more: nothing else is written. -/
theorem sent_abort {w : Writer} {taken : Bytes} (hflight : w.inFlight.isSome)
    (hsent : w.Sent taken) : w.pop.Sent taken := by
  have htaken := hsent.taken_initial
  cases hsent with
  | idle _ hnone =>
      rw [hnone] at hflight
      exact absurd hflight Bool.false_ne_true
  | busy _ _ _ _ hwriting => exact .dead hwriting rfl htaken
  | dead _ hnone =>
      rw [hnone] at hflight
      exact absurd hflight Bool.false_ne_true

end Writer

/-! ### The read chain -/

/-- Where a read chain stands in the stream of accepted frames, given the bytes
    it has consumed and the payloads it has handed over. -/
inductive Positioned (accepted : List Bytes) (consumed : Bytes) (log : List Bytes)
    (reader : Reader) (held : Option Bytes) : Prop where
  | header (fs : List Bytes) (hfs : fs <+: accepted) (hconsumed : consumed = fs.flatten)
      (hlog : log = payloads fs) (hreader : reader = .waiting .header) (hheld : held = none)
  | headerRead (fs : List Bytes) (f : Bytes) (hfs : fs ++ [f] <+: accepted)
      (hconsumed : consumed = fs.flatten ++ f.take headerSize) (hlog : log = payloads fs)
      (hreader : reader = .completed .header (f.take headerSize)) (hheld : held = none)
  | body (fs : List Bytes) (p : Bytes) (hp : Sendable p)
      (hfs : fs ++ [buildDataFrame p] <+: accepted)
      (hconsumed : consumed = fs.flatten ++ (buildDataFrame p).take headerSize)
      (hlog : log = payloads fs) (hreader : reader = .waiting (.body p.length))
      (hheld : held = none)
  | bodyRead (fs : List Bytes) (p : Bytes) (hp : Sendable p)
      (hfs : fs ++ [buildDataFrame p] <+: accepted)
      (hconsumed : consumed = (fs ++ [buildDataFrame p]).flatten) (hlog : log = payloads fs)
      (hreader : (∃ size, reader = .completed (.body size) p) ∧ held = none ∨
        reader = .idle ∧ held = some p)
  | ended (hlog : log <+: payloads accepted) (hreader : reader = .idle) (hheld : held = none)

/-- The payloads of a prefix of the frames are a prefix of the payloads. -/
theorem payloads_mono {fs gs : List Bytes} (h : fs <+: gs) : payloads fs <+: payloads gs := by
  rcases h with ⟨rest, rfl⟩
  exact ⟨payloads rest, (payloads_append fs rest).symm⟩

theorem Positioned.log_initial {accepted : List Bytes} {consumed : Bytes} {log : List Bytes}
    {reader : Reader} {held : Option Bytes}
    (h : Positioned accepted consumed log reader held) : log <+: payloads accepted := by
  cases h with
  | header fs hfs _ hlog => exact hlog ▸ payloads_mono hfs
  | headerRead fs f hfs _ hlog =>
      exact hlog ▸ payloads_mono ((List.prefix_append fs [f]).trans hfs)
  | body fs p _ hfs _ hlog =>
      exact hlog ▸ payloads_mono ((List.prefix_append fs _).trans hfs)
  | bodyRead fs p _ hfs _ hlog =>
      exact hlog ▸ payloads_mono ((List.prefix_append fs _).trans hfs)
  | ended hlog => exact hlog

/-- More frames may be accepted at any time. -/
theorem Positioned.mono {accepted accepted' : List Bytes} {consumed : Bytes} {log : List Bytes}
    {reader : Reader} {held : Option Bytes} (hle : accepted <+: accepted')
    (h : Positioned accepted consumed log reader held) :
    Positioned accepted' consumed log reader held := by
  cases h with
  | header fs hfs hconsumed hlog hreader hheld =>
      exact .header fs (hfs.trans hle) hconsumed hlog hreader hheld
  | headerRead fs f hfs hconsumed hlog hreader hheld =>
      exact .headerRead fs f (hfs.trans hle) hconsumed hlog hreader hheld
  | body fs p hp hfs hconsumed hlog hreader hheld =>
      exact .body fs p hp (hfs.trans hle) hconsumed hlog hreader hheld
  | bodyRead fs p hp hfs hconsumed hlog hreader =>
      exact .bodyRead fs p hp (hfs.trans hle) hconsumed hlog hreader
  | ended hlog hreader hheld => exact .ended (hlog.trans (payloads_mono hle)) hreader hheld

/-! ### Channels -/

/-- One direction of a connection. `held` is a payload between the two halves
    of a body handler, and `log` has the payloads handed over, in read order. -/
structure Channel where
  writer : Writer
  wire : Bytes
  reader : Reader
  held : Option Bytes
  log : List Bytes

namespace Channel

/-- What can happen to a channel. -/
inductive Step (c : Channel) : Channel → Prop where
  | enqueue {frame : Bytes} {writer : Writer} (hframe : IsFrame frame)
      (h : c.writer.enqueueFrame frame = some writer) : Step c { c with writer }
  | transmit {rest : Bytes} (count : Nat) (h : c.writer.inFlight = some rest) :
      Step c { c with
        writer := { c.writer with inFlight := some (rest.drop count) }
        wire := c.wire ++ rest.take count }
  | finish (h : c.writer.inFlight = some []) :
      Step c { c with writer := c.writer.pop.doWrite }
  | abort (h : c.writer.inFlight.isSome) : Step c { c with writer := c.writer.pop }
  | arrive {target : ReadTarget} (h : c.reader = .waiting target)
      (hsize : target.size ≤ c.wire.length) :
      Step c { c with
        reader := .completed target (c.wire.take target.size)
        wire := c.wire.drop target.size }
  | header {bytes : Bytes} {reader : Reader} (h : c.reader = .completed .header bytes)
      (hafter : Reader.afterHeader bytes = some reader) : Step c { c with reader }
  | stop (hheld : c.held = none) : Step c { c with reader := .idle }
  | hold {size : Nat} {bytes : Bytes} (h : c.reader = .completed (.body size) bytes) :
      Step c { c with reader := .idle, held := some bytes }
  | deliver {bytes : Bytes} {reader : Reader}
      (h : (∃ size, c.reader = .completed (.body size) bytes) ∧ c.held = none ∨
        c.held = some bytes)
      (hnext : reader = .waiting .header ∨ reader = .idle) :
      Step c { c with reader, held := none, log := c.log ++ [bytes] }

/-- What was taken from the write queue is what the read chain has consumed and
    what is on its way; the queue holds frames, and the read chain stands at a
    place in their stream. -/
structure Sound (ch : Channel) : Prop where
  frames : ∀ frame ∈ ch.writer.accepted, IsFrame frame
  positioned : ∃ consumed, ch.writer.Sent (consumed ++ ch.wire) ∧
    Positioned ch.writer.accepted consumed ch.log ch.reader ch.held

theorem Sound.log_initial {ch : Channel} (h : ch.Sound) :
    ch.log <+: payloads ch.writer.accepted := by
  rcases h.positioned with ⟨consumed, _, hpos⟩
  exact hpos.log_initial

/-- While a payload is held, no read is outstanding. -/
theorem Sound.reader_of_held {ch : Channel} (h : ch.Sound) {p : Bytes}
    (hheld : ch.held = some p) : ch.reader = .idle := by
  rcases h.positioned with ⟨consumed, _, hpos⟩
  cases hpos with
  | header _ _ _ _ _ hnone | headerRead _ _ _ _ _ _ hnone | body _ _ _ _ _ _ _ hnone
  | ended _ _ hnone => exact absurd (hnone.symm.trans hheld) (Option.some_ne_none p).symm
  | bodyRead _ _ _ _ _ _ hreader =>
      rcases hreader with ⟨_, hnone⟩ | ⟨hidle, _⟩
      · exact absurd (hnone.symm.trans hheld) (Option.some_ne_none p).symm
      · exact hidle

/-- A step of the writer that changes neither the frames nor the bytes taken. -/
theorem Sound.writer {ch : Channel} (h : ch.Sound) {w : Writer}
    (haccepted : w.accepted = ch.writer.accepted)
    (hsent : ∀ taken, ch.writer.Sent taken → w.Sent taken) : Sound { ch with writer := w } := by
  rcases h.positioned with ⟨consumed, hold, hpos⟩
  refine ⟨?_, consumed, hsent _ hold, ?_⟩
  · rw [haccepted]
    exact h.frames
  · rw [haccepted]
    exact hpos

theorem sound_enqueue {ch : Channel} (h : ch.Sound) {frame : Bytes} {w : Writer}
    (hframe : IsFrame frame) (henqueue : ch.writer.enqueueFrame frame = some w) :
    Sound { ch with writer := w } := by
  have haccepted := Writer.accepted_enqueueFrame henqueue
  rcases h.positioned with ⟨consumed, hsent, hpos⟩
  refine ⟨fun f hf => ?_, consumed, Writer.sent_enqueueFrame henqueue hsent, ?_⟩
  · rw [haccepted, List.mem_append, List.mem_singleton] at hf
    rcases hf with hf | rfl
    · exact h.frames f hf
    · exact hframe
  · refine hpos.mono ?_
    rw [haccepted]
    exact List.prefix_append _ _

/-- What arrives behind `fs` is a header of the next frame. -/
theorem header_of_taken {accepted fs : List Bytes} {bytes : Bytes}
    (hframes : ∀ frame ∈ accepted, IsFrame frame) (hfs : fs <+: accepted)
    (hlen : bytes.length = headerSize) (hle : fs.flatten ++ bytes <+: accepted.flatten) :
    ∃ f, fs ++ [f] <+: accepted ∧ bytes = f.take headerSize := by
  rcases hfs with ⟨rest, rfl⟩
  rw [List.flatten_append, List.prefix_append_right_inj] at hle
  cases rest with
  | nil =>
      rw [List.flatten_nil, List.prefix_nil] at hle
      rw [hle, List.length_nil] at hlen
      exact absurd hlen (by decide)
  | cons f rest =>
      refine ⟨f, ⟨rest, by rw [List.append_assoc, List.singleton_append]⟩, ?_⟩
      -- Every frame is at least a header long, so the bytes are within one frame.
      have hf : headerSize ≤ f.length :=
        (hframes f (List.mem_append_right _ List.mem_cons_self)).headerSize_le
      rw [List.flatten_cons] at hle
      rw [List.prefix_iff_eq_take.mp hle, hlen, List.take_append_of_le_length hf]

/-- What arrives behind the header of a data frame is its payload. -/
theorem payload_of_taken {accepted fs : List Bytes} {p bytes : Bytes} (hp : Sendable p)
    (hfs : fs ++ [buildDataFrame p] <+: accepted) (hlen : bytes.length = p.length)
    (hle : fs.flatten ++ (buildDataFrame p).take headerSize ++ bytes <+: accepted.flatten) :
    bytes = p := by
  rcases hfs with ⟨rest, rfl⟩
  rw [take_buildDataFrame hp, List.flatten_append, List.flatten_append, List.flatten_singleton,
    buildDataFrame_eq hp, List.append_assoc, List.append_assoc, List.prefix_append_right_inj,
    List.append_assoc, List.prefix_append_right_inj] at hle
  rw [List.prefix_iff_eq_take.mp hle, hlen, List.take_left' rfl]

theorem sound_arrive {ch : Channel} (h : ch.Sound) {target : ReadTarget}
    (hreader : ch.reader = .waiting target) (hsize : target.size ≤ ch.wire.length) :
    Sound { ch with
      reader := .completed target (ch.wire.take target.size)
      wire := ch.wire.drop target.size } := by
  rcases h.positioned with ⟨consumed, hsent, hpos⟩
  have hsplit : consumed ++ ch.wire
      = (consumed ++ ch.wire.take target.size) ++ ch.wire.drop target.size := by
    rw [List.append_assoc, List.take_append_drop]
  -- What the chain has now consumed is still a beginning of the accepted stream.
  have htaken : consumed ++ ch.wire.take target.size <+: ch.writer.accepted.flatten := by
    refine List.IsPrefix.trans ?_ hsent.taken_initial
    rw [hsplit]
    exact List.prefix_append _ _
  have hlen : (ch.wire.take target.size).length = target.size := List.length_take_of_le hsize
  refine ⟨h.frames, consumed ++ ch.wire.take target.size, hsplit ▸ hsent, ?_⟩
  simp only
  cases hpos with
  | header fs hfs hconsumed hlog hwaiting hheld =>
      rw [hreader, Reader.waiting.injEq] at hwaiting
      rw [hwaiting] at hlen htaken ⊢
      rw [hconsumed] at htaken
      rcases header_of_taken h.frames hfs hlen htaken with ⟨f, hf, hbytes⟩
      rw [hbytes, hconsumed]
      exact .headerRead fs f hf rfl hlog rfl hheld
  | headerRead fs f _ _ _ hcompleted => rw [hreader] at hcompleted; cases hcompleted
  | body fs p hp hfs hconsumed hlog hwaiting hheld =>
      rw [hreader, Reader.waiting.injEq] at hwaiting
      rw [hwaiting] at hlen htaken ⊢
      rw [hconsumed] at htaken
      have hbytes := payload_of_taken hp hfs hlen htaken
      rw [hbytes, hconsumed]
      refine .bodyRead fs p hp hfs ?_ hlog (Or.inl ⟨⟨_, rfl⟩, hheld⟩)
      rw [List.append_assoc, List.flatten_append, List.flatten_singleton,
        take_buildDataFrame hp, ← buildDataFrame_eq hp]
  | bodyRead fs p _ _ _ _ hcompleted =>
      rw [hreader] at hcompleted
      rcases hcompleted with ⟨⟨_, hcompleted⟩, _⟩ | ⟨hcompleted, _⟩ <;> cases hcompleted
  | ended _ hidle => rw [hreader] at hidle; cases hidle

theorem sound_header {ch : Channel} (h : ch.Sound) {bytes : Bytes} {reader : Reader}
    (hreader : ch.reader = .completed .header bytes)
    (hafter : Reader.afterHeader bytes = some reader) : Sound { ch with reader } := by
  rcases h.positioned with ⟨consumed, hsent, hpos⟩
  refine ⟨h.frames, consumed, hsent, ?_⟩
  simp only
  cases hpos with
  | header _ _ _ _ hwaiting => rw [hreader] at hwaiting; cases hwaiting
  | headerRead fs f hfs hconsumed hlog hcompleted hheld =>
      rw [hreader, Reader.completed.injEq] at hcompleted
      rw [hcompleted.2] at hafter
      have hf : IsFrame f := h.frames f (hfs.subset (List.mem_append_right _ List.mem_cons_self))
      cases hf with
      | data hp =>
          rw [afterHeader_data hp, Option.some.injEq] at hafter
          exact .body fs _ hp hfs hconsumed hlog hafter.symm hheld
      | keepalive =>
          -- A keepalive is all header: the chain stands between two frames again.
          rw [afterHeader_keepalive, Option.some.injEq] at hafter
          refine .header (fs ++ [buildKeepaliveFrame]) hfs ?_ ?_ hafter.symm hheld
          · rw [hconsumed, List.flatten_append, List.flatten_singleton,
              List.take_of_length_le (le_of_eq length_buildKeepaliveFrame)]
          · rw [hlog, payloads_append, payloads_keepalive, List.append_nil]
  | body _ _ _ _ _ _ hwaiting => rw [hreader] at hwaiting; cases hwaiting
  | bodyRead _ _ _ _ _ _ hcompleted =>
      rw [hreader] at hcompleted
      rcases hcompleted with ⟨⟨_, hcompleted⟩, _⟩ | ⟨hcompleted, _⟩ <;> cases hcompleted
  | ended _ hidle => rw [hreader] at hidle; cases hidle

theorem sound_hold {ch : Channel} (h : ch.Sound) {size : Nat} {bytes : Bytes}
    (hreader : ch.reader = .completed (.body size) bytes) :
    Sound { ch with reader := .idle, held := some bytes } := by
  rcases h.positioned with ⟨consumed, hsent, hpos⟩
  refine ⟨h.frames, consumed, hsent, ?_⟩
  simp only
  cases hpos with
  | header _ _ _ _ hwaiting => rw [hreader] at hwaiting; cases hwaiting
  | headerRead _ _ _ _ _ hcompleted => rw [hreader] at hcompleted; cases hcompleted
  | body _ _ _ _ _ _ hwaiting => rw [hreader] at hwaiting; cases hwaiting
  | bodyRead fs p hp hfs hconsumed hlog hcompleted =>
      rw [hreader] at hcompleted
      rcases hcompleted with ⟨⟨_, hcompleted⟩, _⟩ | ⟨hcompleted, _⟩
      · rw [Reader.completed.injEq] at hcompleted
        rw [hcompleted.2]
        exact .bodyRead fs p hp hfs hconsumed hlog (Or.inr ⟨rfl, rfl⟩)
      · cases hcompleted
  | ended _ hidle => rw [hreader] at hidle; cases hidle

theorem sound_deliver {ch : Channel} (h : ch.Sound) {bytes : Bytes} {reader : Reader}
    (hread : (∃ size, ch.reader = .completed (.body size) bytes) ∧ ch.held = none ∨
      ch.held = some bytes)
    (hnext : reader = .waiting .header ∨ reader = .idle) :
    Sound { ch with reader, held := none, log := ch.log ++ [bytes] } := by
  rcases h.positioned with ⟨consumed, hsent, hpos⟩
  refine ⟨h.frames, consumed, hsent, ?_⟩
  simp only
  have hnone : ch.held = none → ∃ size, ch.reader = .completed (.body size) bytes := by
    intro hheld
    rcases hread with ⟨hreader, _⟩ | hsome
    · exact hreader
    · exact absurd (hheld.symm.trans hsome) (Option.some_ne_none bytes).symm
  cases hpos with
  | header _ _ _ _ hwaiting hheld =>
      rcases hnone hheld with ⟨size, hreader⟩
      rw [hreader] at hwaiting; cases hwaiting
  | headerRead _ _ _ _ _ hcompleted hheld =>
      rcases hnone hheld with ⟨size, hreader⟩
      rw [hreader] at hcompleted; cases hcompleted
  | body _ _ _ _ _ _ hwaiting hheld =>
      rcases hnone hheld with ⟨size, hreader⟩
      rw [hreader] at hwaiting; cases hwaiting
  | bodyRead fs p hp hfs hconsumed hlog hcompleted =>
      have hbytes : bytes = p := by
        rcases hcompleted with ⟨⟨_, hcompleted⟩, hheld⟩ | ⟨_, hheld⟩
        · rcases hnone hheld with ⟨size, hreader⟩
          rw [hreader, Reader.completed.injEq] at hcompleted
          exact hcompleted.2
        · rcases hread with ⟨_, hnone'⟩ | hsome
          · exact absurd (hnone'.symm.trans hheld) (Option.some_ne_none p).symm
          · exact Option.some.inj (hsome.symm.trans hheld)
      -- The payload is the one of the frame behind which the chain stands.
      have hlog' : ch.log ++ [bytes] = payloads (fs ++ [buildDataFrame p]) := by
        rw [hlog, hbytes, payloads_append, payloads_data hp]
      rcases hnext with rfl | rfl
      · exact .header _ hfs hconsumed hlog' rfl rfl
      · exact .ended (hlog' ▸ payloads_mono hfs) rfl rfl
  | ended _ hidle hheld =>
      rcases hnone hheld with ⟨size, hreader⟩
      rw [hreader] at hidle; cases hidle

theorem sound_step {ch ch' : Channel} (h : ch.Sound) (hstep : Step ch ch') : ch'.Sound := by
  cases hstep with
  | enqueue hframe henqueue => exact sound_enqueue h hframe henqueue
  | transmit count hflight =>
      rcases h.positioned with ⟨consumed, hsent, hpos⟩
      refine ⟨h.frames, consumed, ?_, hpos⟩
      rw [← List.append_assoc]
      exact Writer.sent_transmit count hflight hsent
  | finish hflight =>
      exact h.writer (by rw [Writer.accepted_doWrite]; rfl)
        (fun taken => Writer.sent_finish hflight)
  | abort hflight => exact h.writer rfl (fun taken => Writer.sent_abort hflight)
  | arrive hreader hsize => exact sound_arrive h hreader hsize
  | header hreader hafter => exact sound_header h hreader hafter
  | stop hheld =>
      rcases h.positioned with ⟨consumed, hsent, hpos⟩
      exact ⟨h.frames, consumed, hsent, .ended hpos.log_initial rfl hheld⟩
  | hold hreader => exact sound_hold h hreader
  | deliver hread hnext => exact sound_deliver h hread hnext

/-- A channel on which nothing has happened. -/
theorem sound_init : Sound ⟨{}, [], .waiting .header, none, []⟩ where
  frames := fun _ hf => absurd hf List.not_mem_nil
  positioned := ⟨[], Writer.sent_empty, .header [] (List.nil_prefix) rfl rfl rfl rfl⟩

end Channel

end ProjectNight
