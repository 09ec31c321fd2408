import ProjectNight.Core.Connection
import ProjectNight.Lib.Machine
import ProjectNight.Theory.Sends

/-!
# What a Connection Delivers

The payloads one end reads are a prefix of the payloads the other end was
given to send, in both directions and for every interleaving, closes included.
Each of them is in the receive queue, has been polled from it, or is counted
as dropped.

Each direction is a channel (`toServerChannel`, `toClientChannel`): the steps
of a connection are steps of its channels, and `Channel.sound_step` says what
these read. What remains is the way from `send` to the write queue and the way
from the read chain to the receive queue. On the first, frames wait in posted
handlers, which run in order; an end that is lost may throw some away, but
then all that follow are thrown away too. On the second, a log of what was
read is compared with the queue (`Accounted`).

A receiver that is shutting down throws payloads away without counting them.
`push_packet` and the client's body handler both look at `shutting_down` first
and leave. So the count is exact for the payloads whose handlers ran before
the receiver's shutdown had begun, and only for those.

## Main definitions

* `Reading.accounted`, `Accounted`: What was read, and where it is.
* `toServerChannel`, `toClientChannel`: The two directions.
* `Connected`: The invariant.
* `Delivers`: What a direction delivers.

## Theorems

* `connected_step`: Every step of a connection keeps the invariant.
* `connection_delivers`: What both directions deliver, in every run.
-/

namespace ProjectNight

open Wire

/-! ### From the read chain to the receive queue -/

/-- The payload was put into the receive queue or counted as dropped. -/
def Reading.accounted (e : Reading) : Bool := e.queued || e.counted = 1

/-- Where the payloads in a log are. -/
structure Accounted (log : List Reading) (polled inQueue : List Bytes) (down : Bool) :
    Prop where
  queued : (log.filter Reading.queued).map Reading.payload = polled ++ inQueue
  counted : ∀ e ∈ log, e.counted = if e.queued || e.shuttingDown then 0 else 1
  ordered : log.filter Reading.accounted <+: log
  running : down = false → ∀ e ∈ log, e.accounted = true

theorem accounted_init (down : Bool) : Accounted [] [] [] down where
  queued := rfl
  counted := fun _ he => absurd he List.not_mem_nil
  ordered := List.nil_prefix
  running := fun _ _ he => absurd he List.not_mem_nil

/-- One more payload is read. -/
theorem Accounted.append {log : List Reading} {polled inQueue : List Bytes} {down : Bool}
    (h : Accounted log polled inQueue down) (e : Reading) (hdown : e.shuttingDown = down)
    (hcounted : e.counted = if e.queued || e.shuttingDown then 0 else 1)
    (hqueued : e.queued = true → down = false) :
    Accounted (log ++ [e]) polled (if e.queued then inQueue ++ [e.payload] else inQueue) down := by
  have hmem : ∀ e' ∈ log ++ [e], e' ∈ log ∨ e' = e := by
    intro e' he'
    rw [List.mem_append, List.mem_singleton] at he'
    exact he'
  -- While the receiver runs, a payload that is not queued is counted.
  have hrunning : down = false → e.accounted = true := by
    intro hfalse
    unfold Reading.accounted
    rw [hdown, hfalse, Bool.or_false] at hcounted
    cases hq : e.queued with
    | true => rfl
    | false =>
        rw [hq, if_neg Bool.false_ne_true] at hcounted
        rw [hcounted]
        rfl
  refine ⟨?_, ?_, ?_, ?_⟩
  · rw [List.filter_append, List.map_append, h.queued]
    cases hq : e.queued with
    | true =>
        rw [List.filter_singleton, hq, if_pos rfl, List.append_assoc]
        rfl
    | false =>
        rw [List.filter_singleton, hq, if_neg Bool.false_ne_true]
        exact List.append_nil _
  · intro e' he'
    rcases hmem e' he' with hold | rfl
    · exact h.counted e' hold
    · exact hcounted
  · rw [List.filter_append, List.filter_singleton]
    cases hacc : e.accounted with
    | false =>
        rw [cond_false, List.append_nil]
        exact h.ordered.trans (List.prefix_append _ _)
    | true =>
        -- A payload is accounted for only while the receiver is running.
        have hfalse : down = false := by
          unfold Reading.accounted at hacc
          cases hq : e.queued with
          | true => exact hqueued hq
          | false =>
              rw [hq, Bool.false_or, decide_eq_true_eq] at hacc
              rw [hq, Bool.false_or, hdown, hacc] at hcounted
              cases down with
              | false => rfl
              | true => exact absurd hcounted (by decide)
        rw [cond_true, List.filter_eq_self.mpr (h.running hfalse)]
  · intro hfalse e' he'
    rcases hmem e' he' with hold | rfl
    · exact h.running hfalse e' hold
    · exact hrunning hfalse

theorem Accounted.poll {log : List Reading} {polled rest : List Bytes} {data : Bytes}
    {down : Bool} (h : Accounted log polled (data :: rest) down) :
    Accounted log (polled ++ [data]) rest down := by
  refine ⟨?_, h.counted, h.ordered, h.running⟩
  rw [h.queued, List.append_assoc, List.singleton_append]

theorem Accounted.shutdown {log : List Reading} {polled inQueue : List Bytes} {down : Bool}
    (h : Accounted log polled inQueue down) : Accounted log polled inQueue true :=
  ⟨h.queued, h.counted, h.ordered, fun hfalse => absurd hfalse.symm Bool.false_ne_true⟩

/-- What a direction delivers. The payloads that were polled, are in the receive
    queue or are counted as dropped are, in read order, a prefix of those sent,
    and so are all that were read. Once a payload has been neither queued nor
    counted, none that is read later is. The queue and the polled payloads are
    those that were put into the queue. A payload that was not put into the
    queue has raised the count by one, unless the receiver was shutting down. -/
structure Delivers (sent : List Bytes) (log : List Reading) (polled inQueue : List Bytes) :
    Prop where
  delivered : (log.filter Reading.accounted).map Reading.payload <+: sent
  read : log.map Reading.payload <+: sent
  first : log.filter Reading.accounted <+: log
  queued : (log.filter Reading.queued).map Reading.payload = polled ++ inQueue
  counted : ∀ e ∈ log, e.counted = if e.queued || e.shuttingDown then 0 else 1

theorem Accounted.delivers {log : List Reading} {polled inQueue sent : List Bytes}
    {down : Bool} (h : Accounted log polled inQueue down)
    (hread : log.map Reading.payload <+: sent) : Delivers sent log polled inQueue where
  delivered := (h.ordered.map Reading.payload).trans hread
  read := hread
  first := h.ordered
  queued := h.queued
  counted := h.counted

/-! ### Steps of the two ends as steps of channels -/

open Channel

theorem sound_of_reflGen {ch ch' : Channel} (h : ch.Sound)
    (hstep : Relation.ReflGen Step ch ch') : ch'.Sound := by
  cases hstep with
  | refl => exact h
  | single hstep => exact sound_step h hstep

namespace Session

/-- The payload a handler of a session reads. -/
def readPayloads (s : Session) : SessionAction → List Bytes
  | .read => s.reader.completedBody.toList
  | _ => []

theorem Change.writer_step {s s' : Session} {action : SessionAction}
    {effects : List SessionEffect} (h : Change s action s' effects)
    (hmay : Connection.sessionMay s action = true)
    (hframes : ∀ frame ∈ postedFrames s.strand, IsFrame frame) (wire : Bytes) (reader : Reader)
    (held : Option Bytes) (log : List Bytes) :
    Relation.ReflGen Step ⟨s.writer, wire, reader, held, log⟩
      ⟨s'.writer, wire, reader, held, log⟩ := by
  cases h with
  | @taskAccepted frame strand writer hstrand hopen henqueue =>
      have hframe : IsFrame frame := by
        refine hframes frame ?_
        rw [hstrand]
        exact List.mem_cons_self
      exact .single (.enqueue (c := ⟨s.writer, wire, reader, held, log⟩) hframe henqueue)
  | written hflight =>
      -- A write completes only when all of it was taken, so `finish` applies.
      exact .single (.finish (c := ⟨s.writer, wire, reader, held, log⟩)
        (of_decide_eq_true hmay))
  | writeError hflight =>
      exact .single (.abort (c := ⟨s.writer, wire, reader, held, log⟩) hflight)
  | keepalive hopen henqueue =>
      exact .single (.enqueue (c := ⟨s.writer, wire, reader, held, log⟩) .keepalive henqueue)
  | _ => exact .refl

theorem Change.reader_step {s s' : Session} {action : SessionAction}
    {effects : List SessionEffect} (h : Change s action s' effects)
    (hmay : Connection.sessionMay s action = true) (writer : Writer) (wire : Bytes)
    (log : List Bytes) :
    Relation.ReflGen Step ⟨writer, wire, s.reader, none, log⟩
      ⟨writer, wire, s'.reader, none, log ++ s.readPayloads action⟩ := by
  have hsame : Relation.ReflGen Step ⟨writer, wire, s.reader, none, log⟩
      ⟨writer, wire, s.reader, none, log ++ []⟩ := by
    rw [List.append_nil]
  have hstop : Step ⟨writer, wire, s.reader, none, log⟩
      ⟨writer, wire, .idle, none, log ++ []⟩ := by
    rw [List.append_nil]
    exact .stop (c := ⟨writer, wire, s.reader, none, log⟩) rfl
  cases h with
  | arrived => exact absurd hmay Bool.false_ne_true
  | header hreader hafter =>
      rw [readPayloads, show s.reader.completedBody = none by rw [hreader]; rfl,
        Option.toList_none, List.append_nil]
      exact .single (.header (c := ⟨writer, wire, s.reader, none, log⟩) hreader hafter)
  | badHeader hreader =>
      rw [readPayloads, show s.reader.completedBody = none by rw [hreader]; rfl]
      exact .single hstop
  | @body size bytes hreader =>
      -- The one step of a session that hands a payload over.
      rw [readPayloads, show s.reader.completedBody = some bytes by rw [hreader]; rfl]
      exact .single (.deliver (c := ⟨writer, wire, s.reader, none, log⟩)
        (Or.inl ⟨⟨size, hreader⟩, rfl⟩) (Or.inl rfl))
  | readError => exact .single hstop
  | _ => exact hsame

end Session

namespace Client

/-- The payload a handler of a client is done with. -/
def readPayloads (c : Client) : ClientAction → List Bytes
  | .read => if c.shuttingDown then c.reader.completedBody.toList else []
  | .copied => c.copied.toList
  | _ => []

theorem Change.writer_step {c c' : Client} {action : ClientAction} (h : Change c action c')
    (hmay : Connection.clientMay c action = true)
    (hframes : ∀ frame ∈ postedFrames c.io, IsFrame frame) (wire : Bytes) (reader : Reader)
    (held : Option Bytes) (log : List Bytes) :
    Relation.ReflGen Step ⟨c.writer, wire, reader, held, log⟩
      ⟨c'.writer, wire, reader, held, log⟩ := by
  cases h with
  | @taskAccepted frame io writer hio hlive henqueue =>
      have hframe : IsFrame frame := by
        refine hframes frame ?_
        rw [hio]
        exact List.mem_cons_self
      exact .single (.enqueue (c := ⟨c.writer, wire, reader, held, log⟩) hframe henqueue)
  | written hflight =>
      exact .single (.finish (c := ⟨c.writer, wire, reader, held, log⟩)
        (of_decide_eq_true hmay))
  | writeStop hflight =>
      rw [writer_handleDisconnect]
      exact .single (.abort (c := ⟨c.writer, wire, reader, held, log⟩) hflight)
  | keepalive henqueue =>
      exact .single (.enqueue (c := ⟨c.writer, wire, reader, held, log⟩) .keepalive henqueue)
  | @copied bytes =>
      rw [(sends_onCopied c bytes).1]
  | taskOverflow | headerStop | bodyDiscarded | readError | timeout | keepaliveOverflow =>
      rw [writer_handleDisconnect]
  | _ => exact .refl

theorem Change.reader_step {c c' : Client} {action : ClientAction} (h : Change c action c')
    (hmay : Connection.clientMay c action = true)
    (hidle : ∀ p, c.copied = some p → c.reader = .idle) (writer : Writer) (wire : Bytes)
    (log : List Bytes) :
    Relation.ReflGen Step ⟨writer, wire, c.reader, c.copied, log⟩
      ⟨writer, wire, c'.reader, c'.copied, log ++ c.readPayloads action⟩ := by
  have hsame : Relation.ReflGen Step ⟨writer, wire, c.reader, c.copied, log⟩
      ⟨writer, wire, c.reader, c.copied, log ++ []⟩ := by
    rw [List.append_nil]
  have hstop : c.copied = none → Step ⟨writer, wire, c.reader, c.copied, log⟩
      ⟨writer, wire, .idle, c.copied, log ++ []⟩ := by
    intro hcopied
    rw [List.append_nil]
    exact .stop (c := ⟨writer, wire, c.reader, c.copied, log⟩) hcopied
  cases h with
  | arrived => exact absurd hmay Bool.false_ne_true
  | header hcopied hreader hafter =>
      have hnone : c.readPayloads .read = [] := by
        rw [readPayloads, hreader]
        exact ite_self _
      rw [hnone, List.append_nil]
      exact .single (.header (c := ⟨writer, wire, c.reader, c.copied, log⟩) hreader hafter)
  | headerStop hcopied hreader =>
      have hnone : c.readPayloads .read = [] := by
        rw [readPayloads, hreader]
        exact ite_self _
      rw [hnone, reader_handleDisconnect, copied_handleDisconnect]
      exact .single (hstop hcopied)
  | @bodyDiscarded size bytes hcopied hreader hdown =>
      rw [readPayloads, if_pos hdown, reader_handleDisconnect, copied_handleDisconnect, hreader,
        hcopied]
      exact .single (.deliver (c := ⟨writer, wire, .completed (.body size) bytes, none, log⟩)
        (Or.inl ⟨⟨size, rfl⟩, rfl⟩) (Or.inr rfl))
  | @bodyCopied size bytes hcopied hreader hdown =>
      rw [readPayloads, if_neg (by rw [hdown]; exact Bool.false_ne_true), List.append_nil]
      exact .single (.hold (c := ⟨writer, wire, c.reader, c.copied, log⟩) hreader)
  | @copied bytes hcopied =>
      have hnext : (c.onCopied bytes).copied = none ∧
          ((c.onCopied bytes).reader = .waiting .header ∨
            (c.onCopied bytes).reader = .idle) := by
        unfold onCopied
        split_ifs
        · exact ⟨rfl, Or.inr (hidle bytes hcopied)⟩
        all_goals exact ⟨rfl, Or.inl rfl⟩
      rw [readPayloads, hcopied, hnext.1]
      exact .single (.deliver (c := ⟨writer, wire, c.reader, some bytes, log⟩) (Or.inr rfl)
        hnext.2)
  | readError hcopied hreader =>
      rw [reader_handleDisconnect, copied_handleDisconnect]
      exact .single (hstop hcopied)
  | taskOverflow | writeStop | timeout | keepaliveOverflow =>
      rw [reader_handleDisconnect, copied_handleDisconnect]
      exact hsame
  | _ => exact hsame

end Client

/-! ### The receive queues -/

/-- The payloads of the session `id` in a packet queue. -/
def queuedPayloads (id : UInt32) (q : PacketQueue) : List Bytes :=
  (q.packets.filter (Connection.isPayload id)).map Packet.data

theorem queuedPayloads_append (id : UInt32) (packets : List Packet) (packet : Packet) :
    ((packets ++ [packet]).filter (Connection.isPayload id)).map Packet.data
      = (packets.filter (Connection.isPayload id)).map Packet.data
        ++ if Connection.isPayload id packet then [packet.data] else [] := by
  rw [List.filter_append, List.map_append, List.filter_singleton]
  cases Connection.isPayload id packet <;> rfl

/-- Other packets are not payloads of the session. -/
theorem queuedPayloads_push_other {id : UInt32} {packet : Packet}
    (h : Connection.isPayload id packet = false) (q : PacketQueue) :
    queuedPayloads id (q.pushPacket packet).2 = queuedPayloads id q := by
  unfold PacketQueue.pushPacket queuedPayloads
  split_ifs
  · rfl
  · rw [queuedPayloads_append, h, if_neg Bool.false_ne_true, List.append_nil]
  · rfl

/-- A payload is queued, counted as dropped, or thrown away by a server that is
    shutting down. -/
theorem accounted_push {s t : Server} {id : UInt32} {log : List Reading} {polled : List Bytes}
    (h : Accounted log polled (queuedPayloads id s.queue) s.queue.shuttingDown)
    {payload : Bytes} (hafter : t.queue = (s.queue.pushPacket ⟨.data, id, payload⟩).2) :
    Accounted (log ++ [Connection.serverReading s t payload]) polled (queuedPayloads id t.queue)
      t.queue.shuttingDown := by
  have hpayload : Connection.isPayload id ⟨.data, id, payload⟩ = true :=
    decide_eq_true ⟨rfl, rfl⟩
  cases hdown : s.queue.shuttingDown with
  | true =>
      -- `push_packet` returns before it counts anything.
      rw [PacketQueue.pushPacket_of_down hdown] at hafter
      have hreading : Connection.serverReading s t payload = ⟨payload, false, 0, true⟩ := by
        unfold Connection.serverReading
        simp only [hafter, hdown, Nat.sub_self, Nat.lt_irrefl, decide_false]
      rw [hafter, hreading]
      exact h.append ⟨payload, false, 0, true⟩ hdown.symm rfl
        (fun hq => absurd hq Bool.false_ne_true)
  | false =>
      by_cases hroom : s.queue.packets.length < packetQueueCapacity
      · rw [PacketQueue.pushPacket_of_room hdown hroom] at hafter
        have hreading : Connection.serverReading s t payload = ⟨payload, true, 0, false⟩ := by
          unfold Connection.serverReading
          simp only [hafter, hdown, Nat.sub_self, List.length_append, List.length_singleton,
            Nat.lt_succ_self, decide_true]
        have hqueue : ((s.queue.packets ++ [(⟨.data, id, payload⟩ : Packet)]).filter
            (Connection.isPayload id)).map Packet.data
              = queuedPayloads id s.queue ++ [payload] := by
          rw [queuedPayloads_append, hpayload, if_pos rfl]
          rfl
        rw [hafter, hreading, queuedPayloads, hqueue]
        exact h.append ⟨payload, true, 0, false⟩ hdown.symm rfl (fun _ => hdown)
      · -- A full queue: the payload is dropped and counted.
        rw [PacketQueue.pushPacket_of_full hdown hroom] at hafter
        have hreading : Connection.serverReading s t payload = ⟨payload, false, 1, false⟩ := by
          unfold Connection.serverReading
          simp only [hafter, hdown, Nat.add_sub_cancel_left, Nat.lt_irrefl, decide_false]
        rw [hafter, hreading]
        exact h.append ⟨payload, false, 1, false⟩ hdown.symm rfl
          (fun hq => absurd hq Bool.false_ne_true)

/-- The payload in a call of `on_receive_`. -/
def SessionEffect.payload? : SessionEffect → Option Bytes
  | .receive data => some data
  | .close => none

theorem Session.payloads_closeCalls (s : Session) :
    s.closeCalls.filterMap SessionEffect.payload? = [] := by
  unfold closeCalls
  split_ifs <;> rfl

/-- The payloads a handler of a session reads are those it hands to
    `on_receive_`. -/
theorem Session.Change.readPayloads_eq {s s' : Session} {action : SessionAction}
    {effects : List SessionEffect} (h : Change s action s' effects) :
    s.readPayloads action = effects.filterMap SessionEffect.payload? := by
  cases h with
  | header hreader =>
      rw [readPayloads, hreader]
      rfl
  | badHeader hreader =>
      rw [readPayloads, hreader, payloads_closeCalls]
      rfl
  | body hreader =>
      rw [readPayloads, hreader]
      rfl
  | taskOverflow | taskClose | readError | writeError | timeout | keepaliveOverflow =>
      exact s.payloads_closeCalls.symm
  | _ => rfl

namespace Client

theorem Change.queue_same {c c' : Client} {action : ClientAction} (h : Change c action c')
    (hne : action ≠ .copied) :
    c'.receiveQueue = c.receiveQueue ∧ c'.shuttingDown = c.shuttingDown := by
  cases h with
  | copied => exact absurd rfl hne
  | taskOverflow | headerStop | bodyDiscarded | readError | writeStop | timeout
  | keepaliveOverflow =>
      exact ⟨receiveQueue_handleDisconnect _, shuttingDown_handleDisconnect _⟩
  | _ => exact ⟨rfl, rfl⟩

/-- Only the second half of the body handler of a client counts. -/
theorem Change.droppedPackets_same {c c' : Client} {action : ClientAction}
    (h : Change c action c') (hne : action ≠ .copied) :
    c'.droppedPackets = c.droppedPackets := by
  have hlost : ∀ c : Client, c.handleDisconnect.droppedPackets = c.droppedPackets := by
    intro c
    rw [Client.handleDisconnect_eq]
  cases h with
  | copied => exact absurd rfl hne
  | taskOverflow | headerStop | bodyDiscarded | readError | writeStop | timeout
  | keepaliveOverflow => exact hlost _
  | _ => rfl

end Client

/-- The second half of the client's body handler queues the payload, counts it
    as dropped, or throws it away. -/
theorem accounted_onCopied {c : Client} {log : List Reading} {polled : List Bytes}
    (h : Accounted log polled c.receiveQueue c.shuttingDown) (payload : Bytes) :
    Accounted (log ++ [Connection.clientReading c (c.onCopied payload) payload]) polled
      (c.onCopied payload).receiveQueue (c.onCopied payload).shuttingDown := by
  have hdown := (c.sends_onCopied payload).2.2.2
  unfold Connection.clientReading
  rw [hdown]
  by_cases hd : c.shuttingDown = true
  · -- The second load of `shutting_down` stops the handler: nothing is counted.
    have heq : (c.onCopied payload).receiveQueue = c.receiveQueue ∧
        (c.onCopied payload).droppedPackets = c.droppedPackets := by
      rw [Client.onCopied, if_pos hd]
      exact ⟨rfl, rfl⟩
    simp only [heq.1, heq.2, lt_irrefl, decide_false, Nat.sub_self]
    exact h.append ⟨payload, false, 0, c.shuttingDown⟩ rfl (by simp only [hd]; rfl)
      (fun hq => absurd hq Bool.false_ne_true)
  · by_cases hroom : c.receiveQueue.length < receiveQueueCapacity
    · have heq : (c.onCopied payload).receiveQueue = c.receiveQueue ++ [payload] ∧
          (c.onCopied payload).droppedPackets = c.droppedPackets := by
        rw [Client.onCopied, if_neg hd, if_pos hroom]
        exact ⟨rfl, rfl⟩
      simp only [heq.1, heq.2, List.length_append, List.length_singleton, Nat.lt_succ_self,
        decide_true, Nat.sub_self]
      exact h.append ⟨payload, true, 0, c.shuttingDown⟩ rfl rfl
        (fun _ => Bool.not_eq_true _ ▸ hd)
    · have heq : (c.onCopied payload).receiveQueue = c.receiveQueue ∧
          (c.onCopied payload).droppedPackets = c.droppedPackets + 1 := by
        rw [Client.onCopied, if_neg hd, if_neg hroom]
        exact ⟨rfl, rfl⟩
      simp only [heq.1, heq.2, lt_irrefl, decide_false, Nat.add_sub_cancel_left]
      exact h.append ⟨payload, false, 1, c.shuttingDown⟩ rfl
        (by rw [Bool.not_eq_true] at hd; simp only [hd]; rfl)
        (fun hq => absurd hq Bool.false_ne_true)

/-- What the client's handlers do with payloads. -/
theorem accounted_client {c client : Client} {action : ClientAction} {log : List Reading}
    {polled : List Bytes} (h : Accounted log polled c.receiveQueue c.shuttingDown)
    (hstep : c.step action = some client) :
    Accounted (log ++ Connection.clientReadings c client action) polled client.receiveQueue
      client.shuttingDown := by
  have hchange := Client.step_change hstep
  have hsame : Accounted (log ++ []) polled c.receiveQueue c.shuttingDown := by
    rw [List.append_nil]
    exact h
  cases action with
  | read =>
      have hne : ClientAction.read ≠ .copied := by
        simp only [ne_eq, reduceCtorEq, not_false_eq_true]
      rcases hchange.queue_same hne with ⟨hqueue, hdown⟩
      rw [hqueue, hdown, Connection.clientReadings]
      by_cases hd : c.shuttingDown = true
      · rw [if_pos hd]
        cases hbody : c.reader.completedBody with
        | none => exact hsame
        | some payload =>
            -- Thrown away: neither the queue nor the counter has moved.
            have hreading : Connection.clientReading c client payload
                = ⟨payload, false, 0, true⟩ := by
              unfold Connection.clientReading
              simp only [hqueue, hchange.droppedPackets_same hne, hd, lt_irrefl, decide_false,
                Nat.sub_self]
            rw [Option.toList_some, List.map_singleton, hreading]
            exact h.append ⟨payload, false, 0, true⟩ hd.symm rfl
              (fun hq => absurd hq Bool.false_ne_true)
      · rw [if_neg hd]
        exact hsame
  | copied =>
      rcases Option.map_eq_some_iff.mp hstep with ⟨payload, hcopied, hclient⟩
      rw [← hclient, Connection.clientReadings, hcopied, Option.toList_some, List.map_singleton]
      exact accounted_onCopied h payload
  | _ =>
      rcases hchange.queue_same (by simp only [ne_eq, reduceCtorEq, not_false_eq_true]) with
        ⟨hqueue, hdown⟩
      rw [hqueue, hdown]
      exact hsame

/-! ### The invariant of a connection -/

namespace Connection

/-- From the client to the server. Before it is accepted, nothing has been
    read. -/
def toServerChannel (c : Connection) : Channel where
  writer := c.client.writer
  wire := c.toServer
  reader := (c.session.map Session.reader).getD (.waiting .header)
  held := none
  log := c.serverLog.map Reading.payload

/-- From the server to the client. -/
def toClientChannel (c : Connection) : Channel where
  writer := (c.session.map Session.writer).getD {}
  wire := c.toClient
  reader := c.client.reader
  held := c.client.copied
  log := c.clientLog.map Reading.payload

theorem toServerChannel_eq {c : Connection} {s : Session} (hs : c.session = some s) :
    c.toServerChannel
      = ⟨c.client.writer, c.toServer, s.reader, none, c.serverLog.map Reading.payload⟩ := by
  rw [toServerChannel, hs]
  rfl

theorem toClientChannel_eq {c : Connection} {s : Session} (hs : c.session = some s) :
    c.toClientChannel = ⟨s.writer, c.toClient, c.client.reader, c.client.copied,
      c.clientLog.map Reading.payload⟩ := by
  rw [toClientChannel, hs]
  rfl

theorem toServerChannel_sound {c : Connection} {s : Session} (hs : c.session = some s)
    (h : Channel.Sound
      ⟨c.client.writer, c.toServer, s.reader, none, c.serverLog.map Reading.payload⟩) :
    c.toServerChannel.Sound := by
  rw [toServerChannel_eq hs]
  exact h

theorem toClientChannel_sound {c : Connection} {s : Session} (hs : c.session = some s)
    (h : Channel.Sound ⟨s.writer, c.toClient, c.client.reader, c.client.copied,
      c.clientLog.map Reading.payload⟩) : c.toClientChannel.Sound := by
  rw [toClientChannel_eq hs]
  exact h

/-- The invariant of both directions. -/
structure Connected (id : UInt32) (c : Connection) : Prop where
  toServer : c.toServerChannel.Sound
  toClient : c.toClientChannel.Sound
  clientSends : ClientSends c.client c.sentToServer
  serverSends : ServerSends id c.server c.connectPolled c.sentToClient
  serverLog : Accounted c.serverLog c.serverPolled (queuedPayloads id c.server.queue)
    c.server.queue.shuttingDown
  clientLog : Accounted c.clientLog c.clientPolled c.client.receiveQueue c.client.shuttingDown

variable {id : UInt32} {c : Connection}

theorem connected_init (id : UInt32) : Connected id (initial id) where
  toServer := sound_init
  toClient := sound_init
  clientSends := ⟨fun _ hf => absurd hf List.not_mem_nil, List.nil_prefix, fun _ => rfl⟩
  serverSends := Or.inl ⟨rfl, rfl, fun _ => rfl, fun _ hp => absurd hp List.not_mem_nil,
    fun _ ht => absurd ht List.not_mem_nil, rfl, rfl⟩
  serverLog := accounted_init false
  clientLog := accounted_init false

/-- A step of the server that leaves the session's read chain and write queue
    alone. -/
theorem Connected.withServer (h : Connected id c) {server : Server}
    (hreader : (server.objects[0]?.map Session.reader).getD (.waiting .header)
      = (c.session.map Session.reader).getD (.waiting .header))
    (hwriter : (server.objects[0]?.map Session.writer).getD {}
      = (c.session.map Session.writer).getD {})
    (hsends : ServerSends id server c.connectPolled c.sentToClient)
    (hlog : Accounted c.serverLog c.serverPolled (queuedPayloads id server.queue)
      server.queue.shuttingDown) :
    Connected id { c with server } := by
  refine ⟨?_, ?_, h.clientSends, hsends, hlog, h.clientLog⟩
  · have heq : toServerChannel { c with server } = c.toServerChannel := by
      unfold toServerChannel session
      simp only
      rw [hreader]
      rfl
    rw [heq]
    exact h.toServer
  · have heq : toClientChannel { c with server } = c.toClientChannel := by
      unfold toClientChannel session
      simp only
      rw [hwriter]
      rfl
    rw [heq]
    exact h.toClient

theorem connected_accept (h : Connected id c) (hfirst : c.server.accepts = 0) :
    Connected id { c with server := c.server.onAccept } := by
  have hsends := serverSends_accept h.serverSends hfirst
  rcases h.serverSends with habsent | ⟨s, hs⟩
  · have hnone : c.session = none := by
      rw [session, habsent.objects, List.getElem?_nil]
    have hother : isPayload id ⟨.connect, c.server.nextId, []⟩ = false := by
      simp only [isPayload, reduceCtorEq, false_and, decide_false]
    have hqueue : queuedPayloads id c.server.onAccept.queue = queuedPayloads id c.server.queue ∧
        c.server.onAccept.queue.shuttingDown = c.server.queue.shuttingDown := by
      unfold Server.onAccept
      simp only
      split_ifs
      · exact ⟨rfl, rfl⟩
      all_goals exact ⟨queuedPayloads_push_other hother _, PacketQueue.shuttingDown_pushPacket _ _⟩
    -- The session has just been created, if it has been created at all.
    have hobjects : c.server.onAccept.objects[0]? = none ∨
        c.server.onAccept.objects[0]? = some (Session.start { id := c.server.nextId }) := by
      unfold Server.onAccept
      simp only
      split_ifs
      · exact Or.inl hnone
      · right
        simp only [habsent.objects, List.nil_append, List.getElem?_cons_zero]
      · exact Or.inl hnone
    refine h.withServer ?_ ?_ hsends (by rw [hqueue.1, hqueue.2]; exact h.serverLog)
    · rcases hobjects with hobj | hobj
      · rw [hnone, hobj]
      · rw [hnone, hobj]
        rfl
    · rcases hobjects with hobj | hobj
      · rw [hnone, hobj]
      · rw [hnone, hobj]
        rfl
  · exact absurd hfirst hs.accepts

theorem connected_serverTask (h : Connected id c) {server : Server}
    (hstep : c.server.ioStep .task = some server) : Connected id { c with server } := by
  unfold Server.ioStep at hstep
  cases hstrand : c.server.strand with
  | nil => simp only [hstrand, reduceCtorEq] at hstep
  | cons task strand =>
      simp only [hstrand, Option.some.injEq] at hstep
      have hqueue := (Server.profile_onTask { c.server with strand } task).2.1
      rw [hstep] at hqueue
      have hlog : Accounted c.serverLog c.serverPolled (queuedPayloads id server.queue)
          server.queue.shuttingDown := by
        rw [hqueue]
        exact h.serverLog
      -- Handlers of `server_strand` only post to the session: neither channel moves.
      rcases h.serverSends with habsent | ⟨s, hs⟩
      · have hstill := unaccepted_task habsent hstrand
        rw [hstep] at hstill
        refine h.withServer ?_ ?_ (Or.inl hstill) hlog
        · rw [session, hstill.objects, habsent.objects]
        · rw [session, hstill.objects, habsent.objects]
      · rcases hs.task hstrand with ⟨tasks, hstill⟩
        rw [hstep] at hstill
        refine h.withServer ?_ ?_ (Or.inr ⟨_, hstill⟩) hlog
        · rw [session, hstill.objects, hs.objects]
          rfl
        · rw [session, hstill.objects, hs.objects]
          rfl

/-- There is a session, and the server knows it. -/
theorem Connected.established (h : Connected id c) {s : Session} (hs : c.session = some s) :
    Established id c.server c.sentToClient s := by
  rcases h.serverSends with habsent | ⟨s', hs'⟩
  · rw [session, habsent.objects, List.getElem?_nil] at hs
    exact absurd hs.symm (Option.some_ne_none s)
  · rw [session, hs'.objects, List.getElem?_cons_zero, Option.some.injEq] at hs
    rw [← hs]
    exact hs'

/-- A handler of the session. -/
theorem connected_session (h : Connected id c) {action : SessionAction} {s s' : Session}
    {effects : List SessionEffect} (hs : c.session = some s)
    (hmay : sessionMay s action = true) (hstep : s.step action = some (s', effects)) :
    Connected id { c with
      server := c.server.onSession 0 s (s', effects)
      serverLog := c.serverLog ++
        c.serverReadings (c.server.onSession 0 s (s', effects)) action } := by
  have hestablished := h.established hs
  have hnew := hestablished.session hstep
  have hchange := Session.step_change hstep
  have hsession : (c.server.onSession 0 s (s', effects)).objects[0]? = some s' := by
    rw [hnew.objects, List.getElem?_cons_zero]
  have hreadings : c.serverReadings (c.server.onSession 0 s (s', effects)) action
      = (s.readPayloads action).map
        (serverReading c.server (c.server.onSession 0 s (s', effects))) := by
    cases action with
    | read => rw [serverReadings, hs, Option.bind_some, Session.readPayloads]
    | _ => rfl
  have hpayloads : (c.serverReadings (c.server.onSession 0 s (s', effects)) action).map
      Reading.payload = s.readPayloads action := by
    rw [hreadings, List.map_map]
    exact List.map_id _
  -- The session reads from one channel and writes to the other.
  refine ⟨?_, ?_, h.clientSends, Or.inr ⟨s', hnew⟩, ?_, h.clientLog⟩
  · have hsound := h.toServer
    rw [toServerChannel_eq hs] at hsound
    refine toServerChannel_sound hsession ?_
    simp only [List.map_append, hpayloads]
    exact sound_of_reflGen hsound (hchange.reader_step hmay _ _ _)
  · have hsound := h.toClient
    rw [toClientChannel_eq hs] at hsound
    refine toClientChannel_sound hsession ?_
    exact sound_of_reflGen hsound (hchange.writer_step hmay
      (fun frame hframe => (hestablished.posted frame hframe).isFrame) _ _ _ _)
  · have hread := hchange.readPayloads_eq
    have hother : isPayload id ⟨.disconnect, s.id, []⟩ = false := by
      simp only [isPayload, reduceCtorEq, false_and, decide_false]
    rcases Session.step_outcome hstep with ⟨_, hout⟩
    cases hout with
    | silent =>
        rw [hreadings, hread, List.filterMap_nil, List.map_nil, List.append_nil]
        exact h.serverLog
    | receives size data =>
        -- What was read is what is pushed, and the log grows by how that went.
        have hpushed : (c.server.onSession 0 s (s', [.receive data])).queue
            = (c.server.queue.pushPacket ⟨.data, id, data⟩).2 := by
          rw [← hestablished.owner]
          rfl
        rw [hreadings, hread]
        exact accounted_push h.serverLog hpushed
    | closes =>
        have hsame : queuedPayloads id (c.server.queue.pushPacket ⟨.disconnect, s.id, []⟩).2
            = queuedPayloads id c.server.queue := queuedPayloads_push_other hother _
        have hdown := PacketQueue.shuttingDown_pushPacket c.server.queue ⟨.disconnect, s.id, []⟩
        rw [hreadings, hread]
        simp only [List.filterMap_cons, List.filterMap_nil, SessionEffect.payload?, List.map_nil,
          List.append_nil, Server.onSession, List.foldl_cons, List.foldl_nil, Server.applyEffect]
        rw [hsame, hdown]
        exact h.serverLog

theorem connected_sessionArrive (h : Connected id c) {target : ReadTarget} {s s' : Session}
    {effects : List SessionEffect} (hs : c.session = some s)
    (hreader : s.reader = .waiting target) (hsize : target.size ≤ c.toServer.length)
    (hstep : s.step (.arrive (c.toServer.take target.size)) = some (s', effects)) :
    Connected id { c with
      server := c.server.onSession 0 s (s', effects)
      toServer := c.toServer.drop target.size } := by
  have hnew := (h.established hs).session hstep
  have hsession : (c.server.onSession 0 s (s', effects)).objects[0]? = some s' := by
    rw [hnew.objects, List.getElem?_cons_zero]
  -- The read completes, and nothing else happens.
  have hs' : s' = { s with reader := .completed target (c.toServer.take target.size) } ∧
      effects = [] := by
    simp only [Session.step, hreader] at hstep
    split_ifs at hstep
    rw [Option.some.injEq, Prod.mk.injEq] at hstep
    exact ⟨hstep.1.symm, hstep.2.symm⟩
  refine ⟨?_, ?_, h.clientSends, Or.inr ⟨s', hnew⟩, ?_, h.clientLog⟩
  · have hsound := h.toServer
    rw [toServerChannel_eq hs] at hsound
    refine toServerChannel_sound hsession ?_
    rw [hs'.1]
    exact sound_step hsound (.arrive hreader hsize)
  · have hsound := h.toClient
    rw [toClientChannel_eq hs] at hsound
    refine toClientChannel_sound hsession ?_
    rw [hs'.1]
    exact hsound
  · rw [hs'.2]
    exact h.serverLog

theorem transmit_cases (w : Writer) (count : Nat) :
    w.transmit count = ([], w) ∨ ∃ rest, w.inFlight = some rest ∧
      w.transmit count = (rest.take count, { w with inFlight := some (rest.drop count) }) := by
  unfold Writer.transmit
  cases hflight : w.inFlight with
  | none => exact Or.inl rfl
  | some rest => exact Or.inr ⟨rest, rfl, rfl⟩

theorem accepted_transmit (w : Writer) (count : Nat) :
    (w.transmit count).2.accepted = w.accepted := by
  rcases transmit_cases w count with h | ⟨rest, _, h⟩ <;> rw [h]

/-- The socket takes some bytes of the outstanding write. -/
theorem sound_transmit {ch : Channel} (h : ch.Sound) (count : Nat) :
    Channel.Sound { ch with
      writer := (ch.writer.transmit count).2
      wire := ch.wire ++ (ch.writer.transmit count).1 } := by
  rcases transmit_cases ch.writer count with heq | ⟨rest, hflight, heq⟩
  · rw [heq]
    simp only [List.append_nil]
    exact h
  · rw [heq]
    exact sound_step h (.transmit count hflight)

theorem connected_sessionTransmit (h : Connected id c) {s : Session} (hs : c.session = some s)
    (count : Nat) :
    Connected id { c with
      server := { c.server with
        objects := c.server.objects.set 0 { s with writer := (s.writer.transmit count).2 } }
      toClient := c.toClient ++ (s.writer.transmit count).1 } := by
  have hestablished := h.established hs
  have hobjects : (c.server.objects.set 0 { s with writer := (s.writer.transmit count).2 })[0]?
      = some { s with writer := (s.writer.transmit count).2 } := by
    rw [hestablished.objects, List.set_cons_zero, List.getElem?_cons_zero]
  refine ⟨?_, ?_, h.clientSends,
    Or.inr ⟨_, hestablished.transmit (accepted_transmit s.writer count)⟩, h.serverLog,
    h.clientLog⟩
  · have hsound := h.toServer
    rw [toServerChannel_eq hs] at hsound
    exact toServerChannel_sound hobjects hsound
  · have hsound := h.toClient
    rw [toClientChannel_eq hs] at hsound
    exact toClientChannel_sound hobjects (sound_transmit hsound count)

theorem connected_otherPush (h : Connected id c) {packet : Packet}
    (hother : packet.sessionId ≠ id) :
    Connected id { c with
      server := { c.server with queue := (c.server.queue.pushPacket packet).2 } } := by
  have hpayload : isPayload id packet = false := decide_eq_false (fun hp => hother hp.2)
  have hdown := PacketQueue.shuttingDown_pushPacket c.server.queue packet
  refine h.withServer rfl rfl ?_ ?_
  · refine h.serverSends.queue _ hdown (fun hpackets hpolled => ⟨fun p hp => ?_, hpolled⟩)
    have hmem : p ∈ c.server.queue.packets ∨ p = packet := by
      unfold PacketQueue.pushPacket at hp
      split_ifs at hp
      · exact Or.inl hp
      · rw [List.mem_append, List.mem_singleton] at hp
        exact hp
      · exact Or.inl hp
    rcases hmem with hold | rfl
    · exact hpackets p hold
    · exact fun hconnect => hother hconnect.2
  · simp only
    rw [queuedPayloads_push_other hpayload, hdown]
    exact h.serverLog

theorem connected_serverPoll (h : Connected id c) {packet : Packet} {queue : PacketQueue}
    (hpoll : c.server.queue.pollPacket = some (packet, queue)) :
    Connected id { c with
      server := { c.server with queue }
      connectPolled := c.connectPolled || (packet.type = .connect ∧ packet.sessionId = id)
      serverPolled :=
        if isPayload id packet then c.serverPolled ++ [packet.data] else c.serverPolled } := by
  unfold PacketQueue.pollPacket at hpoll
  cases hpackets : c.server.queue.packets with
  | nil => simp only [hpackets, reduceCtorEq] at hpoll
  | cons front rest =>
      simp only [hpackets, Option.some.injEq, Prod.mk.injEq] at hpoll
      rcases hpoll with ⟨rfl, rfl⟩
      -- A poll moves the front of the queue to what was polled.
      refine ⟨h.toServer, h.toClient, h.clientSends, ?_, ?_, h.clientLog⟩
      · refine h.serverSends.queue { c.server.queue with packets := rest } rfl
          (fun hnone hpolled => ⟨fun p hp => ?_, ?_⟩)
        · refine hnone p ?_
          rw [hpackets]
          exact List.mem_cons_of_mem _ hp
        · rw [hpolled, Bool.false_or, decide_eq_false_iff_not]
          refine hnone front ?_
          rw [hpackets]
          exact List.mem_cons_self
      · have hlog := h.serverLog
        have hqueue : queuedPayloads id c.server.queue
            = (if isPayload id front then [front.data] else [])
              ++ queuedPayloads id { c.server.queue with packets := rest } := by
          unfold queuedPayloads
          rw [hpackets, List.filter_cons]
          split_ifs <;> rfl
        rw [hqueue] at hlog
        simp only
        split_ifs at hlog ⊢
        · exact hlog.poll
        · exact hlog

/-- A handler of the client. -/
theorem connected_client (h : Connected id c) {action : ClientAction} {client : Client}
    (hmay : clientMay c.client action = true) (hstep : c.client.step action = some client) :
    Connected id { c with
      client
      clientLog := c.clientLog ++ clientReadings c.client client action } := by
  have hchange := Client.step_change hstep
  have hpayloads : (clientReadings c.client client action).map Reading.payload
      = c.client.readPayloads action := by
    cases action with
    | read =>
        rw [clientReadings, Client.readPayloads]
        split_ifs
        · rw [List.map_map]
          exact List.map_id _
        · rfl
    | copied =>
        rw [clientReadings, Client.readPayloads, List.map_map]
        exact List.map_id _
    | _ => rfl
  -- The client writes to one channel and reads from the other.
  refine ⟨?_, ?_, clientSends_change h.clientSends hchange, h.serverSends, h.serverLog,
    accounted_client h.clientLog hstep⟩
  · exact sound_of_reflGen h.toServer (hchange.writer_step hmay
      (fun frame hframe => (h.clientSends.posted frame hframe).isFrame) _ _ _ _)
  · have hsound := sound_of_reflGen h.toClient (hchange.reader_step hmay
      (fun p hp => h.toClient.reader_of_held hp) _ _ _)
    unfold toClientChannel
    simp only [List.map_append, hpayloads]
    exact hsound

theorem connected_clientArrive (h : Connected id c) {target : ReadTarget} {client : Client}
    (hreader : c.client.reader = .waiting target) (hsize : target.size ≤ c.toClient.length)
    (hstep : c.client.step (.arrive (c.toClient.take target.size)) = some client) :
    Connected id { c with client, toClient := c.toClient.drop target.size } := by
  have hclient : client
      = { c.client with reader := .completed target (c.toClient.take target.size) } := by
    simp only [Client.step, hreader] at hstep
    split_ifs at hstep
    exact (Option.some.inj hstep).symm
  rw [hclient]
  refine ⟨h.toServer, ?_, h.clientSends.congr rfl rfl rfl, h.serverSends, h.serverLog,
    h.clientLog⟩
  exact sound_step h.toClient (.arrive (c := c.toClientChannel) hreader hsize)

theorem connected_clientTransmit (h : Connected id c) (count : Nat) :
    Connected id { c with
      client := { c.client with writer := (c.client.writer.transmit count).2 }
      toServer := c.toServer ++ (c.client.writer.transmit count).1 } :=
  ⟨sound_transmit h.toServer count, h.toClient,
    h.clientSends.congr rfl (accepted_transmit _ count) rfl, h.serverSends, h.serverLog,
    h.clientLog⟩

theorem connected_clientPoll (h : Connected id c) {data : Bytes} {client : Client}
    (hpoll : c.client.pollPacket = some (data, client)) :
    Connected id { c with client, clientPolled := c.clientPolled ++ [data] } := by
  unfold Client.pollPacket at hpoll
  cases hqueue : c.client.receiveQueue with
  | nil => simp only [hqueue, reduceCtorEq] at hpoll
  | cons front rest =>
      simp only [hqueue, Option.some.injEq, Prod.mk.injEq] at hpoll
      rcases hpoll with ⟨rfl, rfl⟩
      have hlog := h.clientLog
      rw [hqueue] at hlog
      exact ⟨h.toServer, h.toClient, h.clientSends.congr rfl rfl rfl, h.serverSends,
        h.serverLog, hlog.poll⟩

theorem connected_clientSend (h : Connected id c) (data : Bytes) :
    Connected id { c with
      client := c.client.send data
      sentToServer := recordSent c.sentToServer data } := by
  have hsends := clientSends_send h.clientSends data
  -- Only the posted handlers change.
  have hsame : ∃ io, c.client.send data = { c.client with io } := by
    unfold Client.send
    simp only
    split_ifs
    · exact ⟨_, rfl⟩
    · exact ⟨_, rfl⟩
    · exact ⟨_, rfl⟩
    · exact ⟨_, rfl⟩
    · exact ⟨_, rfl⟩
  rcases hsame with ⟨io, hio⟩
  rw [hio] at hsends ⊢
  exact ⟨h.toServer, h.toClient, hsends, h.serverSends, h.serverLog, h.clientLog⟩

theorem connected_clientShutdown (h : Connected id c) :
    Connected id { c with client := c.client.shutdown } := by
  have hsends := clientSends_shutdown h.clientSends
  unfold Client.shutdown at hsends ⊢
  split_ifs at hsends ⊢
  · exact h
  · exact ⟨h.toServer, h.toClient, hsends, h.serverSends, h.serverLog, h.clientLog.shutdown⟩

/-- A call of the game thread posts a handler, and may begin the shutdown. -/
theorem connected_serverCall (h : Connected id c) {server : Server} {sent : List Bytes}
    (hsends : ServerSends id server c.connectPolled sent)
    (hobjects : server.objects = c.server.objects)
    (hqueue : server.queue.packets = c.server.queue.packets)
    (hdown : server.queue.shuttingDown = c.server.queue.shuttingDown ∨
      server.queue.shuttingDown = true) :
    Connected id { c with server, sentToClient := sent } := by
  have hlog : Accounted c.serverLog c.serverPolled (queuedPayloads id server.queue)
      server.queue.shuttingDown := by
    rw [queuedPayloads, hqueue]
    rcases hdown with hd | hd
    · rw [hd]
      exact h.serverLog
    · rw [hd]
      exact h.serverLog.shutdown
  -- The session object is the same, and with it both channels.
  refine ⟨?_, ?_, h.clientSends, hsends, hlog, h.clientLog⟩
  · have hsound := h.toServer
    unfold toServerChannel session at hsound ⊢
    rw [← hobjects] at hsound
    exact hsound
  · have hsound := h.toClient
    unfold toClientChannel session at hsound ⊢
    rw [← hobjects] at hsound
    exact hsound

/-- A handler of the session, taken out of the server. -/
theorem ioStep_session {action : SessionAction} {server : Server}
    (h : c.server.ioStep (.session 0 action) = some server) :
    ∃ s s' effects, c.session = some s ∧ s.step action = some (s', effects) ∧
      server = c.server.onSession 0 s (s', effects) := by
  unfold Server.ioStep at h
  cases hs : c.server.objects[0]? with
  | none => simp only [hs, reduceCtorEq] at h
  | some s =>
      simp only [hs, Option.map_eq_some_iff] at h
      rcases h with ⟨⟨s', effects⟩, hstep, hserver⟩
      exact ⟨s, s', effects, hs, hstep, hserver.symm⟩

/-- Every step of a connection keeps the invariant. -/
theorem connected_step (c : Connection) (action : Action) (c' : Connection)
    (h : Connected id c) (hstep : c.step id action = some c') : Connected id c' := by
  cases action with
  | accept =>
      rw [step] at hstep
      split_ifs at hstep with hfirst
      rw [← Option.some.inj hstep]
      exact connected_accept h hfirst
  | serverTask =>
      rcases Option.map_eq_some_iff.mp hstep with ⟨server, hio, hc'⟩
      rw [← hc']
      exact connected_serverTask h hio
  | session action =>
      rw [step] at hstep
      split_ifs at hstep with hmay
      rcases Option.map_eq_some_iff.mp hstep with ⟨server, hio, hc'⟩
      rcases ioStep_session hio with ⟨s, s', effects, hs, hsession, hserver⟩
      rw [hs, Option.all_some] at hmay
      rw [← hc', hserver]
      exact connected_session h hs hmay hsession
  | sessionArrive =>
      rw [step] at hstep
      split at hstep
      · next target hreader =>
          split_ifs at hstep with hsize
          rcases Option.map_eq_some_iff.mp hstep with ⟨server, hio, hc'⟩
          rcases ioStep_session hio with ⟨s, s', effects, hs, hsession, hserver⟩
          rw [hs, Option.map_some, Option.some.injEq] at hreader
          rw [← hc', hserver]
          exact connected_sessionArrive h hs hreader hsize hsession
      · exact absurd hstep (by simp only [reduceCtorEq, not_false_eq_true])
  | sessionTransmit count =>
      rw [step] at hstep
      split at hstep
      · next s hs =>
          split_ifs at hstep
          rw [← Option.some.inj hstep]
          exact connected_sessionTransmit h hs count
      · exact absurd hstep (by simp only [reduceCtorEq, not_false_eq_true])
  | otherPush packet =>
      rw [step] at hstep
      split_ifs at hstep with hother
      rw [← Option.some.inj hstep]
      exact connected_otherPush h hother
  | serverPoll =>
      rcases Option.map_eq_some_iff.mp hstep with ⟨⟨packet, queue⟩, hpoll, hc'⟩
      rw [← hc']
      exact connected_serverPoll h hpoll
  | serverSend data =>
      rw [step] at hstep
      split_ifs at hstep with hpolled
      rw [← Option.some.inj hstep]
      have hsends := serverSends_send h.serverSends hpolled data
      rcases c.server.send_eq id data with ⟨strand, hsend⟩
      rw [hsend] at hsends ⊢
      exact connected_serverCall h hsends rfl rfl (Or.inl rfl)
  | serverDisconnect =>
      rw [step, Option.some.injEq] at hstep
      rw [← hstep]
      have hsends := serverSends_disconnect h.serverSends
      rcases c.server.disconnect_eq id with ⟨strand, hdisconnect⟩
      rw [hdisconnect] at hsends ⊢
      exact connected_serverCall h hsends rfl rfl (Or.inl rfl)
  | serverShutdown =>
      rw [step, Option.some.injEq] at hstep
      rw [← hstep]
      have hsends := serverSends_shutdown h.serverSends
      unfold Server.shutdown at hsends ⊢
      split_ifs at hsends ⊢
      · exact h
      · exact connected_serverCall h hsends rfl rfl (Or.inr rfl)
  | client action =>
      rw [step] at hstep
      split_ifs at hstep with hmay
      rcases Option.map_eq_some_iff.mp hstep with ⟨client, hclient, hc'⟩
      rw [← hc']
      exact connected_client h hmay hclient
  | clientArrive =>
      rw [step] at hstep
      split at hstep
      · next target hreader =>
          split_ifs at hstep with hsize
          rcases Option.map_eq_some_iff.mp hstep with ⟨client, hclient, hc'⟩
          rw [← hc']
          exact connected_clientArrive h hreader hsize hclient
      · exact absurd hstep (by simp only [reduceCtorEq, not_false_eq_true])
  | clientTransmit count =>
      rw [step] at hstep
      split_ifs at hstep
      rw [← Option.some.inj hstep]
      exact connected_clientTransmit h count
  | clientPoll =>
      rcases Option.map_eq_some_iff.mp hstep with ⟨⟨data, client⟩, hpoll, hc'⟩
      rw [← hc']
      exact connected_clientPoll h hpoll
  | clientSend data =>
      rw [step, Option.some.injEq] at hstep
      rw [← hstep]
      exact connected_clientSend h data
  | clientShutdown =>
      rw [step, Option.some.injEq] at hstep
      rw [← hstep]
      exact connected_clientShutdown h

/-- In every run of a connection, both directions deliver a prefix of what was
    sent. -/
theorem connection_delivers (id : UInt32) (actions : List Action) (c : Connection)
    (hrun : Machine.run (step id) (initial id) actions = some c) :
    Delivers c.sentToServer c.serverLog c.serverPolled (queuedPayloads id c.server.queue) ∧
    Delivers c.sentToClient c.clientLog c.clientPolled c.client.receiveQueue := by
  have h : Connected id c := Machine.invariant connected_step hrun (connected_init id)
  refine ⟨h.serverLog.delivers (h.toServer.log_initial.trans h.clientSends.accepted),
    h.clientLog.delivers ?_⟩
  have hlog := h.toClient.log_initial
  rcases h.serverSends with habsent | ⟨s, hs⟩
  · -- Nothing was accepted, so nothing was read.
    have hnone : c.session = none := by rw [session, habsent.objects, List.getElem?_nil]
    rw [toClientChannel, hnone] at hlog
    exact hlog.trans List.nil_prefix
  · have hsome : c.session = some s := by rw [session, hs.objects, List.getElem?_cons_zero]
    rw [toClientChannel_eq hsome] at hlog
    exact hlog.trans hs.accepted

/-- A byte in each direction. -/
def oneByteEachWay : List Action :=
  [.accept, .clientSend [7], .client .task, .clientTransmit 9, .client (.write true),
    .sessionArrive, .session .read, .session (.heartbeat false), .sessionArrive,
    .session .read, .serverPoll, .serverPoll, .serverSend [9], .serverTask, .session .task,
    .sessionTransmit 8, .session (.write true), .sessionTransmit 9, .session (.write true),
    .clientArrive, .client .read, .clientArrive, .client .read, .clientArrive, .client .read,
    .client .copied, .clientPoll]

theorem connection_delivers_oneByteEachWay :
    ∃ c, Machine.run (step 1) (initial 1) oneByteEachWay = some c ∧
      c.serverPolled = [[7]] ∧ c.clientPolled = [[9]] ∧
      Delivers c.sentToServer c.serverLog c.serverPolled (queuedPayloads 1 c.server.queue) ∧
      Delivers c.sentToClient c.clientLog c.clientPolled c.client.receiveQueue := by
  have hend : (Machine.run (step 1) (initial 1) oneByteEachWay).map (fun c =>
      (c.serverPolled, c.clientPolled)) = some ([[7]], [[9]]) := by decide +kernel
  rcases Option.map_eq_some_iff.mp hend with ⟨c, hrun, hc⟩
  rw [Prod.mk.injEq] at hc
  exact ⟨c, hrun, hc.1, hc.2, connection_delivers 1 oneByteEachWay c hrun⟩

/-- The server begins to shut down between the completion of a body read and
    its handler. -/
def shutdownBeforePush : List Action :=
  [.accept, .clientSend [7], .client .task, .clientTransmit 9, .sessionArrive, .session .read,
    .sessionArrive, .serverShutdown, .session .read]

/-- The payload was read, is not in the queue, and is not counted. -/
theorem uncounted_shutdownBeforePush :
    ∃ c, Machine.run (step 1) (initial 1) shutdownBeforePush = some c ∧
      c.sentToServer = [[7]] ∧ c.server.queue.droppedPackets = 0 ∧
      ∃ e ∈ c.serverLog, e.payload = [7] ∧ e.queued = false ∧ e.counted ≠ 1 := by
  have hend : (Machine.run (step 1) (initial 1) shutdownBeforePush).map (fun c =>
      (c.sentToServer, c.server.queue.droppedPackets, c.serverLog))
        = some ([[7]], 0, [⟨[7], false, 0, true⟩]) := by decide +kernel
  rcases Option.map_eq_some_iff.mp hend with ⟨c, hrun, hc⟩
  simp only [Prod.mk.injEq] at hc
  refine ⟨c, hrun, hc.1, hc.2.1, ⟨[7], false, 0, true⟩, ?_, rfl, rfl, Nat.zero_ne_one⟩
  rw [hc.2.2]
  exact List.mem_singleton.mpr rfl

end Connection

end ProjectNight
