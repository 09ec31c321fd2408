import ProjectNight.Lib.Settle
import ProjectNight.Theory.Transport

/-!
# Nothing Gets Stuck

`Transport` says that what arrives is right; it does not say that anything
arrives. Handlers, sockets and the two polls are due: nobody has to ask for
them. This module shows that they deliver everything that was passed to `send`,
in whatever order they run, as long as neither side has been lost or asked to
close and no more frames wait than the write queues take.

Each of the due actions takes a piece off the work that is left: a posted frame
has to be queued, each of its bytes has to be taken by the socket and read, a
completed read has to be handled and its payload polled. The weights are chosen
so that every action lowers the sum, and the due actions come to an end.

At the end nothing is posted, so all that was sent has been accepted into a
write queue; no write is outstanding, so all that was accepted has been taken;
and the read chain waits for more bytes than there are, which, at the place
where it stands in the stream of frames, means that there are none. Here it
matters that a side which is not lost always has its read outstanding, and a
write whenever it is marked as writing.

## Main definitions

* `Writer.work`, `Reader.work`, `Session.work`, `Client.work`, `Connection.work`:
  The work left.
* `due`: The actions nobody has to ask for.
* `Session.Tended`, `Client.Tended`: Reads and writes are outstanding.
* `Ready`: Neither side is lost or asked to close, and there is room.

## Theorems

* `tended_step`: Every step keeps the reads and writes going.
* `Channel.Sound.drained`: Where the read chain stands at the end.
* `advances_step`: Every due action keeps the connection and takes work off.
* `delivered_of_settled`: At rest everything has been delivered.
* `Connection.all_delivered`: What the due actions lead to.
-/

namespace ProjectNight

open Wire

/-! ### The work left -/

/-- Bytes still to be handed to the socket. -/
def Writer.untaken (w : Writer) : Nat :=
  match w.inFlight with
  | none => 0
  | some rest => rest.length + (w.queue.tail.map List.length).sum

/-- Each byte is taken by the socket and then read, and each frame leaves the
    queue. -/
def Writer.work (w : Writer) : Nat := w.queue.length + 5 * w.untaken

/-- A completed read waits for its handler. -/
def Reader.work : Reader → Nat
  | .completed _ _ => 3
  | _ => 0

def SessionTask.work : SessionTask → Nat
  | .enqueueWrite frame => 5 * frame.length + 2
  | .close => 1

def ServerTask.work : ServerTask → Nat
  | .send _ frame => 5 * frame.length + 3
  | _ => 1

def ClientTask.work : ClientTask → Nat
  | .enqueueFrame frame => 5 * frame.length + 2
  | .shutdown => 1

def Session.work (s : Session) : Nat :=
  (s.strand.map SessionTask.work).sum + s.writer.work + s.reader.work

def Client.work (c : Client) : Nat :=
  (c.io.map ClientTask.work).sum + c.writer.work + c.reader.work
    + (if c.copied.isSome then 2 else 0) + c.receiveQueue.length

def Connection.work (c : Connection) : Nat :=
  c.server.queue.packets.length + (c.server.strand.map ServerTask.work).sum
    + (c.server.objects.map Session.work).sum + c.client.work
    + 4 * c.toServer.length + 4 * c.toClient.length

/-! ### Write queues -/

namespace Writer

variable {w w' : Writer} {frame taken : Bytes}

/-- A write is outstanding whenever the queue is marked as writing. -/
def Tended (w : Writer) : Prop := w.writing = true → w.inFlight.isSome = true

theorem tended_doWrite (w : Writer) : w.pop.doWrite.Tended := by
  unfold doWrite
  split
  · exact fun h => absurd h Bool.false_ne_true
  · exact fun _ => rfl

theorem tended_enqueueFrame (htended : w.Tended) (h : w.enqueueFrame frame = some w') :
    w'.Tended := by
  unfold enqueueFrame at h
  split_ifs at h with hfull
  have hw' := Option.some.inj h
  simp only at hw'
  rw [← hw']
  split_ifs with hwriting
  · exact fun _ => htended hwriting
  · unfold doWrite
    split
    · exact fun h => absurd h Bool.false_ne_true
    · exact fun _ => rfl

theorem tended_transmit (htended : w.Tended) (count : Nat) : (w.transmit count).2.Tended := by
  unfold transmit
  split
  · exact htended
  · exact fun _ => rfl

/-- A queue with room takes the frame. -/
theorem enqueueFrame_of_room (h : w.queue.length < maxPendingWriteFrames) (frame : Bytes) :
    ∃ w', w.enqueueFrame frame = some w' ∧ w'.queue.length = w.queue.length + 1 := by
  unfold enqueueFrame
  rw [if_neg (by omega)]
  refine ⟨_, rfl, ?_⟩
  simp only
  split_ifs
  · exact List.length_append
  · unfold doWrite
    split
    · next hnil => exact absurd hnil (List.append_ne_nil_of_right_ne_nil _ (List.cons_ne_nil _ _))
    · exact List.length_append

theorem work_enqueueFrame (hsent : w.Sent taken) (h : w.enqueueFrame frame = some w') :
    w'.work ≤ w.work + 5 * frame.length + 1 := by
  unfold enqueueFrame at h
  split_ifs at h with hfull
  have hw' := Option.some.inj h
  cases hsent with
  | idle hwriting hflight hqueue _ =>
      simp only [hwriting, hqueue, List.nil_append, Bool.false_eq_true, if_false, doWrite] at hw'
      rw [← hw']
      simp only [work, untaken, List.tail_cons, List.map_nil, List.sum_nil, List.length_singleton]
      omega
  | busy done tail start rest hwriting hflight hqueue _ _ =>
      simp only [hwriting, if_true] at hw'
      rw [← hw']
      simp only [work, untaken, hflight, hqueue, List.cons_append, List.tail_cons, List.map_append,
        List.map_cons, List.map_nil, List.sum_append, List.sum_cons, List.sum_nil,
        List.length_cons, List.length_append, List.length_nil]
      omega
  | dead hwriting hflight _ =>
      simp only [hwriting, if_true] at hw'
      rw [← hw']
      simp only [work, untaken, hflight, List.length_append, List.length_singleton]
      omega

/-- A write that has completed leaves the queue. -/
theorem work_finish (hsent : w.Sent taken) (h : w.inFlight = some []) :
    w.pop.doWrite.work < w.work ∧ w.pop.doWrite.queue.length < w.queue.length := by
  cases hsent with
  | idle _ hnone => exact absurd (hnone.symm.trans h) (Option.some_ne_none []).symm
  | dead _ hnone => exact absurd (hnone.symm.trans h) (Option.some_ne_none []).symm
  | busy done tail start rest hwriting hflight hqueue _ _ =>
      cases htail : tail with
      | nil =>
          simp only [work, untaken, pop, doWrite, hqueue, htail, h, List.tail_cons, List.length_nil,
            List.map_nil, List.sum_nil, List.length_cons]
          omega
      | cons front tail' =>
          simp only [work, untaken, pop, doWrite, hqueue, htail, h, List.tail_cons,
            List.length_nil, List.map_cons, List.sum_cons, List.length_cons]
          omega

/-- What the socket takes of a write. -/
theorem work_transmit (w : Writer) (count : Nat) :
    (w.transmit count).2.work + 5 * (w.transmit count).1.length = w.work := by
  unfold transmit
  cases hflight : w.inFlight with
  | none => rfl
  | some rest =>
      simp only [work, untaken, hflight, List.length_drop, List.length_take]
      omega

theorem queue_transmit (w : Writer) (count : Nat) : (w.transmit count).2.queue = w.queue := by
  unfold transmit
  split <;> rfl

end Writer

/-! ### Reads and writes are outstanding -/

/-- A session that is open has its read outstanding, and a write whenever it is
    writing. -/
def Session.Tended (s : Session) : Prop :=
  s.closed = false → s.reader ≠ .idle ∧ s.writer.Tended

/-- The same for a client that is live. Its read chain may also rest in the body
    handler. -/
def Client.Tended (c : Client) : Prop :=
  c.live = true →
    (c.reader = .idle → c.copied.isSome = true) ∧ c.writer.Tended ∧ c.socketOpen = true

theorem Reader.afterHeader_ne_idle {bytes : Bytes} {reader : Reader}
    (h : Reader.afterHeader bytes = some reader) : reader ≠ .idle := by
  unfold Reader.afterHeader at h
  split at h
  · exact absurd h.symm (Option.some_ne_none reader)
  · split_ifs at h
    all_goals
      rw [← Option.some.inj h]
      exact fun h => Reader.noConfusion h

/-- Every handler of a session leaves it tended, or closes it. -/
theorem Session.Change.tended {s s' : Session} {action : SessionAction}
    {effects : List SessionEffect} (h : Session.Change s action s' effects) (htended : s.Tended) :
    s'.Tended := by
  have hwaiting : ∀ target, Reader.waiting target ≠ .idle := fun _ h => Reader.noConfusion h
  cases h with
  | taskDropped | keepaliveDropped => exact htended
  | taskAccepted _ hopen henqueue | keepalive hopen henqueue =>
      exact fun _ => ⟨(htended hopen).1, Writer.tended_enqueueFrame (htended hopen).2 henqueue⟩
  | arrived => exact fun hopen => ⟨fun h => Reader.noConfusion h, (htended hopen).2⟩
  | header _ hafter => exact fun hopen => ⟨Reader.afterHeader_ne_idle hafter, (htended hopen).2⟩
  | body => exact fun hopen => ⟨hwaiting .header, (htended hopen).2⟩
  | written => exact fun hopen => ⟨(htended hopen).1, Writer.tended_doWrite _⟩
  | taskOverflow | taskClose | badHeader | readError | writeError | timeout | keepaliveOverflow =>
      exact fun hopen => absurd hopen.symm Bool.false_ne_true

theorem Client.tended_of_lost {c : Client} (h : c.live = false) : c.Tended :=
  fun hlive => absurd (h.symm.trans hlive) Bool.false_ne_true

/-- Every handler of a client leaves it tended, or loses it. -/
theorem Client.Change.tended {c c' : Client} {action : ClientAction}
    (h : Client.Change c action c') (htended : c.Tended) : c'.Tended := by
  cases h with
  | taskDropped | keepaliveDropped => exact htended
  | taskAccepted _ hlive henqueue =>
      rcases htended hlive with ⟨hreader, hwriter, hsocket⟩
      exact fun _ => ⟨hreader, Writer.tended_enqueueFrame hwriter henqueue, hsocket⟩
  | keepalive henqueue =>
      intro hlive
      rcases htended hlive with ⟨hreader, hwriter, hsocket⟩
      exact ⟨hreader, Writer.tended_enqueueFrame hwriter henqueue, hsocket⟩
  | taskShutdown => exact tended_of_lost rfl
  | arrived =>
      intro hlive
      rcases htended hlive with ⟨_, hwriter, hsocket⟩
      exact ⟨fun h => Reader.noConfusion h, hwriter, hsocket⟩
  | header _ _ hafter =>
      intro hlive
      rcases htended hlive with ⟨_, hwriter, hsocket⟩
      exact ⟨fun h => absurd h (Reader.afterHeader_ne_idle hafter), hwriter, hsocket⟩
  | bodyCopied =>
      intro hlive
      rcases htended hlive with ⟨_, hwriter, hsocket⟩
      exact ⟨fun _ => rfl, hwriter, hsocket⟩
  | @copied bytes =>
      intro hlive
      rw [(sends_onCopied c bytes).2.2.1] at hlive
      rcases htended hlive with ⟨_, hwriter, hsocket⟩
      have hrunning : ¬ c.shuttingDown = true := by
        rw [live, Bool.and_eq_true, Bool.not_eq_true'] at hlive
        rw [hlive.2]
        exact Bool.false_ne_true
      unfold onCopied
      rw [if_neg hrunning]
      split_ifs
      all_goals exact ⟨fun h => h.elim, hwriter, hsocket⟩
  | written =>
      intro hlive
      rcases htended hlive with ⟨hreader, _, hsocket⟩
      exact ⟨hreader, Writer.tended_doWrite _, hsocket⟩
  | taskOverflow | headerStop | bodyDiscarded | readError | writeStop | timeout
  | keepaliveOverflow => exact tended_of_lost (live_handleDisconnect _)

namespace Connection

/-- Both sides, where they are not lost. -/
structure Tended (c : Connection) : Prop where
  sessions : ∀ s ∈ c.server.objects, s.Tended
  client : c.client.Tended

theorem tended_start (id : UInt32) : (Session.start { id }).Tended :=
  fun _ => ⟨fun h => Reader.noConfusion h, fun h => absurd h Bool.false_ne_true⟩

variable {id : UInt32} {c c' : Connection}

theorem tended_single {objects : List Session} {s : Session} (hobjects : objects = [s])
    (hs : s.Tended) : ∀ s' ∈ objects, s'.Tended := by
  intro s' hs'
  rw [hobjects, List.mem_singleton] at hs'
  rw [hs']
  exact hs

/-- Every step of a connection keeps the reads and writes going. -/
theorem tended_step (h : Connected id c) (htended : c.Tended) {action : Action}
    (hstep : c.step id action = some c') : c'.Tended := by
  have hmem : ∀ {s}, c.session = some s → s ∈ c.server.objects := List.mem_of_getElem?
  cases action with
  | accept =>
      rw [step] at hstep
      split_ifs at hstep
      rw [← Option.some.inj hstep]
      refine ⟨fun s hs => ?_, htended.client⟩
      simp only [Server.onAccept] at hs
      split_ifs at hs
      · exact htended.sessions s hs
      · rcases List.mem_append.mp hs with hold | hnew
        · exact htended.sessions s hold
        · rw [List.mem_singleton.mp hnew]
          exact tended_start _
      · exact htended.sessions s hs
  | serverTask =>
      rcases Option.map_eq_some_iff.mp hstep with ⟨server, hio, rfl⟩
      refine ⟨?_, htended.client⟩
      unfold Server.ioStep at hio
      cases hstrand : c.server.strand with
      | nil => simp only [hstrand, reduceCtorEq] at hio
      | cons task strand =>
          simp only [hstrand, Option.some.injEq] at hio
          rw [← hio]
          -- A posted handler touches neither the read chain nor the write queue.
          rcases h.serverSends with habsent | ⟨s, hs⟩
          · intro s hs
            rw [(unaccepted_task habsent hstrand).objects] at hs
            exact absurd hs List.not_mem_nil
          · rcases hs.task hstrand with ⟨tasks, hstill⟩
            refine tended_single hstill.objects ?_
            exact htended.sessions s (by rw [hs.objects]; exact List.mem_singleton.mpr rfl)
  | session action =>
      rw [step] at hstep
      split_ifs at hstep with hmay
      rcases Option.map_eq_some_iff.mp hstep with ⟨server, hio, rfl⟩
      rcases ioStep_session hio with ⟨s, s', effects, hs, hsession, rfl⟩
      refine ⟨tended_single ((h.established hs).session hsession).objects ?_, htended.client⟩
      exact (Session.step_change hsession).tended (htended.sessions s (hmem hs))
  | sessionArrive =>
      rw [step] at hstep
      split at hstep
      · split_ifs at hstep with hsize
        rcases Option.map_eq_some_iff.mp hstep with ⟨server, hio, rfl⟩
        rcases ioStep_session hio with ⟨s, s', effects, hs, hsession, rfl⟩
        refine ⟨tended_single ((h.established hs).session hsession).objects ?_,
          htended.client⟩
        exact (Session.step_change hsession).tended (htended.sessions s (hmem hs))
      · exact absurd hstep (by simp only [reduceCtorEq, not_false_eq_true])
  | sessionTransmit count =>
      rw [step] at hstep
      split at hstep
      · next s hs =>
          split_ifs at hstep
          rw [← Option.some.inj hstep]
          have hobjects : c.server.objects.set 0 { s with writer := (s.writer.transmit count).2 }
              = [{ s with writer := (s.writer.transmit count).2 }] := by
            rw [(h.established hs).objects, List.set_cons_zero]
          refine ⟨tended_single hobjects fun hopen => ?_, htended.client⟩
          rcases htended.sessions s (hmem hs) hopen with ⟨hreader, hwriter⟩
          exact ⟨hreader, Writer.tended_transmit hwriter count⟩
      · exact absurd hstep (by simp only [reduceCtorEq, not_false_eq_true])
  | otherPush packet =>
      rw [step] at hstep
      split_ifs at hstep
      rw [← Option.some.inj hstep]
      exact ⟨htended.sessions, htended.client⟩
  | serverPoll =>
      rcases Option.map_eq_some_iff.mp hstep with ⟨⟨packet, queue⟩, hpoll, rfl⟩
      exact ⟨htended.sessions, htended.client⟩
  | serverSend data =>
      rw [step] at hstep
      split_ifs at hstep
      rw [← Option.some.inj hstep]
      rcases c.server.send_eq id data with ⟨strand, hsend⟩
      rw [hsend]
      exact ⟨htended.sessions, htended.client⟩
  | serverDisconnect =>
      rw [step, Option.some.injEq] at hstep
      rcases c.server.disconnect_eq id with ⟨strand, hdisconnect⟩
      rw [← hstep, hdisconnect]
      exact ⟨htended.sessions, htended.client⟩
  | serverShutdown =>
      rw [step, Option.some.injEq] at hstep
      rw [← hstep]
      unfold Server.shutdown
      split_ifs
      all_goals exact ⟨htended.sessions, htended.client⟩
  | client action =>
      rw [step] at hstep
      split_ifs at hstep
      rcases Option.map_eq_some_iff.mp hstep with ⟨client, hclient, rfl⟩
      exact ⟨htended.sessions, (Client.step_change hclient).tended htended.client⟩
  | clientArrive =>
      rw [step] at hstep
      split at hstep
      · split_ifs at hstep
        rcases Option.map_eq_some_iff.mp hstep with ⟨client, hclient, rfl⟩
        exact ⟨htended.sessions, (Client.step_change hclient).tended htended.client⟩
      · exact absurd hstep (by simp only [reduceCtorEq, not_false_eq_true])
  | clientTransmit count =>
      rw [step] at hstep
      split_ifs at hstep
      rw [← Option.some.inj hstep]
      refine ⟨htended.sessions, fun hlive => ?_⟩
      rcases htended.client hlive with ⟨hreader, hwriter, hsocket⟩
      exact ⟨hreader, Writer.tended_transmit hwriter count, hsocket⟩
  | clientPoll =>
      rcases Option.map_eq_some_iff.mp hstep with ⟨⟨data, client⟩, hpoll, rfl⟩
      refine ⟨htended.sessions, ?_⟩
      unfold Client.pollPacket at hpoll
      split at hpoll
      · exact absurd hpoll (by simp only [reduceCtorEq, not_false_eq_true])
      · rw [Option.some.injEq, Prod.mk.injEq] at hpoll
        rw [← hpoll.2]
        exact htended.client
  | clientSend data =>
      rw [step, Option.some.injEq] at hstep
      rw [← hstep]
      refine ⟨htended.sessions, ?_⟩
      unfold Client.send
      simp only
      split_ifs
      all_goals exact htended.client
  | clientShutdown =>
      rw [step, Option.some.injEq] at hstep
      rw [← hstep]
      refine ⟨htended.sessions, ?_⟩
      unfold Client.shutdown
      split_ifs
      · exact htended.client
      · exact Client.tended_of_lost (Bool.and_false _)

theorem tended_run {actions : List Action}
    (hrun : Machine.run (step id) (initial id) actions = some c) : Connected id c ∧ c.Tended := by
  refine Machine.invariant (P := fun c => Connected id c ∧ c.Tended)
    (fun c action c' h hstep => ⟨connected_step c action c' h.1 hstep, tended_step h.1 h.2 hstep⟩)
    hrun ⟨connected_init id, fun _ hs => absurd hs List.not_mem_nil, fun _ => ?_⟩
  exact ⟨fun h => Reader.noConfusion h, fun h => absurd h Bool.false_ne_true, rfl⟩

end Connection

/-! ### Where the read chain stands -/

/-- The header a read chain has read is one. -/
theorem Channel.Sound.header_leads {ch : Channel} (h : ch.Sound) {bytes : Bytes}
    (hreader : ch.reader = .completed .header bytes) :
    ∃ target, Reader.afterHeader bytes = some (.waiting target) := by
  rcases h.positioned with ⟨consumed, _, hpos⟩
  cases hpos with
  | headerRead fs f hfs _ _ hcompleted =>
      rw [hreader, Reader.completed.injEq] at hcompleted
      rw [hcompleted.2]
      have hf : IsFrame f := h.frames f (hfs.subset (List.mem_append_right _ List.mem_cons_self))
      cases hf with
      | data hp => exact ⟨_, afterHeader_data hp⟩
      | keepalive => exact ⟨_, afterHeader_keepalive⟩
  | header _ _ _ _ hother | body _ _ _ _ _ _ hother | ended _ hother =>
      rw [hreader] at hother
      cases hother
  | bodyRead _ _ _ _ _ _ hother =>
      rw [hreader] at hother
      rcases hother with ⟨⟨_, hother⟩, _⟩ | ⟨hother, _⟩ <;> cases hother

/-- A read never waits for nothing. -/
theorem Channel.Sound.target_pos {ch : Channel} (h : ch.Sound) {target : ReadTarget}
    (hreader : ch.reader = .waiting target) : 0 < target.size := by
  rcases h.positioned with ⟨consumed, _, hpos⟩
  cases hpos with
  | header _ _ _ _ hwaiting =>
      rw [hreader, Reader.waiting.injEq] at hwaiting
      rw [hwaiting]
      exact (by decide : 0 < headerSize)
  | body _ p hp _ _ _ hwaiting =>
      rw [hreader, Reader.waiting.injEq] at hwaiting
      rw [hwaiting]
      exact hp.length_pos
  | headerRead _ _ _ _ _ hother | ended _ hother =>
      rw [hreader] at hother
      cases hother
  | bodyRead _ _ _ _ _ _ hother =>
      rw [hreader] at hother
      rcases hother with ⟨⟨_, hother⟩, _⟩ | ⟨hother, _⟩ <;> cases hother

/-- When nothing is being written and the wire has less than the next read waits
    for, everything accepted has been handed over. -/
theorem Channel.Sound.drained {ch : Channel} (h : ch.Sound) (hidle : ch.writer.writing = false)
    {target : ReadTarget} (hreader : ch.reader = .waiting target)
    (hshort : ch.wire.length < target.size) : ch.log = payloads ch.writer.accepted := by
  rcases h.positioned with ⟨consumed, hsent, hpos⟩
  have htaken : consumed ++ ch.wire = ch.writer.accepted.flatten := by
    cases hsent with
    | idle _ _ _ htaken => exact htaken
    | busy _ _ _ _ hwriting => exact absurd (hidle.symm.trans hwriting) Bool.false_ne_true
    | dead hwriting => exact absurd (hidle.symm.trans hwriting) Bool.false_ne_true
  cases hpos with
  | header fs hfs hconsumed hlog hwaiting =>
      rw [hreader, Reader.waiting.injEq] at hwaiting
      rcases hfs with ⟨rest, hrest⟩
      cases rest with
      | nil => rw [hlog, ← hrest, List.append_nil]
      | cons f rest =>
          -- A frame that is not read yet would be on the wire with its header.
          have hf : headerSize ≤ f.length := by
            refine (h.frames f ?_).headerSize_le
            rw [← hrest]
            exact List.mem_append_right _ List.mem_cons_self
          rw [← hrest, hconsumed, List.flatten_append, List.append_cancel_left_eq,
            List.flatten_cons] at htaken
          rw [hwaiting, htaken, List.length_append, ReadTarget.size] at hshort
          omega
  | body fs p hp hfs hconsumed _ hwaiting =>
      -- The header was taken, so the payload behind it was too.
      rw [hreader, Reader.waiting.injEq] at hwaiting
      rcases hfs with ⟨rest, hrest⟩
      rw [← hrest, hconsumed, take_buildDataFrame hp, List.flatten_append, List.flatten_append,
        List.flatten_singleton, buildDataFrame_eq hp, List.append_assoc, List.append_assoc,
        List.append_cancel_left_eq, List.append_assoc, List.append_cancel_left_eq] at htaken
      rw [hwaiting, htaken, List.length_append, ReadTarget.size] at hshort
      omega
  | headerRead _ _ _ _ _ hother | ended _ hother =>
      rw [hreader] at hother
      cases hother
  | bodyRead _ _ _ _ _ _ hother =>
      rw [hreader] at hother
      rcases hother with ⟨⟨_, hother⟩, _⟩ | ⟨hother, _⟩ <;> cases hother

/-! ### What is due -/

def SessionAction.isDue : SessionAction → Bool
  | .task | .read | .write true => true
  | _ => false

def ClientAction.isDue : ClientAction → Bool
  | .task | .read | .copied | .write true => true
  | _ => false

/-- The socket has something to take. -/
def Writer.pending (w : Writer) : Bool := w.inFlight.any (fun rest => !rest.isEmpty)

namespace Connection

/-- The actions nobody has to ask for: handlers that are posted or complete
    without an error, bytes that move, and the two polls. -/
def due (c : Connection) : Action → Bool
  | .serverTask | .sessionArrive | .serverPoll | .clientArrive | .clientPoll => true
  | .session action => action.isDue
  | .client action => action.isDue
  | .sessionTransmit count => count ≠ 0 && c.session.any (fun s => s.writer.pending)
  | .clientTransmit count => count ≠ 0 && c.client.writer.pending
  | _ => false

/-- Neither side is lost or asked to close, and both write queues have room for
    what is posted. -/
structure Ready (c : Connection) (s : Session) : Prop where
  session : c.session = some s
  isOpen : s.closed = false
  live : c.client.live = true
  running : c.server.queue.shuttingDown = false
  asked : ∀ task ∈ c.server.strand, ∃ sessionId frame, task = .send sessionId frame
  posted : ∀ task ∈ s.strand, ∃ frame, task = .enqueueWrite frame
  clientPosted : ∀ task ∈ c.client.io, ∃ frame, task = .enqueueFrame frame
  room : s.writer.queue.length + s.strand.length + c.server.strand.length
    ≤ maxPendingWriteFrames
  clientRoom : c.client.writer.queue.length + c.client.io.length ≤ maxPendingWriteFrames

end Connection

/-! ### Due steps of the two sides -/

/-- What a handler that is due does to an open session: frames move on, and the
    work gets less than by the payload it hands over. -/
structure Session.Advances (s s' : Session) (effects : List SessionEffect) : Prop where
  isOpen : s'.closed = false
  posted : ∀ task ∈ s'.strand, task ∈ s.strand
  room : s'.writer.queue.length + s'.strand.length ≤ s.writer.queue.length + s.strand.length
  calls : effects = [] ∨ ∃ data, effects = [.receive data]
  work : s'.work + effects.length < s.work

theorem Session.advances {s s' : Session} {action : SessionAction}
    {effects : List SessionEffect} {taken : Bytes} (hopen : s.closed = false)
    (hposted : ∀ task ∈ s.strand, ∃ frame, task = .enqueueWrite frame)
    (hroom : s.writer.queue.length + s.strand.length ≤ maxPendingWriteFrames)
    (hheader : ∀ bytes, s.reader = .completed .header bytes →
      ∃ target, Reader.afterHeader bytes = some (.waiting target))
    (hsent : s.writer.Sent taken) (hmay : Connection.sessionMay s action = true)
    (hdue : action.isDue = true) (hstep : s.step action = some (s', effects)) :
    s.Advances s' effects := by
  cases action with
  | task =>
      cases hstrand : s.strand with
      | nil => simp only [step, hstrand, reduceCtorEq] at hstep
      | cons task strand =>
          rcases hposted task (by rw [hstrand]; exact List.mem_cons_self) with ⟨frame, rfl⟩
          rw [hstrand, List.length_cons] at hroom
          -- There is room, so the write queue does not overflow and the session stays open.
          rcases Writer.enqueueFrame_of_room (w := s.writer) (by omega) frame with
            ⟨writer, henqueue, hlength⟩
          simp only [step, hstrand, onTask, enqueueWrite, hopen, Bool.false_eq_true, if_false,
            henqueue, Option.some.injEq, Prod.mk.injEq] at hstep
          rcases hstep with ⟨rfl, rfl⟩
          have hwork := Writer.work_enqueueFrame hsent henqueue
          refine ⟨rfl, fun task htask => ?_, ?_, Or.inl rfl, ?_⟩
          · rw [hstrand]
            exact List.mem_cons_of_mem _ htask
          · rw [hstrand, List.length_cons]
            simp only
            omega
          · simp only [work, hstrand, List.map_cons, List.sum_cons, SessionTask.work,
              List.length_nil]
            omega
  | read =>
      cases hreader : s.reader with
      | idle => simp only [step, hreader, reduceCtorEq] at hstep
      | waiting target => simp only [step, hreader, reduceCtorEq] at hstep
      | completed target bytes =>
          cases target with
          | header =>
              -- The header is one the client wrote, so it is not refused.
              rcases hheader bytes hreader with ⟨target, hafter⟩
              simp only [step, hreader, onRead, onHeader, hafter, Option.some.injEq,
                Prod.mk.injEq] at hstep
              rcases hstep with ⟨rfl, rfl⟩
              refine ⟨hopen, fun _ h => h, le_refl _, Or.inl rfl, ?_⟩
              simp only [work, hreader, Reader.work, List.length_nil]
              omega
          | body size =>
              simp only [step, hreader, onRead, onBody, doReadHeader, Option.some.injEq,
                Prod.mk.injEq] at hstep
              rcases hstep with ⟨rfl, rfl⟩
              refine ⟨hopen, fun _ h => h, le_refl _, Or.inr ⟨bytes, rfl⟩, ?_⟩
              simp only [work, hreader, Reader.work, List.length_singleton]
              omega
  | write ok =>
      cases ok with
      | false => exact absurd hdue Bool.false_ne_true
      | true =>
          -- A write completes when the socket has taken all of it.
          have hflight : s.writer.inFlight = some [] := of_decide_eq_true hmay
          simp only [step, hflight, Option.isSome_some, if_true, onWrite, Option.some.injEq,
            Prod.mk.injEq] at hstep
          rcases hstep with ⟨rfl, rfl⟩
          rcases Writer.work_finish hsent hflight with ⟨hwork, hlength⟩
          refine ⟨hopen, fun _ h => h, ?_, Or.inl rfl, ?_⟩
          · simp only
            omega
          · simp only [work, List.length_nil]
            omega
  | arrive | readError | heartbeat => exact absurd hdue Bool.false_ne_true

/-- The same for a live client. -/
structure Client.Advances (c c' : Client) : Prop where
  live : c'.live = true
  posted : ∀ task ∈ c'.io, task ∈ c.io
  room : c'.writer.queue.length + c'.io.length ≤ c.writer.queue.length + c.io.length
  work : c'.work < c.work

theorem Client.advances {c c' : Client} {action : ClientAction} {taken : Bytes}
    (hlive : c.live = true) (hposted : ∀ task ∈ c.io, ∃ frame, task = .enqueueFrame frame)
    (hroom : c.writer.queue.length + c.io.length ≤ maxPendingWriteFrames)
    (hheader : ∀ bytes, c.reader = .completed .header bytes →
      ∃ target, Reader.afterHeader bytes = some (.waiting target))
    (hsent : c.writer.Sent taken) (hmay : Connection.clientMay c action = true)
    (hdue : action.isDue = true) (hstep : c.step action = some c') : c.Advances c' := by
  have hflags : c.connected = true ∧ c.shuttingDown = false := by
    rw [live, Bool.and_eq_true, Bool.not_eq_true'] at hlive
    exact hlive
  cases action with
  | task =>
      cases hcopied : c.copied with
      -- The body handler is between its two halves, and the thread has no other.
      | some bytes => simp only [step, hcopied, reduceCtorEq] at hstep
      | none =>
          cases hio : c.io with
          | nil => simp only [step, hcopied, hio, reduceCtorEq] at hstep
          | cons task io =>
              rcases hposted task (by rw [hio]; exact List.mem_cons_self) with ⟨frame, rfl⟩
              rw [hio, List.length_cons] at hroom
              rcases Writer.enqueueFrame_of_room (w := c.writer) (by omega) frame with
                ⟨writer, henqueue, hlength⟩
              simp only [step, hcopied, hio, onTask, enqueueFrame, hflags.1, hflags.2,
                Bool.not_true, Bool.or_false, Bool.false_eq_true, if_false, henqueue,
                Option.some.injEq] at hstep
              rw [← hstep]
              have hwork := Writer.work_enqueueFrame hsent henqueue
              refine ⟨?_, fun task htask => ?_, ?_, ?_⟩
              · simp only [live, Bool.not_false, Bool.and_self]
              · rw [hio]
                exact List.mem_cons_of_mem _ htask
              · rw [hio, List.length_cons]
                simp only
                omega
              · simp only [work, hio, hcopied, List.map_cons, List.sum_cons, ClientTask.work]
                omega
  | read =>
      cases hcopied : c.copied with
      | some bytes => simp only [step, hcopied, reduceCtorEq] at hstep
      | none =>
          cases hreader : c.reader with
          | idle => simp only [step, hcopied, hreader, reduceCtorEq] at hstep
          | waiting target => simp only [step, hcopied, hreader, reduceCtorEq] at hstep
          | completed target bytes =>
              cases target with
              | header =>
                  rcases hheader bytes hreader with ⟨target, hafter⟩
                  simp only [step, hcopied, hreader, onRead, onHeader, hflags.2,
                    Bool.false_eq_true, if_false, hafter, Option.some.injEq] at hstep
                  rw [← hstep]
                  refine ⟨?_, fun _ h => h, le_refl _, ?_⟩
                  · simp only [live, hflags.1, Bool.not_false, Bool.and_self]
                  · simp only [work, hreader, hcopied, Reader.work]
                    omega
              | body size =>
                  simp only [step, hcopied, hreader, onRead, onBody, hflags.2,
                    Bool.false_eq_true, if_false, Option.some.injEq] at hstep
                  rw [← hstep]
                  refine ⟨?_, fun _ h => h, le_refl _, ?_⟩
                  · simp only [live, hflags.1, Bool.not_false, Bool.and_self]
                  · simp only [work, hreader, hcopied, Reader.work, Option.isSome_some,
                      Option.isSome_none, if_true, Bool.false_eq_true, if_false]
                    omega
  | copied =>
      rcases Option.map_eq_some_iff.mp hstep with ⟨bytes, hcopied, rfl⟩
      rcases sends_onCopied c bytes with ⟨hwriter, hio, hstill, _⟩
      refine ⟨hstill.trans hlive, fun task htask => hio ▸ htask, ?_, ?_⟩
      · rw [hwriter, hio]
      · have hgrows : (c.receiveQueue ++ [bytes]).length = c.receiveQueue.length + 1 :=
          List.length_append
        unfold onCopied
        rw [if_neg (by rw [hflags.2]; exact Bool.false_ne_true)]
        -- Whether the packet is queued or dropped, the handler is done with it.
        by_cases hspace : c.receiveQueue.length < receiveQueueCapacity
        · rw [if_pos hspace]
          simp only [work, hcopied, Reader.work, Option.isSome_some, Option.isSome_none, if_true,
            Bool.false_eq_true, if_false, hgrows]
          omega
        · rw [if_neg hspace]
          simp only [work, hcopied, Reader.work, Option.isSome_some, Option.isSome_none, if_true,
            Bool.false_eq_true, if_false]
          omega
  | write ok =>
      cases ok with
      | false => exact absurd hdue Bool.false_ne_true
      | true =>
          have hflight : c.writer.inFlight = some [] := of_decide_eq_true hmay
          cases hcopied : c.copied with
          | some bytes =>
              simp only [step, hcopied, reduceCtorEq, false_and, if_false] at hstep
          | none =>
              simp only [step, hcopied, hflight, Option.isSome_some, and_self, if_true, onWrite,
                hflags.2, Bool.not_true, Bool.or_self, Bool.false_eq_true, if_false,
                Option.some.injEq] at hstep
              rw [← hstep]
              rcases Writer.work_finish hsent hflight with ⟨hwork, hlength⟩
              refine ⟨?_, fun _ h => h, ?_, ?_⟩
              · simp only [live, hflags.1, Bool.not_false, Bool.and_self]
              · simp only
                omega
              · simp only [work, hcopied]
                omega
  | arrive | readError | heartbeat => exact absurd hdue Bool.false_ne_true

/-! ### Due steps of the connection -/

namespace Connection

variable {id : UInt32} {c c' : Connection} {s : Session}

theorem work_of_objects (h : c.server.objects = [s]) :
    c.work = c.server.queue.packets.length + (c.server.strand.map ServerTask.work).sum + s.work
      + c.client.work + 4 * c.toServer.length + 4 * c.toClient.length := by
  rw [work, h, List.map_singleton, List.sum_singleton]

/-- What a due step does to a connection. -/
structure Advances (c c' : Connection) : Prop where
  ready : ∃ s, Ready c' s
  work : c'.work < c.work
  sentToServer : c'.sentToServer = c.sentToServer
  sentToClient : c'.sentToClient = c.sentToClient

theorem sent_toClient (h : Connected id c) (hs : c.session = some s) :
    ∃ taken, s.writer.Sent taken := by
  have hsound := h.toClient
  rw [toClientChannel_eq hs] at hsound
  rcases hsound.positioned with ⟨consumed, hsent, _⟩
  exact ⟨_, hsent⟩

/-- A frame moves on from `server_strand` to the session. -/
theorem advances_serverTask (h : Connected id c) (hready : Ready c s)
    (hstep : c.step id .serverTask = some c') : c.Advances c' := by
  have hestablished := h.established hready.session
  rcases Option.map_eq_some_iff.mp hstep with ⟨server, hio, rfl⟩
  unfold Server.ioStep at hio
  cases hstrand : c.server.strand with
  | nil => simp only [hstrand, reduceCtorEq] at hio
  | cons task strand =>
      have hmem : task ∈ c.server.strand := by
        rw [hstrand]
        exact List.mem_cons_self
      rcases hready.asked task hmem with ⟨sessionId, frame, rfl⟩
      have hfound := (hestablished.listed hready.isOpen).1
      rw [← (hestablished.tasks sessionId frame hmem).1] at hfound
      simp only [hstrand, Server.onTask, hready.running, Bool.false_eq_true, if_false,
        Server.withSession, hfound, hestablished.objects, List.modify_zero_cons,
        Option.some.injEq] at hio
      rw [← hio]
      have hroom := hready.room
      rw [hstrand, List.length_cons] at hroom
      refine ⟨⟨s.enqueueRawFrame frame, rfl, hready.isOpen, hready.live, hready.running, ?_, ?_,
        hready.clientPosted, ?_, hready.clientRoom⟩, ?_, rfl, rfl⟩
      · intro task htask
        exact hready.asked task (by rw [hstrand]; exact List.mem_cons_of_mem _ htask)
      · intro task htask
        rcases List.mem_append.mp htask with hold | hnew
        · exact hready.posted task hold
        · exact ⟨frame, List.mem_singleton.mp hnew⟩
      · simp only [Session.enqueueRawFrame, List.length_append, List.length_singleton]
        omega
      · rw [work_of_objects rfl, work_of_objects hestablished.objects]
        simp only [hstrand, Session.work, Session.enqueueRawFrame, List.map_cons, List.map_append,
          List.map_nil, List.sum_cons, List.sum_append, List.sum_nil, SessionTask.work,
          ServerTask.work]
        omega

/-- A handler of the session that is due. -/
theorem advances_session (h : Connected id c) (hready : Ready c s) {action : SessionAction}
    (hdue : action.isDue = true) (hstep : c.step id (.session action) = some c') :
    c.Advances c' := by
  have hestablished := h.established hready.session
  have hroom := hready.room
  rw [step, hready.session, Option.all_some] at hstep
  split_ifs at hstep with hmay
  rcases Option.map_eq_some_iff.mp hstep with ⟨server, hio, rfl⟩
  rcases ioStep_session hio with ⟨s₀, s', effects, hs, hsession, rfl⟩
  have heq : s₀ = s := Option.some.inj (hs.symm.trans hready.session)
  subst heq
  have hheader : ∀ bytes, s₀.reader = .completed .header bytes →
      ∃ target, Reader.afterHeader bytes = some (.waiting target) := by
    intro bytes hreader
    have hsound := h.toServer
    rw [toServerChannel_eq hs] at hsound
    exact hsound.header_leads hreader
  rcases sent_toClient h hs with ⟨taken, hsent⟩
  have hadvances := Session.advances hready.isOpen hready.posted (by omega) hheader hsent hmay hdue
    hsession
  -- The queue grows by the payload that is handed over, if it has room for it.
  have hserver : ∃ queue, c.server.onSession 0 s₀ (s', effects)
      = { c.server with objects := [s'], queue } ∧
      queue.shuttingDown = c.server.queue.shuttingDown ∧
      queue.packets.length ≤ c.server.queue.packets.length + effects.length := by
    rcases hadvances.calls with rfl | ⟨data, rfl⟩
    · refine ⟨c.server.queue, ?_, rfl, Nat.le_refl _⟩
      simp only [Server.onSession, List.foldl_nil, hestablished.objects, List.set_cons_zero]
    · refine ⟨(c.server.queue.pushPacket ⟨.data, s₀.id, data⟩).2, ?_,
        PacketQueue.shuttingDown_pushPacket _ _, ?_⟩
      · simp only [Server.onSession, List.foldl_cons, List.foldl_nil, Server.applyEffect,
          hestablished.objects, List.set_cons_zero]
      · unfold PacketQueue.pushPacket
        split_ifs
        · exact Nat.le_add_right _ _
        · exact Nat.le_of_eq List.length_append
        · exact Nat.le_add_right _ _
  rcases hserver with ⟨queue, hserver, hdown, hlength⟩
  rw [hserver]
  have hkept := hadvances.room
  have hwork := hadvances.work
  refine ⟨⟨s', rfl, hadvances.isOpen, hready.live, hdown.trans hready.running, hready.asked,
    fun task htask => hready.posted task (hadvances.posted task htask), hready.clientPosted, ?_,
    hready.clientRoom⟩, ?_, rfl, rfl⟩
  · simp only
    omega
  · rw [work_of_objects rfl, work_of_objects hestablished.objects]
    simp only
    omega

theorem advances_sessionArrive (h : Connected id c) (hready : Ready c s)
    (hstep : c.step id .sessionArrive = some c') : c.Advances c' := by
  have hestablished := h.established hready.session
  rw [step, hready.session, Option.map_some] at hstep
  cases hreader : s.reader with
  | idle => simp only [hreader, reduceCtorEq] at hstep
  | completed target bytes => simp only [hreader, reduceCtorEq] at hstep
  | waiting target =>
      simp only [hreader] at hstep
      split_ifs at hstep with hsize
      rcases Option.map_eq_some_iff.mp hstep with ⟨server, hio, rfl⟩
      rcases ioStep_session hio with ⟨s₀, s', effects, hs, hsession, rfl⟩
      have heq : s₀ = s := Option.some.inj (hs.symm.trans hready.session)
      subst heq
      have hpos : 0 < target.size := by
        have hsound := h.toServer
        rw [toServerChannel_eq hs] at hsound
        exact hsound.target_pos hreader
      simp only [Session.step, hreader, List.length_take_of_le hsize, hready.isOpen, and_self,
        if_true, Option.some.injEq, Prod.mk.injEq] at hsession
      rcases hsession with ⟨rfl, rfl⟩
      simp only [Server.onSession, List.foldl_nil, hestablished.objects, List.set_cons_zero]
      refine ⟨⟨_, rfl, rfl, hready.live, hready.running, hready.asked, hready.posted,
        hready.clientPosted, hready.room, hready.clientRoom⟩, ?_, rfl, rfl⟩
      rw [work_of_objects rfl, work_of_objects hestablished.objects]
      simp only [Session.work, hreader, Reader.work, List.length_drop]
      omega

/-- The socket takes something, when there is something to take. -/
theorem length_transmit_pos {w : Writer} {count : Nat} (hcount : count ≠ 0)
    (hpending : w.pending = true) : 0 < (w.transmit count).1.length := by
  rcases (Option.any_eq_true _ _).mp hpending with ⟨rest, hflight, hrest⟩
  rw [Bool.not_eq_true', List.isEmpty_eq_false_iff] at hrest
  have hlength := List.length_pos_iff.mpr hrest
  simp only [Writer.transmit, hflight, List.length_take]
  omega

theorem advances_sessionTransmit (h : Connected id c) (hready : Ready c s) {count : Nat}
    (hdue : c.due (.sessionTransmit count) = true)
    (hstep : c.step id (.sessionTransmit count) = some c') : c.Advances c' := by
  have hestablished := h.established hready.session
  rw [due, hready.session, Option.any_some, Bool.and_eq_true, decide_eq_true_eq] at hdue
  have hpos := length_transmit_pos hdue.1 hdue.2
  have hwork := Writer.work_transmit s.writer count
  have hqueue := Writer.queue_transmit s.writer count
  simp only [step, hready.session, hready.isOpen, Bool.false_eq_true, if_false,
    hestablished.objects, List.set_cons_zero, Option.some.injEq] at hstep
  rw [← hstep]
  refine ⟨⟨_, rfl, rfl, hready.live, hready.running, hready.asked, hready.posted,
    hready.clientPosted, ?_, hready.clientRoom⟩, ?_, rfl, rfl⟩
  · simp only [hqueue]
    exact hready.room
  · rw [work_of_objects rfl, work_of_objects hestablished.objects]
    simp only [Session.work, List.length_append]
    omega

theorem advances_serverPoll (hready : Ready c s) (hstep : c.step id .serverPoll = some c') :
    c.Advances c' := by
  rcases Option.map_eq_some_iff.mp hstep with ⟨⟨packet, queue⟩, hpoll, rfl⟩
  unfold PacketQueue.pollPacket at hpoll
  cases hpackets : c.server.queue.packets with
  | nil => simp only [hpackets, reduceCtorEq] at hpoll
  | cons front rest =>
      simp only [hpackets, Option.some.injEq, Prod.mk.injEq] at hpoll
      rcases hpoll with ⟨rfl, rfl⟩
      refine ⟨⟨s, hready.session, hready.isOpen, hready.live, hready.running, hready.asked,
        hready.posted, hready.clientPosted, hready.room, hready.clientRoom⟩, ?_, rfl, rfl⟩
      simp only [work, hpackets, List.length_cons]
      omega

/-- A step of the client leaves the server's side as it is. -/
theorem Ready.advances (hready : Ready c s) {client : Client} (hclient : c.client.Advances client)
    (log : List Reading) (polled : List Bytes) :
    c.Advances { c with client, clientLog := log, clientPolled := polled } := by
  have hroom := hclient.room
  have hbound := hready.clientRoom
  have hwork := hclient.work
  refine ⟨⟨s, hready.session, hready.isOpen, hclient.live, hready.running, hready.asked,
    hready.posted, fun task htask => hready.clientPosted task (hclient.posted task htask),
    hready.room, ?_⟩, ?_, rfl, rfl⟩
  · simp only
    omega
  · simp only [work]
    omega

theorem advances_client (h : Connected id c) (hready : Ready c s) {action : ClientAction}
    (hdue : action.isDue = true) (hstep : c.step id (.client action) = some c') :
    c.Advances c' := by
  rw [step] at hstep
  split_ifs at hstep with hmay
  rcases Option.map_eq_some_iff.mp hstep with ⟨client, hclient, rfl⟩
  rcases h.toServer.positioned with ⟨consumed, hsent, _⟩
  exact hready.advances (Client.advances hready.live hready.clientPosted hready.clientRoom
    (fun bytes hreader => h.toClient.header_leads hreader) hsent hmay hdue hclient) _ _

theorem advances_clientArrive (h : Connected id c) (hready : Ready c s)
    (hstep : c.step id .clientArrive = some c') : c.Advances c' := by
  rw [step] at hstep
  cases hreader : c.client.reader with
  | idle => simp only [hreader, reduceCtorEq] at hstep
  | completed target bytes => simp only [hreader, reduceCtorEq] at hstep
  | waiting target =>
      simp only [hreader] at hstep
      split_ifs at hstep with hsize
      rcases Option.map_eq_some_iff.mp hstep with ⟨client, hclient, rfl⟩
      have hpos : 0 < target.size := h.toClient.target_pos hreader
      simp only [Client.step, hreader] at hclient
      split_ifs at hclient
      rw [← Option.some.inj hclient]
      refine ⟨⟨s, hready.session, hready.isOpen, hready.live, hready.running, hready.asked,
        hready.posted, hready.clientPosted, hready.room, hready.clientRoom⟩, ?_, rfl, rfl⟩
      simp only [work, Client.work, hreader, Reader.work, List.length_drop]
      omega

theorem advances_clientTransmit (hready : Ready c s) {count : Nat}
    (hdue : c.due (.clientTransmit count) = true)
    (hstep : c.step id (.clientTransmit count) = some c') : c.Advances c' := by
  rw [due, Bool.and_eq_true, decide_eq_true_eq] at hdue
  have hpos := length_transmit_pos hdue.1 hdue.2
  have hwork := Writer.work_transmit c.client.writer count
  have hqueue := Writer.queue_transmit c.client.writer count
  simp only [step] at hstep
  split_ifs at hstep
  rw [Option.some.injEq] at hstep
  rw [← hstep]
  refine ⟨⟨s, hready.session, hready.isOpen, hready.live, hready.running, hready.asked,
    hready.posted, hready.clientPosted, hready.room, ?_⟩, ?_, rfl, rfl⟩
  · simp only [hqueue]
    exact hready.clientRoom
  · simp only [work, Client.work, List.length_append]
    omega

theorem advances_clientPoll (hready : Ready c s) (hstep : c.step id .clientPoll = some c') :
    c.Advances c' := by
  rcases Option.map_eq_some_iff.mp hstep with ⟨⟨data, client⟩, hpoll, rfl⟩
  unfold Client.pollPacket at hpoll
  cases hqueue : c.client.receiveQueue with
  | nil => simp only [hqueue, reduceCtorEq] at hpoll
  | cons front rest =>
      simp only [hqueue, Option.some.injEq, Prod.mk.injEq] at hpoll
      rcases hpoll with ⟨rfl, rfl⟩
      have hclient : c.client.Advances { c.client with receiveQueue := rest } := by
        refine ⟨hready.live, fun _ h => h, le_refl _, ?_⟩
        simp only [Client.work, hqueue, List.length_cons]
        omega
      exact hready.advances hclient _ _

/-- Every due step keeps the connection ready and takes work off. -/
theorem advances_step (h : Connected id c) (hready : Ready c s) {action : Action}
    (hdue : c.due action = true) (hstep : c.step id action = some c') : c.Advances c' := by
  cases action with
  | serverTask => exact advances_serverTask h hready hstep
  | session action => exact advances_session h hready hdue hstep
  | sessionArrive => exact advances_sessionArrive h hready hstep
  | sessionTransmit count => exact advances_sessionTransmit h hready hdue hstep
  | serverPoll => exact advances_serverPoll hready hstep
  | client action => exact advances_client h hready hdue hstep
  | clientArrive => exact advances_clientArrive h hready hstep
  | clientTransmit count => exact advances_clientTransmit hready hdue hstep
  | clientPoll => exact advances_clientPoll hready hstep
  | accept | otherPush | serverSend | serverDisconnect | serverShutdown | clientSend
  | clientShutdown => exact absurd hdue Bool.false_ne_true

/-! ### At rest -/

/-- Everything that was sent has been read, and was polled or counted as
    dropped. -/
structure Delivered (sent : List Bytes) (log : List Reading) (polled : List Bytes) : Prop where
  read : log.map Reading.payload = sent
  polled : (log.filter Reading.queued).map Reading.payload = polled
  counted : ∀ e ∈ log, e.accounted = true

theorem settled_session (hready : Ready c s) (hrest : Machine.Settled (step id) due c)
    (action : SessionAction) (hdue : action.isDue = true) (hmay : sessionMay s action = true) :
    s.step action = none := by
  have hnone := hrest (.session action) hdue
  have hobject : c.server.objects[0]? = some s := hready.session
  rw [step, hready.session, Option.all_some, if_pos hmay, Option.map_eq_none_iff] at hnone
  simp only [Server.ioStep, hobject, Option.map_eq_none_iff] at hnone
  exact hnone

theorem settled_client (hrest : Machine.Settled (step id) due c) (action : ClientAction)
    (hdue : action.isDue = true) (hmay : clientMay c.client action = true) :
    c.client.step action = none := by
  have hnone := hrest (.client action) hdue
  rw [step, if_pos hmay, Option.map_eq_none_iff] at hnone
  exact hnone

/-- At rest the session has written all it was given. -/
theorem settled_sessionWriter (htended : c.Tended) (hready : Ready c s)
    (hrest : Machine.Settled (step id) due c) :
    s.strand = [] ∧ c.server.strand = [] ∧ s.writer.writing = false := by
  refine ⟨?_, ?_, ?_⟩
  · have hnone := settled_session hready hrest .task rfl rfl
    cases hstrand : s.strand with
    | nil => rfl
    | cons task strand => simp only [Session.step, hstrand, reduceCtorEq] at hnone
  · have hnone := hrest .serverTask rfl
    rw [step, Option.map_eq_none_iff] at hnone
    cases hstrand : c.server.strand with
    | nil => rfl
    | cons task strand => simp only [Server.ioStep, hstrand, reduceCtorEq] at hnone
  · by_contra hwriting
    rw [Bool.not_eq_false] at hwriting
    have hflight := (htended.sessions s (List.mem_of_getElem? hready.session) hready.isOpen).2
      hwriting
    rcases Option.isSome_iff_exists.mp hflight with ⟨rest, hrest'⟩
    cases rest with
    | nil =>
        have hnone := settled_session hready hrest (.write true) rfl
          (decide_eq_true hrest')
        simp only [Session.step, hflight, if_true, reduceCtorEq] at hnone
    | cons byte rest =>
        have hpending : s.writer.pending = true := by
          rw [Writer.pending, hrest']
          rfl
        have hnone := hrest (.sessionTransmit 1)
          (by rw [due, hready.session, Option.any_some, hpending]; rfl)
        simp only [step, hready.session, hready.isOpen, Bool.false_eq_true, if_false,
          reduceCtorEq] at hnone

/-- At rest the session waits for more than there is. -/
theorem settled_sessionReader (htended : c.Tended) (hready : Ready c s)
    (hrest : Machine.Settled (step id) due c) :
    ∃ target, s.reader = .waiting target ∧ c.toServer.length < target.size := by
  have hreading := (htended.sessions s (List.mem_of_getElem? hready.session) hready.isOpen).1
  have hobject : c.server.objects[0]? = some s := hready.session
  cases hreader : s.reader with
  | idle => exact absurd hreader hreading
  | completed target bytes =>
      have hnone := settled_session hready hrest .read rfl rfl
      simp only [Session.step, hreader, reduceCtorEq] at hnone
  | waiting target =>
      refine ⟨target, rfl, ?_⟩
      by_contra hlong
      rw [Nat.not_lt] at hlong
      have hnone := hrest .sessionArrive rfl
      simp only [step, hready.session, Option.map_some, hreader, if_pos hlong, Server.ioStep,
        hobject, Session.step, List.length_take_of_le hlong, hready.isOpen, and_self, if_true,
        reduceCtorEq] at hnone

theorem settled_copied (hrest : Machine.Settled (step id) due c) : c.client.copied = none := by
  have hnone := settled_client hrest .copied rfl rfl
  exact Option.map_eq_none_iff.mp hnone

theorem settled_clientWriter (htended : c.Tended) (hready : Ready c s)
    (hrest : Machine.Settled (step id) due c) :
    c.client.io = [] ∧ c.client.writer.writing = false := by
  have hcopied := settled_copied hrest
  rcases htended.client hready.live with ⟨_, hwriter, hsocket⟩
  refine ⟨?_, ?_⟩
  · have hnone := settled_client hrest .task rfl rfl
    cases hio : c.client.io with
    | nil => rfl
    | cons task io => simp only [Client.step, hcopied, hio, reduceCtorEq] at hnone
  · by_contra hwriting
    rw [Bool.not_eq_false] at hwriting
    have hflight := hwriter hwriting
    rcases Option.isSome_iff_exists.mp hflight with ⟨rest, hrest'⟩
    cases rest with
    | nil =>
        have hnone := settled_client hrest (.write true) rfl (decide_eq_true hrest')
        simp only [Client.step, hcopied, hflight, and_self, if_true, reduceCtorEq] at hnone
    | cons byte rest =>
        have hpending : c.client.writer.pending = true := by
          rw [Writer.pending, hrest']
          rfl
        have hnone := hrest (.clientTransmit 1) (by rw [due, hpending]; rfl)
        simp only [step, hsocket, if_true, reduceCtorEq] at hnone

theorem settled_clientReader (htended : c.Tended) (hready : Ready c s)
    (hrest : Machine.Settled (step id) due c) :
    ∃ target, c.client.reader = .waiting target ∧ c.toClient.length < target.size := by
  have hcopied := settled_copied hrest
  rcases htended.client hready.live with ⟨hreading, _, hsocket⟩
  cases hreader : c.client.reader with
  | idle =>
      have hheld := hreading hreader
      rw [hcopied] at hheld
      exact absurd hheld Bool.false_ne_true
  | completed target bytes =>
      have hnone := settled_client hrest .read rfl rfl
      simp only [Client.step, hcopied, hreader, reduceCtorEq] at hnone
  | waiting target =>
      refine ⟨target, rfl, ?_⟩
      by_contra hlong
      rw [Nat.not_lt] at hlong
      have hnone := hrest .clientArrive rfl
      simp only [step, hreader, if_pos hlong, Client.step, List.length_take_of_le hlong, hsocket,
        and_self, if_true, Option.map_some, reduceCtorEq] at hnone

/-- At rest both queues have been polled empty. -/
theorem settled_queues (hrest : Machine.Settled (step id) due c) :
    c.server.queue.packets = [] ∧ c.client.receiveQueue = [] := by
  refine ⟨?_, ?_⟩
  · have hnone := hrest .serverPoll rfl
    rw [step, Option.map_eq_none_iff] at hnone
    cases hpackets : c.server.queue.packets with
    | nil => rfl
    | cons packet rest => simp only [PacketQueue.pollPacket, hpackets, reduceCtorEq] at hnone
  · have hnone := hrest .clientPoll rfl
    rw [step, Option.map_eq_none_iff] at hnone
    cases hqueue : c.client.receiveQueue with
    | nil => rfl
    | cons data rest => simp only [Client.pollPacket, hqueue, reduceCtorEq] at hnone

/-- At rest everything has been delivered. -/
theorem delivered_of_settled (h : Connected id c) (htended : c.Tended) (hready : Ready c s)
    (hrest : Machine.Settled (step id) due c) :
    Delivered c.sentToServer c.serverLog c.serverPolled ∧
      Delivered c.sentToClient c.clientLog c.clientPolled := by
  rcases settled_queues hrest with ⟨hpackets, hqueue⟩
  have hserverLog := h.serverLog
  rw [queuedPayloads, hpackets, hready.running] at hserverLog
  have hdown : c.client.shuttingDown = false := by
    have hlive := hready.live
    rw [Client.live, Bool.and_eq_true, Bool.not_eq_true'] at hlive
    exact hlive.2
  have hclientLog := h.clientLog
  rw [hqueue, hdown] at hclientLog
  refine ⟨⟨?_, ?_, hserverLog.running rfl⟩, ⟨?_, ?_, hclientLog.running rfl⟩⟩
  · -- Sent, accepted and read are the same, for nothing waits in between.
    rcases settled_clientWriter htended hready hrest with ⟨hio, hwriting⟩
    rcases settled_sessionReader htended hready hrest with ⟨target, hreader, hshort⟩
    have hsound := h.toServer
    rw [toServerChannel_eq hready.session] at hsound
    have hlog : c.serverLog.map Reading.payload = c.client.payloadsAccepted :=
      hsound.drained hwriting hreader hshort
    have hsent := h.clientSends.live hready.live
    rw [Client.payloadsPosted, hio] at hsent
    rw [hlog, ← hsent]
    exact (List.append_nil _).symm
  · rw [hserverLog.queued]
    exact List.append_nil _
  · rcases settled_sessionWriter htended hready hrest with ⟨hstrand, htasks, hwriting⟩
    rcases settled_clientReader htended hready hrest with ⟨target, hreader, hshort⟩
    have hsound := h.toClient
    rw [toClientChannel_eq hready.session] at hsound
    have hlog : c.clientLog.map Reading.payload = s.payloadsAccepted :=
      hsound.drained hwriting hreader hshort
    have hsent := (h.established hready.session).running hready.isOpen hready.running
    rw [Session.payloadsPosted, hstrand, htasks] at hsent
    rw [hlog, ← hsent]
    exact ((List.append_nil _).trans (List.append_nil _)).symm
  · rw [hclientLog.queued]
    exact List.append_nil _

/-- From every state of every run in which neither side is lost or asked to
    close and no more frames wait than the write queues take: however the due
    actions are ordered, there are at most as many of them as there is work, and
    when none is possible any more everything that was sent in either direction
    has been read and was polled or counted as dropped. And they do lead
    there. -/
theorem all_delivered (id : UInt32) (actions : List Action) (c : Connection)
    (hrun : Machine.run (step id) (initial id) actions = some c) (s : Session)
    (hready : Ready c s) :
    (∀ more t, Machine.run (step id) c more = some t →
      Machine.Respects (step id) due c more = true →
      more.length ≤ c.work ∧ (Machine.Settled (step id) due t →
        Delivered c.sentToServer t.serverLog t.serverPolled ∧
        Delivered c.sentToClient t.clientLog t.clientPolled)) ∧
    ∃ more t, Machine.run (step id) c more = some t ∧
      Machine.Respects (step id) due c more = true ∧ Machine.Settled (step id) due t := by
  -- Due steps keep the invariants and what was sent, and take work off.
  let Kept : Connection → Prop := fun d =>
    (Connected id d ∧ d.Tended) ∧ (∃ s, Ready d s) ∧
      d.sentToServer = c.sentToServer ∧ d.sentToClient = c.sentToClient
  have hstep : ∀ d a t, Kept d → due d a = true → step id d a = some t →
      Kept t ∧ t.work < d.work := by
    rintro d a t ⟨⟨hconnected, htended⟩, ⟨s, hs⟩, hserver, hclient⟩ hdue ht
    have hadvances := advances_step hconnected hs hdue ht
    exact ⟨⟨⟨connected_step d a t hconnected ht, tended_step hconnected htended ht⟩,
      hadvances.ready, hadvances.sentToServer.trans hserver,
      hadvances.sentToClient.trans hclient⟩, hadvances.work⟩
  have hkept : Kept c := ⟨tended_run hrun, ⟨s, hready⟩, rfl, rfl⟩
  refine ⟨fun more t ht hdue => ⟨Machine.length_le_of_due hstep hkept ht hdue, fun hrest => ?_⟩,
    Machine.settles hstep hkept⟩
  rcases Machine.invariant_of_respects (fun d a t h ha hs => (hstep d a t h ha hs).1) ht hdue hkept
    with ⟨⟨hconnected, htended⟩, ⟨s', hs'⟩, hserver, hclient⟩
  rw [← hserver, ← hclient]
  exact delivered_of_settled hconnected htended hs' hrest

/-- A byte has been passed to `send` on either side, and nothing else has
    happened. -/
def oneByteWaiting : List Action := [.accept, .serverPoll, .clientSend [7], .serverSend [9]]

theorem all_delivered_oneByteWaiting :
    ∃ c, Machine.run (step 1) (initial 1) oneByteWaiting = some c ∧
      c.sentToServer = [[7]] ∧ c.sentToClient = [[9]] ∧
      ∃ more t, Machine.run (step 1) c more = some t ∧
        Delivered [[7]] t.serverLog t.serverPolled ∧
        Delivered [[9]] t.clientLog t.clientPolled := by
  have hend : (Machine.run (step 1) (initial 1) oneByteWaiting).map (fun c => decide
      ((c.sentToServer = [[7]] ∧ c.sentToClient = [[9]]) ∧
        c.session = some (Session.start { id := 1 }) ∧ c.client.live = true ∧
        c.client.io = [.enqueueFrame (buildDataFrame [7])] ∧ c.client.writer.queue = [] ∧
        c.server.queue.shuttingDown = false ∧ c.server.strand = [.send 1 (buildDataFrame [9])]))
      = some true := by
    decide +kernel
  rcases Option.map_eq_some_iff.mp hend with ⟨c, hrun, hc⟩
  rcases of_decide_eq_true hc with
    ⟨⟨hserver, hclient⟩, hsession, hlive, hio, hqueue, hdown, hstrand⟩
  have hready : Ready c (Session.start { id := 1 }) := by
    refine ⟨hsession, rfl, hlive, hdown, fun task htask => ?_, fun _ h => absurd h List.not_mem_nil,
      fun task htask => ?_, ?_, ?_⟩
    · rw [hstrand] at htask
      exact ⟨_, _, List.mem_singleton.mp htask⟩
    · rw [hio] at htask
      exact ⟨_, List.mem_singleton.mp htask⟩
    · rw [hstrand]
      decide
    · rw [hqueue, hio]
      decide
  rcases all_delivered 1 oneByteWaiting c hrun _ hready with ⟨hall, more, t, hmore, hdue, hrest⟩
  rw [hserver, hclient] at hall
  exact ⟨c, hrun, hserver, hclient, more, t, hmore, (hall more t hmore hdue).2 hrest⟩

end Connection

end ProjectNight
