import ProjectNight.Core.Client
import ProjectNight.Theory.Channel

/-!
# Transitions of the Two Ends

Everything a handler can do to a session or to a client, one constructor for
each way through the code (`Session.Change`, `Client.Change`). The functions
of `Session.lean` and `Client.lean` are taken apart here and nowhere else;
invariants of a connection are proved by cases on these relations.

From them follows what becomes of the frames that wait in posted handlers.
While an end is open, handlers only move frames on to the write queue, in
order. A frame is thrown away only by an end that is lost, and a lost end puts
nothing more into its write queue.

For the rest of the server a step of a session amounts to one of three things
(`Session.Outcome`): nothing, one payload handed over, or a close.

## Main definitions

* `Session.Change`, `Client.Change`: What a step can do.
* `Session.Outcome`: What a step of a session means for the server.
* `Session.postedFrames`, `Client.postedFrames`: The frames in posted handlers.
* `Client.live`: The client still accepts frames.

## Theorems

* `Session.step_change`, `Client.step_change`: Every step is one of these.
* `Session.step_outcome`: Every step of a session has an outcome.
* `Session.Change.sends`, `Client.Change.sends`: Frames move on in order.
-/

namespace ProjectNight

open Wire

/-! ### Sessions -/

namespace Session

/-- The calls of `handle_close`: `on_close_`, the first time. -/
def closeCalls (s : Session) : List SessionEffect := if s.closed then [] else [.close]

/-- What a step can do to a session, and the calls it makes. `handle_close`
    leaves `closed_` set, also when it was set before. -/
inductive Change (s : Session) : SessionAction → Session → List SessionEffect → Prop where
  | taskDropped {frame : Bytes} {strand : List SessionTask}
      (hstrand : s.strand = .enqueueWrite frame :: strand) (hclosed : s.closed = true) :
      Change s .task { s with strand } []
  | taskAccepted {frame : Bytes} {strand : List SessionTask} {writer : Writer}
      (hstrand : s.strand = .enqueueWrite frame :: strand) (hopen : s.closed = false)
      (henqueue : s.writer.enqueueFrame frame = some writer) :
      Change s .task { s with strand, writer } []
  | taskOverflow {frame : Bytes} {strand : List SessionTask}
      (hstrand : s.strand = .enqueueWrite frame :: strand) :
      Change s .task { s with strand, closed := true } s.closeCalls
  | taskClose {strand : List SessionTask} (hstrand : s.strand = .close :: strand) :
      Change s .task { s with strand, closed := true } s.closeCalls
  | arrived {target : ReadTarget} {bytes : Bytes} (hreader : s.reader = .waiting target)
      (hsize : bytes.length = target.size) :
      Change s (.arrive bytes) { s with reader := .completed target bytes } []
  | header {bytes : Bytes} {reader : Reader} (hreader : s.reader = .completed .header bytes)
      (hafter : Reader.afterHeader bytes = some reader) : Change s .read { s with reader } []
  | badHeader {bytes : Bytes} (hreader : s.reader = .completed .header bytes) :
      Change s .read { s with reader := .idle, closed := true } s.closeCalls
  | body {size : Nat} {bytes : Bytes} (hreader : s.reader = .completed (.body size) bytes) :
      Change s .read { s with reader := .waiting .header } [.receive bytes]
  | readError {target : ReadTarget} (hreader : s.reader = .waiting target) :
      Change s .readError { s with reader := .idle, closed := true } s.closeCalls
  | written (hflight : s.writer.inFlight.isSome) :
      Change s (.write true) { s with writer := s.writer.pop.doWrite } []
  | writeError (hflight : s.writer.inFlight.isSome) :
      Change s (.write false) { s with writer := s.writer.pop, closed := true } s.closeCalls
  | timeout : Change s (.heartbeat true) { s with closed := true } s.closeCalls
  | keepaliveDropped (hclosed : s.closed = true) : Change s (.heartbeat false) s []
  | keepalive {writer : Writer} (hopen : s.closed = false)
      (henqueue : s.writer.enqueueFrame buildKeepaliveFrame = some writer) :
      Change s (.heartbeat false) { s with writer } []
  | keepaliveOverflow : Change s (.heartbeat false) { s with closed := true } s.closeCalls

theorem handleClose_eq (s : Session) :
    s.handleClose = ({ s with closed := true }, s.closeCalls) := by
  unfold handleClose closeCalls
  split_ifs with h
  · rw [← h]
  · rfl

/-- A frame is dropped, accepted or one too many. -/
theorem enqueueWrite_cases (s : Session) (frame : Bytes) :
    (s.closed = true ∧ s.enqueueWrite frame = (s, [])) ∨
    (s.closed = false ∧ ∃ writer, s.writer.enqueueFrame frame = some writer ∧
      s.enqueueWrite frame = ({ s with writer }, [])) ∨
    s.enqueueWrite frame = ({ s with closed := true }, s.closeCalls) := by
  unfold enqueueWrite
  by_cases hclosed : s.closed = true
  · rw [if_pos hclosed]
    exact Or.inl ⟨hclosed, rfl⟩
  · rw [if_neg hclosed]
    right
    cases henqueue : s.writer.enqueueFrame frame with
    | none => exact Or.inr (handleClose_eq s)
    | some writer => exact Or.inl ⟨Bool.not_eq_true _ ▸ hclosed, writer, rfl, rfl⟩

theorem step_change {s : Session} {action : SessionAction}
    {result : Session × List SessionEffect} (h : s.step action = some result) :
    Change s action result.1 result.2 := by
  cases action with
  | task =>
      unfold step at h
      cases hstrand : s.strand with
      | nil => simp only [hstrand, reduceCtorEq] at h
      | cons task strand =>
          simp only [hstrand, Option.some.injEq] at h
          rw [← h]
          cases task with
          | enqueueWrite frame =>
              rw [onTask]
              rcases enqueueWrite_cases { s with strand } frame with ⟨hclosed, heq⟩ |
                ⟨hopen, writer, henqueue, heq⟩ | heq
              · rw [heq]
                exact .taskDropped hstrand hclosed
              · rw [heq]
                exact .taskAccepted hstrand hopen henqueue
              · rw [heq]
                exact .taskOverflow hstrand
          | close =>
              rw [onTask, handleClose_eq]
              exact .taskClose hstrand
  | arrive bytes =>
      unfold step at h
      cases hreader : s.reader with
      | idle => simp only [hreader, reduceCtorEq] at h
      | completed target bytes => simp only [hreader, reduceCtorEq] at h
      | waiting target =>
          simp only [hreader] at h
          split_ifs at h with hguard
          rw [← Option.some.inj h]
          exact .arrived hreader hguard.1
  | read =>
      unfold step at h
      cases hreader : s.reader with
      | idle => simp only [hreader, reduceCtorEq] at h
      | waiting target => simp only [hreader, reduceCtorEq] at h
      | completed target bytes =>
          simp only [hreader, Option.some.injEq] at h
          rw [← h]
          cases target with
          | header =>
              rw [onRead, onHeader]
              cases hafter : Reader.afterHeader bytes with
              | none =>
                  simp only [handleClose_eq]
                  exact .badHeader hreader
              | some reader => exact .header hreader hafter
          | body size => exact .body hreader
  | readError =>
      unfold step at h
      cases hreader : s.reader with
      | idle => simp only [hreader, reduceCtorEq] at h
      | completed target bytes => simp only [hreader, reduceCtorEq] at h
      | waiting target =>
          simp only [hreader, Option.some.injEq] at h
          rw [← h, onReadError, handleClose_eq]
          exact .readError hreader
  | write ok =>
      unfold step at h
      split_ifs at h with hflight
      rw [← Option.some.inj h, onWrite]
      cases ok with
      | true => exact .written hflight
      | false =>
          simp only [Bool.false_eq_true, if_false, handleClose_eq]
          exact .writeError hflight
  | heartbeat timeout =>
      unfold step at h
      rw [← Option.some.inj h, onHeartbeat]
      cases timeout with
      | true =>
          rw [if_pos rfl, handleClose_eq]
          exact .timeout
      | false =>
          rw [if_neg Bool.false_ne_true]
          rcases enqueueWrite_cases s buildKeepaliveFrame with ⟨hclosed, heq⟩ |
            ⟨hopen, writer, henqueue, heq⟩ | heq
          · rw [heq]
            exact .keepaliveDropped hclosed
          · rw [heq]
            exact .keepalive hopen henqueue
          · rw [heq]
            exact .keepaliveOverflow

/-- What a step of a session amounts to for the rest of the server. -/
inductive Outcome (s : Session) (action : SessionAction) (s' : Session) :
    List SessionEffect → Prop where
  | silent (hclosed : s'.closed = s.closed) : Outcome s action s' []
  | receives (size : Nat) (data : Bytes) (haction : action = .read)
      (hreader : s.reader = .completed (.body size) data) (hclosed : s'.closed = s.closed) :
      Outcome s action s' [.receive data]
  | closes (hopen : s.closed = false) (hclosed : s'.closed = true) :
      Outcome s action s' [.close]

/-- `handle_close` acts once. -/
theorem outcome_closeCalls {s s' : Session} (action : SessionAction)
    (hclosed : s'.closed = true) : Outcome s action s' s.closeCalls := by
  unfold closeCalls
  by_cases h : s.closed = true
  · rw [if_pos h]
    exact .silent (hclosed.trans h.symm)
  · rw [if_neg h]
    exact .closes (Bool.not_eq_true _ ▸ h) hclosed

/-- Every step of a session keeps its id and has one of the three outcomes. -/
theorem step_outcome {s s' : Session} {action : SessionAction} {effects : List SessionEffect}
    (h : s.step action = some (s', effects)) : s'.id = s.id ∧ Outcome s action s' effects := by
  cases step_change h with
  | taskDropped | taskAccepted | arrived | header | written | keepaliveDropped | keepalive =>
      exact ⟨rfl, .silent rfl⟩
  | body hreader => exact ⟨rfl, .receives _ _ rfl hreader rfl⟩
  | _ => exact ⟨rfl, outcome_closeCalls _ rfl⟩

/-- The frames in handlers posted to a session's strand. -/
def postedFrames (strand : List SessionTask) : List Bytes :=
  strand.filterMap fun
    | .enqueueWrite frame => some frame
    | .close => none

/-- The payloads a session has accepted or has been handed. -/
def payloadsAccepted (s : Session) : List Bytes := payloads s.writer.accepted

def payloadsPosted (s : Session) : List Bytes := payloads (postedFrames s.strand)

theorem payloadsAccepted_enqueueFrame {s : Session} {writer : Writer} {frame : Bytes}
    (h : s.writer.enqueueFrame frame = some writer) :
    payloads writer.accepted = s.payloadsAccepted ++ payloads [frame] := by
  rw [Writer.accepted_enqueueFrame h, payloads_append]
  rfl

/-- While a session stays open, its handlers move frames on in order; once it
    is closed, nothing is accepted. -/
theorem Change.sends {s s' : Session} {action : SessionAction} {effects : List SessionEffect}
    (h : Change s action s' effects) :
    (s'.closed = false → s.closed = false ∧
      s'.payloadsAccepted ++ s'.payloadsPosted = s.payloadsAccepted ++ s.payloadsPosted) ∧
    (s'.closed = true → s'.payloadsAccepted = s.payloadsAccepted) := by
  cases h with
  | taskDropped hstrand hclosed =>
      exact ⟨fun hopen => absurd (hclosed.symm.trans hopen) (by decide), fun _ => rfl⟩
  | @taskAccepted frame strand writer hstrand hopen henqueue =>
      refine ⟨fun _ => ⟨hopen, ?_⟩, fun hclosed => ?_⟩
      · unfold payloadsPosted
        rw [hstrand, payloadsAccepted, payloadsAccepted_enqueueFrame henqueue, List.append_assoc,
          ← payloads_append]
        rfl
      · exact absurd (hopen.symm.trans hclosed) (by decide)
  | taskOverflow | badHeader | readError | timeout | keepaliveOverflow =>
      exact ⟨fun hopen => absurd hopen.symm Bool.false_ne_true, fun _ => rfl⟩
  | taskClose => exact ⟨fun hopen => absurd hopen.symm Bool.false_ne_true, fun _ => rfl⟩
  | arrived | header | body => exact ⟨fun hopen => ⟨hopen, rfl⟩, fun _ => rfl⟩
  | keepaliveDropped => exact ⟨fun hopen => ⟨hopen, rfl⟩, fun _ => rfl⟩
  | written =>
      have haccepted : payloads s.writer.pop.doWrite.accepted = s.payloadsAccepted := by
        rw [Writer.accepted_doWrite]
        rfl
      refine ⟨fun hopen => ⟨hopen, ?_⟩, fun _ => haccepted⟩
      rw [payloadsAccepted, haccepted]
      rfl
  | writeError => exact ⟨fun hopen => absurd hopen.symm Bool.false_ne_true, fun _ => rfl⟩
  | @keepalive writer hopen henqueue =>
      -- A keepalive has no payload.
      have haccepted : payloads writer.accepted = s.payloadsAccepted := by
        rw [payloadsAccepted_enqueueFrame henqueue, payloads_keepalive, List.append_nil]
      refine ⟨fun _ => ⟨hopen, ?_⟩, fun _ => haccepted⟩
      rw [payloadsAccepted, haccepted]
      rfl

/-- No handler posts a frame to its own strand. -/
theorem Change.postedFrames_subset {s s' : Session} {action : SessionAction}
    {effects : List SessionEffect} (h : Change s action s' effects) :
    postedFrames s'.strand ⊆ postedFrames s.strand := by
  -- A handler takes the front of its queue and posts nothing.
  have hcons : ∀ task strand, postedFrames strand ⊆ postedFrames (task :: strand) := by
    intro task strand
    cases task with
    | enqueueWrite frame => exact List.subset_cons_self frame _
    | close => exact List.Subset.refl _
  cases h with
  | taskDropped hstrand | taskAccepted hstrand | taskOverflow hstrand | taskClose hstrand =>
      rw [hstrand]
      exact hcons _ _
  | _ => exact List.Subset.refl _

end Session

/-! ### Clients -/

namespace Client

/-- The client still accepts frames. -/
def live (c : Client) : Bool := c.connected && !c.shuttingDown

/-- What a step can do to a client. -/
inductive Change (c : Client) : ClientAction → Client → Prop where
  | taskDropped {frame : Bytes} {io : List ClientTask}
      (hio : c.io = .enqueueFrame frame :: io) (hlost : c.live = false) :
      Change c .task { c with io }
  | taskAccepted {frame : Bytes} {io : List ClientTask} {writer : Writer}
      (hio : c.io = .enqueueFrame frame :: io) (hlive : c.live = true)
      (henqueue : c.writer.enqueueFrame frame = some writer) : Change c .task { c with io, writer }
  | taskOverflow {frame : Bytes} {io : List ClientTask}
      (hio : c.io = .enqueueFrame frame :: io) :
      Change c .task (handleDisconnect { c with io })
  | taskShutdown {io : List ClientTask} (hio : c.io = .shutdown :: io) :
      Change c .task { c with io, connected := false, socketOpen := false }
  | arrived {target : ReadTarget} {bytes : Bytes} (hreader : c.reader = .waiting target)
      (hsize : bytes.length = target.size) :
      Change c (.arrive bytes) { c with reader := .completed target bytes }
  | header {bytes : Bytes} {reader : Reader} (hcopied : c.copied = none)
      (hreader : c.reader = .completed .header bytes)
      (hafter : Reader.afterHeader bytes = some reader) : Change c .read { c with reader }
  | headerStop {bytes : Bytes} (hcopied : c.copied = none)
      (hreader : c.reader = .completed .header bytes) :
      Change c .read (handleDisconnect { c with reader := .idle })
  | bodyDiscarded {size : Nat} {bytes : Bytes} (hcopied : c.copied = none)
      (hreader : c.reader = .completed (.body size) bytes) (hdown : c.shuttingDown = true) :
      Change c .read (handleDisconnect { c with reader := .idle })
  | bodyCopied {size : Nat} {bytes : Bytes} (hcopied : c.copied = none)
      (hreader : c.reader = .completed (.body size) bytes) (hdown : c.shuttingDown = false) :
      Change c .read { c with reader := .idle, copied := some bytes }
  | copied {bytes : Bytes} (hcopied : c.copied = some bytes) : Change c .copied (c.onCopied bytes)
  | readError {target : ReadTarget} (hcopied : c.copied = none)
      (hreader : c.reader = .waiting target) :
      Change c .readError (handleDisconnect { c with reader := .idle })
  | written (hflight : c.writer.inFlight.isSome) :
      Change c (.write true) { c with writer := c.writer.pop.doWrite }
  | writeStop {ok : Bool} (hflight : c.writer.inFlight.isSome) :
      Change c (.write ok) (handleDisconnect { c with writer := c.writer.pop })
  | timeout : Change c (.heartbeat true) c.handleDisconnect
  | keepaliveDropped : Change c (.heartbeat false) c
  | keepalive {writer : Writer}
      (henqueue : c.writer.enqueueFrame buildKeepaliveFrame = some writer) :
      Change c (.heartbeat false) { c with writer }
  | keepaliveOverflow : Change c (.heartbeat false) c.handleDisconnect

/-- A lost connection is only marked as lost. -/
theorem handleDisconnect_eq (c : Client) :
    c.handleDisconnect
      = { c with connected := false, socketOpen := c.handleDisconnect.socketOpen } := by
  unfold handleDisconnect closeSocket
  split_ifs with h
  · rfl
  · rw [Bool.not_eq_true] at h
    rw [← h]

@[simp] theorem writer_handleDisconnect (c : Client) : c.handleDisconnect.writer = c.writer := by
  rw [handleDisconnect_eq]

@[simp] theorem reader_handleDisconnect (c : Client) : c.handleDisconnect.reader = c.reader := by
  rw [handleDisconnect_eq]

@[simp] theorem copied_handleDisconnect (c : Client) : c.handleDisconnect.copied = c.copied := by
  rw [handleDisconnect_eq]

@[simp] theorem io_handleDisconnect (c : Client) : c.handleDisconnect.io = c.io := by
  rw [handleDisconnect_eq]

@[simp] theorem receiveQueue_handleDisconnect (c : Client) :
    c.handleDisconnect.receiveQueue = c.receiveQueue := by
  rw [handleDisconnect_eq]

@[simp] theorem shuttingDown_handleDisconnect (c : Client) :
    c.handleDisconnect.shuttingDown = c.shuttingDown := by
  rw [handleDisconnect_eq]

@[simp] theorem live_handleDisconnect (c : Client) : c.handleDisconnect.live = false := by
  rw [live, handleDisconnect_eq]
  rfl

/-- A frame is dropped, accepted or one too many. -/
theorem enqueueFrame_cases (c : Client) (frame : Bytes) :
    (c.live = false ∧ c.enqueueFrame frame = c) ∨
    (c.live = true ∧ ∃ writer, c.writer.enqueueFrame frame = some writer ∧
      c.enqueueFrame frame = { c with writer }) ∨
    c.enqueueFrame frame = c.handleDisconnect := by
  have hguard : (c.shuttingDown || !c.connected) = !c.live := by
    rw [live, Bool.not_and, Bool.not_not, Bool.or_comm]
  unfold enqueueFrame
  rw [hguard]
  cases hlive : c.live with
  | false => exact Or.inl ⟨rfl, rfl⟩
  | true =>
      right
      rw [if_neg (by decide)]
      cases henqueue : c.writer.enqueueFrame frame with
      | none => exact Or.inr rfl
      | some writer => exact Or.inl ⟨rfl, writer, rfl, rfl⟩

theorem step_change {c c' : Client} {action : ClientAction} (h : c.step action = some c') :
    Change c action c' := by
  cases action with
  | task =>
      simp only [step] at h
      split at h
      · next task io hcopied hio =>
          rw [← Option.some.inj h]
          cases task with
          | enqueueFrame frame =>
              rw [onTask]
              split_ifs with hdown
              · refine .taskDropped hio ?_
                rw [live, show c.shuttingDown = true from hdown, Bool.not_true, Bool.and_false]
              · rcases enqueueFrame_cases { c with io } frame with ⟨hlost, heq⟩ |
                  ⟨hlive, writer, henqueue, heq⟩ | heq
                · rw [heq]
                  exact .taskDropped hio hlost
                · rw [heq]
                  exact .taskAccepted hio hlive henqueue
                · rw [heq]
                  exact .taskOverflow hio
          | shutdown => exact .taskShutdown hio
      · exact absurd h (by simp only [reduceCtorEq, not_false_eq_true])
  | arrive bytes =>
      simp only [step] at h
      split at h
      · next target hreader =>
          split_ifs at h with hguard
          rw [← Option.some.inj h]
          exact .arrived hreader hguard.1
      · exact absurd h (by simp only [reduceCtorEq, not_false_eq_true])
  | read =>
      simp only [step] at h
      split at h
      · next target bytes hcopied hreader =>
          rw [← Option.some.inj h]
          cases target with
          | header =>
              rw [onRead, onHeader]
              split_ifs
              · exact .headerStop hcopied hreader
              · cases hafter : Reader.afterHeader bytes with
                | none => exact .headerStop hcopied hreader
                | some reader => exact .header hcopied hreader hafter
          | body size =>
              rw [onRead, onBody]
              split_ifs with hdown
              · exact .bodyDiscarded hcopied hreader hdown
              · exact .bodyCopied hcopied hreader (Bool.not_eq_true _ ▸ hdown)
      · exact absurd h (by simp only [reduceCtorEq, not_false_eq_true])
  | copied =>
      rcases Option.map_eq_some_iff.mp h with ⟨bytes, hcopied, hc'⟩
      rw [← hc']
      exact .copied hcopied
  | readError =>
      simp only [step] at h
      split at h
      · next target hcopied hreader =>
          rw [← Option.some.inj h]
          exact .readError hcopied hreader
      · exact absurd h (by simp only [reduceCtorEq, not_false_eq_true])
  | write ok =>
      simp only [step] at h
      split_ifs at h with hguard
      rw [← Option.some.inj h, onWrite]
      cases ok with
      | false => exact .writeStop hguard.2
      | true =>
          simp only [Bool.not_true, Bool.false_or]
          split_ifs
          · exact .writeStop hguard.2
          · exact .written hguard.2
  | heartbeat timeout =>
      simp only [step] at h
      split_ifs at h
      rw [← Option.some.inj h, onHeartbeat]
      cases timeout with
      | true => exact .timeout
      | false =>
          rw [if_neg Bool.false_ne_true]
          rcases enqueueFrame_cases c buildKeepaliveFrame with ⟨_, heq⟩ |
            ⟨_, writer, henqueue, heq⟩ | heq
          · rw [heq]
            exact .keepaliveDropped
          · rw [heq]
            exact .keepalive henqueue
          · rw [heq]
            exact .keepaliveOverflow

/-- The frames in handlers posted to the `io_context`. -/
def postedFrames (io : List ClientTask) : List Bytes :=
  io.filterMap fun
    | .enqueueFrame frame => some frame
    | .shutdown => none

/-- The payloads a client has accepted or has been handed. -/
def payloadsAccepted (c : Client) : List Bytes := payloads c.writer.accepted

def payloadsPosted (c : Client) : List Bytes := payloads (postedFrames c.io)

/-- The second half of the body handler leaves the sending side alone. -/
theorem sends_onCopied (c : Client) (bytes : Bytes) :
    (c.onCopied bytes).writer = c.writer ∧ (c.onCopied bytes).io = c.io ∧
      (c.onCopied bytes).live = c.live ∧ (c.onCopied bytes).shuttingDown = c.shuttingDown := by
  unfold onCopied
  split_ifs <;> exact ⟨rfl, rfl, rfl, rfl⟩

/-- While a client stays live, its handlers move frames on in order; once it is
    not, nothing is accepted. -/
theorem Change.sends {c c' : Client} {action : ClientAction} (h : Change c action c') :
    (c'.live = true → c.live = true ∧
      c'.payloadsAccepted ++ c'.payloadsPosted = c.payloadsAccepted ++ c.payloadsPosted) ∧
    (c'.live = false → c'.payloadsAccepted = c.payloadsAccepted) := by
  -- Most changes leave the accepted frames alone, and a lost client is not live.
  have hlost : ∀ d : Client, d.writer = c.writer →
      (d.handleDisconnect.live = true → c.live = true ∧
        d.handleDisconnect.payloadsAccepted ++ d.handleDisconnect.payloadsPosted
          = c.payloadsAccepted ++ c.payloadsPosted) ∧
      (d.handleDisconnect.live = false →
        d.handleDisconnect.payloadsAccepted = c.payloadsAccepted) := by
    intro d hwriter
    refine ⟨fun hlive => ?_, fun _ => ?_⟩
    · rw [live_handleDisconnect] at hlive
      exact absurd hlive Bool.false_ne_true
    · rw [payloadsAccepted, writer_handleDisconnect, hwriter]
      rfl
  cases h with
  | taskDropped hio hnot =>
      exact ⟨fun hlive => absurd (hnot.symm.trans hlive) Bool.false_ne_true, fun _ => rfl⟩
  | @taskAccepted frame io writer hio hlive henqueue =>
      refine ⟨fun _ => ⟨hlive, ?_⟩, fun hnot => ?_⟩
      · unfold payloadsPosted payloadsAccepted
        rw [hio, Writer.accepted_enqueueFrame henqueue, payloads_append, List.append_assoc,
          ← payloads_append]
        rfl
      · exact absurd (hnot.symm.trans hlive) Bool.false_ne_true
  | taskOverflow => exact hlost _ rfl
  | taskShutdown => exact ⟨fun hlive => absurd hlive Bool.false_ne_true, fun _ => rfl⟩
  | arrived | header | bodyCopied | keepaliveDropped =>
      exact ⟨fun hlive => ⟨hlive, rfl⟩, fun _ => rfl⟩
  | headerStop | bodyDiscarded | readError | timeout | keepaliveOverflow => exact hlost _ rfl
  | @copied bytes hcopied =>
      rcases sends_onCopied c bytes with ⟨hwriter, hio, hlive, _⟩
      unfold payloadsAccepted payloadsPosted
      rw [hwriter, hio, hlive]
      exact ⟨fun h => ⟨h, rfl⟩, fun _ => rfl⟩
  | written =>
      have haccepted : payloads c.writer.pop.doWrite.accepted = c.payloadsAccepted := by
        rw [Writer.accepted_doWrite]
        rfl
      refine ⟨fun hlive => ⟨hlive, ?_⟩, fun _ => haccepted⟩
      rw [payloadsAccepted, haccepted]
      rfl
  | writeStop =>
      refine ⟨fun hlive => ?_, fun _ => ?_⟩
      · rw [live_handleDisconnect] at hlive
        exact absurd hlive Bool.false_ne_true
      · rw [payloadsAccepted, writer_handleDisconnect]
        rfl
  | @keepalive writer henqueue =>
      have haccepted : payloads writer.accepted = c.payloadsAccepted := by
        rw [Writer.accepted_enqueueFrame henqueue, payloads_append, payloads_keepalive,
          List.append_nil]
        rfl
      refine ⟨fun hlive => ⟨hlive, ?_⟩, fun _ => haccepted⟩
      rw [payloadsAccepted, haccepted]
      rfl

/-- No handler posts a frame. -/
theorem Change.postedFrames_subset {c c' : Client} {action : ClientAction}
    (h : Change c action c') : postedFrames c'.io ⊆ postedFrames c.io := by
  have hcons : ∀ task io, postedFrames io ⊆ postedFrames (task :: io) := by
    intro task io
    cases task with
    | enqueueFrame frame => exact List.subset_cons_self frame _
    | shutdown => exact List.Subset.refl _
  cases h with
  | taskDropped hio | taskAccepted hio | taskShutdown hio =>
      rw [hio]
      exact hcons _ _
  | taskOverflow hio =>
      rw [io_handleDisconnect, hio]
      exact hcons _ _
  | @copied bytes =>
      rw [(sends_onCopied c bytes).2.1]
      exact List.Subset.refl _
  | headerStop | bodyDiscarded | readError | timeout | keepaliveOverflow | writeStop =>
      rw [io_handleDisconnect]
      exact List.Subset.refl _
  | _ => exact List.Subset.refl _

end Client

end ProjectNight
