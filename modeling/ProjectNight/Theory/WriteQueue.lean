import ProjectNight.Lib.Machine
import ProjectNight.Theory.Transitions

/-!
# The Write Queue

`write_queue_`, `writing_` and the outstanding `async_write` are three pieces
of state that three functions keep in step: `enqueue_frame` starts a write when
none is going, the completion handler pops and goes on with `do_write`, and the
paths that close the connection return early and leave the flag as it is.

Nothing in this module takes it for granted that there is one write at a time.
The operating system is a log beside the session: the buffers of all
operations that have been started and not completed, from which the scheduler
picks any one, and the calls of `front()` and `pop()` that found the queue
empty. What a handler hands to `async_write` is read off the code
(`doWriteStarts` and the functions over it). That the log holds one buffer at
most, and that it is the front of the queue, is a theorem.

A session and a client do the same four things to their write queue
(`Writer.Step`); the invariant is proved for these.

## Main definitions

* `WriteLog`: The operations of the operating system.
* `AuditedSession`, `AuditedClient`: An end of a connection with its log.
* `Writer.Step`: What a handler can do to a write queue.
* `Writer.Sound`: The invariant.
* `WriteQueueOk`, `Kept`: What holds in every state, and what a step keeps.

## Theorems

* `Writer.sound_step`: Every step keeps the invariant.
* `AuditedSession.step_cases`, `AuditedClient.step_cases`: The handlers of both
  ends do such steps.
-/

namespace ProjectNight

open Wire

/-! ### The operations -/

/-- The asynchronous writes of one socket. -/
structure WriteLog where
  /-- The buffers of the operations that have not completed. -/
  outstanding : List Bytes := []
  /-- Every buffer ever handed to `async_write`. -/
  handed : List Bytes := []
  /-- The buffers of the operations that have completed. -/
  completed : List Bytes := []
  /-- How often a completion handler found the queue empty when it called
      `front()` and `pop()`. -/
  misuses : Nat := 0
  deriving DecidableEq, Repr

namespace WriteLog

/-- Calls of `async_write`. -/
def start (log : WriteLog) (buffers : List Bytes) : WriteLog :=
  { log with outstanding := log.outstanding ++ buffers, handed := log.handed ++ buffers }

@[simp] theorem start_nil (log : WriteLog) : log.start [] = log := by
  simp [start]

/-- One of the outstanding operations completes; its handler will pop. -/
def complete (log : WriteLog) (i : Nat) (w : Writer) : WriteLog :=
  { log with
    outstanding := log.outstanding.eraseIdx i
    completed := log.completed ++ log.outstanding[i]?.toList
    misuses := if w.queue.isEmpty then log.misuses + 1 else log.misuses }

end WriteLog

namespace Writer

/-- The call of `async_write` in `do_write`. -/
def doWriteStarts (w : Writer) : List Bytes := w.queue.head?.toList

/-- The call of `async_write` under `enqueue_frame`. -/
def enqueueStarts (w : Writer) (frame : Bytes) : List Bytes :=
  if maxPendingWriteFrames ≠ 0 ∧ w.queue.length ≥ maxPendingWriteFrames then []
  else if w.writing then []
  else doWriteStarts { w with queue := w.queue ++ [frame] }

end Writer

/-! ### The two ends -/

namespace Session

def enqueueStarts (s : Session) (frame : Bytes) : List Bytes :=
  if s.closed then [] else s.writer.enqueueStarts frame

/-- The buffers that the handler of an action hands to `async_write`. -/
def starts (s : Session) : SessionAction → List Bytes
  | .task =>
    match s.strand with
    | .enqueueWrite frame :: _ => s.enqueueStarts frame
    | _ => []
  | .heartbeat false => s.enqueueStarts buildKeepaliveFrame
  | .write true => s.writer.pop.doWriteStarts
  | _ => []

end Session

structure AuditedSession where
  session : Session
  log : WriteLog := {}
  deriving DecidableEq, Repr

/-- What happens to a session: somebody posts to its strand, a handler runs, or
    one of the outstanding writes completes. -/
inductive SessionInput where
  | post (frame : Bytes)
  | close
  | handler (action : SessionAction)
  | complete (i : Nat) (ok : Bool)
  deriving DecidableEq, Repr

def SessionInput.isComplete : SessionInput → Bool
  | .complete _ _ => true
  | _ => false

namespace AuditedSession

/-- A session after its `start`. -/
def init (id : UInt32) : AuditedSession := { session := Session.start { id } }

def step (a : AuditedSession) : SessionInput → Option AuditedSession
  | .post frame => some { a with session := a.session.enqueueRawFrame frame }
  | .close => some { a with session := a.session.close }
  | .handler (.write _) => none
  | .handler action =>
    (a.session.step action).map fun result =>
      ⟨result.1, a.log.start (a.session.starts action)⟩
  | .complete i ok =>
    if i < a.log.outstanding.length then
      some ⟨(a.session.onWrite ok).1,
        (a.log.complete i a.session.writer).start (a.session.starts (.write ok))⟩
    else none

end AuditedSession

namespace Client

def enqueueStarts (c : Client) (frame : Bytes) : List Bytes :=
  if c.shuttingDown || !c.connected then [] else c.writer.enqueueStarts frame

/-- The buffers that the handler of an action hands to `async_write`. -/
def starts (c : Client) : ClientAction → List Bytes
  | .task =>
    match c.io with
    | .enqueueFrame frame :: _ => if c.shuttingDown then [] else c.enqueueStarts frame
    | _ => []
  | .heartbeat false => c.enqueueStarts buildKeepaliveFrame
  | .write ok => if !ok || c.shuttingDown then [] else c.writer.pop.doWriteStarts
  | _ => []

end Client

structure AuditedClient where
  client : Client
  log : WriteLog := {}
  deriving DecidableEq, Repr

/-- What happens to a client: a call of its owner, a handler of the I/O thread,
    or the completion of a write. -/
inductive ClientInput where
  | send (data : Bytes)
  | poll
  | shutdown
  | handler (action : ClientAction)
  | complete (i : Nat) (ok : Bool)
  deriving DecidableEq, Repr

def ClientInput.isComplete : ClientInput → Bool
  | .complete _ _ => true
  | _ => false

namespace AuditedClient

/-- A client that has just connected. -/
def init : AuditedClient := { client := {} }

def step (a : AuditedClient) : ClientInput → Option AuditedClient
  | .send data => some { a with client := a.client.send data }
  | .poll => a.client.pollPacket.map fun polled => { a with client := polled.2 }
  | .shutdown => some { a with client := a.client.shutdown }
  | .handler (.write _) => none
  | .handler action =>
    (a.client.step action).map fun client => ⟨client, a.log.start (a.client.starts action)⟩
  | .complete i ok =>
    if i < a.log.outstanding.length ∧ a.client.copied = none then
      some ⟨a.client.onWrite ok,
        (a.log.complete i a.client.writer).start (a.client.starts (.write ok))⟩
    else none

end AuditedClient

/-! ### The invariant -/

namespace Writer

/-- What a handler can do to a write queue, to the connection's being open and
    to the operations. -/
inductive Step (w : Writer) (isOpen : Bool) (log : WriteLog) :
    Bool → Writer → Bool → WriteLog → Prop where
  | same {isOpen' : Bool} (hopen : isOpen' = true → isOpen = true) :
      Step w isOpen log false w isOpen' log
  | enqueue {frame : Bytes} {w' : Writer} (hopen : isOpen = true)
      (henqueue : w.enqueueFrame frame = some w') :
      Step w isOpen log false w' isOpen (log.start (w.enqueueStarts frame))
  | finish {i : Nat} (hi : i < log.outstanding.length) :
      Step w isOpen log true w.pop.doWrite isOpen ((log.complete i w).start w.pop.doWriteStarts)
  | stop {i : Nat} (hi : i < log.outstanding.length) :
      Step w isOpen log true w.pop false (log.complete i w)

/-- No write is going, one is, or the connection was lost in a completion. -/
inductive Phase (w : Writer) (isOpen : Bool) (log : WriteLog) : Prop where
  | idle (hwriting : w.writing = false) (hqueue : w.queue = [])
      (houtstanding : log.outstanding = []) (hflight : w.inFlight = none)
  | busy (front : Bytes) (tail : List Bytes) (hwriting : w.writing = true)
      (hqueue : w.queue = front :: tail) (houtstanding : log.outstanding = [front])
      (hflight : w.inFlight = some front)
  | stopped (hopen : isOpen = false) (houtstanding : log.outstanding = [])
      (hflight : w.inFlight = none)

structure Sound (w : Writer) (isOpen : Bool) (log : WriteLog) : Prop where
  phase : Phase w isOpen log
  bound : w.queue.length ≤ maxPendingWriteFrames
  accepted : w.accepted = log.completed ++ w.queue
  handed : log.handed = log.completed ++ log.outstanding
  misuses : log.misuses = 0

theorem sound_init (isOpen : Bool) : Sound {} isOpen {} :=
  ⟨.idle rfl rfl rfl rfl, Nat.zero_le _, rfl, rfl, rfl⟩

theorem doWrite_of_nil {w : Writer} (h : w.queue = []) :
    w.doWrite = { w with writing := false } := by
  rw [doWrite, h]

theorem doWrite_of_cons {w : Writer} {front : Bytes} {tail : List Bytes}
    (h : w.queue = front :: tail) :
    w.doWrite = { w with writing := true, inFlight := some front } := by
  rw [doWrite, h]

theorem sound_enqueue {w w' : Writer} {log : WriteLog} {frame : Bytes}
    (hsound : Sound w true log) (henqueue : w.enqueueFrame frame = some w') :
    Sound w' true (log.start (w.enqueueStarts frame)) ∧ w.queue <+: w'.queue := by
  unfold enqueueFrame at henqueue
  unfold enqueueStarts
  split_ifs at henqueue with hfull
  rw [if_neg hfull]
  have hroom : (w.queue ++ [frame]).length ≤ maxPendingWriteFrames := by
    have hpos : maxPendingWriteFrames ≠ 0 := by unfold maxPendingWriteFrames; omega
    rw [List.length_append, List.length_singleton]
    omega
  have hlog := hsound.accepted
  have hhanded := hsound.handed
  cases hsound.phase with
  | stopped hopen => exact absurd hopen (by simp)
  | idle hwriting hqueue houtstanding hflight =>
      simp only [hwriting, Bool.false_eq_true, if_false, doWrite, hqueue, List.nil_append,
        Option.some.injEq] at henqueue
      subst henqueue
      rw [if_neg (by simp [hwriting]), hqueue]
      refine ⟨⟨?_, ?_, ?_, ?_, hsound.misuses⟩, List.nil_prefix⟩
      · exact .busy frame [] rfl rfl (by simp [WriteLog.start, doWriteStarts, houtstanding]) rfl
      · simpa [hqueue] using hroom
      · simp [WriteLog.start, hlog, hqueue]
      · simp [WriteLog.start, doWriteStarts, hhanded, houtstanding]
  | busy front tail hwriting hqueue houtstanding hflight =>
      simp only [hwriting, if_true, Option.some.injEq] at henqueue
      subst henqueue
      rw [if_pos hwriting, WriteLog.start_nil]
      refine ⟨⟨?_, hroom, ?_, hhanded, hsound.misuses⟩, List.prefix_append _ _⟩
      · exact .busy front (tail ++ [frame]) rfl (by simp [hqueue]) houtstanding hflight
      · simp [hlog]

/-- A completion finds its own buffer at the front of the queue. -/
theorem complete_eq {w : Writer} {isOpen : Bool} {log : WriteLog} {i : Nat}
    (hsound : Sound w isOpen log) (hi : i < log.outstanding.length) :
    ∃ front tail, w.queue = front :: tail ∧ log.complete i w
      = { log with outstanding := [], completed := log.completed ++ [front] } ∧
      log.handed = log.completed ++ [front] := by
  have hhanded := hsound.handed
  cases hsound.phase with
  | idle _ _ houtstanding => simp [houtstanding] at hi
  | stopped _ houtstanding => simp [houtstanding] at hi
  | busy front tail _ hqueue houtstanding =>
      have hzero : i = 0 := by
        rw [houtstanding, List.length_singleton] at hi
        omega
      subst hzero
      refine ⟨front, tail, hqueue, ?_, ?_⟩
      · simp [WriteLog.complete, houtstanding, hqueue]
      · rw [hhanded, houtstanding]

theorem sound_finish {w : Writer} {isOpen : Bool} {log : WriteLog} {i : Nat}
    (hsound : Sound w isOpen log) (hi : i < log.outstanding.length) :
    Sound w.pop.doWrite isOpen ((log.complete i w).start w.pop.doWriteStarts) := by
  rcases complete_eq hsound hi with ⟨front, tail, hqueue, hcomplete, hhanded⟩
  have hbound := hsound.bound
  have haccepted := hsound.accepted
  rw [hqueue, List.length_cons] at hbound
  rw [hqueue] at haccepted
  rw [hcomplete]
  cases tail with
  | nil =>
      have hpop : w.pop.queue = [] := by simp [pop, hqueue]
      rw [doWrite_of_nil hpop, show w.pop.doWriteStarts = [] by simp [doWriteStarts, hpop],
        WriteLog.start_nil]
      refine ⟨.idle rfl hpop rfl rfl, ?_, ?_, ?_, hsound.misuses⟩
      · simp [hpop]
      · simp only [hpop, List.append_nil]
        exact haccepted
      · simpa using hhanded
  | cons next tail =>
      have hpop : w.pop.queue = next :: tail := by simp [pop, hqueue]
      rw [doWrite_of_cons hpop, show w.pop.doWriteStarts = [next] by simp [doWriteStarts, hpop]]
      refine ⟨.busy next tail rfl hpop rfl rfl, ?_, ?_, ?_, hsound.misuses⟩
      · simp only [hpop]
        omega
      · simp only [hpop, WriteLog.start, List.append_assoc]
        exact haccepted
      · simp [WriteLog.start, hhanded]

theorem sound_stop {w : Writer} {isOpen : Bool} {log : WriteLog} {i : Nat}
    (hsound : Sound w isOpen log) (hi : i < log.outstanding.length) :
    Sound w.pop false (log.complete i w) := by
  rcases complete_eq hsound hi with ⟨front, tail, hqueue, hcomplete, hhanded⟩
  have hbound := hsound.bound
  have haccepted := hsound.accepted
  rw [hqueue, List.length_cons] at hbound
  rw [hqueue] at haccepted
  rw [hcomplete]
  have hpop : w.pop.queue = tail := by simp [pop, hqueue]
  refine ⟨.stopped rfl rfl rfl, ?_, ?_, ?_, hsound.misuses⟩
  · rw [hpop]
    omega
  · simp only [hpop, List.append_assoc]
    exact haccepted
  · simpa using hhanded

/-- Every step keeps the invariant. -/
theorem sound_step {w w' : Writer} {isOpen isOpen' completes : Bool} {log log' : WriteLog}
    (h : Step w isOpen log completes w' isOpen' log') (hsound : Sound w isOpen log) :
    Sound w' isOpen' log' := by
  cases h with
  | same hopen =>
      refine ⟨?_, hsound.bound, hsound.accepted, hsound.handed, hsound.misuses⟩
      cases hsound.phase with
      | idle hwriting hqueue houtstanding hflight =>
          exact .idle hwriting hqueue houtstanding hflight
      | busy front tail hwriting hqueue houtstanding hflight =>
          exact .busy front tail hwriting hqueue houtstanding hflight
      | stopped hclosed houtstanding hflight =>
          refine .stopped ?_ houtstanding hflight
          rw [Bool.eq_false_iff]
          intro hopen'
          rw [hopen hopen'] at hclosed
          exact absurd hclosed (by simp)
  | enqueue hopen henqueue =>
      subst hopen
      exact (sound_enqueue hsound henqueue).1
  | finish hi => exact sound_finish hsound hi
  | stop hi => exact sound_stop hsound hi

end Writer

/-- What holds of a write queue in every state. -/
structure WriteQueueOk (w : Writer) (isOpen : Bool) (log : WriteLog) : Prop where
  single : log.outstanding.length ≤ 1
  front : ∀ buffer ∈ log.outstanding, w.queue.head? = some buffer
  noMisuse : log.misuses = 0
  flag : isOpen = true → (w.writing = true ↔ log.outstanding ≠ [])
  drained : isOpen = true → log.outstanding = [] → w.queue = []
  bound : w.queue.length ≤ 1024
  /-- The frames handed to the socket, in order, are the first accepted ones. -/
  handed : log.handed <+: w.accepted
  /-- Each completion has popped the frame it had written, and no other frame
      has left the queue. -/
  popped : w.accepted = log.completed ++ w.queue ∧ log.handed = log.completed ++ log.outstanding
  /-- The outstanding write of the model is the one of the log. -/
  inFlight : w.inFlight = log.outstanding.head?

/-- A step that completes no write leaves the outstanding one alone: its buffer
    is neither popped nor changed. -/
def Kept (w : Writer) (log : WriteLog) (w' : Writer) (log' : WriteLog) : Prop :=
  ∀ buffer ∈ log.outstanding, log'.outstanding = [buffer] ∧ w.queue <+: w'.queue

namespace Writer

theorem Sound.ok {w : Writer} {isOpen : Bool} {log : WriteLog} (h : Sound w isOpen log) :
    WriteQueueOk w isOpen log := by
  have hprefix : log.handed <+: w.accepted := by
    rw [h.handed, h.accepted, List.prefix_append_right_inj]
    cases h.phase with
    | idle _ _ houtstanding => simp [houtstanding]
    | stopped _ houtstanding => simp [houtstanding]
    | busy front tail _ hqueue houtstanding => simp [houtstanding, hqueue]
  cases h.phase with
  | idle hwriting hqueue houtstanding hflight =>
      exact ⟨by simp [houtstanding], by simp [houtstanding], h.misuses,
        by simp [hwriting, houtstanding], fun _ _ => hqueue, h.bound, hprefix,
        ⟨h.accepted, h.handed⟩, by simp [hflight, houtstanding]⟩
  | busy front tail hwriting hqueue houtstanding hflight =>
      exact ⟨by simp [houtstanding], by simp [houtstanding, hqueue], h.misuses,
        by simp [hwriting, houtstanding], by simp [houtstanding], h.bound, hprefix,
        ⟨h.accepted, h.handed⟩, by simp [hflight, houtstanding]⟩
  | stopped hopen houtstanding hflight =>
      exact ⟨by simp [houtstanding], by simp [houtstanding], h.misuses, by simp [hopen],
        by simp [hopen], h.bound, hprefix, ⟨h.accepted, h.handed⟩,
        by simp [hflight, houtstanding]⟩

theorem Sound.kept {w w' : Writer} {isOpen isOpen' : Bool} {log log' : WriteLog}
    (h : Sound w isOpen log) (hstep : Step w isOpen log false w' isOpen' log') :
    Kept w log w' log' := by
  intro buffer hbuffer
  have hone : log.outstanding = [buffer] := by
    have hsingle := h.ok.single
    match houtstanding : log.outstanding with
    | [] => simp [houtstanding] at hbuffer
    | [b] =>
        rw [houtstanding, List.mem_singleton] at hbuffer
        rw [hbuffer]
    | _ :: _ :: _ =>
        rw [houtstanding] at hsingle
        simp at hsingle
  cases hstep with
  | same => exact ⟨hone, List.prefix_refl _⟩
  | @enqueue frame _ hopen henqueue =>
      subst hopen
      refine ⟨?_, (sound_enqueue h henqueue).2⟩
      have hwriting : w.writing = true := by
        rw [h.ok.flag rfl, hone]
        simp
      simp [WriteLog.start, enqueueStarts, hwriting, hone]

end Writer

/-! ### The handlers of both ends -/

/-- A full queue starts nothing. -/
theorem Writer.enqueueStarts_of_full {w : Writer} {frame : Bytes}
    (h : w.enqueueFrame frame = none) : w.enqueueStarts frame = [] := by
  unfold enqueueFrame at h
  unfold enqueueStarts
  split_ifs at h with hfull
  rw [if_pos hfull]

namespace Session

/-- `enqueue_write`: the frame is refused, or queued, or one too many. -/
theorem enqueueWrite_writer (s : Session) (frame : Bytes) (log : WriteLog) :
    Writer.Step s.writer (!s.closed) log false (s.enqueueWrite frame).1.writer
      (!(s.enqueueWrite frame).1.closed) (log.start (s.enqueueStarts frame)) := by
  unfold enqueueWrite enqueueStarts
  by_cases hclosed : s.closed = true
  · rw [if_pos hclosed, if_pos hclosed, WriteLog.start_nil]
    exact .same fun h => h
  · rw [if_neg hclosed, if_neg hclosed]
    rw [Bool.not_eq_true] at hclosed
    cases henqueue : s.writer.enqueueFrame frame with
    | some writer =>
        simp only [hclosed]
        exact .enqueue rfl henqueue
    | none =>
        simp only [Writer.enqueueStarts_of_full henqueue, WriteLog.start_nil, handleClose_eq]
        exact .same (by simp)

/-- No handler other than a completed write does more to the write queue than
    to enqueue. -/
theorem step_writer {s : Session} {action : SessionAction}
    {result : Session × List SessionEffect} (h : s.step action = some result)
    (hwrite : ∀ ok, action ≠ .write ok) (log : WriteLog) :
    Writer.Step s.writer (!s.closed) log false result.1.writer (!result.1.closed)
      (log.start (s.starts action)) := by
  rcases result with ⟨s', effects⟩
  cases action with
  | write ok => exact absurd rfl (hwrite ok)
  | task =>
      unfold step at h
      unfold starts
      cases hstrand : s.strand with
      | nil => simp [hstrand] at h
      | cons task strand =>
          simp only [hstrand, Option.some.injEq] at h
          cases task with
          | enqueueWrite frame =>
              have hstep := enqueueWrite_writer { s with strand } frame log
              rw [show enqueueWrite { s with strand } frame = (s', effects) from h] at hstep
              exact hstep
          | close =>
              rw [onTask, handleClose_eq, Prod.mk.injEq] at h
              rw [← h.1, WriteLog.start_nil]
              exact .same (by simp)
  | heartbeat timeout =>
      simp only [step, Option.some.injEq] at h
      cases timeout with
      | true =>
          rw [onHeartbeat, if_pos rfl, handleClose_eq, Prod.mk.injEq] at h
          simp only [← h.1, starts, WriteLog.start_nil]
          exact .same (by simp)
      | false =>
          have hstep := enqueueWrite_writer s buildKeepaliveFrame log
          rw [show s.enqueueWrite buildKeepaliveFrame = (s', effects) from h] at hstep
          exact hstep
  | arrive bytes =>
      simp only [starts, WriteLog.start_nil]
      have hchange := step_change h
      cases hchange
      exact .same fun h => h
  | read =>
      simp only [starts, WriteLog.start_nil]
      have hchange := step_change h
      cases hchange with
      | header | body => exact .same fun h => h
      | badHeader => exact .same (by simp)
  | readError =>
      simp only [starts, WriteLog.start_nil]
      have hchange := step_change h
      cases hchange
      exact .same (by simp)

end Session

namespace AuditedSession

/-- A session does such steps to its write queue. -/
theorem step_cases {a a' : AuditedSession} {input : SessionInput} (h : a.step input = some a') :
    Writer.Step a.session.writer (!a.session.closed) a.log input.isComplete a'.session.writer
      (!a'.session.closed) a'.log := by
  cases input with
  | post frame =>
      rw [← Option.some.inj h]
      exact .same fun h => h
  | close =>
      rw [← Option.some.inj h]
      exact .same fun h => h
  | handler action =>
      have hwrite : ∀ ok, action ≠ .write ok := by
        rintro ok rfl
        simp [step] at h
      have hstep : (a.session.step action).map (fun result =>
          (⟨result.1, a.log.start (a.session.starts action)⟩ : AuditedSession)) = some a' := by
        cases action with
        | write ok => exact absurd rfl (hwrite ok)
        | _ => exact h
      rcases Option.map_eq_some_iff.mp hstep with ⟨result, hresult, rfl⟩
      exact Session.step_writer hresult hwrite a.log
  | complete i ok =>
      simp only [step] at h
      split_ifs at h with hi
      rw [← Option.some.inj h]
      cases ok with
      | true => exact .finish hi
      | false =>
          simp only [Session.onWrite, Session.starts, WriteLog.start_nil, Bool.false_eq_true,
            if_false, Session.handleClose_eq]
          exact .stop hi

end AuditedSession

namespace Client

/-- `enqueue_frame`: the frame is refused, or queued, or one too many. -/
theorem enqueueFrame_writer (c : Client) (frame : Bytes) (log : WriteLog) :
    Writer.Step c.writer c.connected log false (c.enqueueFrame frame).writer
      (c.enqueueFrame frame).connected (log.start (c.enqueueStarts frame)) := by
  unfold enqueueFrame enqueueStarts
  by_cases hrefuse : (c.shuttingDown || !c.connected) = true
  · rw [if_pos hrefuse, if_pos hrefuse, WriteLog.start_nil]
    exact .same fun h => h
  · rw [if_neg hrefuse, if_neg hrefuse]
    have hconnected : c.connected = true := by
      cases hconnected : c.connected <;> simp_all
    cases henqueue : c.writer.enqueueFrame frame with
    | some writer =>
        simp only [hconnected]
        exact .enqueue rfl henqueue
    | none =>
        simp only [Writer.enqueueStarts_of_full henqueue, WriteLog.start_nil]
        rw [handleDisconnect_eq]
        exact .same (by simp)

theorem step_writer {c c' : Client} {action : ClientAction} (h : c.step action = some c')
    (hwrite : ∀ ok, action ≠ .write ok) (log : WriteLog) :
    Writer.Step c.writer c.connected log false c'.writer c'.connected
      (log.start (c.starts action)) := by
  have hlost : ∀ d : Client, d.writer = c.writer →
      Writer.Step c.writer c.connected log false d.handleDisconnect.writer
        d.handleDisconnect.connected log := by
    intro d hwriter
    rw [handleDisconnect_eq, hwriter]
    exact .same (by simp)
  cases action with
  | write ok => exact absurd rfl (hwrite ok)
  | task =>
      simp only [step] at h
      split at h
      · next task io hcopied hio =>
          simp only [starts, hio]
          cases task with
          | enqueueFrame frame =>
              simp only [onTask, Option.some.injEq] at h
              by_cases hdown : c.shuttingDown = true
              · rw [if_pos hdown] at h
                simp only [if_pos hdown, WriteLog.start_nil, ← h]
                exact .same fun h => h
              · rw [if_neg hdown] at h
                simp only [if_neg hdown, ← h]
                exact enqueueFrame_writer { c with io } frame log
          | shutdown =>
              simp only [onTask, Option.some.injEq] at h
              simp only [← h, WriteLog.start_nil]
              exact .same (by simp [closeSocket])
      · exact absurd h (by simp)
  | heartbeat timeout =>
      simp only [step] at h
      split_ifs at h
      rw [← Option.some.inj h]
      cases timeout with
      | true =>
          simp only [starts, WriteLog.start_nil]
          exact hlost c rfl
      | false => exact enqueueFrame_writer c buildKeepaliveFrame log
  | arrive bytes =>
      simp only [starts, WriteLog.start_nil]
      cases step_change h
      exact .same fun h => h
  | read =>
      simp only [starts, WriteLog.start_nil]
      cases step_change h with
      | header | bodyCopied => exact .same fun h => h
      | headerStop | bodyDiscarded => exact hlost _ rfl
  | readError =>
      simp only [starts, WriteLog.start_nil]
      cases step_change h
      exact hlost _ rfl
  | copied =>
      simp only [starts, WriteLog.start_nil]
      cases step_change h with
      | @copied bytes =>
          unfold onCopied
          split_ifs <;> exact .same fun h => h

end Client

namespace AuditedClient

/-- A client does such steps to its write queue. -/
theorem step_cases {a a' : AuditedClient} {input : ClientInput} (h : a.step input = some a') :
    Writer.Step a.client.writer a.client.connected a.log input.isComplete a'.client.writer
      a'.client.connected a'.log := by
  cases input with
  | send data =>
      rw [← Option.some.inj h]
      simp only [Client.send]
      split_ifs <;> exact .same fun h => h
  | poll =>
      rcases Option.map_eq_some_iff.mp h with ⟨polled, hpolled, rfl⟩
      unfold Client.pollPacket at hpolled
      split at hpolled
      · simp at hpolled
      · rw [← Option.some.inj hpolled]
        exact .same fun h => h
  | shutdown =>
      rw [← Option.some.inj h]
      simp only [Client.shutdown]
      split_ifs <;> exact .same fun h => h
  | handler action =>
      have hwrite : ∀ ok, action ≠ .write ok := by
        rintro ok rfl
        simp [step] at h
      have hstep : (a.client.step action).map (fun client =>
          (⟨client, a.log.start (a.client.starts action)⟩ : AuditedClient)) = some a' := by
        cases action with
        | write ok => exact absurd rfl (hwrite ok)
        | _ => exact h
      rcases Option.map_eq_some_iff.mp hstep with ⟨client, hclient, rfl⟩
      exact Client.step_writer hclient hwrite a.log
  | complete i ok =>
      simp only [step] at h
      split_ifs at h with hi
      rw [← Option.some.inj h]
      simp only [Client.onWrite, Client.starts]
      split_ifs with hstop
      · rw [WriteLog.start_nil, Client.handleDisconnect_eq]
        exact .stop hi.1
      · exact .finish hi.1

end AuditedClient

/-! ### Every run -/

namespace AuditedSession

theorem run_sound {id : UInt32} {inputs : List SessionInput} {a : AuditedSession}
    (h : Machine.run step (init id) inputs = some a) :
    Writer.Sound a.session.writer (!a.session.closed) a.log :=
  Machine.invariant (P := fun a => Writer.Sound a.session.writer (!a.session.closed) a.log)
    (fun _ _ _ hsound hstep => Writer.sound_step (step_cases hstep) hsound) h
    (Writer.sound_init _)

end AuditedSession

namespace AuditedClient

theorem run_sound {inputs : List ClientInput} {a : AuditedClient}
    (h : Machine.run step init inputs = some a) :
    Writer.Sound a.client.writer a.client.connected a.log :=
  Machine.invariant (P := fun a => Writer.Sound a.client.writer a.client.connected a.log)
    (fun _ _ _ hsound hstep => Writer.sound_step (step_cases hstep) hsound) h
    (Writer.sound_init _)

end AuditedClient

/-- In every run of a session and in every run of a client, whatever the order
    of posts, handlers and completions: the write queue is in order in every
    state, and no step but its own completion touches an outstanding write. -/
theorem write_queue {id : UInt32} {inputs : List SessionInput} {a : AuditedSession}
    (hsession : Machine.run AuditedSession.step (AuditedSession.init id) inputs = some a)
    {inputs' : List ClientInput} {b : AuditedClient}
    (hclient : Machine.run AuditedClient.step AuditedClient.init inputs' = some b) :
    WriteQueueOk a.session.writer (!a.session.closed) a.log ∧
    (∀ input a', a.step input = some a' → input.isComplete = false →
      Kept a.session.writer a.log a'.session.writer a'.log) ∧
    WriteQueueOk b.client.writer b.client.connected b.log ∧
    ∀ input b', b.step input = some b' → input.isComplete = false →
      Kept b.client.writer b.log b'.client.writer b'.log := by
  have hs := AuditedSession.run_sound hsession
  have hc := AuditedClient.run_sound hclient
  refine ⟨hs.ok, ?_, hc.ok, ?_⟩
  · intro input a' hstep hinput
    have hcases := AuditedSession.step_cases hstep
    rw [hinput] at hcases
    exact hs.kept hcases
  · intro input b' hstep hinput
    have hcases := AuditedClient.step_cases hstep
    rw [hinput] at hcases
    exact hc.kept hcases

/-- Two frames are posted to a session and one is written; the client sends one
    byte. -/
theorem write_queue_oneOfTwo :
    WriteQueueOk ⟨[[2]], true, some [2], [[1], [2]]⟩ true ⟨[[2]], [[1], [2]], [[1]], 0⟩ ∧
    WriteQueueOk ⟨[buildDataFrame [7]], true, some (buildDataFrame [7]), [buildDataFrame [7]]⟩
      true ⟨[buildDataFrame [7]], [buildDataFrame [7]], [], 0⟩ := by
  have hsession : Machine.run AuditedSession.step (AuditedSession.init 1)
      [.post [1], .post [2], .handler .task, .handler .task, .complete 0 true]
        = some ⟨⟨1, [], ⟨[[2]], true, some [2], [[1], [2]]⟩, .waiting .header, false⟩,
          ⟨[[2]], [[1], [2]], [[1]], 0⟩⟩ := by decide
  have hclient : Machine.run AuditedClient.step AuditedClient.init
      [.send [7], .handler .task]
        = some ⟨{ writer := ⟨[buildDataFrame [7]], true, some (buildDataFrame [7]),
            [buildDataFrame [7]]⟩ },
          ⟨[buildDataFrame [7]], [buildDataFrame [7]], [], 0⟩⟩ := by decide
  have h := write_queue hsession hclient
  exact ⟨h.1, h.2.2.1⟩

end ProjectNight
