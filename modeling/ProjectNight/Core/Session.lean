import ProjectNight.Core.Wire

/-!
# Sessions

`Session.cpp`: one TCP connection on the server side, and the read and write
machinery that `Client::Impl` has in the same form.

Every handler of a session runs on its strand, one at a time, so a handler is
a function of the session. What happens between handlers is not decided by the
code. An asynchronous operation is kept as what is still outstanding of it: a
read as what it waits for or, once it has completed, as the bytes its handler
will find; a write as the part of the buffer the socket has not taken yet. The
steps that move bytes belong to the layer that has the other end of the
connection.

A completed read is a state of its own because closing the socket aborts an
operation that is still waiting, but not a handler that is already queued on
the strand.

`on_receive_` and `on_close_` call out of the session; a handler returns the
calls it makes. The heartbeat timer is left to the scheduler: a tick may come
at any time, and whether the timeout has passed is part of the tick.

`accepted` is a history variable that no handler reads: every frame that was
ever put into the write queue.

## Main definitions

* `Writer`: The write queue, with `doWrite`, `enqueueFrame` and `pop`.
* `ReadTarget`, `Reader`: The read chain.
* `SessionTask`, `SessionEffect`: Posted handlers, and calls out of a session.
* `Session` and its handlers.
* `SessionAction`, `Session.step`: One handler, picked by the scheduler.
-/

namespace ProjectNight

open Wire

/-- `MAX_PENDING_WRITE_FRAMES`, the same in `Session.cpp` and `Client.cpp`. -/
def maxPendingWriteFrames : Nat := 1024

/-! ### The write queue -/

structure Writer where
  queue : List Bytes := []
  writing : Bool := false
  /-- What the outstanding `async_write` has not handed to the socket yet. -/
  inFlight : Option Bytes := none
  accepted : List Bytes := []
  deriving DecidableEq, Repr

namespace Writer

/-- `do_write`: the front of the queue goes to the socket. -/
def doWrite (w : Writer) : Writer :=
  match w.queue with
  | [] => { w with writing := false }
  | front :: _ => { w with writing := true, inFlight := some front }

/-- `Detail::enqueue_frame` with `do_write` as `start_write`; `none` when the
    queue is full. -/
def enqueueFrame (w : Writer) (frame : Bytes) : Option Writer :=
  if maxPendingWriteFrames ≠ 0 ∧ w.queue.length ≥ maxPendingWriteFrames then none
  else
    let w := { w with queue := w.queue ++ [frame], accepted := w.accepted ++ [frame] }
    some (if w.writing then w else w.doWrite)

/-- The buffer of a completed write goes back to the pool. -/
def pop (w : Writer) : Writer := { w with queue := w.queue.tail, inFlight := none }

end Writer

/-! ### The read chain -/

/-- What an `async_read` fills: `header_buf_`, or `body_buf_` resized to the
    announced payload. -/
inductive ReadTarget where
  | header
  | body (size : Nat)
  deriving DecidableEq, Repr

def ReadTarget.size : ReadTarget → Nat
  | .header => headerSize
  | .body size => size

/-- The read chain: ended, waiting for bytes, or completed with its handler
    still to run. -/
inductive Reader where
  | idle
  | waiting (target : ReadTarget)
  | completed (target : ReadTarget) (bytes : Bytes)
  deriving DecidableEq, Repr

/-- What a header leads to: the next header after a keepalive, a body after a
    data header, and `none` when the header is not one. -/
def Reader.afterHeader (bytes : Bytes) : Option Reader :=
  match decodeHeader bytes with
  | .error _ => none
  | .ok header =>
    if header.isKeepalive then some (.waiting .header)
    else some (.waiting (.body header.payloadSize.toNat))

/-! ### Sessions -/

/-- A handler posted to a session's strand. -/
inductive SessionTask where
  | enqueueWrite (frame : Bytes)
  | close
  deriving DecidableEq, Repr

/-- A call of `on_receive_` or of `on_close_`. -/
inductive SessionEffect where
  | receive (data : Bytes)
  | close
  deriving DecidableEq, Repr

structure Session where
  id : UInt32
  strand : List SessionTask := []
  writer : Writer := {}
  reader : Reader := .idle
  closed : Bool := false
  deriving DecidableEq, Repr

namespace Session

def doReadHeader (s : Session) : Session := { s with reader := .waiting .header }

def start (s : Session) : Session := s.doReadHeader

/-- `enqueue_raw_frame`: post the frame. -/
def enqueueRawFrame (s : Session) (frame : Bytes) : Session :=
  { s with strand := s.strand ++ [.enqueueWrite frame] }

/-- `close`: post the close. -/
def close (s : Session) : Session := { s with strand := s.strand ++ [.close] }

def handleClose (s : Session) : Session × List SessionEffect :=
  if s.closed then (s, []) else ({ s with closed := true }, [.close])

def enqueueWrite (s : Session) (frame : Bytes) : Session × List SessionEffect :=
  if s.closed then (s, [])
  else match s.writer.enqueueFrame frame with
    | some writer => ({ s with writer }, [])
    | none => s.handleClose

/-- The handler of `do_read_header`, when the read succeeded. -/
def onHeader (s : Session) (bytes : Bytes) : Session × List SessionEffect :=
  match Reader.afterHeader bytes with
  | none => { s with reader := .idle }.handleClose
  | some reader => ({ s with reader }, [])

/-- The handler of `do_read_body`, when the read succeeded. -/
def onBody (s : Session) (bytes : Bytes) : Session × List SessionEffect :=
  (s.doReadHeader, [.receive bytes])

/-- Either read handler, when the read failed. -/
def onReadError (s : Session) : Session × List SessionEffect :=
  { s with reader := .idle }.handleClose

/-- The handler of the read that has completed. -/
def onRead (s : Session) (target : ReadTarget) (bytes : Bytes) :
    Session × List SessionEffect :=
  match target with
  | .header => s.onHeader bytes
  | .body _ => s.onBody bytes

/-- The handler of `do_write`. -/
def onWrite (s : Session) (ok : Bool) : Session × List SessionEffect :=
  let s := { s with writer := s.writer.pop }
  if ok then ({ s with writer := s.writer.doWrite }, []) else s.handleClose

/-- The handler of `start_heartbeat`. -/
def onHeartbeat (s : Session) (timeout : Bool) : Session × List SessionEffect :=
  if timeout then s.handleClose else s.enqueueWrite buildKeepaliveFrame

/-- The handler of a posted task. -/
def onTask (s : Session) : SessionTask → Session × List SessionEffect
  | .enqueueWrite frame => s.enqueueWrite frame
  | .close => s.handleClose

end Session

/-- A handler of a session, or the completion of its read. -/
inductive SessionAction where
  | task
  /-- The outstanding read has all the bytes it waits for. -/
  | arrive (bytes : Bytes)
  | read
  | readError
  | write (ok : Bool)
  | heartbeat (timeout : Bool)
  deriving DecidableEq, Repr

/-- What an action does, when it is possible now: a posted handler or a
    completion needs something posted or outstanding, and a read can only
    complete while the socket is open. -/
def Session.step (s : Session) : SessionAction → Option (Session × List SessionEffect)
  | .task =>
    match s.strand with
    | [] => none
    | task :: strand => some ({ s with strand }.onTask task)
  | .arrive bytes =>
    match s.reader with
    | .waiting target =>
      if bytes.length = target.size ∧ s.closed = false then
        some ({ s with reader := .completed target bytes }, [])
      else none
    | _ => none
  | .read =>
    match s.reader with
    | .completed target bytes => some (s.onRead target bytes)
    | _ => none
  | .readError =>
    match s.reader with
    | .waiting _ => some s.onReadError
    | _ => none
  | .write ok => if s.writer.inFlight.isSome then some (s.onWrite ok) else none
  | .heartbeat timeout => some (s.onHeartbeat timeout)

end ProjectNight
