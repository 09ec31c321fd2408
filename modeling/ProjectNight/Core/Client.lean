import ProjectNight.Core.Session

/-!
# Client Transport

`Client.cpp`: the client's end of a connection. All handlers run on the one
thread of its `io_context`, in the order they were posted; `send`,
`poll_packet` and the shutdown of the destructor are called by the thread that
owns the client.

`connected` and `shutting_down` are read by both threads. The handler of a
body read loads `shutting_down` twice, around the copy it makes, and the owner
may set it in between; the handler is therefore two steps, with the copied
packet in hand between them.

`received` is a history variable: every payload that entered `receive_queue`
before the transport went disconnected.

## Main definitions

* `ClientTask`: A handler posted to the `io_context`.
* `Client` and its handlers.
* `send`, `pollPacket`, `shutdown`: The calls of the owner.
* `ClientAction`, `Client.step`: One handler of the I/O thread.
-/

namespace ProjectNight

open Wire

/-- The capacity of `receive_queue`. -/
def receiveQueueCapacity : Nat := 4096

inductive ClientTask where
  | enqueueFrame (frame : Bytes)
  | shutdown
  deriving DecidableEq, Repr

structure Client where
  connected : Bool := true
  shuttingDown : Bool := false
  socketOpen : Bool := true
  io : List ClientTask := []
  writer : Writer := {}
  reader : Reader := .waiting .header
  /-- The packet in the hands of the body handler, between its two loads of
      `shutting_down`. -/
  copied : Option Bytes := none
  receiveQueue : List Bytes := []
  droppedPackets : Nat := 0
  received : List Bytes := []
  deriving DecidableEq, Repr

namespace Client

def closeSocket (c : Client) : Client := { c with socketOpen := false }

def handleDisconnect (c : Client) : Client :=
  if c.connected then { c with connected := false }.closeSocket else c

def enqueueFrame (c : Client) (frame : Bytes) : Client :=
  if c.shuttingDown || !c.connected then c
  else match c.writer.enqueueFrame frame with
    | some writer => { c with writer }
    | none => c.handleDisconnect

/-- The handler of `do_read_header`, when the read succeeded. -/
def onHeader (c : Client) (bytes : Bytes) : Client :=
  if c.shuttingDown then { c with reader := .idle }.handleDisconnect
  else match Reader.afterHeader bytes with
    | none => { c with reader := .idle }.handleDisconnect
    | some reader => { c with reader }

/-- The handler of `do_read_body` up to the copy, when the read succeeded. -/
def onBody (c : Client) (bytes : Bytes) : Client :=
  if c.shuttingDown then { c with reader := .idle }.handleDisconnect
  else { c with reader := .idle, copied := some bytes }

/-- The rest of the handler of `do_read_body`. -/
def onCopied (c : Client) (bytes : Bytes) : Client :=
  if c.shuttingDown then { c with copied := none }
  else if c.receiveQueue.length < receiveQueueCapacity then
    { c with
      copied := none, reader := .waiting .header
      receiveQueue := c.receiveQueue ++ [bytes]
      received := if c.connected then c.received ++ [bytes] else c.received }
  else
    { c with
      copied := none, reader := .waiting .header
      droppedPackets := c.droppedPackets + 1 }

/-- Either read handler, when the read failed. -/
def onReadError (c : Client) : Client := { c with reader := .idle }.handleDisconnect

def onRead (c : Client) (target : ReadTarget) (bytes : Bytes) : Client :=
  match target with
  | .header => c.onHeader bytes
  | .body _ => c.onBody bytes

/-- The handler of `do_write`. -/
def onWrite (c : Client) (ok : Bool) : Client :=
  let c := { c with writer := c.writer.pop }
  if !ok || c.shuttingDown then c.handleDisconnect
  else { c with writer := c.writer.doWrite }

/-- The handler of `start_heartbeat`. -/
def onHeartbeat (c : Client) (timeout : Bool) : Client :=
  if timeout then c.handleDisconnect else c.enqueueFrame buildKeepaliveFrame

/-- The handler of a posted task. -/
def onTask (c : Client) : ClientTask → Client
  | .enqueueFrame frame => if c.shuttingDown then c else c.enqueueFrame frame
  | .shutdown => { c with connected := false }.closeSocket

def send (c : Client) (data : Bytes) : Client :=
  if data.isEmpty ∨ data.length > maxPayloadSize then c
  else if !c.connected then c
  else if c.shuttingDown then c
  else
    let frame := buildDataFrame data
    if frame.isEmpty then c else { c with io := c.io ++ [.enqueueFrame frame] }

def pollPacket (c : Client) : Option (Bytes × Client) :=
  match c.receiveQueue with
  | [] => none
  | data :: rest => some (data, { c with receiveQueue := rest })

/-- `shutdown`, up to the wait for the posted handler. -/
def shutdown (c : Client) : Client :=
  if c.shuttingDown then c else { c with shuttingDown := true, io := c.io ++ [.shutdown] }

end Client

/-- A handler of the I/O thread, or the completion of its read. -/
inductive ClientAction where
  | task
  /-- The outstanding read has all the bytes it waits for. -/
  | arrive (bytes : Bytes)
  | read
  /-- The second half of the handler of a body read. -/
  | copied
  | readError
  | write (ok : Bool)
  | heartbeat (timeout : Bool)
  deriving DecidableEq, Repr

/-- What an action does, when it is possible now. There is one I/O thread, so
    no handler starts while the body handler holds its copy. -/
def Client.step (c : Client) : ClientAction → Option Client
  | .task =>
    match c.copied, c.io with
    | none, task :: io => some ({ c with io }.onTask task)
    | _, _ => none
  | .arrive bytes =>
    match c.reader with
    | .waiting target =>
      if bytes.length = target.size ∧ c.socketOpen = true then
        some { c with reader := .completed target bytes }
      else none
    | _ => none
  | .read =>
    match c.copied, c.reader with
    | none, .completed target bytes => some (c.onRead target bytes)
    | _, _ => none
  | .copied => c.copied.map c.onCopied
  | .readError =>
    match c.copied, c.reader with
    | none, .waiting _ => some c.onReadError
    | _, _ => none
  | .write ok => if c.copied = none ∧ c.writer.inFlight.isSome then some (c.onWrite ok) else none
  | .heartbeat timeout => if c.copied = none then some (c.onHeartbeat timeout) else none

end ProjectNight
