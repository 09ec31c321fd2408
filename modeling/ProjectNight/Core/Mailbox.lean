import ProjectNight.Core.Client
import ProjectNight.Core.Server
import ProjectNight.Lib.Heap

/-!
# Mailboxes

What passes between the I/O threads and the thread that polls, one memory access
at a time. Both `packet_queue` in `Server.cpp` and `receive_queue` in
`Client.cpp` hold raw pointers: a handler allocates a packet with `new`, pushes
the pointer, and deletes the packet if the queue is full; `poll_packet` pops a
pointer, moves the packet out and deletes it; and the destructor sets
`shutting_down`, waits for the I/O threads to finish, and deletes what is left in
the queue. In `Server.lean` and `Client.lean` a push is one step.

The handlers of the server run on several threads, and any number of them may be
somewhere in `push_packet` at once. The queues are lock-free queues of a fixed
capacity whose `push` and `pop` are single steps; a pointer that was not popped
stays in them.

The two kinds differ in one thing. `push_packet` looks at `shutting_down` before
it allocates. The client's handler looks at it there, too, and again after the
packet was allocated, and then deletes it without counting it.

A pointer that is read or deleted when its cell is not live sets `fault`.
`offered` and `polled` are history variables: the packets that entered the queue,
and those that `poll_packet` returned.

## Main definitions

* `MailboxKind`, `packetQueue`, `receiveQueue`: The two queues.
* `Pusher`: A handler on its way through a push.
* `Owner`: The thread that polls and destroys.
* `Mailbox`: Both, with the queue and the heap.
* `Mailbox.Action`, `Mailbox.step`: One memory access of one thread.
-/

namespace ProjectNight

structure MailboxKind where
  capacity : Nat
  /-- The handler looks at `shutting_down` again after `new`. -/
  rechecks : Bool
  deriving DecidableEq, Repr

/-- `packet_queue` of `Server::Impl`. -/
def packetQueue : MailboxKind := ⟨packetQueueCapacity, false⟩

/-- `receive_queue` of `Client::Impl`. -/
def receiveQueue : MailboxKind := ⟨receiveQueueCapacity, true⟩

/-- Where a handler stands in a push. -/
inductive Pusher (α : Type) where
  /-- `shutting_down` was not set. -/
  | checked (data : α)
  /-- The packet was allocated. -/
  | holding (pointer : Nat)
  /-- `shutting_down` was still not set. -/
  | rechecked (pointer : Nat)
  /-- `shutting_down` was set meanwhile. -/
  | dropping (pointer : Nat)
  /-- The queue was full. -/
  | refused (pointer : Nat)
  /-- The packet was deleted, and `dropped_packets` is to be raised. -/
  | uncounted
  | done
  deriving DecidableEq, Repr

def Pusher.isDone {α : Type} : Pusher α → Bool
  | .done => true
  | _ => false

/-- Where the owner stands. -/
inductive Owner (α : Type) where
  | idle
  /-- In `poll_packet`, after the pop. -/
  | popped (pointer : Nat)
  /-- In `poll_packet`, after the move. -/
  | moved (pointer : Nat) (data : α)
  /-- In `shutdown`: the flag is set, and the I/O threads are to be joined. -/
  | stopping
  /-- In the loop of the destructor. -/
  | draining
  /-- In the body of that loop. -/
  | drained (pointer : Nat)
  | destroyed
  deriving DecidableEq, Repr

/-- The I/O threads have been joined. -/
def Owner.isJoined {α : Type} : Owner α → Bool
  | .draining | .drained _ | .destroyed => true
  | _ => false

structure Mailbox (α : Type) where
  heap : Heap α := {}
  queue : List Nat := []
  pushers : List (Pusher α) := []
  owner : Owner α := .idle
  shuttingDown : Bool := false
  droppedPackets : Nat := 0
  fault : Bool := false
  offered : List α := []
  polled : List α := []

namespace Mailbox

variable {α : Type}

def delete (m : Mailbox α) (pointer : Nat) : Mailbox α :=
  match m.heap.free pointer with
  | some heap => { m with heap }
  | none => { m with fault := true }

/-- The handler at `index` gets on. -/
def setPusher (m : Mailbox α) (index : Nat) (pusher : Pusher α) : Mailbox α :=
  { m with pushers := m.pushers.set index pusher }

/-- `queue.push(packet)`. -/
def push (kind : MailboxKind) (m : Mailbox α) (index pointer : Nat) : Mailbox α :=
  if m.queue.length < kind.capacity then
    { m with
      queue := m.queue ++ [pointer]
      offered := m.offered ++ (m.heap.read pointer).toList }.setPusher index .done
  else m.setPusher index (.refused pointer)

/-- The next access of the handler at `index`. -/
def onPush (kind : MailboxKind) (m : Mailbox α) (index : Nat) : Pusher α → Option (Mailbox α)
  | .checked data =>
    let (pointer, heap) := m.heap.alloc data
    some ({ m with heap }.setPusher index (.holding pointer))
  | .holding pointer =>
    if kind.rechecks then
      some (m.setPusher index (if m.shuttingDown then .dropping pointer else .rechecked pointer))
    else some (m.push kind index pointer)
  | .rechecked pointer => some (m.push kind index pointer)
  | .dropping pointer => some ((m.delete pointer).setPusher index .done)
  | .refused pointer => some ((m.delete pointer).setPusher index .uncounted)
  | .uncounted =>
    some ({ m with droppedPackets := m.droppedPackets + 1 }.setPusher index .done)
  | .done => none

/-- The next access of the owner, when it is in `poll_packet` or in the
    destructor. -/
def onOwner (m : Mailbox α) : Owner α → Option (Mailbox α)
  | .popped pointer =>
    match m.heap.read pointer with
    | some data => some { m with owner := .moved pointer data }
    | none => some { m with fault := true }
  | .moved pointer data =>
    some { m.delete pointer with owner := .idle, polled := m.polled ++ [data] }
  | .stopping =>
    -- `join` returns when no handler runs any more.
    if m.pushers.all Pusher.isDone then some { m with owner := .draining } else none
  | .draining =>
    match m.queue with
    | [] => some { m with owner := .destroyed }
    | pointer :: rest => some { m with owner := .drained pointer, queue := rest }
  | .drained pointer => some { m.delete pointer with owner := .draining }
  | .idle | .destroyed => none

inductive Action (α : Type) where
  /-- A handler begins a push and loads `shutting_down`. -/
  | begin (data : α)
  | pusher (index : Nat)
  | poll
  | owner
  | shutdown
  deriving DecidableEq, Repr

def step (kind : MailboxKind) (m : Mailbox α) : Action α → Option (Mailbox α)
  | .begin data =>
    if m.owner.isJoined then none
    else if m.shuttingDown then some m
    else some { m with pushers := m.pushers ++ [.checked data] }
  | .pusher index => m.pushers[index]?.bind (m.onPush kind index)
  | .poll =>
    match m.owner, m.queue with
    | .idle, pointer :: rest => some { m with owner := .popped pointer, queue := rest }
    | .idle, [] => some m
    | _, _ => none
  | .owner => m.onOwner m.owner
  | .shutdown =>
    match m.owner with
    | .idle => some { m with shuttingDown := true, owner := .stopping }
    | _ => none

end Mailbox

end ProjectNight
