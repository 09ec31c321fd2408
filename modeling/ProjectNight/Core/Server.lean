import ProjectNight.Core.Session

/-!
# Server Transport

`Server.cpp`: the bounded queue from the I/O threads to the game thread, the
table of sessions, and the handlers of `server_strand`.

Three kinds of threads of control meet here. Handlers posted to `server_strand`
run one at a time in the order they were posted, and so do the handlers of
each session's own strand. Completions of accepts, reads, writes and timers
run on their strand whenever the network and the clock decide. The game thread
calls `poll_packet`, `send` and `disconnect`. `step` interleaves them: an
action is one handler or one call, picked in any order.

Each `Session` object is kept under its position in the order of creation, and
the table maps ids to objects, as the map of shared pointers does. So two
objects may carry the same id once `next_id` has wrapped around, and the
handlers an object still has queued may run after it has left the table.

The accept handler pushes its `Connect` packet, enters the session and starts
it in one step. The game thread can see the packet before the entry is made,
but whatever it posts to `server_strand` in response runs after the handler.

`pushed` and `accepts` are history variables: every packet that entered the
queue, and the number of accepted connections.

## Main definitions

* `Packet`, `PacketQueue`: The queue to the game thread.
* `ServerTask`: A handler posted to `server_strand`.
* `Server` and its handlers.
* `send`, `disconnect`, `shutdown`: The calls of the game thread.
* `IoAction`, `ioStep`: A handler on one of the strands.
* `Server.Action`, `Server.step`: A handler or a call.
-/

namespace ProjectNight

open Wire Std

inductive PacketType where
  | connect
  | disconnect
  | data
  deriving DecidableEq, Repr

structure Packet where
  type : PacketType
  sessionId : UInt32
  data : Bytes
  deriving DecidableEq, Repr

/-- The capacity of `packet_queue`. -/
def packetQueueCapacity : Nat := 8192

/-- `packet_queue` with the two members `push_packet` uses besides. -/
structure PacketQueue where
  packets : List Packet := []
  droppedPackets : Nat := 0
  shuttingDown : Bool := false
  pushed : List Packet := []
  deriving DecidableEq, Repr

namespace PacketQueue

def pushPacket (q : PacketQueue) (packet : Packet) : Bool × PacketQueue :=
  if q.shuttingDown then (false, q)
  else if q.packets.length < packetQueueCapacity then
    (true, { q with packets := q.packets ++ [packet], pushed := q.pushed ++ [packet] })
  else (false, { q with droppedPackets := q.droppedPackets + 1 })

def pollPacket (q : PacketQueue) : Option (Packet × PacketQueue) :=
  match q.packets with
  | [] => none
  | packet :: rest => some (packet, { q with packets := rest })

end PacketQueue

inductive ServerTask where
  | send (sessionId : UInt32) (frame : Bytes)
  | disconnect (sessionId : UInt32)
  | erase (sessionId : UInt32)
  | shutdown
  deriving DecidableEq, Repr

structure Server where
  queue : PacketQueue := {}
  nextId : UInt32 := 1
  objects : List Session := []
  sessions : ExtTreeMap UInt32 Nat := ∅
  strand : List ServerTask := []
  accepts : Nat := 0

namespace Server

/-- The handler of `do_accept`, when a connection came in. -/
def onAccept (s : Server) : Server :=
  if s.queue.shuttingDown then s
  else
    let id := s.nextId
    let (pushed, queue) := s.queue.pushPacket ⟨.connect, id, []⟩
    let s := { s with queue, nextId := s.nextId + 1, accepts := s.accepts + 1 }
    if pushed then
      { s with
        sessions := s.sessions.insertIfNew id s.objects.length
        objects := s.objects ++ [Session.start { id }] }
    else s

/-- The callbacks `do_accept` gives to a session. -/
def applyEffect (id : UInt32) (s : Server) : SessionEffect → Server
  | .receive data => { s with queue := (s.queue.pushPacket ⟨.data, id, data⟩).2 }
  | .close =>
    { s with
      queue := (s.queue.pushPacket ⟨.disconnect, id, []⟩).2
      strand := s.strand ++ [.erase id] }

/-- A handler of the object at `index`, with the calls it makes. -/
def onSession (s : Server) (index : Nat) (session : Session)
    (result : Session × List SessionEffect) : Server :=
  result.2.foldl (applyEffect session.id)
    { s with objects := s.objects.set index result.1 }

/-- A call on the session the table has under `sessionId`, if it has one. -/
def withSession (s : Server) (sessionId : UInt32) (f : Session → Session) : Server :=
  match s.sessions[sessionId]? with
  | some index => { s with objects := s.objects.modify index f }
  | none => s

/-- The handler of a posted task. -/
def onTask (s : Server) : ServerTask → Server
  | .send sessionId frame =>
    if s.queue.shuttingDown then s
    else s.withSession sessionId (fun session => session.enqueueRawFrame frame)
  | .disconnect sessionId =>
    if s.queue.shuttingDown then s else s.withSession sessionId Session.close
  | .erase sessionId => { s with sessions := s.sessions.erase sessionId }
  | .shutdown =>
    s.sessions.keys.foldl (fun s sessionId => s.withSession sessionId Session.close) s

def send (s : Server) (sessionId : UInt32) (data : Bytes) : Server :=
  if data.isEmpty ∨ data.length > maxPayloadSize then s
  else if s.queue.shuttingDown then s
  else
    let frame := buildDataFrame data
    if frame.isEmpty then s else { s with strand := s.strand ++ [.send sessionId frame] }

def disconnect (s : Server) (sessionId : UInt32) : Server :=
  if s.queue.shuttingDown then s
  else { s with strand := s.strand ++ [.disconnect sessionId] }

/-- `shutdown`, up to the wait for the posted handler. -/
def shutdown (s : Server) : Server :=
  if s.queue.shuttingDown then s
  else
    { s with
      queue := { s.queue with shuttingDown := true }
      strand := s.strand ++ [.shutdown] }

end Server

/-- A handler on one of the strands. Handlers of a session name its object. -/
inductive IoAction where
  | accept
  | task
  | session (index : Nat) (action : SessionAction)
  deriving DecidableEq, Repr

def Server.ioStep (s : Server) : IoAction → Option Server
  | .accept => some s.onAccept
  | .task =>
    match s.strand with
    | [] => none
    | task :: strand => some ({ s with strand }.onTask task)
  | .session index action =>
    match s.objects[index]? with
    | none => none
    | some session => (session.step action).map (s.onSession index session)

/-- A handler on one of the strands, or a call of the game thread. -/
inductive Server.Action where
  | io (action : IoAction)
  | poll
  | send (sessionId : UInt32) (data : Bytes)
  | disconnect (sessionId : UInt32)
  | shutdown
  deriving DecidableEq, Repr

def Server.step (s : Server) : Server.Action → Option Server
  | .io action => s.ioStep action
  | .poll => s.queue.pollPacket.map (fun (_, queue) => { s with queue })
  | .send sessionId data => some (s.send sessionId data)
  | .disconnect sessionId => some (s.disconnect sessionId)
  | .shutdown => some s.shutdown

end ProjectNight
