import ProjectNight.Core.Server

/-!
# The Accept Handler in Two Steps

In `Server.lean` the accept handler is one step. The game thread does not wait
for it: between `push_packet` and `sessions.emplace` it may already have polled
the `Connect` packet and posted a `send` or a `disconnect`, for a session the
table does not have. Here the handler is the two steps it is, with the id in
hand between them.

`server_strand` runs one handler at a time, so no posted handler of the server
starts while the accept handler stands between its two steps. Handlers of the
sessions and calls of the game thread may come at any time. There is no
shutdown in this machine.

`polled` is a history variable: the ids whose `Connect` packet the game thread
has taken from the queue.

## Main definitions

* `Acceptor`: The server, with the accept handler between its steps or not.
* `Acceptor.publish`, `Acceptor.enter`: The two steps of the accept handler.
* `Acceptor.Action`, `Acceptor.step`: One step of any thread.

## Theorems

* `enter_publish`: Together they are the accept handler.
-/

namespace ProjectNight

structure Acceptor where
  server : Server := {}
  /-- The id whose `Connect` has been pushed and whose session has not been
      entered yet. -/
  accepting : Option UInt32 := none
  polled : List UInt32 := []

namespace Acceptor

/-- The accept handler up to `push_packet`. -/
def publish (a : Acceptor) : Acceptor :=
  if a.server.queue.shuttingDown then a
  else
    let id := a.server.nextId
    let (pushed, queue) := a.server.queue.pushPacket ⟨.connect, id, []⟩
    { a with
      server := { a.server with
        queue, nextId := a.server.nextId + 1, accepts := a.server.accepts + 1 }
      accepting := if pushed then some id else none }

/-- The rest of the accept handler: `emplace` and `start`. -/
def enter (a : Acceptor) (id : UInt32) : Acceptor :=
  { a with
    server := { a.server with
      sessions := a.server.sessions.insertIfNew id a.server.objects.length
      objects := a.server.objects ++ [Session.start { id }] }
    accepting := none }

inductive Action where
  | publish
  | enter
  | task
  | session (index : Nat) (action : SessionAction)
  | poll
  | send (sessionId : UInt32) (data : Bytes)
  | disconnect (sessionId : UInt32)
  deriving DecidableEq, Repr

/-- The id of a `Connect` packet. -/
def connectId (packet : Packet) : List UInt32 :=
  if packet.type = .connect then [packet.sessionId] else []

def step (a : Acceptor) : Action → Option Acceptor
  | .publish => if a.accepting = none then some a.publish else none
  | .enter => a.accepting.map a.enter
  | .task =>
    if a.accepting = none then
      (a.server.ioStep .task).map (fun server => { a with server })
    else none
  | .session index action =>
    (a.server.ioStep (.session index action)).map (fun server => { a with server })
  | .poll =>
    a.server.queue.pollPacket.map (fun (packet, queue) =>
      { a with server := { a.server with queue }, polled := a.polled ++ connectId packet })
  | .send sessionId data => some { a with server := a.server.send sessionId data }
  | .disconnect sessionId => some { a with server := a.server.disconnect sessionId }

/-- The two steps are the accept handler of the server. -/
theorem enter_publish (a : Acceptor) (h : a.accepting = none) :
    (match a.publish.accepting with
      | some id => a.publish.enter id
      | none => a.publish) = { a with server := a.server.onAccept } := by
  rcases a with ⟨server, accepting, polled⟩
  subst h
  unfold publish Server.onAccept
  by_cases hdown : server.queue.shuttingDown = true
  · simp [hdown]
  · cases hpushed : (server.queue.pushPacket ⟨.connect, server.nextId, []⟩).1 with
    | true => simp [hdown, hpushed, enter]
    | false => simp [hdown, hpushed]

end Acceptor

end ProjectNight
