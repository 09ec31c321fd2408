import ProjectNight.Core.Client
import ProjectNight.Core.Server

/-!
# A Connection

A client and a server with one connection between them. The server is the one
of `Server.lean`, with its queue, its table and its strand; the connection is
the only one it accepts, and what other sessions push into the shared queue is
an action of its own.

TCP is a reliable stream in each direction. The socket takes the bytes of an
outstanding write piece by piece (`transmit`), and a read completes with the
next bytes on the wire (`arrive`). A write completes without error only when
all of it was taken. Both ends may lose the connection at any time: a read or a
write may fail whenever it is outstanding, whatever is on the wire then.

The history variables say what went in and what came out. `sent` has the
payloads of one to 2048 bytes that were passed to `send`, whether or not `send`
did anything with them; `polled` has the payloads taken from the receive queue;
and the log has every payload that was read, in read order, with what became
of it: whether it was put into the receive queue, by how much its handler
raised `dropped_packets`, and whether the receiver's shutdown had begun when
the handler ran.

## Main definitions

* `Reading`: A payload that was read, and what became of it.
* `Connection`: The two ends, the bytes in between, and the history.
* `Connection.Action`, `Connection.step`: One step of either end, of the
  network, or of the threads that use the connection.
-/

namespace ProjectNight

open Wire

/-- A payload that was read, and what became of it. -/
structure Reading where
  payload : Bytes
  queued : Bool
  counted : Nat
  shuttingDown : Bool
  deriving DecidableEq, Repr

/-- The socket takes the first `count` bytes of the outstanding write. -/
def Writer.transmit (w : Writer) (count : Nat) : Bytes × Writer :=
  match w.inFlight with
  | none => ([], w)
  | some rest => (rest.take count, { w with inFlight := some (rest.drop count) })

/-- The payload of a body read that has completed. -/
def Reader.completedBody : Reader → Option Bytes
  | .completed (.body _) bytes => some bytes
  | _ => none

structure Connection where
  server : Server
  client : Client := {}
  /-- Bytes the client's socket took and the server has not read yet. -/
  toServer : Bytes := []
  /-- Bytes the server's socket took and the client has not read yet. -/
  toClient : Bytes := []
  connectPolled : Bool := false
  sentToServer : List Bytes := []
  sentToClient : List Bytes := []
  serverLog : List Reading := []
  clientLog : List Reading := []
  serverPolled : List Bytes := []
  clientPolled : List Bytes := []

namespace Connection

/-- The client has connected, and `id` is the next id the server gives away. -/
def initial (id : UInt32) : Connection := { server := { nextId := id } }

/-- The server's end, once it has been accepted. -/
def session (c : Connection) : Option Session := c.server.objects[0]?

/-- What the handler of a body read on the server did with a payload, by the
    server it found and the one it left. -/
def serverReading (before after : Server) (payload : Bytes) : Reading where
  payload
  queued := before.queue.packets.length < after.queue.packets.length
  counted := after.queue.droppedPackets - before.queue.droppedPackets
  shuttingDown := before.queue.shuttingDown

def serverReadings (c : Connection) (after : Server) : SessionAction → List Reading
  | .read =>
    (c.session.bind (fun session => session.reader.completedBody)).toList.map
      (serverReading c.server after)
  | _ => []

/-- What a half of the body handler on the client did with a payload, by the
    client it found and the one it left. -/
def clientReading (before after : Client) (payload : Bytes) : Reading where
  payload
  queued := before.receiveQueue.length < after.receiveQueue.length
  counted := after.droppedPackets - before.droppedPackets
  shuttingDown := before.shuttingDown

/-- The first half has the last word on a payload only when the shutdown has
    begun; else the second half follows. -/
def clientReadings (before after : Client) : ClientAction → List Reading
  | .read =>
    if before.shuttingDown then
      before.reader.completedBody.toList.map (clientReading before after)
    else []
  | .copied => before.copied.toList.map (clientReading before after)
  | _ => []

/-- A handler may run when the network allows it: bytes arrive from the wire
    only, and a write completes when all of it was taken. -/
def sessionMay (session : Session) : SessionAction → Bool
  | .arrive _ => false
  | .write true => session.writer.inFlight = some []
  | _ => true

def clientMay (client : Client) : ClientAction → Bool
  | .arrive _ => false
  | .write true => client.writer.inFlight = some []
  | _ => true

inductive Action where
  | accept
  | serverTask
  | session (action : SessionAction)
  | sessionArrive
  | sessionTransmit (count : Nat)
  | otherPush (packet : Packet)
  | serverPoll
  | serverSend (data : Bytes)
  | serverDisconnect
  | serverShutdown
  | client (action : ClientAction)
  | clientArrive
  | clientTransmit (count : Nat)
  | clientPoll
  | clientSend (data : Bytes)
  | clientShutdown
  deriving DecidableEq, Repr

/-- `send` refuses payloads that are empty or longer than 2048 bytes; the
    others count as sent. -/
def recordSent (sent : List Bytes) (data : Bytes) : List Bytes :=
  if data ≠ [] ∧ data.length ≤ maxPayloadSize then sent ++ [data] else sent

/-- The packet is a payload of the session `id`. -/
def isPayload (id : UInt32) (packet : Packet) : Bool :=
  packet.type = .data ∧ packet.sessionId = id

def step (id : UInt32) (c : Connection) : Action → Option Connection
  | .accept =>
    if c.server.accepts = 0 then some { c with server := c.server.onAccept } else none
  | .serverTask => (c.server.ioStep .task).map (fun server => { c with server })
  | .session action =>
    if c.session.all (fun session => sessionMay session action) then
      (c.server.ioStep (.session 0 action)).map (fun server =>
        { c with server, serverLog := c.serverLog ++ c.serverReadings server action })
    else none
  | .sessionArrive =>
    match c.session.map Session.reader with
    | some (.waiting target) =>
      if target.size ≤ c.toServer.length then
        (c.server.ioStep (.session 0 (.arrive (c.toServer.take target.size)))).map (fun server =>
          { c with server, toServer := c.toServer.drop target.size })
      else none
    | _ => none
  | .sessionTransmit count =>
    match c.session with
    | some session =>
      if session.closed then none
      else
        let (bytes, writer) := session.writer.transmit count
        some { c with
          server := { c.server with objects := c.server.objects.set 0 { session with writer } }
          toClient := c.toClient ++ bytes }
    | none => none
  | .otherPush packet =>
    if packet.sessionId = id then none
    else some { c with server := { c.server with queue := (c.server.queue.pushPacket packet).2 } }
  | .serverPoll =>
    c.server.queue.pollPacket.map (fun (packet, queue) =>
      { c with
        server := { c.server with queue }
        connectPolled := c.connectPolled || (packet.type = .connect ∧ packet.sessionId = id)
        serverPolled :=
          if isPayload id packet then c.serverPolled ++ [packet.data] else c.serverPolled })
  | .serverSend data =>
    if c.connectPolled then
      some { c with
        server := c.server.send id data
        sentToClient := recordSent c.sentToClient data }
    else none
  | .serverDisconnect => some { c with server := c.server.disconnect id }
  | .serverShutdown => some { c with server := c.server.shutdown }
  | .client action =>
    if clientMay c.client action then
      (c.client.step action).map (fun client =>
        { c with client, clientLog := c.clientLog ++ clientReadings c.client client action })
    else none
  | .clientArrive =>
    match c.client.reader with
    | .waiting target =>
      if target.size ≤ c.toClient.length then
        (c.client.step (.arrive (c.toClient.take target.size))).map (fun client =>
          { c with client, toClient := c.toClient.drop target.size })
      else none
    | _ => none
  | .clientTransmit count =>
    if c.client.socketOpen then
      let (bytes, writer) := c.client.writer.transmit count
      some { c with
        client := { c.client with writer }
        toServer := c.toServer ++ bytes }
    else none
  | .clientPoll =>
    c.client.pollPacket.map (fun (data, client) =>
      { c with client, clientPolled := c.clientPolled ++ [data] })
  | .clientSend data =>
    some { c with
      client := c.client.send data
      sentToServer := recordSent c.sentToServer data }
  | .clientShutdown => some { c with client := c.client.shutdown }

end Connection

end ProjectNight
