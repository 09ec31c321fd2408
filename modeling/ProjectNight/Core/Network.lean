import ProjectNight.Core.Connection
import ProjectNight.Core.NetworkSystem

/-!
# The Whole Network

The server program with any number of clients. `Connection.lean` has one client
and leaves the game to its imagination; here the transport of the server is the
one the loop of `NightServer.cpp` drives, and every client has a connection of
its own to it.

A client whose connection has been established may send before the accept
handler of the server has run for it (`accept`). If the handler finds no room
for the `Connect` packet it drops the socket: then the connection has been
taken, and has no session object. Between a client and its session there are
two wires, as in `Connection.lean`.

Not everybody who connects is one of these clients. `stranger` is a handler of
the server for a connection to somebody else, about whom nothing is known: his
reads complete with any bytes whatever.

A link keeps the history of its own two directions. What the game thread has
polled and sent is the history of the loop (`GameServer.output`).

## Main definitions

* `Link`: A client, its wires and their history.
* `Link.step`: A step of the client or of the thread that owns it.
* `Network`: The server program and the links.
* `Network.Action`, `Network.step`: A step of anybody.
-/

namespace ProjectNight

open Wire

/-- A client and its connection to the server. -/
structure Link where
  client : Client := {}
  /-- The accept handler of the server has run for this connection. -/
  taken : Bool := false
  /-- The session object the handler made, if it made one. -/
  object : Option Nat := none
  /-- Bytes the client's socket took and the server has not read yet. -/
  toServer : Bytes := []
  /-- Bytes the server's socket took and the client has not read yet. -/
  toClient : Bytes := []
  sentToServer : List Bytes := []
  serverLog : List Reading := []
  clientLog : List Reading := []
  clientPolled : List Bytes := []

namespace Link

/-- The client's side of a link: a handler of its I/O thread, its socket, or a
    call of its owner. -/
inductive Action where
  | handler (action : ClientAction)
  | arrive
  | transmit (count : Nat)
  | poll
  | send (data : Bytes)
  | shutdown
  deriving DecidableEq, Repr

def step (l : Link) : Action → Option Link
  | .handler action =>
    if Connection.clientMay l.client action then
      (l.client.step action).map (fun client =>
        { l with
          client
          clientLog := l.clientLog ++ Connection.clientReadings l.client client action })
    else none
  | .arrive =>
    match l.client.reader with
    | .waiting target =>
      if target.size ≤ l.toClient.length then
        (l.client.step (.arrive (l.toClient.take target.size))).map (fun client =>
          { l with client, toClient := l.toClient.drop target.size })
      else none
    | _ => none
  | .transmit count =>
    if l.client.socketOpen then
      let (bytes, writer) := l.client.writer.transmit count
      some { l with
        client := { l.client with writer }
        toServer := l.toServer ++ bytes }
    else none
  | .poll =>
    l.client.pollPacket.map (fun (data, client) =>
      { l with client, clientPolled := l.clientPolled ++ [data] })
  | .send data =>
    some { l with
      client := l.client.send data
      sentToServer := Connection.recordSent l.sentToServer data }
  | .shutdown => some { l with client := l.client.shutdown }

end Link

structure Network where
  host : GameServer := {}
  links : List Link := []

namespace Network

/-- What became of the payload a handler of a session read. -/
def serverReadings (before after : Server) (session : Session) : SessionAction → List Reading
  | .read => session.reader.completedBody.toList.map (Connection.serverReading before after)
  | _ => []

/-- The accept handler of the server, for the connection of a link. -/
def acceptLink (server : Server) (link : Link) : Link :=
  { link with
    taken := true
    object := if server.objects.length < server.onAccept.objects.length
      then some server.objects.length else none }

/-- The server's side of a link: a handler of its session, or its socket. -/
inductive SessionSide where
  | handler (action : SessionAction)
  | arrive
  | transmit (count : Nat)
  deriving DecidableEq, Repr

/-- The server and the link after a step of the session at `index`. -/
def sessionStep (server : Server) (link : Link) (index : Nat) :
    SessionSide → Option (Server × Link)
  | .handler action =>
    match server.objects[index]? with
    | none => none
    | some session =>
      if Connection.sessionMay session action then
        (server.ioStep (.session index action)).map (fun server' => (server',
          { link with
            serverLog := link.serverLog ++ serverReadings server server' session action }))
      else none
  | .arrive =>
    match server.objects[index]?.map Session.reader with
    | some (.waiting target) =>
      if target.size ≤ link.toServer.length then
        (server.ioStep (.session index (.arrive (link.toServer.take target.size)))).map
          (fun server' => (server', { link with toServer := link.toServer.drop target.size }))
      else none
    | _ => none
  | .transmit count =>
    match server.objects[index]? with
    | some session =>
      if session.closed then none
      else
        let (bytes, writer) := session.writer.transmit count
        some ({ server with objects := server.objects.set index { session with writer } },
          { link with toClient := link.toClient ++ bytes })
    | none => none

inductive Action where
  /-- A client establishes a connection. -/
  | connect
  /-- The accept handler runs for the connection of a link. -/
  | accept (link : Nat)
  /-- The next handler of `server_strand`. -/
  | task
  /-- A step on the server's side of a link. -/
  | session (link : Nat) (side : SessionSide)
  /-- A handler for a connection that belongs to no link. -/
  | stranger (action : IoAction)
  /-- The next step of the loop of the game thread. -/
  | game
  /-- A step on the client's side of a link. -/
  | client (link : Nat) (action : Link.Action)
  deriving DecidableEq, Repr

/-- The handler belongs to a connection, and to none of the links. -/
def isStranger (n : Network) : IoAction → Bool
  | .accept => true
  | .task => false
  | .session index _ => n.links.all (fun link => link.object ≠ some index)

def setServer (n : Network) (server : Server) : Network :=
  { n with host := { n.host with server } }

def step (codec : Codec) (n : Network) : Action → Option Network
  | .connect => some { n with links := n.links ++ [{}] }
  | .accept k =>
    match n.links[k]? with
    | none => none
    | some link =>
      if link.taken then none
      else some { n.setServer n.host.server.onAccept with
        links := n.links.set k (acceptLink n.host.server link) }
  | .task => (n.host.server.ioStep .task).map n.setServer
  | .session k side =>
    match n.links[k]? with
    | none => none
    | some link =>
      match link.object with
      | none => none
      | some index => (sessionStep n.host.server link index side).map (fun (server, link) =>
          { n.setServer server with links := n.links.set k link })
  | .stranger action =>
    if n.isStranger action then (n.host.server.ioStep action).map n.setServer else none
  | .game => some { n with host := n.host.gameStep codec }
  | .client k action =>
    match n.links[k]? with
    | none => none
    | some link => (link.step action).map (fun link =>
        { n with links := n.links.set k link })

end Network

end ProjectNight
