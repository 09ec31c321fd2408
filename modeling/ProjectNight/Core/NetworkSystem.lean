import ProjectNight.Core.GameLogicSystem
import ProjectNight.Core.Server

/-!
# Network System and Server Loop

`NetworkSystem.cpp` and the loop of `NightServer.cpp`: packets are decoded to
events, the game logic runs on them, and its messages go back to the
transport.

The loop is one thread, but not one step. `Receive` polls until the queue is
empty while the I/O threads keep pushing, and `Flush` makes one call after the
other, so the game thread is a state machine of its own that takes turns with
the handlers of the transport.

Verification and root access of a buffer belong to FlatBuffers; together they
are the field `verifiedMessage` of `Codec`. `GetRoot` of a verified buffer is
never null, so the second check of `DecodeProtocolPacket` has no branch here.

`handled` is a history variable: every event that was given to `Update`.

## Main definitions

* `Codec`: The builder and the verifier.
* `decodeProtocolPacket`, `receivePacket`: From packets to events.
* `Phase`: Where the loop stands.
* `GameServer`: The transport, the game state and the loop.
* `GameServer.step`: A handler of the transport, or the next step of the loop.
-/

namespace ProjectNight

/-- What the server takes from FlatBuffers: besides the builder, the message
    in a buffer that passes verification. -/
structure Codec extends Env where
  verifiedMessage : Bytes → Option Message

/-- `DecodeProtocolPacket`: at most one event. -/
def decodeProtocolPacket (codec : Codec) (sessionId : UInt32) (data : Bytes) :
    List ServerEvent :=
  match codec.verifiedMessage data with
  | none => [.invalidPacket sessionId (utf8 "수신 데이터가 Message 스키마와 일치하지 않습니다.")]
  | some message =>
    match message.payload with
    | .loginRequest none => []
    | .loginRequest (some request) =>
      [.loginRequest sessionId message.requestId (toUtf8 request.displayName)]
    | .roomListRequest _ => [.roomListRequest sessionId message.requestId]
    | .joinRoomRequest none => []
    | .joinRoomRequest (some request) =>
      [.joinRoomRequest sessionId message.requestId request.roomId]
    | .chatSendRequest none => []
    | .chatSendRequest (some request) =>
      [.chatSendRequest sessionId message.requestId (toUtf8 request.content)]
    | .leaveRoomRequest _ => [.leaveRoomRequest sessionId message.requestId]
    | .disconnectRequest _ => [.disconnectRequest sessionId message.requestId]
    | _ => [.invalidPacket sessionId (utf8 "서버가 처리하지 않는 payload 타입입니다.")]

/-- The body of the loop of `Receive`. -/
def receivePacket (codec : Codec) (packet : Packet) : List ServerEvent :=
  match packet.type with
  | .connect => [.sessionConnected packet.sessionId]
  | .disconnect => [.sessionDisconnected packet.sessionId]
  | .data => decodeProtocolPacket codec packet.sessionId packet.data

/-- Where the loop of the game thread stands: polling, with the events so far;
    about to update; or flushing, with what is left to send. -/
inductive Phase where
  | receive (events : List ServerEvent)
  | update (events : List ServerEvent)
  | flush (messages : List OutgoingMessage) (disconnects : List UInt32)
  deriving DecidableEq, Repr

structure GameServer where
  server : Server := {}
  game : GameLogicSystem := .initial
  phase : Phase := .receive []
  handled : List ServerEvent := []

namespace GameServer

/-- The next step of the game thread. -/
def gameStep (codec : Codec) (g : GameServer) : GameServer :=
  match g.phase with
  | .receive events =>
    match g.server.queue.pollPacket with
    | some (packet, queue) =>
      { g with
        server := { g.server with queue }
        phase := .receive (events ++ receivePacket codec packet) }
    | none => { g with phase := .update events }
  | .update events =>
    let game := g.game.update codec.toEnv events
    let (messages, game) := game.takeOutgoingMessages
    let (disconnects, game) := game.takePendingDisconnects
    { g with game, phase := .flush messages disconnects, handled := g.handled ++ events }
  | .flush (message :: messages) disconnects =>
    { g with
      server := g.server.send message.sessionId (codec.buildMessage message.payload)
      phase := .flush messages disconnects }
  | .flush [] (sessionId :: disconnects) =>
    { g with
      server := g.server.disconnect sessionId
      phase := .flush [] disconnects }
  | .flush [] [] => { g with phase := .receive [] }

/-- A handler of the transport, or the next step of the game thread. -/
inductive Action where
  | io (action : IoAction)
  | game
  deriving DecidableEq, Repr

def step (codec : Codec) (g : GameServer) : Action → Option GameServer
  | .io action => (g.server.ioStep action).map (fun server => { g with server })
  | .game => some (g.gameStep codec)

end GameServer

end ProjectNight
