import ProjectNight.Core.Client
import ProjectNight.Core.NetworkSystem

/-!
# Chat Protocol Client

`ChatProtocolClient.cpp`: the client's transport with the messages of the
schema on top. Packets are decoded to events for the user interface, and
requests are built and handed to `send`.

`client_` is an optional transport. `Disconnect` resets it: the destructor
posts the shutdown to the I/O thread and waits until that thread has stopped,
so whatever the thread does meanwhile ends with the transport.

## Main definitions

* `ChatProtocolEvent`: What the user interface is told.
* `decodePacket`: From packets to events.
* `ChatProtocolClient` and its operations.
-/

namespace ProjectNight

structure ChatRoomInfo where
  roomId : UInt32 := 0
  roomName : Bytes := []
  userCount : UInt32 := 0
  deriving DecidableEq, Repr

inductive ChatProtocolEvent where
  | loginSucceeded (displayName : Bytes)
  | loginFailed (errorMessage : Bytes)
  | roomList (rooms : List ChatRoomInfo)
  | joinRoomSucceeded (room : ChatRoomInfo)
  | joinRoomFailed (errorMessage : Bytes)
  | messageReceived (roomId : UInt32) (senderName content : Bytes)
  | userJoined (roomId : UInt32) (displayName : Bytes)
  | userLeft (roomId : UInt32) (displayName : Bytes)
  | systemMessage (roomId : UInt32) (content : Bytes)
  | protocolError (message : Bytes)
  deriving DecidableEq, Repr

/-- `ToErrorString`: the name of the enumerator. `EnumNameErrorCode` has the
    empty text for other numbers. -/
def toErrorString : ErrorCode → Bytes
  | .none => utf8 "NONE"
  | .invalidName => utf8 "INVALID_NAME"
  | .duplicateName => utf8 "DUPLICATE_NAME"
  | .roomNotFound => utf8 "ROOM_NOT_FOUND"
  | .roomFull => utf8 "ROOM_FULL"
  | .notInRoom => utf8 "NOT_IN_ROOM"
  | .invalidMessage => utf8 "INVALID_MESSAGE"
  | .alreadyInRoom => utf8 "ALREADY_IN_ROOM"
  | .internalError => utf8 "INTERNAL_ERROR"
  | .unknown _ => []

def toChatRoomInfo (room : RoomInfo) : ChatRoomInfo :=
  { roomId := room.roomId, roomName := toUtf8 room.roomName, userCount := room.userCount }

/-- `DecodePacket`: at most one event. -/
def decodePacket (codec : Codec) (data : Bytes) : List ChatProtocolEvent :=
  if data.isEmpty then []
  else match codec.verifiedMessage data with
    | none => [.protocolError (utf8 "Received data does not match the Message schema.")]
    | some message =>
      match message.payload with
      | .loginResponse (some response) =>
        if response.success then
          [.loginSucceeded (match response.user with
            | some user => toUtf8 user.displayName
            | none => [])]
        else [.loginFailed (toErrorString response.errorCode)]
      | .roomListResponse (some response) =>
        [.roomList ((response.rooms.getD []).map toChatRoomInfo)]
      | .joinRoomResponse (some response) =>
        match response.success, response.room with
        | true, some room => [.joinRoomSucceeded (toChatRoomInfo room)]
        | _, _ => [.joinRoomFailed (toErrorString response.errorCode)]
      | .chatBroadcast (some broadcast) =>
        [.messageReceived broadcast.roomId (toUtf8 broadcast.senderName)
          (toUtf8 broadcast.content)]
      | .userJoinedEvent (some ⟨roomId, some user⟩) =>
        [.userJoined roomId (toUtf8 user.displayName)]
      | .userLeftEvent (some ⟨roomId, some user⟩) =>
        [.userLeft roomId (toUtf8 user.displayName)]
      | .systemMessageEvent (some event) =>
        [.systemMessage event.roomId (toUtf8 event.content)]
      | _ => []

structure ChatProtocolClient where
  client : Option Client := none
  nextRequestId : UInt32 := 1
  deriving DecidableEq, Repr

namespace ChatProtocolClient

variable (codec : Codec)

/-- `Connect`, when the connection was established. -/
def connect (_ : ChatProtocolClient) : ChatProtocolClient where
  client := some {}
  nextRequestId := 1

def disconnect (p : ChatProtocolClient) : ChatProtocolClient := { p with client := none }

def isConnected (p : ChatProtocolClient) : Bool := p.client.any Client.connected

/-- The requests, all of one shape: number the message, build it and send it.
    `SendBuffer` drops an empty buffer. -/
def sendRequest (p : ChatProtocolClient) (payload : MessagePayload) : ChatProtocolClient :=
  match p.client with
  | none => p
  | some client =>
    let data := codec.buildMessage ⟨p.nextRequestId, payload⟩
    { client := some (if data.isEmpty then client else client.send data)
      nextRequestId := p.nextRequestId + 1 }

def sendLoginRequest (p : ChatProtocolClient) (displayName : Bytes) : ChatProtocolClient :=
  p.sendRequest codec (.loginRequest (some { displayName := some displayName }))

def sendRoomListRequest (p : ChatProtocolClient) : ChatProtocolClient :=
  p.sendRequest codec (.roomListRequest (some ()))

def sendJoinRoomRequest (p : ChatProtocolClient) (roomId : UInt32) : ChatProtocolClient :=
  p.sendRequest codec (.joinRoomRequest (some { roomId }))

def sendChatRequest (p : ChatProtocolClient) (text : Bytes) : ChatProtocolClient :=
  p.sendRequest codec (.chatSendRequest (some { content := some text }))

/-- `poll_packet` on the transport, if there is one. -/
def pollPacket (p : ChatProtocolClient) : Option (Bytes × ChatProtocolClient) :=
  match p.client with
  | none => none
  | some client => client.pollPacket.map (fun (data, client) =>
      (data, { p with client := some client }))

end ChatProtocolClient

end ProjectNight
