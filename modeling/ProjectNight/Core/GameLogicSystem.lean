import ProjectNight.Core.RoomSystem

/-!
# Game Logic System

`GameLogicSystem.cpp`: the nine event handlers of the chat server, the
`Queue…` builders they answer with, and `Update`, which runs a list of events
through them.

A handler is a function from state to state. The messages a handler queues are
kept as tables; `QueueMessage` needs the size of the finished buffer, so the
FlatBuffers builder is a field of `Env`, next to the two other things the
handlers take from outside: the wall clock and the order in which member sets
are visited. The `std::println` lines are left out.

Besides the three fields of the class the state carries two history variables
that no handler reads. `clockReads` counts the readings of the wall clock, so
that each reading may differ. `queueCalls` records every call of
`QueueMessage` together with the room system at that moment, whether the call
passed the size guard or not. Statements about what a handler *builds*, or
about membership at the moment of queueing, are statements about that record;
`outgoingMessages` is what survives of it.

## Main definitions

* `ServerEvent`: What `NetworkSystem::Receive` hands to the game logic.
* `Env`: The builder, the clock and the iteration order.
* `OutgoingMessage`, `QueueCall`: A queued message, and a recorded call.
* `queueMessage` and the `queue…` builders.
* `notifyRoomLeave`: The leave notice to the rest of a room.
* `handle…`: The event handlers.
* `handleEvent`, `update`: One event, and a list of them.
-/

namespace ProjectNight

/-- `std::variant` of `ServerTypes.h`. -/
inductive ServerEvent where
  | sessionConnected (sessionId : UInt32)
  | sessionDisconnected (sessionId : UInt32)
  | invalidPacket (sessionId : UInt32) (message : Bytes)
  | loginRequest (sessionId requestId : UInt32) (displayName : Bytes)
  | roomListRequest (sessionId requestId : UInt32)
  | joinRoomRequest (sessionId requestId roomId : UInt32)
  | chatSendRequest (sessionId requestId : UInt32) (content : Bytes)
  | leaveRoomRequest (sessionId requestId : UInt32)
  | disconnectRequest (sessionId requestId : UInt32)
  deriving DecidableEq, Repr

/-- The session an event comes from. -/
def ServerEvent.sessionId : ServerEvent → UInt32
  | .sessionConnected s | .sessionDisconnected s | .invalidPacket s _ | .loginRequest s _ _
  | .roomListRequest s _ | .joinRoomRequest s _ _ | .chatSendRequest s _ _
  | .leaveRoomRequest s _ | .disconnectRequest s _ => s

/-- What the handlers take from outside the repository: the buffer
    `BuildMessage` finishes a message to, the `n`-th reading of the wall
    clock, and the order of the member loops. -/
structure Env extends Iteration where
  buildMessage : Message → Bytes
  currentTimestampMs : Nat → UInt64

def maxDisplayNameBytes : Nat := 32

def maxChatMessageBytes : Nat := 512

def maxProtocolPayloadBytes : Nat := 2048

/-- An element of `outgoing_messages_`. The payload is kept as the message
    whose buffer it is. -/
structure OutgoingMessage where
  sessionId : UInt32
  payload : Message
  deriving DecidableEq, Repr

/-- A call of `QueueMessage` and the room system it was made in. -/
structure QueueCall where
  rooms : RoomSystem
  sessionId : UInt32
  message : Message

structure GameLogicSystem where
  roomSystem : RoomSystem
  outgoingMessages : List OutgoingMessage := []
  pendingDisconnects : List UInt32 := []
  clockReads : Nat := 0
  queueCalls : List QueueCall := []

/-- `BuildUserInfo`. -/
def buildUserInfo (session : SessionState) : UserInfo :=
  createUserInfoDirect session.userId session.displayName

/-- `BuildRoomInfo`: the count is narrowed to 32 bits. -/
def buildRoomInfo (room : RoomState) : RoomInfo :=
  createRoomInfoDirect room.roomId room.roomName (UInt32.ofNat room.members.size)

/-- The guard of `QueueMessage`. -/
def Env.fits (env : Env) (message : Message) : Bool :=
  !((env.buildMessage message).isEmpty
    || (env.buildMessage message).length > maxProtocolPayloadBytes)

namespace GameLogicSystem

/-- A server that has just been built. -/
def initial : GameLogicSystem where
  roomSystem := RoomSystem.init

def takeOutgoingMessages (g : GameLogicSystem) : List OutgoingMessage × GameLogicSystem :=
  (g.outgoingMessages, { g with outgoingMessages := [] })

def takePendingDisconnects (g : GameLogicSystem) : List UInt32 × GameLogicSystem :=
  (g.pendingDisconnects, { g with pendingDisconnects := [] })

def queueMessage (env : Env) (g : GameLogicSystem) (sessionId : UInt32) (message : Message) :
    GameLogicSystem :=
  let g := { g with queueCalls := g.queueCalls ++ [⟨g.roomSystem, sessionId, message⟩] }
  if env.fits message then
    { g with outgoingMessages := g.outgoingMessages ++ [⟨sessionId, message⟩] }
  else g

def queueLoginResponse (env : Env) (g : GameLogicSystem) (sessionId requestId : UInt32)
    (success : Bool) (errorCode : ErrorCode) (session : Option SessionState) :
    GameLogicSystem :=
  g.queueMessage env sessionId
    { requestId
      payload := .loginResponse (some {
        success, errorCode
        user := if success then session.map buildUserInfo else none }) }

/-- The rooms are listed in the order the map is visited in. The map is the one
    of the constructor, which never changes. -/
def queueRoomListResponse (env : Env) (g : GameLogicSystem) (sessionId requestId : UInt32) :
    GameLogicSystem :=
  let rooms := (env.order (UnorderedSet.ofKeys g.roomSystem.rooms.keys)).filterMap
    fun roomId => (g.roomSystem.findRoom roomId).map buildRoomInfo
  g.queueMessage env sessionId
    { requestId, payload := .roomListResponse (some { rooms := some rooms }) }

def queueJoinRoomResponse (env : Env) (g : GameLogicSystem) (sessionId requestId : UInt32)
    (success : Bool) (errorCode : ErrorCode) (room : Option RoomState) : GameLogicSystem :=
  g.queueMessage env sessionId
    { requestId
      payload := .joinRoomResponse (some {
        success, errorCode
        room := if success then room.map buildRoomInfo else none }) }

def queueLeaveRoomResponse (env : Env) (g : GameLogicSystem) (sessionId requestId : UInt32)
    (success : Bool) (errorCode : ErrorCode) : GameLogicSystem :=
  g.queueMessage env sessionId
    { requestId, payload := .leaveRoomResponse (some { success, errorCode }) }

def queueDisconnectResponse (env : Env) (g : GameLogicSystem) (sessionId requestId : UInt32)
    (success : Bool) (errorCode : ErrorCode) : GameLogicSystem :=
  g.queueMessage env sessionId
    { requestId, payload := .disconnectResponse (some { success, errorCode }) }

def queueChatBroadcast (env : Env) (g : GameLogicSystem) (sessionId roomId : UInt32)
    (sender : SessionState) (content : Bytes) : GameLogicSystem :=
  let timestamp := env.currentTimestampMs g.clockReads
  { g with clockReads := g.clockReads + 1 }.queueMessage env sessionId
    { requestId := 0
      payload := .chatBroadcast (some
        (createChatBroadcastDirect roomId sender.userId sender.displayName content timestamp)) }

def queueUserJoinedEvent (env : Env) (g : GameLogicSystem) (sessionId roomId : UInt32)
    (joinedUser : SessionState) : GameLogicSystem :=
  g.queueMessage env sessionId
    { requestId := 0
      payload := .userJoinedEvent (some { roomId, user := some (buildUserInfo joinedUser) }) }

def queueUserLeftEvent (env : Env) (g : GameLogicSystem) (sessionId roomId : UInt32)
    (leftUser : SessionState) : GameLogicSystem :=
  g.queueMessage env sessionId
    { requestId := 0
      payload := .userLeftEvent (some { roomId, user := some (buildUserInfo leftUser) }) }

def queueSystemMessage (env : Env) (g : GameLogicSystem) (sessionId roomId : UInt32)
    (content : Bytes) : GameLogicSystem :=
  g.queueMessage env sessionId
    { requestId := 0
      payload := .systemMessageEvent (some (createSystemMessageEventDirect roomId content)) }

def notifyRoomLeave (env : Env) (g : GameLogicSystem) (session : SessionState) :
    GameLogicSystem :=
  if session.roomId = noRoomId ∨ session.loggedIn = false then g
  else
    let remainingMembers := g.roomSystem.getRoomMembers env.toIteration session.roomId
      (some session.sessionId)
    remainingMembers.foldl
      (fun g member => g.queueUserLeftEvent env member.sessionId session.roomId session) g

def handleSessionConnected (g : GameLogicSystem) (sessionId : UInt32) : GameLogicSystem :=
  { g with roomSystem := g.roomSystem.addSession sessionId }

def handleSessionDisconnected (env : Env) (g : GameLogicSystem) (sessionId : UInt32) :
    GameLogicSystem :=
  let g := match g.roomSystem.findSession sessionId with
    | some session => g.notifyRoomLeave env session
    | none => g
  { g with roomSystem := g.roomSystem.removeSession sessionId }

def handleInvalidPacket (env : Env) (g : GameLogicSystem) (sessionId : UInt32)
    (message : Bytes) : GameLogicSystem :=
  g.queueSystemMessage env sessionId 0 message

def handleLoginRequest (env : Env) (g : GameLogicSystem) (sessionId requestId : UInt32)
    (displayName : Bytes) : GameLogicSystem :=
  match g.roomSystem.findSession sessionId with
  | none => g
  | some _ =>
    if displayName.isEmpty then
      g.queueLoginResponse env sessionId requestId false .invalidName none
    else if displayName.length > maxDisplayNameBytes then
      g.queueLoginResponse env sessionId requestId false .invalidName none
    else if g.roomSystem.isDisplayNameTaken displayName sessionId then
      g.queueLoginResponse env sessionId requestId false .duplicateName none
    else
      let g := { g with roomSystem := g.roomSystem.setLoggedIn sessionId displayName }
      g.queueLoginResponse env sessionId requestId true .none
        (g.roomSystem.findSession sessionId)

def handleRoomListRequest (env : Env) (g : GameLogicSystem) (sessionId requestId : UInt32) :
    GameLogicSystem :=
  g.queueRoomListResponse env sessionId requestId

/-- The notifications of a successful join: the newcomer is announced to
    every member that was there, and each of them to the newcomer. -/
def notifyRoomJoin (env : Env) (g : GameLogicSystem) (sessionId : UInt32)
    (session : SessionState) (room : RoomState) (existingMembers : List SessionState) :
    GameLogicSystem :=
  existingMembers.foldl
    (fun g otherSession =>
      if otherSession.loggedIn = false then g
      else
        let g := g.queueUserJoinedEvent env otherSession.sessionId room.roomId session
        g.queueUserJoinedEvent env sessionId room.roomId otherSession) g

def handleJoinRoomRequest (env : Env) (g : GameLogicSystem)
    (sessionId requestId roomId : UInt32) : GameLogicSystem :=
  match g.roomSystem.findSession sessionId with
  | none => g
  | some session =>
    if session.loggedIn = false then
      g.queueJoinRoomResponse env sessionId requestId false .invalidName none
    else match g.roomSystem.findRoom roomId with
    | none => g.queueJoinRoomResponse env sessionId requestId false .roomNotFound none
    | some room =>
      if session.roomId = roomId then
        g.queueJoinRoomResponse env sessionId requestId false .alreadyInRoom (some room)
      else
        let g :=
          if session.roomId ≠ noRoomId then
            let g := g.notifyRoomLeave env session
            { g with roomSystem := g.roomSystem.removeSessionFromCurrentRoom sessionId }
          else g
        let existingMembers := g.roomSystem.getRoomMembers env.toIteration roomId
        let g := { g with roomSystem := g.roomSystem.moveSessionToRoom sessionId roomId }
        match g.roomSystem.findSession sessionId, g.roomSystem.findRoom roomId with
        | some session, some room =>
          let g := g.queueJoinRoomResponse env sessionId requestId true .none (some room)
          let g := g.queueSystemMessage env sessionId room.roomId
            (room.roomName ++ utf8 " 방에 입장했습니다.")
          g.notifyRoomJoin env sessionId session room existingMembers
        -- Both lookups succeeded above and neither update removes a key; the
        -- source dereferences the pointers without a check.
        | _, _ => g

def handleChatSendRequest (env : Env) (g : GameLogicSystem) (sessionId : UInt32)
    (content : Bytes) : GameLogicSystem :=
  match g.roomSystem.findSession sessionId with
  | none => g
  | some session =>
    if session.loggedIn = false then g
    else if session.roomId = noRoomId then
      g.queueSystemMessage env sessionId 0 (utf8 "채팅을 보내기 전에 먼저 방에 입장해야 합니다.")
    else if content.isEmpty then
      g.queueSystemMessage env sessionId session.roomId (utf8 "빈 메시지는 전송할 수 없습니다.")
    else if content.length > maxChatMessageBytes then
      g.queueSystemMessage env sessionId session.roomId (utf8 "메시지가 너무 깁니다.")
    else
      (g.roomSystem.getRoomMembers env.toIteration session.roomId).foldl
        (fun g member =>
          g.queueChatBroadcast env member.sessionId session.roomId session content) g

def handleLeaveRoomRequest (env : Env) (g : GameLogicSystem) (sessionId requestId : UInt32) :
    GameLogicSystem :=
  match g.roomSystem.findSession sessionId with
  | none => g
  | some session =>
    if session.roomId = noRoomId then
      g.queueLeaveRoomResponse env sessionId requestId false .notInRoom
    else
      let g := g.notifyRoomLeave env session
      let g := { g with
        roomSystem := g.roomSystem.removeSessionFromCurrentRoom sessionId }
      let g := g.queueLeaveRoomResponse env sessionId requestId true .none
      g.queueSystemMessage env sessionId session.roomId (utf8 "방에서 퇴장했습니다.")

def handleDisconnectRequest (env : Env) (g : GameLogicSystem) (sessionId requestId : UInt32) :
    GameLogicSystem :=
  let g := g.queueDisconnectResponse env sessionId requestId true .none
  let g := match g.roomSystem.findSession sessionId with
    | some session => g.notifyRoomLeave env session
    | none => g
  { g with
    roomSystem := g.roomSystem.removeSession sessionId
    pendingDisconnects := g.pendingDisconnects ++ [sessionId] }

/-- The `std::visit` of `Update`. -/
def handleEvent (env : Env) (g : GameLogicSystem) : ServerEvent → GameLogicSystem
  | .sessionConnected sessionId => g.handleSessionConnected sessionId
  | .sessionDisconnected sessionId => g.handleSessionDisconnected env sessionId
  | .invalidPacket sessionId message => g.handleInvalidPacket env sessionId message
  | .loginRequest sessionId requestId displayName =>
      g.handleLoginRequest env sessionId requestId displayName
  | .roomListRequest sessionId requestId => g.handleRoomListRequest env sessionId requestId
  | .joinRoomRequest sessionId requestId roomId =>
      g.handleJoinRoomRequest env sessionId requestId roomId
  | .chatSendRequest sessionId _ content => g.handleChatSendRequest env sessionId content
  | .leaveRoomRequest sessionId requestId => g.handleLeaveRoomRequest env sessionId requestId
  | .disconnectRequest sessionId requestId =>
      g.handleDisconnectRequest env sessionId requestId

def update (env : Env) (g : GameLogicSystem) (events : List ServerEvent) : GameLogicSystem :=
  events.foldl (handleEvent env) g

end GameLogicSystem

end ProjectNight
