import ProjectNight.Core.ChatWindow

/-!
# A Window and the Server

One `ChatClientFrame` and the game logic of the server it talks to, with any
number of other sessions. The user clicks, the requests travel, the game logic
handles them among the events of everybody else, and the messages queued for
the session travel back and are processed. Connections end and new ones begin;
the window stays the same object throughout.

The transport is left to the modules about it. What a connection amounts to
here is two queues in order: the requests the game logic has not handled yet,
and the messages queued for the session of which the window has processed the
first `read`. The packet that announces the session comes before its requests
(`admitted`).

The end of a connection is seen at different times. The game logic may handle
`SessionDisconnected` while the client still takes itself for connected; the
I/O thread of the client clears `connected`; and the poll tick that catches
this resets the client and enables the Connect button again. The request
buttons do nothing without a connection.

`connectClicked` names the id the server gives the session. Ids are not given
twice, so nothing is queued for it yet and it has no entry.

## Main definitions

* `Conversation`: The server, the window and what is under way between them.
* `Conversation.Action`, `Conversation.step`: A handler of the window, the
  processing of a message, an event of the game logic, or a change of the
  connection.
-/

namespace ProjectNight

structure Conversation where
  game : GameLogicSystem := .initial
  window : ChatWindow
  session : Option UInt32 := none
  connected : Bool := false
  admitted : Bool := false
  nextRequestId : UInt32 := 1
  requests : List ServerEvent := []
  read : Nat := 0

namespace Conversation

variable (codec : Codec) (wx : Wx)

/-- A fresh server and a window that has just been opened. -/
def start : Conversation where
  window := ({} : ChatWindow).loadMockData wx

/-- The messages queued for session `c`, in order. -/
def queuedFor (s : Conversation) (c : UInt32) : List OutgoingMessage :=
  s.game.outgoingMessages.filter (fun out => out.sessionId = c)

/-- A request of the session, with the next number. -/
def sendRequest (s : Conversation) (request : UInt32 → ServerEvent) : Conversation :=
  { s with
    requests := s.requests ++ [request s.nextRequestId]
    nextRequestId := s.nextRequestId + 1 }

/-- `OnConnectClicked`, when the connection was established. -/
def onConnectClicked (s : Conversation) (sessionId : UInt32) (displayName : WxString) :
    Conversation :=
  let s := { s with
    window := s.window.appendSystemMessage
      "TCP connection established. Sending schema-based requests.".toList
    session := some sessionId, connected := true, admitted := false
    nextRequestId := 1, requests := [], read := 0 }
  let s := s.sendRequest (fun id => .loginRequest sessionId id (wx.toStdString displayName))
  s.sendRequest (fun id => .roomListRequest sessionId id)

/-- `OnRefreshRoomsClicked`. -/
def onRefreshRoomsClicked (s : Conversation) (sessionId : UInt32) : Conversation :=
  let s := s.sendRequest (fun id => .roomListRequest sessionId id)
  { s with window := s.window.appendSystemMessage "Requested room list.".toList }

/-- `OnJoinRoomClicked` with row `selected` of the room list selected. -/
def onJoinRoomClicked (s : Conversation) (sessionId : UInt32) (selected : Nat) : Conversation :=
  match s.window.getSelectedRoom selected with
  | none => s
  | some room =>
    let line := "Sent join request for room #".toList ++ (toString room.roomId).toList
      ++ ".".toList
    let s := { s with window := s.window.appendSystemMessage line }
    s.sendRequest (fun id => .joinRoomRequest sessionId id room.roomId)

/-- `OnSendClicked` with `input` in the input field. -/
def onSendClicked (s : Conversation) (sessionId : UInt32) (input : WxString) : Conversation :=
  match s.window.chatText wx input with
  | none => s
  | some text => s.sendRequest (fun id => .chatSendRequest sessionId id text)

/-- The window processes the events of one packet. -/
def processMessage (w : ChatWindow) (message : Message) : ChatWindow :=
  (decodePacket codec (codec.buildMessage message)).foldl (ChatWindow.processProtocolEvent wx) w

/-- The game logic handles an event. -/
def handle (s : Conversation) (event : ServerEvent) : Conversation :=
  { s with game := s.game.handleEvent codec.toEnv event }

inductive Action where
  | typeName (text : WxString)
  | connectClicked (sessionId : UInt32)
  | refreshClicked
  | joinClicked (selected : Nat)
  | sendClicked (input : WxString)
  /-- The window processes the next message. -/
  | process
  /-- The game logic learns of the session. -/
  | announce
  /-- The game logic handles the oldest request of the session. -/
  | serve
  /-- The game logic handles an event of another session. -/
  | other (event : ServerEvent)
  /-- The game logic learns that the session has ended. -/
  | drop
  /-- The I/O thread of the client sees the end of the connection. -/
  | disconnected
  /-- The poll tick catches the end of the connection. -/
  | lost
  deriving DecidableEq, Repr

/-- The request buttons ask for the connection first. -/
def clicked (s : Conversation) (handler : UInt32 → Conversation) : Option Conversation :=
  match s.session with
  | none => none
  | some sessionId => some (if s.connected then handler sessionId else s)

def step (s : Conversation) : Action → Option Conversation
  | .typeName text => some { s with window := { s.window with displayNameCtrl := text } }
  | .connectClicked sessionId =>
    let displayName := trimmed s.window.displayNameCtrl
    if s.session = none ∧ displayName ≠ [] ∧
        s.game.roomSystem.findSession sessionId = none ∧ s.queuedFor sessionId = [] then
      some (s.onConnectClicked wx sessionId displayName)
    else none
  | .refreshClicked => s.clicked s.onRefreshRoomsClicked
  | .joinClicked selected => s.clicked (fun sessionId => s.onJoinRoomClicked sessionId selected)
  | .sendClicked input => s.clicked (fun sessionId => s.onSendClicked wx sessionId input)
  | .process =>
    match s.session with
    | none => none
    | some sessionId => (s.queuedFor sessionId)[s.read]?.map fun out =>
        { s with window := processMessage codec wx s.window out.payload, read := s.read + 1 }
  | .announce =>
    match s.session with
    | none => none
    | some sessionId =>
      if s.admitted then none
      else some { s.handle codec (.sessionConnected sessionId) with admitted := true }
  | .serve =>
    match s.requests with
    | [] => none
    | request :: requests =>
      if s.admitted then some { s.handle codec request with requests := requests } else none
  | .other event =>
    if s.session = some event.sessionId then none else some (s.handle codec event)
  | .drop =>
    match s.session with
    | none => none
    | some sessionId =>
      if s.admitted then some (s.handle codec (.sessionDisconnected sessionId)) else none
  | .disconnected => if s.session = none then none else some { s with connected := false }
  | .lost =>
    if s.session = none ∨ s.connected = true then none
    else some { s with
      window := s.window.appendSystemMessage "Server connection closed.".toList
      session := none, requests := [] }

end Conversation

end ProjectNight
