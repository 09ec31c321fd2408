import ProjectNight.Core.ChatProtocolClient

/-!
# Chat Window

`ChatClientFrame.cpp` again, this time what the window shows: the list of
users, the current room, the rooms to choose from and the chat log, and the
handlers that read or write them. `Core.ChatClientFrame` has the other half of
the class, the connection, and records the events given to
`ProcessProtocolEvent`; here is what that function does with them.

The widgets are wxWidgets. A `wxString` is its characters. Converting between
characters and bytes, and the comparison a list box makes when it looks for an
entry, belong to the library and are fields of `Wx`. `FindString` is called
without its second argument, so it ignores case; it returns the first match.

The label of the current room and the status bar are written and never read,
and the message boxes leave everything as it was. They are left out.

## Main definitions

* `WxString`, `Wx`: Text, and what is taken from the library.
* `ChatWindow`: What the window shows.
* `addUser`, `removeUser`, `applyJoinedRoom`, `applyRoomList`: Its updates.
* `processProtocolEvent`: What an event does to the window.
* `loadMockData`: The window at the start.
* `getSelectedRoom`, `chatText`: What the buttons look at.
-/

namespace ProjectNight

/-- The characters of a `wxString`. -/
abbrev WxString := List Char

/-- What the window takes from wxWidgets: `FromUTF8`, which yields an empty
    string for bytes that are not valid UTF-8; `ToStdString`; and the
    comparison without case that `FindString` makes. -/
structure Wx where
  fromUTF8 : Bytes → WxString
  toStdString : WxString → Bytes
  sameNoCase : WxString → WxString → Bool

/-- An element of `rooms_`. -/
structure RoomEntry where
  roomId : UInt32
  roomName : WxString
  userCount : UInt32
  deriving DecidableEq, Repr

structure ChatWindow where
  displayNameCtrl : WxString := "NightUser".toList
  rooms : List RoomEntry := []
  userList : List WxString := []
  chatLog : WxString := []
  currentRoomId : UInt32 := 0
  deriving DecidableEq, Repr

/-- The white space `wxString::Trim` removes. -/
def isSpace (c : Char) : Bool :=
  c = ' ' || c = '\t' || c = '\n' || c = '\r' || c = '\x0b' || c = '\x0c'

/-- `Trimmed`: first the right end, then the left. -/
def trimmed (value : WxString) : WxString :=
  (value.rdropWhile isSpace).dropWhile isSpace

namespace ChatWindow

variable (wx : Wx)

def appendLine (w : ChatWindow) (line : WxString) : ChatWindow :=
  if w.chatLog.isEmpty then { w with chatLog := line }
  else { w with chatLog := w.chatLog ++ '\n' :: line }

def appendSystemMessage (w : ChatWindow) (message : WxString) : ChatWindow :=
  w.appendLine ("[System] ".toList ++ message)

def appendChatMessage (w : ChatWindow) (sender content : WxString) : ChatWindow :=
  w.appendLine ('[' :: sender ++ "] ".toList ++ content)

/-- `wxListBox::FindString`: the index of the first match. -/
def findString (w : ChatWindow) (name : WxString) : Option Nat :=
  w.userList.findIdx? (fun entry => wx.sameNoCase entry name)

def addUser (w : ChatWindow) (name : WxString) : ChatWindow :=
  if name.isEmpty then w
  else match w.findString wx name with
    | none => { w with userList := w.userList ++ [name] }
    | some _ => w

def removeUser (w : ChatWindow) (name : WxString) : ChatWindow :=
  match w.findString wx name with
  | none => w
  | some index => { w with userList := w.userList.eraseIdx index }

/-- The overload for one room, in the loop of the other. -/
def applyRoomList (w : ChatWindow) (rooms : List ChatRoomInfo) : ChatWindow :=
  { w with rooms := rooms.map fun room =>
      ⟨room.roomId, wx.fromUTF8 room.roomName, room.userCount⟩ }

def applyJoinedRoom (w : ChatWindow) (room : ChatRoomInfo) : ChatWindow :=
  { w with currentRoomId := room.roomId }

def processProtocolEvent (w : ChatWindow) : ChatProtocolEvent → ChatWindow
  | .loginSucceeded displayName =>
    let displayName := if displayName.isEmpty then trimmed w.displayNameCtrl
      else wx.fromUTF8 displayName
    (w.addUser wx displayName).appendSystemMessage (displayName ++ " logged in.".toList)
  | .loginFailed errorMessage =>
    w.appendSystemMessage ("Login failed: ".toList ++ wx.fromUTF8 errorMessage)
  | .roomList rooms => w.applyRoomList wx rooms
  | .joinRoomSucceeded room =>
    (w.applyJoinedRoom room).appendSystemMessage
      ("Joined room #".toList ++ (toString room.roomId).toList ++ ".".toList)
  | .joinRoomFailed errorMessage =>
    w.appendSystemMessage ("Join room failed: ".toList ++ wx.fromUTF8 errorMessage)
  | .messageReceived _ senderName content =>
    w.appendChatMessage (wx.fromUTF8 senderName) (wx.fromUTF8 content)
  | .userJoined _ displayName =>
    let name := wx.fromUTF8 displayName
    (w.addUser wx name).appendSystemMessage (name ++ " joined.".toList)
  | .userLeft _ displayName =>
    let name := wx.fromUTF8 displayName
    (w.removeUser wx name).appendSystemMessage (name ++ " left.".toList)
  | .systemMessage _ content => w.appendSystemMessage (wx.fromUTF8 content)
  | .protocolError message => w.appendSystemMessage (wx.fromUTF8 message)

/-- `CreateMockEvents`. -/
def createMockEvents : List ChatProtocolEvent :=
  [.roomList [
      { roomId := 1001, roomName := utf8 "Lobby", userCount := 12 },
      { roomId := 1002, roomName := utf8 "Dev", userCount := 5 },
      { roomId := 1003, roomName := utf8 "Chat", userCount := 8 }],
    .systemMessage 1001 (utf8 "Schema-based chat UI skeleton is ready.")]

/-- `LoadMockData`, which the constructor calls: everything is cleared, and the
    mock events are processed. -/
def loadMockData (w : ChatWindow) : ChatWindow :=
  createMockEvents.foldl (processProtocolEvent wx)
    { w with rooms := [], userList := [], chatLog := [], currentRoomId := 0 }

/-- `GetSelectedRoom`, when row `selected` of the list is selected. -/
def getSelectedRoom (w : ChatWindow) (selected : Nat) : Option RoomEntry := w.rooms[selected]?

/-- The text `OnSendClicked` sends when the input field holds `input`, if it
    sends any. -/
def chatText (w : ChatWindow) (input : WxString) : Option Bytes :=
  if w.currentRoomId = 0 then none
  else if (trimmed input).isEmpty then none
  else some (wx.toStdString (trimmed input))

end ChatWindow

end ProjectNight
