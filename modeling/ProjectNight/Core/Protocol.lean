import Mathlib.Data.List.DropRight

/-!
# Protocol Messages

The tables of `schema/messages.fbs` as the generated header exposes them, and
the string helpers of `ProtocolUtil.h`. The FlatBuffers runtime is not part of
the repository, so a message is kept as the tables a reader finds in it; the
bytes a buffer finishes to are a parameter of the layers that need them.

A table reference and a string are nullable in FlatBuffers. A reader gets a
null pointer where nothing was written, so both are an `Option` here, and a
union whose type byte is set while its value is absent is a constructor
holding `none`.

The generated `Create…Direct` builders take a `const char*`. They measure it
with `strlen`, so what reaches the wire is the part of the string before its
first NUL byte, which is `cStr`. `ToUtf8` reads back with an explicit length
and loses nothing.

## Main definitions

* `Bytes`: A byte string, the content of a `std::string` or a buffer.
* `utf8`: The bytes of a string literal of the source.
* `cStr`: The part of a byte string a C string shows.
* `MessagePayload`: The union of the schema's tables.
* `Message`: The root table.
* `toUtf8`: Reading a nullable string back.
-/

namespace ProjectNight

/-- The content of a `std::string` or of a buffer. -/
abbrev Bytes := List UInt8

/-- The bytes of a string literal; the sources are compiled as UTF-8. -/
def utf8 (s : String) : Bytes := s.toUTF8.data.toList

/-- What a reader of `s.c_str()` sees: the bytes before the first NUL. -/
def cStr (s : Bytes) : Bytes := s.takeWhile (· ≠ 0)

/-- `enum ErrorCode : ushort` of the schema. The generated verifier lets other
    numbers pass as well; they are `unknown`. -/
inductive ErrorCode where
  | none
  | invalidName
  | duplicateName
  | roomNotFound
  | roomFull
  | notInRoom
  | invalidMessage
  | alreadyInRoom
  | internalError
  | unknown (code : { code : UInt16 // 8 < code })
  deriving DecidableEq, Repr

structure UserInfo where
  userId : UInt32
  displayName : Option Bytes
  deriving DecidableEq, Repr

structure RoomInfo where
  roomId : UInt32
  roomName : Option Bytes
  userCount : UInt32
  deriving DecidableEq, Repr

structure LoginRequest where
  displayName : Option Bytes
  deriving DecidableEq, Repr

structure LoginResponse where
  success : Bool
  errorCode : ErrorCode
  user : Option UserInfo
  deriving DecidableEq, Repr

structure RoomListResponse where
  rooms : Option (List RoomInfo)
  deriving DecidableEq, Repr

structure JoinRoomRequest where
  roomId : UInt32
  deriving DecidableEq, Repr

structure JoinRoomResponse where
  success : Bool
  errorCode : ErrorCode
  room : Option RoomInfo
  deriving DecidableEq, Repr

structure ChatSendRequest where
  content : Option Bytes
  deriving DecidableEq, Repr

structure ChatBroadcast where
  roomId : UInt32
  senderId : UInt32
  senderName : Option Bytes
  content : Option Bytes
  timestamp : UInt64
  deriving DecidableEq, Repr

/-- `LeaveRoomResponse` and `DisconnectResponse` have the same two fields. -/
structure StatusResponse where
  success : Bool
  errorCode : ErrorCode
  deriving DecidableEq, Repr

/-- `UserJoinedEvent` and `UserLeftEvent` have the same two fields. -/
structure UserEvent where
  roomId : UInt32
  user : Option UserInfo
  deriving DecidableEq, Repr

structure SystemMessageEvent where
  roomId : UInt32
  content : Option Bytes
  deriving DecidableEq, Repr

/-- The union of the root table. The constructor is the type byte; `other`
    stands for `NONE`, which is 0, and for the bytes above 15, which the schema
    gives no meaning and the generated verifier accepts. -/
inductive MessagePayload where
  | other (type : { type : UInt8 // type = 0 ∨ 15 < type })
  | loginRequest (table : Option LoginRequest)
  | loginResponse (table : Option LoginResponse)
  | roomListRequest (table : Option Unit)
  | roomListResponse (table : Option RoomListResponse)
  | joinRoomRequest (table : Option JoinRoomRequest)
  | joinRoomResponse (table : Option JoinRoomResponse)
  | chatSendRequest (table : Option ChatSendRequest)
  | chatBroadcast (table : Option ChatBroadcast)
  | leaveRoomRequest (table : Option Unit)
  | leaveRoomResponse (table : Option StatusResponse)
  | disconnectRequest (table : Option Unit)
  | disconnectResponse (table : Option StatusResponse)
  | userJoinedEvent (table : Option UserEvent)
  | userLeftEvent (table : Option UserEvent)
  | systemMessageEvent (table : Option SystemMessageEvent)
  deriving DecidableEq, Repr

structure Message where
  requestId : UInt32
  payload : MessagePayload
  deriving DecidableEq, Repr

/-- `ToUtf8(const flatbuffers::String*)`: a null string reads as empty. -/
def toUtf8 (value : Option Bytes) : Bytes := value.getD []

/-- `CreateUserInfoDirect`: the name passes through a `const char*`. -/
def createUserInfoDirect (userId : UInt32) (displayName : Bytes) : UserInfo :=
  { userId, displayName := some (cStr displayName) }

/-- `CreateRoomInfoDirect`. -/
def createRoomInfoDirect (roomId : UInt32) (roomName : Bytes) (userCount : UInt32) : RoomInfo :=
  { roomId, roomName := some (cStr roomName), userCount }

/-- `CreateChatBroadcastDirect`: both strings pass through a `const char*`. -/
def createChatBroadcastDirect (roomId senderId : UInt32) (senderName content : Bytes)
    (timestamp : UInt64) : ChatBroadcast :=
  { roomId, senderId, senderName := some (cStr senderName), content := some (cStr content),
    timestamp }

/-- `CreateSystemMessageEventDirect`. -/
def createSystemMessageEventDirect (roomId : UInt32) (content : Bytes) : SystemMessageEvent :=
  { roomId, content := some (cStr content) }

/-- A name without a NUL byte survives the `const char*`. -/
theorem cStr_eq_self (s : Bytes) (h : (0 : UInt8) ∉ s) : cStr s = s := by
  unfold cStr
  rw [List.takeWhile_eq_self_iff]
  intro b hb
  simp only [ne_eq, decide_not, Bool.not_eq_true', decide_eq_false_iff_not]
  rintro rfl
  exact h hb

/-- A byte string survives the `const char*` only when it has no NUL byte. -/
theorem cStr_eq_self_iff (s : Bytes) : cStr s = s ↔ (0 : UInt8) ∉ s := by
  refine ⟨fun h h0 => ?_, cStr_eq_self s⟩
  rw [← h] at h0
  have := List.mem_takeWhile_imp h0
  simp only [ne_eq, not_true_eq_false, decide_false, Bool.false_eq_true] at this

end ProjectNight
