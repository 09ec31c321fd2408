import ProjectNight.Lib.Format
import ProjectNight.Core.NetworkSystem
import ProjectNight.Theory.Framing
import ProjectNight.Theory.NameView

/-!
# Buffers

What the theorems about both ends of a connection assume of FlatBuffers, and a
format that has all of it. The runtime is not part of the repository, so the
statements take a `Codec`: what one side builds passes the verifier of the
other and shows the same tables (`Codec.Faithful`), and a message is not much
longer than its strings (`Env.Compact`). Where a theory needs only that certain
short messages pass the size guard, it assumes that; it follows.

`plainCodec` writes the tables one field after the other. It is no
FlatBuffers, but it shows that the assumptions go together, and it can be run.

## Main definitions

* `Codec.Faithful`: What is built is read back.
* `Env.LoginResponsesFit`: A confirmation of a login with a short name fits.
* `Message.roomEntries`, `Message.stringsLength`: What the size of a message
  depends on.
* `Env.Compact`: The size of a finished buffer.
* `Message.Small`: A message that is far from every limit.
* `messageFormat`, `plainCodec`: A codec with these properties.

## Theorems

* `Env.Compact.fits`: Small messages pass the guard.
* `Env.Compact.noticesFit`, `Env.Compact.loginResponsesFit`: The assumptions of
  other theories.
* `faithful_plainCodec`, `compact_plainCodec`: The codec has the properties.
-/

namespace ProjectNight

open Wire

/-- A buffer that is sent passes verification, and its root is the message it
    was built from. -/
def Codec.Faithful (codec : Codec) : Prop :=
  ∀ m : Message, codec.fits m = true → codec.verifiedMessage (codec.buildMessage m) = some m

/-- The confirmation of a login holds one string. With a name that passed the
    checks it fits. -/
def Env.LoginResponsesFit (env : Env) : Prop :=
  ∀ (requestId : UInt32) (session : SessionState),
    session.displayName.length ≤ maxDisplayNameBytes →
      env.fits (loginResponseMessage requestId true .none (some session)) = true

/-! ### The size of a message -/

def RoomInfo.nameLength (room : RoomInfo) : Nat := (toUtf8 room.roomName).length

/-- The number of `RoomInfo` tables in a message. -/
def Message.roomEntries (m : Message) : Nat :=
  match m.payload with
  | .roomListResponse (some ⟨some rooms⟩) => rooms.length
  | .joinRoomResponse (some ⟨_, _, some _⟩) => 1
  | _ => 0

/-- The total length of the strings in a message. -/
def Message.stringsLength (m : Message) : Nat :=
  match m.payload with
  | .loginRequest (some table) => (toUtf8 table.displayName).length
  | .loginResponse (some ⟨_, _, some user⟩) => (toUtf8 user.displayName).length
  | .roomListResponse (some ⟨some rooms⟩) => (rooms.map RoomInfo.nameLength).sum
  | .joinRoomResponse (some ⟨_, _, some room⟩) => room.nameLength
  | .chatSendRequest (some table) => (toUtf8 table.content).length
  | .chatBroadcast (some table) =>
    (toUtf8 table.senderName).length + (toUtf8 table.content).length
  | .userJoinedEvent (some ⟨_, some user⟩) | .userLeftEvent (some ⟨_, some user⟩) =>
    (toUtf8 user.displayName).length
  | .systemMessageEvent (some table) => (toUtf8 table.content).length
  | _ => 0

/-- A buffer is never empty. With up to three rooms in it, it takes up to 512
    bytes besides its strings. -/
def Env.Compact (env : Env) : Prop :=
  ∀ m : Message, m.roomEntries ≤ 3 →
    env.buildMessage m ≠ [] ∧ (env.buildMessage m).length ≤ 512 + m.stringsLength

/-- Short enough for every limit. -/
def Message.Small (m : Message) : Prop := m.roomEntries ≤ 3 ∧ m.stringsLength ≤ 1024

theorem Env.fits_iff (env : Env) (m : Message) :
    env.fits m = true ↔ Sendable (env.buildMessage m) := by
  unfold Env.fits Sendable maxProtocolPayloadBytes maxPayloadSize
  rw [Bool.not_eq_true', Bool.or_eq_false_iff, List.isEmpty_eq_false_iff,
    decide_eq_false_iff_not, not_lt]

theorem Env.Compact.fits {env : Env} (h : env.Compact) {m : Message} (hm : m.Small) :
    env.fits m = true := by
  have hsize := h m hm.1
  have hstrings := hm.2
  refine (env.fits_iff m).mpr ⟨hsize.1, ?_⟩
  unfold maxPayloadSize
  omega

theorem Env.Compact.noticesFit {env : Env} (h : env.Compact) : env.NoticesFit := by
  intro m hloud htext
  refine h.fits ?_
  -- The one string of the message is its text; without a room or a user it has
  -- none.
  have hshort : m.textLength ≤ 1024 := htext.trans (by decide)
  rcases m with ⟨requestId, payload⟩
  cases payload with
  | joinRoomResponse table =>
      rcases table with _ | ⟨success, code, _ | room⟩
      · exact ⟨Nat.zero_le _, Nat.zero_le _⟩
      · exact ⟨Nat.zero_le _, Nat.zero_le _⟩
      · exact ⟨Nat.le_add_left 1 2, hshort⟩
  | userJoinedEvent table =>
      rcases table with _ | ⟨roomId, _ | user⟩
      · exact ⟨Nat.zero_le _, Nat.zero_le _⟩
      · exact ⟨Nat.zero_le _, Nat.zero_le _⟩
      · exact ⟨Nat.zero_le _, hshort⟩
  | userLeftEvent table =>
      rcases table with _ | ⟨roomId, _ | user⟩
      · exact ⟨Nat.zero_le _, Nat.zero_le _⟩
      · exact ⟨Nat.zero_le _, Nat.zero_le _⟩
      · exact ⟨Nat.zero_le _, hshort⟩
  | _ => exact absurd ⟨rfl, rfl⟩ hloud

theorem Env.Compact.loginResponsesFit {env : Env} (h : env.Compact) : env.LoginResponsesFit := by
  intro requestId session hname
  have hcut := length_cStr_le session.displayName
  unfold maxDisplayNameBytes at hname
  refine h.fits ⟨Nat.zero_le _, ?_⟩
  change (cStr session.displayName).length ≤ 1024
  omega

/-! ### A codec -/

section Formats

open Format

def errorCodes : List ErrorCode :=
  [.none, .invalidName, .duplicateName, .roomNotFound, .roomFull, .notInRoom, .invalidMessage,
    .alreadyInRoom, .internalError]

def errorCodeNumber : ErrorCode → UInt16
  | .unknown code => code.1
  | code => UInt16.ofNat code.ctorIdx

def errorCodeOf (number : UInt16) : Option ErrorCode :=
  if h : 8 < number then some (.unknown ⟨number, h⟩) else errorCodes[number.toNat]?

theorem errorCodeOf_number (code : ErrorCode) :
    errorCodeOf (errorCodeNumber code) = some code := by
  cases code with
  | unknown code => exact dif_pos code.2
  | _ => rfl

def errorCodeFormat : Format ErrorCode :=
  short.map errorCodeOf errorCodeNumber errorCodeOf_number

def otherFormat : Format { type : UInt8 // type = 0 ∨ 15 < type } :=
  byte.map (fun b => if h : b = 0 ∨ 15 < b then some ⟨b, h⟩ else none) Subtype.val
    (fun type => dif_pos type.2)

def userInfoFormat : Format UserInfo :=
  (word.seq bytes.option).map (fun p => some ⟨p.1, p.2⟩) (fun u => (u.userId, u.displayName))
    (fun _ => rfl)

def roomInfoFormat : Format RoomInfo :=
  (word.seq (bytes.option.seq word)).map (fun p => some ⟨p.1, p.2.1, p.2.2⟩)
    (fun r => (r.roomId, r.roomName, r.userCount)) (fun _ => rfl)

def loginRequestFormat : Format LoginRequest :=
  bytes.option.map (fun p => some ⟨p⟩) LoginRequest.displayName (fun _ => rfl)

def loginResponseFormat : Format LoginResponse :=
  (flag.seq (errorCodeFormat.seq userInfoFormat.option)).map
    (fun p => some ⟨p.1, p.2.1, p.2.2⟩) (fun r => (r.success, r.errorCode, r.user))
    (fun _ => rfl)

def roomListResponseFormat : Format RoomListResponse :=
  roomInfoFormat.list.option.map (fun p => some ⟨p⟩) RoomListResponse.rooms (fun _ => rfl)

def joinRoomRequestFormat : Format JoinRoomRequest :=
  word.map (fun p => some ⟨p⟩) JoinRoomRequest.roomId (fun _ => rfl)

def joinRoomResponseFormat : Format JoinRoomResponse :=
  (flag.seq (errorCodeFormat.seq roomInfoFormat.option)).map
    (fun p => some ⟨p.1, p.2.1, p.2.2⟩) (fun r => (r.success, r.errorCode, r.room))
    (fun _ => rfl)

def chatSendRequestFormat : Format ChatSendRequest :=
  bytes.option.map (fun p => some ⟨p⟩) ChatSendRequest.content (fun _ => rfl)

def chatBroadcastFormat : Format ChatBroadcast :=
  (word.seq (word.seq (bytes.option.seq (bytes.option.seq long)))).map
    (fun p => some ⟨p.1, p.2.1, p.2.2.1, p.2.2.2.1, p.2.2.2.2⟩)
    (fun b => (b.roomId, b.senderId, b.senderName, b.content, b.timestamp)) (fun _ => rfl)

def statusResponseFormat : Format StatusResponse :=
  (flag.seq errorCodeFormat).map (fun p => some ⟨p.1, p.2⟩) (fun r => (r.success, r.errorCode))
    (fun _ => rfl)

def userEventFormat : Format UserEvent :=
  (word.seq userInfoFormat.option).map (fun p => some ⟨p.1, p.2⟩) (fun e => (e.roomId, e.user))
    (fun _ => rfl)

def systemMessageEventFormat : Format SystemMessageEvent :=
  (word.seq bytes.option).map (fun p => some ⟨p.1, p.2⟩) (fun e => (e.roomId, e.content))
    (fun _ => rfl)

/-- The type byte of the union and its value. -/
def putPayload : MessagePayload → List UInt8
  | .other type => 0 :: otherFormat.put type
  | .loginRequest table => 1 :: loginRequestFormat.option.put table
  | .loginResponse table => 2 :: loginResponseFormat.option.put table
  | .roomListRequest table => 3 :: unit.option.put table
  | .roomListResponse table => 4 :: roomListResponseFormat.option.put table
  | .joinRoomRequest table => 5 :: joinRoomRequestFormat.option.put table
  | .joinRoomResponse table => 6 :: joinRoomResponseFormat.option.put table
  | .chatSendRequest table => 7 :: chatSendRequestFormat.option.put table
  | .chatBroadcast table => 8 :: chatBroadcastFormat.option.put table
  | .leaveRoomRequest table => 9 :: unit.option.put table
  | .leaveRoomResponse table => 10 :: statusResponseFormat.option.put table
  | .disconnectRequest table => 11 :: unit.option.put table
  | .disconnectResponse table => 12 :: statusResponseFormat.option.put table
  | .userJoinedEvent table => 13 :: userEventFormat.option.put table
  | .userLeftEvent table => 14 :: userEventFormat.option.put table
  | .systemMessageEvent table => 15 :: systemMessageEventFormat.option.put table

/-- The readers of the union, by type byte. -/
def payloadReaders : List (List UInt8 → Option (MessagePayload × List UInt8)) :=
  [otherFormat.into .other, loginRequestFormat.option.into .loginRequest,
    loginResponseFormat.option.into .loginResponse, unit.option.into .roomListRequest,
    roomListResponseFormat.option.into .roomListResponse,
    joinRoomRequestFormat.option.into .joinRoomRequest,
    joinRoomResponseFormat.option.into .joinRoomResponse,
    chatSendRequestFormat.option.into .chatSendRequest,
    chatBroadcastFormat.option.into .chatBroadcast, unit.option.into .leaveRoomRequest,
    statusResponseFormat.option.into .leaveRoomResponse, unit.option.into .disconnectRequest,
    statusResponseFormat.option.into .disconnectResponse,
    userEventFormat.option.into .userJoinedEvent, userEventFormat.option.into .userLeftEvent,
    systemMessageEventFormat.option.into .systemMessageEvent]

def payloadFormat : Format MessagePayload where
  put := putPayload
  get
    | [] => none
    | type :: input => payloadReaders[type.toNat]?.bind (fun reader => reader input)
  get_put payload rest h := by
    cases payload <;>
      · rw [putPayload, List.length_cons] at h
        exact into_put _ _ _ rest (by omega)

def messageFormat : Format Message :=
  (word.seq payloadFormat).map (fun p => some ⟨p.1, p.2⟩) (fun m => (m.requestId, m.payload))
    (fun _ => rfl)

/-- The tables of a message, field after field. -/
def plainCodec : Codec where
  toIteration := .ascending
  buildMessage := messageFormat.put
  currentTimestampMs _ := 0
  verifiedMessage data := (messageFormat.get data).map Prod.fst

theorem faithful_plainCodec : plainCodec.Faithful := by
  intro m hfits
  have hlen : (messageFormat.put m).length ≤ maxPayloadSize :=
    ((plainCodec.fits_iff m).mp hfits).2
  have hread := messageFormat.get_put m [] (by unfold maxPayloadSize at hlen; omega)
  rw [List.append_nil] at hread
  exact congrArg (Option.map Prod.fst) hread

-- A message takes its request id, the type byte and the table.
theorem length_plainCodec (m : Message) :
    (plainCodec.buildMessage m).length = 4 + (putPayload m.payload).length :=
  (length_seq word payloadFormat (m.requestId, m.payload)).trans (by rw [length_word]; rfl)

theorem length_string (s : Option Bytes) :
    (bytes.option.put s).length ≤ 5 + (toUtf8 s).length := by
  cases s with
  | none =>
      rw [length_option_none]
      omega
  | some s =>
      rw [length_option_some, length_bytes, toUtf8, Option.getD_some]
      omega

theorem length_roomInfo (room : RoomInfo) :
    (roomInfoFormat.put room).length ≤ 13 + room.nameLength := by
  have hname := length_string room.roomName
  simp only [roomInfoFormat, length_map, length_seq, length_word]
  unfold RoomInfo.nameLength
  omega

theorem length_roomInfos (rooms : List RoomInfo) :
    (roomInfoFormat.putList rooms).length
      ≤ 1 + 14 * rooms.length + (rooms.map RoomInfo.nameLength).sum := by
  induction rooms with
  | nil => exact Nat.le_refl _
  | cons room rooms ih =>
      have hroom := length_roomInfo room
      rw [putList, List.cons_append, List.length_cons, List.length_append, List.length_cons,
        List.map_cons, List.sum_cons]
      omega

theorem length_userInfo (user : UserInfo) :
    (userInfoFormat.put user).length ≤ 9 + (toUtf8 user.displayName).length := by
  have hname := length_string user.displayName
  simp only [userInfoFormat, length_map, length_seq, length_word]
  omega

theorem length_long (n : UInt64) : (long.put n).length = 8 := length_putFixed 8 n.toNat

/-- A payload is its type and its table, if there is one. -/
theorem length_tagged {α : Type} {f : Format α} {table : Option α} {n : Nat} (tag : UInt8)
    (h : ∀ t, table = some t → (f.put t).length ≤ 98 + n) :
    (tag :: f.option.put table).length ≤ 100 + n := by
  have hle := length_option_le h
  rw [List.length_cons]
  omega

theorem length_statusResponse (table : StatusResponse) :
    (statusResponseFormat.put table).length = 3 := by
  simp only [statusResponseFormat, flag, errorCodeFormat, length_byte, length_short, length_map,
    length_seq]

theorem length_userEvent (event : UserEvent) {n : Nat}
    (h : ∀ user, event.user = some user → (toUtf8 user.displayName).length ≤ n) :
    (userEventFormat.put event).length ≤ 14 + n := by
  have huser : (userInfoFormat.option.put event.user).length ≤ 1 + (9 + n) := by
    refine length_option_le fun user hsome => ?_
    have hname := h user hsome
    exact (length_userInfo user).trans (by omega)
  simp only [userEventFormat, length_map, length_seq, length_word]
  omega

/-- Each table takes a few bytes besides its strings and its rooms. -/
theorem length_putPayload (m : Message) (hrooms : m.roomEntries ≤ 3) :
    (putPayload m.payload).length ≤ 100 + m.stringsLength := by
  rcases m with ⟨requestId, payload⟩
  unfold Message.roomEntries at hrooms
  unfold Message.stringsLength
  cases payload with
  | other type =>
      simp only [putPayload, otherFormat, length_map, List.length_cons, length_byte]
      omega
  | loginRequest table =>
      refine length_tagged 1 ?_
      rintro table rfl
      have hname := length_string table.displayName
      simp only [loginRequestFormat, length_map]
      omega
  | loginResponse table =>
      refine length_tagged 2 ?_
      rintro ⟨success, code, _ | user⟩ rfl
      · simp only [loginResponseFormat, flag, errorCodeFormat, length_byte, length_short,
          length_map, length_seq, length_option_none]
        omega
      · have huser := length_userInfo user
        simp only [loginResponseFormat, flag, errorCodeFormat, length_byte, length_short,
          length_map, length_seq, length_option_some]
        omega
  | roomListResponse table =>
      refine length_tagged 4 ?_
      rintro ⟨_ | rooms⟩ rfl
      · simp only [roomListResponseFormat, length_map, length_option_none]
        omega
      · have hlist := length_roomInfos rooms
        simp only [roomListResponseFormat, length_map, length_option_some]
        simp only at hrooms
        change 1 + (roomInfoFormat.putList rooms).length ≤ _
        omega
  | joinRoomRequest table =>
      refine length_tagged 5 ?_
      rintro table rfl
      simp only [joinRoomRequestFormat, length_map, length_word]
      omega
  | joinRoomResponse table =>
      refine length_tagged 6 ?_
      rintro ⟨success, code, _ | room⟩ rfl
      · simp only [joinRoomResponseFormat, flag, errorCodeFormat, length_byte, length_short,
          length_map, length_seq, length_option_none]
        omega
      · have hroom := length_roomInfo room
        simp only [joinRoomResponseFormat, flag, errorCodeFormat, length_byte, length_short,
          length_map, length_seq, length_option_some]
        omega
  | chatSendRequest table =>
      refine length_tagged 7 ?_
      rintro table rfl
      have hcontent := length_string table.content
      simp only [chatSendRequestFormat, length_map]
      omega
  | chatBroadcast table =>
      refine length_tagged 8 ?_
      rintro table rfl
      have hname := length_string table.senderName
      have hcontent := length_string table.content
      simp only [chatBroadcastFormat, length_map, length_seq, length_word, length_long]
      omega
  | userJoinedEvent table =>
      refine length_tagged 13 ?_
      rintro ⟨roomId, user⟩ rfl
      refine (length_userEvent _ ?_).trans (Nat.add_le_add_right (Nat.le_of_ble_eq_true rfl) _)
      rintro user rfl
      exact Nat.le_refl _
  | userLeftEvent table =>
      refine length_tagged 14 ?_
      rintro ⟨roomId, user⟩ rfl
      refine (length_userEvent _ ?_).trans (Nat.add_le_add_right (Nat.le_of_ble_eq_true rfl) _)
      rintro user rfl
      exact Nat.le_refl _
  | systemMessageEvent table =>
      refine length_tagged 15 ?_
      rintro table rfl
      have hcontent := length_string table.content
      simp only [systemMessageEventFormat, length_map, length_seq, length_word]
      omega
  | leaveRoomResponse table =>
      refine length_tagged 10 fun table _ => ?_
      rw [length_statusResponse]
      omega
  | disconnectResponse table =>
      refine length_tagged 12 fun table _ => ?_
      rw [length_statusResponse]
      omega
  | roomListRequest table => exact length_tagged 3 fun _ _ => Nat.zero_le _
  | leaveRoomRequest table => exact length_tagged 9 fun _ _ => Nat.zero_le _
  | disconnectRequest table => exact length_tagged 11 fun _ _ => Nat.zero_le _

theorem compact_plainCodec : plainCodec.Compact := by
  intro m hrooms
  have hlen := length_plainCodec m
  have hpayload := length_putPayload m hrooms
  refine ⟨fun hnil => ?_, by omega⟩
  rw [hnil, List.length_nil] at hlen
  omega

end Formats

end ProjectNight
