import ProjectNight.Theory.Effects

/-!
# What Is Built

`effect` lists the messages of an event in order. For a property of single
messages the order does not matter, only what the messages can be and what is
known of the data in them: whose name a notice carries, which checks a line
has passed, where a text comes from. `Builds` has one constructor for each
call of a builder in the handlers, with the facts that hold where the call is
made.

## Main definitions

* `chatRefusals`: The texts that answer a chat line which is not accepted.
* `Builds`: An event may build a message.

## Theorems

* `builds_of_mem`: Every message of an effect is built in one of these ways.
-/

namespace ProjectNight

def chatRefusals : List Bytes :=
  [utf8 "채팅을 보내기 전에 먼저 방에 입장해야 합니다.", utf8 "빈 메시지는 전송할 수 없습니다.",
    utf8 "메시지가 너무 깁니다."]

/-- An event may build a message in room system `rs`. -/
inductive Builds (env : Env) (rs : RoomSystem) : ServerEvent → Message → Prop where
  | invalidPacket (s : UInt32) (text : Bytes) :
      Builds env rs (.invalidPacket s text) (systemMessage 0 text)
  | loginRefused (s requestId : UInt32) (name : Bytes) (code : ErrorCode) :
      Builds env rs (.loginRequest s requestId name)
        (loginResponseMessage requestId false code none)
  | loginAccepted (s requestId : UInt32) (name : Bytes) (session : SessionState)
      (h : LoginAccepted rs s name) :
      Builds env rs (.loginRequest s requestId name) (loginResponseMessage requestId true .none
        (some { session with loggedIn := true, displayName := name }))
  | roomList (s requestId : UInt32) :
      Builds env rs (.roomListRequest s requestId) (roomListMessage env rs requestId)
  | joinRefused (s requestId r : UInt32) (code : ErrorCode) :
      Builds env rs (.joinRoomRequest s requestId r)
        (joinRoomResponseMessage requestId false code none)
  | joinAccepted (s requestId r : UInt32) (room : RoomState) (hr : rs.findRoom r = some room) :
      Builds env rs (.joinRoomRequest s requestId r) (joinRoomResponseMessage requestId true .none
        (some { room with members := room.members.insert s }))
  | welcome (s requestId r : UInt32) (room : RoomState) (hr : rs.findRoom r = some room) :
      Builds env rs (.joinRoomRequest s requestId r)
        (systemMessage r (room.roomName ++ utf8 " 방에 입장했습니다."))
  -- The newcomer is announced with its new room, the members with their own.
  | arrival (s requestId r t q : UInt32) (session : SessionState)
      (ht : rs.findSession t = some session) (hlogged : session.loggedIn = true) :
      Builds env rs (.joinRoomRequest s requestId r)
        (userJoinedMessage r { session with roomId := q })
  | departure (event : ServerEvent) (t : UInt32) (session : SessionState)
      (ht : rs.findSession t = some session) (hlogged : session.loggedIn = true) :
      Builds env rs event (userLeftMessage session.roomId session)
  | chatRefused (s requestId r : UInt32) (content text : Bytes) (h : text ∈ chatRefusals) :
      Builds env rs (.chatSendRequest s requestId content) (systemMessage r text)
  | chat (s requestId : UInt32) (content : Bytes) (session : SessionState) (timestamp : UInt64)
      (hs : rs.findSession s = some session) (hlogged : session.loggedIn = true)
      (hlen : content.length ≤ maxChatMessageBytes) :
      Builds env rs (.chatSendRequest s requestId content)
        (chatBroadcastMessage session content timestamp)
  | leaveRefused (s requestId : UInt32) :
      Builds env rs (.leaveRoomRequest s requestId)
        (leaveRoomResponseMessage requestId false .notInRoom)
  | leaveAccepted (s requestId : UInt32) :
      Builds env rs (.leaveRoomRequest s requestId) (leaveRoomResponseMessage requestId true .none)
  | goodbye (s requestId r : UInt32) :
      Builds env rs (.leaveRoomRequest s requestId) (systemMessage r (utf8 "방에서 퇴장했습니다."))
  | disconnect (s requestId : UInt32) :
      Builds env rs (.disconnectRequest s requestId) (disconnectResponseMessage requestId)

section Kinds

variable {env : Env} {rs : RoomSystem} {out : OutgoingMessage}

/-- Outside a room there is nobody to tell, and inside one a session is logged
    in. -/
theorem builds_leaveNotices (hw : rs.WellFormed) (event : ServerEvent) {s : UInt32}
    {session : SessionState} (hs : rs.findSession s = some session)
    (hout : out ∈ leaveNotices env rs session) : Builds env rs event out.payload := by
  rcases List.mem_map.mp hout with ⟨member, hmember, rfl⟩
  rcases GameLogicSystem.mem_getRoomMembers hw.toConsistent hmember with ⟨_, _, _, hne⟩
  exact .departure event s session hs (hw.loggedIn hs hne)

theorem builds_farewells (hw : rs.WellFormed) (event : ServerEvent) {s : UInt32}
    (hout : out ∈ farewells env rs s) : Builds env rs event out.payload := by
  unfold farewells at hout
  cases hs : rs.findSession s with
  | none =>
      rw [hs] at hout
      exact absurd hout List.not_mem_nil
  | some session =>
      rw [hs] at hout
      exact builds_leaveNotices hw event hs hout

theorem builds_enterNotices (hw : rs.WellFormed) {s r : UInt32} (requestId : UInt32)
    {session : SessionState} {room : RoomState} (hs : rs.findSession s = some session)
    (hlogged : session.loggedIn = true) (hr : rs.findRoom r = some room)
    (hout : out ∈ enterNotices env rs s requestId r session room) :
    Builds env rs (.joinRoomRequest s requestId r) out.payload := by
  unfold enterNotices at hout
  rcases List.mem_cons.mp hout with rfl | hout
  · exact .joinAccepted s requestId r room hr
  rcases List.mem_cons.mp hout with rfl | hout
  · exact .welcome s requestId r room hr
  rcases List.mem_flatMap.mp hout with ⟨other, hother, hout⟩
  rcases GameLogicSystem.mem_getRoomMembers hw.toConsistent hother with ⟨t, ht, hroom, hne⟩
  rcases List.mem_cons.mp hout with rfl | hout
  · exact .arrival s requestId r s r session hs hlogged
  · rw [List.mem_singleton.mp hout]
    exact .arrival s requestId r t other.roomId other ht (hw.loggedIn ht (hroom ▸ hne))

theorem builds_chat {reads : Nat} {s : UInt32} (requestId : UInt32) {content : Bytes}
    (hout : out ∈ chatMessages env reads rs s content) :
    Builds env rs (.chatSendRequest s requestId content) out.payload := by
  unfold chatMessages at hout
  cases hs : rs.findSession s with
  | none =>
      rw [hs] at hout
      exact absurd hout List.not_mem_nil
  | some session =>
      rw [hs] at hout
      simp only at hout
      split_ifs at hout with hlogged hroom hempty hlong
      · exact absurd hout List.not_mem_nil
      · rw [List.mem_singleton.mp hout]
        exact .chatRefused s requestId 0 content _ (.head _)
      · rw [List.mem_singleton.mp hout]
        exact .chatRefused s requestId _ content _ (.tail _ (.head _))
      · rw [List.mem_singleton.mp hout]
        exact .chatRefused s requestId _ content _ (.tail _ (.tail _ (.head _)))
      · rcases List.mem_map.mp hout with ⟨p, _, rfl⟩
        exact .chat s requestId content session _ hs ((Bool.not_eq_false _).mp hlogged)
          (Nat.not_lt.mp hlong)

theorem builds_of_mem (hw : rs.WellFormed) {reads : Nat} {event : ServerEvent}
    (hout : out ∈ (effect env reads rs event).messages) : Builds env rs event out.payload := by
  cases event with
  | sessionConnected s => exact absurd hout List.not_mem_nil
  | sessionDisconnected s => exact builds_farewells hw _ hout
  | invalidPacket s text =>
      rw [List.mem_singleton.mp hout]
      exact .invalidPacket s text
  | loginRequest s requestId name =>
      simp only [effect] at hout
      rcases loginEffect_cases rs s requestId name with ⟨_, he⟩ | ⟨code, _, he⟩ |
        ⟨session, hacc, _, he⟩
      · rw [he] at hout
        exact absurd hout List.not_mem_nil
      · rw [he] at hout
        rw [List.mem_singleton.mp hout]
        exact .loginRefused s requestId name code
      · rw [he] at hout
        rw [List.mem_singleton.mp hout]
        exact .loginAccepted s requestId name session hacc
  | roomListRequest s requestId =>
      rw [List.mem_singleton.mp hout]
      exact .roomList s requestId
  | joinRoomRequest s requestId r =>
      simp only [effect] at hout
      rcases joinEffect_cases env rs s requestId r with ⟨_, he⟩ | ⟨code, _, he⟩ |
        ⟨session, room, hs, hlogged, hr, _, he⟩
      · rw [he] at hout
        exact absurd hout List.not_mem_nil
      · rw [he] at hout
        rw [List.mem_singleton.mp hout]
        exact .joinRefused s requestId r code
      · rw [he] at hout
        rcases List.mem_append.mp hout with hleave | henter
        · exact builds_leaveNotices hw _ hs hleave
        · exact builds_enterNotices hw requestId hs hlogged hr henter
  | chatSendRequest s requestId content => exact builds_chat requestId hout
  | leaveRoomRequest s requestId =>
      simp only [effect] at hout
      rcases leaveEffect_cases env rs s requestId with ⟨_, he⟩ | ⟨_, he⟩ | ⟨session, hs, _, he⟩
      · rw [he] at hout
        exact absurd hout List.not_mem_nil
      · rw [he] at hout
        rw [List.mem_singleton.mp hout]
        exact .leaveRefused s requestId
      · rw [he] at hout
        rcases List.mem_append.mp hout with hleave | hreply
        · exact builds_leaveNotices hw _ hs hleave
        rcases List.mem_cons.mp hreply with rfl | hreply
        · exact .leaveAccepted s requestId
        · rw [List.mem_singleton.mp hreply]
          exact .goodbye s requestId session.roomId
  | disconnectRequest s requestId =>
      rcases List.mem_cons.mp hout with rfl | hout
      · exact .disconnect s requestId
      · exact builds_farewells hw _ hout

end Kinds

end ProjectNight
