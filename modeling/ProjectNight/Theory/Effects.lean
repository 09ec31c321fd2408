import ProjectNight.Theory.NameView

/-!
# What an Event Amounts To

`Move` says what the pieces of a handler can be. For comparing two runs that
is not enough: one has to know *which* pieces, with which messages, and what
of the state the answer depends on. `effect` is that answer, written as one
function of the room system with no state passing in it: the change an event
makes to the entry and the membership of its own session, the messages it
builds, in order, and the disconnect it asks for.

The handlers reach the same result through several updates and loops. A room
switch, for one, tells the old room, leaves it, reads the members of the new
one and moves; here it is one placement computed from the state before. That
the members it reads are not affected by the leave, and that no notice is
skipped by a `logged_in` check, is part of `handleEvent_performs`, which
connects the two.

A `Change` touches one session only, so changes of different sessions commute
(`change_comm`) unless both change the member set of one room. The set would be
the same there, but not its history. What an effect reads is collected in
`Agree`: the session's own entry, the rooms it touches with the entries of
their members, the names in use and the room sizes. Two states that agree on
that give the same effect (`effect_congr`).

## Main definitions

* `Change`, `RoomSystem.change`: What an event does to the room system.
* `Effect`, `effect`: What an event amounts to.
* `JoinAccepted`, `LeaveAccepted`: The checks of the join and leave handlers.
* `GameLogicSystem.built`: The messages handed to `QueueMessage`.
* `Performs`: A step of the game logic has a given effect.
* `Touches`: The rooms an event concerns.
* `Agree`: Two room systems look the same to an event.

## Theorems

* `loginEffect_cases`, `joinEffect_cases`, `leaveEffect_cases`: The outcomes of
  a request that can be refused.
* `effect_change_cases`: Which event makes which change.
* `handleEvent_performs`: Every handler has its effect.
* `change_comm`: Changes of different sessions commute in different rooms.
* `effect_congr`: An effect depends on nothing but what `Agree` lists.
* `recipient_of_mem`: Who is told.
-/

namespace ProjectNight

/-- What an event does to the room system, as far as its own session goes. -/
inductive Change where
  | keep
  | add
  | login (name : Bytes)
  | place (roomId : UInt32)
  | remove
  deriving DecidableEq, Repr

/-- A session erased from the table and from every member set. -/
def RoomSystem.forget (rs : RoomSystem) (s : UInt32) : RoomSystem where
  sessions := rs.sessions.erase s
  rooms := rs.rooms.map (fun _ room => { room with members := room.members.erase s })

def RoomSystem.change (rs : RoomSystem) (s : UInt32) : Change → RoomSystem
  | .keep => rs
  | .add => rs.addSession s
  | .login name => rs.setLoggedIn s name
  | .place r => rs.assign s r
  | .remove => rs.forget s

structure Effect where
  change : Change := .keep
  messages : List OutgoingMessage := []
  disconnects : List UInt32 := []

section Effects

variable (env : Env)

/-- The leave notice of `session` to the rest of its room. -/
def leaveNotices (rs : RoomSystem) (session : SessionState) : List OutgoingMessage :=
  (rs.getRoomMembers env.toIteration session.roomId (some session.sessionId)).map
    fun member => ⟨member.sessionId, userLeftMessage session.roomId session⟩

/-- The confirmation of a join of `room` by `session`, and the arrival
    announced both ways. -/
def enterNotices (rs : RoomSystem) (s requestId r : UInt32) (session : SessionState)
    (room : RoomState) : List OutgoingMessage :=
  ⟨s, joinRoomResponseMessage requestId true .none
    (some { room with members := room.members.insert s })⟩ ::
  ⟨s, systemMessage r (room.roomName ++ utf8 " 방에 입장했습니다.")⟩ ::
  (rs.getRoomMembers env.toIteration r).flatMap fun other =>
    [⟨other.sessionId, userJoinedMessage r { session with roomId := r }⟩,
      ⟨s, userJoinedMessage r other⟩]

def roomListMessage (rs : RoomSystem) (requestId : UInt32) : Message where
  requestId := requestId
  payload := .roomListResponse (some {
    rooms := some ((env.order (UnorderedSet.ofKeys rs.rooms.keys)).filterMap
      fun roomId => (rs.findRoom roomId).map buildRoomInfo) })

def leaveRoomResponseMessage (requestId : UInt32) (success : Bool) (errorCode : ErrorCode) :
    Message where
  requestId := requestId
  payload := .leaveRoomResponse (some { success, errorCode })

def disconnectResponseMessage (requestId : UInt32) : Message where
  requestId := requestId
  payload := .disconnectResponse (some { success := true, errorCode := .none })

/-- The leave notices of a session that may not exist. -/
def farewells (rs : RoomSystem) (s : UInt32) : List OutgoingMessage :=
  match rs.findSession s with
  | none => []
  | some session => leaveNotices env rs session

def loginEffect (rs : RoomSystem) (s requestId : UInt32) (name : Bytes) : Effect :=
  match rs.findSession s with
  | none => {}
  | some session =>
    if name = [] ∨ maxDisplayNameBytes < name.length then
      { messages := [⟨s, loginResponseMessage requestId false .invalidName none⟩] }
    else if rs.isDisplayNameTaken name s then
      { messages := [⟨s, loginResponseMessage requestId false .duplicateName none⟩] }
    else
      { change := .login name
        messages := [⟨s, loginResponseMessage requestId true .none
          (some { session with loggedIn := true, displayName := name })⟩] }

def joinEffect (rs : RoomSystem) (s requestId r : UInt32) : Effect :=
  match rs.findSession s with
  | none => {}
  | some session =>
    if session.loggedIn = false then
      { messages := [⟨s, joinRoomResponseMessage requestId false .invalidName none⟩] }
    else match rs.findRoom r with
    | none => { messages := [⟨s, joinRoomResponseMessage requestId false .roomNotFound none⟩] }
    | some room =>
      if session.roomId = r then
        { messages := [⟨s, joinRoomResponseMessage requestId false .alreadyInRoom none⟩] }
      else
        { change := .place r
          messages := leaveNotices env rs session
            ++ enterNotices env rs s requestId r session room }

/-- The answer to a chat line; `reads` clock readings were made before. -/
def chatMessages (reads : Nat) (rs : RoomSystem) (s : UInt32) (content : Bytes) :
    List OutgoingMessage :=
  match rs.findSession s with
  | none => []
  | some session =>
    if session.loggedIn = false then []
    else if session.roomId = noRoomId then
      [⟨s, systemMessage 0 (utf8 "채팅을 보내기 전에 먼저 방에 입장해야 합니다.")⟩]
    else if content = [] then
      [⟨s, systemMessage session.roomId (utf8 "빈 메시지는 전송할 수 없습니다.")⟩]
    else if maxChatMessageBytes < content.length then
      [⟨s, systemMessage session.roomId (utf8 "메시지가 너무 깁니다.")⟩]
    else
      ((rs.getRoomMembers env.toIteration session.roomId).zipIdx reads).map fun p =>
        ⟨p.1.sessionId, chatBroadcastMessage session content (env.currentTimestampMs p.2)⟩

def leaveEffect (rs : RoomSystem) (s requestId : UInt32) : Effect :=
  match rs.findSession s with
  | none => {}
  | some session =>
    if session.roomId = noRoomId then
      { messages := [⟨s, leaveRoomResponseMessage requestId false .notInRoom⟩] }
    else
      { change := .place noRoomId
        messages := leaveNotices env rs session
          ++ [⟨s, leaveRoomResponseMessage requestId true .none⟩,
            ⟨s, systemMessage session.roomId (utf8 "방에서 퇴장했습니다.")⟩] }

/-- What an event amounts to in room system `rs`, when the clock has been read
    `reads` times. -/
def effect (reads : Nat) (rs : RoomSystem) : ServerEvent → Effect
  | .sessionConnected _ => { change := .add }
  | .sessionDisconnected s => { change := .remove, messages := farewells env rs s }
  | .invalidPacket s message => { messages := [⟨s, systemMessage 0 message⟩] }
  | .loginRequest s requestId name => loginEffect rs s requestId name
  | .roomListRequest s requestId => { messages := [⟨s, roomListMessage env rs requestId⟩] }
  | .joinRoomRequest s requestId r => joinEffect env rs s requestId r
  | .chatSendRequest s _ content => { messages := chatMessages env reads rs s content }
  | .leaveRoomRequest s requestId => leaveEffect env rs s requestId
  | .disconnectRequest s requestId =>
      { change := .remove
        messages := ⟨s, disconnectResponseMessage requestId⟩ :: farewells env rs s
        disconnects := [s] }

end Effects

/-! ### The three requests that can be refused -/

/-- The checks in front of a move to another room. -/
def JoinAccepted (rs : RoomSystem) (s r : UInt32) : Prop :=
  ∃ session room, rs.findSession s = some session ∧ session.loggedIn = true ∧
    rs.findRoom r = some room ∧ session.roomId ≠ r

/-- The check in front of a leave. -/
def LeaveAccepted (rs : RoomSystem) (s : UInt32) : Prop :=
  ∃ session, rs.findSession s = some session ∧ session.roomId ≠ noRoomId

-- An unknown session is ignored, a failed check is answered with an error, and
-- what passes all checks is done.
theorem loginEffect_cases (rs : RoomSystem) (s requestId : UInt32) (name : Bytes) :
    (rs.findSession s = none ∧ loginEffect rs s requestId name = {}) ∨
    (∃ code, ¬ LoginAccepted rs s name ∧ loginEffect rs s requestId name
      = { messages := [⟨s, loginResponseMessage requestId false code none⟩] }) ∨
    (∃ session, LoginAccepted rs s name ∧ rs.findSession s = some session ∧
      loginEffect rs s requestId name = {
        change := .login name
        messages := [⟨s, loginResponseMessage requestId true .none
          (some { session with loggedIn := true, displayName := name })⟩] }) := by
  unfold loginEffect
  cases hs : rs.findSession s with
  | none => exact Or.inl ⟨rfl, rfl⟩
  | some session =>
      right
      simp only
      by_cases hname : name = [] ∨ maxDisplayNameBytes < name.length
      · rw [if_pos hname]
        refine Or.inl ⟨_, fun hacc => ?_, rfl⟩
        rcases hname with hempty | hlong
        · exact hacc.2.1 hempty
        · have hlen := hacc.2.2.1
          omega
      rw [if_neg hname]
      by_cases htaken : rs.isDisplayNameTaken name s = true
      · rw [if_pos htaken]
        refine Or.inl ⟨_, fun hacc => ?_, rfl⟩
        rw [hacc.2.2.2] at htaken
        exact Bool.false_ne_true htaken
      · rw [if_neg htaken]
        rw [not_or] at hname
        rw [Bool.not_eq_true] at htaken
        exact Or.inr ⟨session, ⟨⟨session, hs⟩, hname.1, by omega, htaken⟩, rfl, rfl⟩

theorem joinEffect_cases (env : Env) (rs : RoomSystem) (s requestId r : UInt32) :
    (rs.findSession s = none ∧ joinEffect env rs s requestId r = {}) ∨
    (∃ code, ¬ JoinAccepted rs s r ∧ joinEffect env rs s requestId r
      = { messages := [⟨s, joinRoomResponseMessage requestId false code none⟩] }) ∨
    (∃ session room, rs.findSession s = some session ∧ session.loggedIn = true ∧
      rs.findRoom r = some room ∧ session.roomId ≠ r ∧
      joinEffect env rs s requestId r = {
        change := .place r
        messages := leaveNotices env rs session
          ++ enterNotices env rs s requestId r session room }) := by
  unfold joinEffect
  cases hs : rs.findSession s with
  | none => exact Or.inl ⟨rfl, rfl⟩
  | some session =>
      right
      simp only
      -- Whatever the accepted join would need is a fact about this entry.
      have honly : JoinAccepted rs s r → session.loggedIn = true ∧
          (∃ room, rs.findRoom r = some room) ∧ session.roomId ≠ r := by
        rintro ⟨session', room, hs', hlogged, hr, hne⟩
        rw [hs, Option.some.injEq] at hs'
        rw [hs']
        exact ⟨hlogged, ⟨room, hr⟩, hne⟩
      by_cases hlogged : session.loggedIn = false
      · rw [if_pos hlogged]
        refine Or.inl ⟨_, fun hacc => ?_, rfl⟩
        exact Bool.false_ne_true (hlogged.symm.trans (honly hacc).1)
      rw [if_neg hlogged]
      rw [Bool.not_eq_false] at hlogged
      cases hr : rs.findRoom r with
      | none =>
          refine Or.inl ⟨_, fun hacc => ?_, rfl⟩
          rcases (honly hacc).2.1 with ⟨room, hroom⟩
          rw [hr] at hroom
          exact absurd hroom (by simp only [reduceCtorEq, not_false_eq_true])
      | some room =>
          simp only
          by_cases hsame : session.roomId = r
          · rw [if_pos hsame]
            exact Or.inl ⟨_, fun hacc => (honly hacc).2.2 hsame, rfl⟩
          · rw [if_neg hsame]
            exact Or.inr ⟨session, room, rfl, hlogged, rfl, hsame, rfl⟩

theorem leaveEffect_cases (env : Env) (rs : RoomSystem) (s requestId : UInt32) :
    (rs.findSession s = none ∧ leaveEffect env rs s requestId = {}) ∨
    (¬ LeaveAccepted rs s ∧ leaveEffect env rs s requestId
      = { messages := [⟨s, leaveRoomResponseMessage requestId false .notInRoom⟩] }) ∨
    (∃ session, rs.findSession s = some session ∧ session.roomId ≠ noRoomId ∧
      leaveEffect env rs s requestId = {
        change := .place noRoomId
        messages := leaveNotices env rs session
          ++ [⟨s, leaveRoomResponseMessage requestId true .none⟩,
            ⟨s, systemMessage session.roomId (utf8 "방에서 퇴장했습니다.")⟩] }) := by
  unfold leaveEffect
  cases hs : rs.findSession s with
  | none => exact Or.inl ⟨rfl, rfl⟩
  | some session =>
      right
      simp only
      by_cases hroom : session.roomId = noRoomId
      · rw [if_pos hroom]
        refine Or.inl ⟨?_, rfl⟩
        rintro ⟨session', hs', hne⟩
        rw [hs, Option.some.injEq] at hs'
        exact hne (hs' ▸ hroom)
      · rw [if_neg hroom]
        exact Or.inr ⟨session, rfl, hroom, rfl⟩

theorem joinEffect_of_accepted (env : Env) {rs : RoomSystem} {s r : UInt32} (requestId : UInt32)
    {session : SessionState} {room : RoomState} (hs : rs.findSession s = some session)
    (hlogged : session.loggedIn = true) (hr : rs.findRoom r = some room)
    (hne : session.roomId ≠ r) :
    joinEffect env rs s requestId r = {
      change := .place r
      messages := leaveNotices env rs session
        ++ enterNotices env rs s requestId r session room } := by
  have hin : ¬ session.loggedIn = false := by
    rw [hlogged]
    exact fun hc => Bool.false_ne_true hc.symm
  simp only [joinEffect, hs, hr, if_neg hin, if_neg hne]

theorem leaveEffect_of_accepted (env : Env) {rs : RoomSystem} {s : UInt32} (requestId : UInt32)
    {session : SessionState} (hs : rs.findSession s = some session)
    (hroom : session.roomId ≠ noRoomId) :
    leaveEffect env rs s requestId = {
      change := .place noRoomId
      messages := leaveNotices env rs session
        ++ [⟨s, leaveRoomResponseMessage requestId true .none⟩,
          ⟨s, systemMessage session.roomId (utf8 "방에서 퇴장했습니다.")⟩] } := by
  simp only [leaveEffect, hs, if_neg hroom]

/-- An event that removes its session. -/
def ServerEvent.IsRemoval : ServerEvent → Prop
  | .sessionDisconnected _ | .disconnectRequest _ _ => True
  | _ => False

-- Which event makes which change.
theorem effect_change_cases (env : Env) (reads : Nat) (rs : RoomSystem) (event : ServerEvent) :
    (effect env reads rs event).change = .keep ∨
    (∃ s, event = .sessionConnected s ∧ (effect env reads rs event).change = .add) ∨
    (∃ s requestId name, event = .loginRequest s requestId name ∧
      LoginAccepted rs s name ∧ (effect env reads rs event).change = .login name) ∨
    (∃ s requestId r, event = .joinRoomRequest s requestId r ∧
      JoinAccepted rs s r ∧ (effect env reads rs event).change = .place r) ∨
    (∃ s requestId, event = .leaveRoomRequest s requestId ∧
      LeaveAccepted rs s ∧ (effect env reads rs event).change = .place noRoomId) ∨
    (event.IsRemoval ∧ (effect env reads rs event).change = .remove) := by
  cases event with
  | sessionConnected s => exact Or.inr (Or.inl ⟨s, rfl, rfl⟩)
  | sessionDisconnected s => exact Or.inr (Or.inr (Or.inr (Or.inr (Or.inr ⟨trivial, rfl⟩))))
  | invalidPacket s message => exact Or.inl rfl
  | loginRequest s requestId name =>
      simp only [effect]
      rcases loginEffect_cases rs s requestId name with ⟨_, he⟩ | ⟨_, _, he⟩ | ⟨_, hacc, _, he⟩
      · exact Or.inl (by rw [he])
      · exact Or.inl (by rw [he])
      · exact Or.inr (Or.inr (Or.inl ⟨s, requestId, name, rfl, hacc, by rw [he]⟩))
  | roomListRequest s requestId => exact Or.inl rfl
  | joinRoomRequest s requestId r =>
      simp only [effect]
      rcases joinEffect_cases env rs s requestId r with ⟨_, he⟩ | ⟨_, _, he⟩ |
        ⟨session, room, hs, hlogged, hr, hne, he⟩
      · exact Or.inl (by rw [he])
      · exact Or.inl (by rw [he])
      · exact Or.inr (Or.inr (Or.inr (Or.inl ⟨s, requestId, r, rfl,
          ⟨session, room, hs, hlogged, hr, hne⟩, by rw [he]⟩)))
  | chatSendRequest s requestId content => exact Or.inl rfl
  | leaveRoomRequest s requestId =>
      simp only [effect]
      rcases leaveEffect_cases env rs s requestId with ⟨_, he⟩ | ⟨_, he⟩ | ⟨session, hs, hne, he⟩
      · exact Or.inl (by rw [he])
      · exact Or.inl (by rw [he])
      · exact Or.inr (Or.inr (Or.inr (Or.inr (Or.inl ⟨s, requestId, rfl,
          ⟨session, hs, hne⟩, by rw [he]⟩))))
  | disconnectRequest s requestId =>
      exact Or.inr (Or.inr (Or.inr (Or.inr (Or.inr ⟨trivial, rfl⟩))))

/-- Only a disconnect request asks for a disconnect, and of its own session. -/
theorem eq_of_mem_disconnects {env : Env} {reads : Nat} {rs : RoomSystem} {event : ServerEvent}
    {d : UInt32} (h : d ∈ (effect env reads rs event).disconnects) : d = event.sessionId := by
  cases event with
  | sessionConnected s => exact absurd h List.not_mem_nil
  | sessionDisconnected s => exact absurd h List.not_mem_nil
  | invalidPacket s message => exact absurd h List.not_mem_nil
  | loginRequest s requestId name =>
      simp only [effect] at h
      rcases loginEffect_cases rs s requestId name with ⟨_, he⟩ | ⟨_, _, he⟩ | ⟨_, _, _, he⟩ <;>
        · rw [he] at h
          exact absurd h List.not_mem_nil
  | roomListRequest s requestId => exact absurd h List.not_mem_nil
  | joinRoomRequest s requestId r =>
      simp only [effect] at h
      rcases joinEffect_cases env rs s requestId r with ⟨_, he⟩ | ⟨_, _, he⟩ |
        ⟨_, _, _, _, _, _, he⟩ <;>
        · rw [he] at h
          exact absurd h List.not_mem_nil
  | chatSendRequest s requestId content => exact absurd h List.not_mem_nil
  | leaveRoomRequest s requestId =>
      simp only [effect] at h
      rcases leaveEffect_cases env rs s requestId with ⟨_, he⟩ | ⟨_, he⟩ | ⟨_, _, _, he⟩ <;>
        · rw [he] at h
          exact absurd h List.not_mem_nil
  | disconnectRequest s requestId => exact List.mem_singleton.mp h

/-- The recipient and the message of a call. -/
def QueueCall.outgoing (call : QueueCall) : OutgoingMessage := ⟨call.sessionId, call.message⟩

/-- Every message handed to `QueueMessage` so far. -/
def GameLogicSystem.built (g : GameLogicSystem) : List OutgoingMessage :=
  g.queueCalls.map QueueCall.outgoing

/-- The step from `g` to `g'` is `e`, performed for session `s`. -/
structure Performs (g : GameLogicSystem) (s : UInt32) (e : Effect) (g' : GameLogicSystem) :
    Prop where
  roomSystem : g'.roomSystem = g.roomSystem.change s e.change
  built : g'.built = g.built ++ e.messages
  pendingDisconnects : g'.pendingDisconnects = g.pendingDisconnects ++ e.disconnects

/-! ### The members of a room -/

namespace RoomSystem

/-- The members a loop visits depend on the member set and on the entries of
    the members that are not skipped. -/
theorem getRoomMembers_congr {rs rs' : RoomSystem} (it : Iteration) (r : UInt32)
    (exclude : Option UInt32)
    (hroom : (rs.findRoom r).map RoomState.members = (rs'.findRoom r).map RoomState.members)
    (hsessions : ∀ t, rs.IsMember t r → exclude ≠ some t →
      rs.findSession t = rs'.findSession t) :
    rs.getRoomMembers it r exclude = rs'.getRoomMembers it r exclude := by
  unfold getRoomMembers
  cases hr : rs.findRoom r with
  | none =>
      rw [hr, Option.map_none, eq_comm, Option.map_eq_none_iff] at hroom
      rw [hroom]
  | some room =>
      rw [hr, Option.map_some, eq_comm, Option.map_eq_some_iff] at hroom
      rcases hroom with ⟨room', hr', hmembers⟩
      rw [hr']
      simp only [hmembers]
      refine List.filterMap_congr (fun t ht => ?_)
      by_cases hex : exclude = some t
      · rw [if_pos hex, if_pos hex]
      · rw [if_neg hex, if_neg hex]
        exact hsessions t ⟨room, hr, (it.mem_order _ _).mp ht⟩ hex

theorem Consistent.getRoomMembers_noRoomId {rs : RoomSystem} (h : rs.Consistent)
    (it : Iteration) (exclude : Option UInt32) : rs.getRoomMembers it noRoomId exclude = [] := by
  unfold getRoomMembers
  rw [h.findRoom_noRoomId]

/-- Placing a session elsewhere changes nothing in a room it is not in. -/
theorem findRoom_assign_elsewhere {rs : RoomSystem} {s r q : UInt32} (hq : q ≠ r)
    (hnot : ¬ rs.IsMember s q) : (rs.assign s r).findRoom q = rs.findRoom q := by
  rw [findRoom_assign]
  cases hr : rs.findRoom q with
  | none => rfl
  | some room =>
      have hs : s ∉ room.members := fun hm => hnot ⟨room, hr, hm⟩
      rw [Option.map_some, if_neg hq, UnorderedSet.erase_eq_self hs]

theorem findSession_forget (rs : RoomSystem) (s t : UInt32) :
    (rs.forget s).findSession t = if s = t then none else rs.findSession t :=
  TreeMap.getElem?_erase_ite rs.sessions s t

theorem findRoom_forget (rs : RoomSystem) (s q : UInt32) :
    (rs.forget s).findRoom q
      = (rs.findRoom q).map (fun room => { room with members := room.members.erase s }) := by
  simp only [forget, findRoom, Std.ExtTreeMap.getElem?_map]

/-- `RemoveSession` erases the session from the one room it names, and in a
    consistent state no other room has it. -/
theorem Consistent.removeSession_eq_forget {rs : RoomSystem} (h : rs.Consistent) (s : UInt32) :
    rs.removeSession s = rs.forget s := by
  refine ext_find _ _ (fun t => ?_) (fun q => ?_)
  · rw [findSession_removeSession h, findSession_forget]
  · rw [findRoom_removeSession h, h.findRoom_assign_noRoomId, findRoom_forget]

end RoomSystem

/-! ### The handlers -/

namespace GameLogicSystem

section Queueing

variable (env : Env)

@[simp] theorem built_queueMessage (g : GameLogicSystem) (s : UInt32) (m : Message) :
    (g.queueMessage env s m).built = g.built ++ [⟨s, m⟩] := by
  unfold built
  rw [queueCalls_queueMessage, List.map_append]
  rfl

@[simp] theorem pendingDisconnects_queueMessage (g : GameLogicSystem) (s : UInt32)
    (m : Message) : (g.queueMessage env s m).pendingDisconnects = g.pendingDisconnects := by
  unfold queueMessage
  split <;> rfl

/-- A loop whose body keeps the pending disconnects keeps them. -/
theorem pendingDisconnects_foldl {α : Type} (body : GameLogicSystem → α → GameLogicSystem)
    (hbody : ∀ g a, (body g a).pendingDisconnects = g.pendingDisconnects) (l : List α)
    (g : GameLogicSystem) : (l.foldl body g).pendingDisconnects = g.pendingDisconnects := by
  induction l generalizing g with
  | nil => rfl
  | cons a l ih => rw [List.foldl_cons, ih, hbody]

@[simp] theorem pendingDisconnects_notifyRoomLeave (g : GameLogicSystem)
    (session : SessionState) :
    (g.notifyRoomLeave env session).pendingDisconnects = g.pendingDisconnects := by
  unfold notifyRoomLeave
  split_ifs
  · rfl
  · exact pendingDisconnects_foldl _ (fun g _ => pendingDisconnects_queueMessage env g _ _) _ g

@[simp] theorem pendingDisconnects_notifyRoomJoin (g : GameLogicSystem) (s : UInt32)
    (session : SessionState) (room : RoomState) (members : List SessionState) :
    (g.notifyRoomJoin env s session room members).pendingDisconnects
      = g.pendingDisconnects := by
  refine pendingDisconnects_foldl _ (fun g other => ?_) members g
  split_ifs
  · rfl
  · simp only [queueUserJoinedEvent, pendingDisconnects_queueMessage]

/-- The leave notice of a live session. In a well-formed state neither guard
    of `NotifyRoomLeave` hides anything: outside a room there is nobody to
    tell, and inside one the session is logged in. -/
theorem built_notifyRoomLeave {g : GameLogicSystem} (hw : g.roomSystem.WellFormed)
    {s : UInt32} {session : SessionState} (hs : g.roomSystem.findSession s = some session) :
    (g.notifyRoomLeave env session).built = g.built ++ leaveNotices env g.roomSystem session := by
  by_cases hroom : session.roomId = noRoomId
  · rw [notifyRoomLeave_of_noRoom env g session hroom, leaveNotices, hroom,
      hw.getRoomMembers_noRoomId, List.map_nil, List.append_nil]
  · unfold built
    rw [queueCalls_notifyRoomLeave env g session hroom (hw.loggedIn hs hroom), List.map_append,
      leaveCalls, List.map_map]
    rfl

end Queueing

variable {env : Env} {g : GameLogicSystem}

/-- Answering with one message and changing nothing. -/
theorem performs_reply (s : UInt32) (m : Message) :
    Performs g s { messages := [⟨s, m⟩] } (g.queueMessage env s m) where
  roomSystem := roomSystem_queueMessage env g s m
  built := built_queueMessage env g s m
  pendingDisconnects := by rw [pendingDisconnects_queueMessage, List.append_nil]

theorem performs_nothing (s : UInt32) : Performs g s {} g where
  roomSystem := rfl
  built := (List.append_nil _).symm
  pendingDisconnects := (List.append_nil _).symm

theorem performs_login (s requestId : UInt32) (name : Bytes) :
    Performs g s (loginEffect g.roomSystem s requestId name)
      (g.handleLoginRequest env s requestId name) := by
  unfold handleLoginRequest loginEffect
  cases hs : g.roomSystem.findSession s with
  | none => exact performs_nothing s
  | some session =>
      simp only [List.isEmpty_iff]
      by_cases hempty : name = []
      · rw [if_pos hempty, if_pos (Or.inl hempty)]
        exact performs_reply s _
      rw [if_neg hempty]
      by_cases hlong : name.length > maxDisplayNameBytes
      · rw [if_pos hlong, if_pos (Or.inr hlong)]
        exact performs_reply s _
      rw [if_neg hlong, if_neg (fun hc => hc.elim hempty hlong)]
      by_cases htaken : g.roomSystem.isDisplayNameTaken name s = true
      · rw [if_pos htaken, if_pos htaken]
        exact performs_reply s _
      rw [if_neg htaken, if_neg htaken]
      -- The response is built from the entry after the login.
      have hfound : (g.roomSystem.setLoggedIn s name).findSession s
          = some { session with loggedIn := true, displayName := name } := by
        rw [RoomSystem.findSession_setLoggedIn, if_pos rfl, hs, Option.map_some]
      refine ⟨?_, ?_, ?_⟩
      · rw [queueLoginResponse, roomSystem_queueMessage]
        rfl
      · rw [queueLoginResponse, built_queueMessage, hfound]
        rfl
      · rw [queueLoginResponse, pendingDisconnects_queueMessage, List.append_nil]

theorem performs_chat (s : UInt32) (content : Bytes) :
    Performs g s { messages := chatMessages env g.clockReads g.roomSystem s content }
      (g.handleChatSendRequest env s content) := by
  unfold handleChatSendRequest chatMessages
  cases hs : g.roomSystem.findSession s with
  | none => exact performs_nothing s
  | some session =>
      simp only [List.isEmpty_iff]
      split_ifs with hlogged hroom hempty hlong
      · exact performs_nothing s
      · exact performs_reply s _
      · exact performs_reply s _
      · exact performs_reply s _
      · have hfold := foldl_queueChatBroadcast env session content
          (g.roomSystem.getRoomMembers env.toIteration session.roomId) g
        refine ⟨hfold.1, ?_, ?_⟩
        · unfold built
          rw [hfold.2, List.map_append, List.map_map]
          rfl
        · rw [List.append_nil]
          refine pendingDisconnects_foldl _ (fun g _ => ?_) _ g
          exact pendingDisconnects_queueMessage env _ _ _

theorem performs_leave (hw : g.roomSystem.WellFormed) (s requestId : UInt32) :
    Performs g s (leaveEffect env g.roomSystem s requestId)
      (g.handleLeaveRoomRequest env s requestId) := by
  unfold handleLeaveRoomRequest leaveEffect
  cases hs : g.roomSystem.findSession s with
  | none => exact performs_nothing s
  | some session =>
      simp only
      by_cases hroom : session.roomId = noRoomId
      · rw [if_pos hroom, if_pos hroom]
        exact performs_reply s _
      rw [if_neg hroom, if_neg hroom]
      have hnotices := built_notifyRoomLeave env hw hs
      refine ⟨?_, ?_, ?_⟩
      · simp only [queueSystemMessage, queueLeaveRoomResponse, roomSystem_queueMessage,
          roomSystem_notifyRoomLeave]
        exact RoomSystem.removeSessionFromCurrentRoom_eq hw.toConsistent s
      · simp only [queueSystemMessage, queueLeaveRoomResponse, built_queueMessage]
        unfold built at hnotices ⊢
        rw [hnotices, List.append_assoc, List.append_assoc]
        rfl
      · simp only [queueSystemMessage, queueLeaveRoomResponse, pendingDisconnects_queueMessage,
          pendingDisconnects_notifyRoomLeave, List.append_nil]

/-- The leave notice of a session that may not exist. -/
theorem built_leaveIfPresent (env : Env) {g : GameLogicSystem} (hw : g.roomSystem.WellFormed)
    (s : UInt32) :
    (match g.roomSystem.findSession s with
      | some session => g.notifyRoomLeave env session
      | none => g).built = g.built ++ farewells env g.roomSystem s := by
  unfold farewells
  cases hs : g.roomSystem.findSession s with
  | none => exact (List.append_nil _).symm
  | some session => exact built_notifyRoomLeave env hw hs

theorem performs_sessionDisconnected (hw : g.roomSystem.WellFormed) (s : UInt32) :
    Performs g s { change := .remove, messages := farewells env g.roomSystem s }
      (g.handleSessionDisconnected env s) := by
  refine ⟨?_, built_leaveIfPresent env hw s, ?_⟩
  · unfold handleSessionDisconnected
    cases g.roomSystem.findSession s with
    | none => exact hw.removeSession_eq_forget s
    | some session =>
        simp only [roomSystem_notifyRoomLeave]
        exact hw.removeSession_eq_forget s
  · unfold handleSessionDisconnected
    rw [List.append_nil]
    cases g.roomSystem.findSession s with
    | none => rfl
    | some session => exact pendingDisconnects_notifyRoomLeave env g session

theorem performs_disconnect (hw : g.roomSystem.WellFormed) (s requestId : UInt32) :
    Performs g s (effect env g.clockReads g.roomSystem (.disconnectRequest s requestId))
      (g.handleDisconnectRequest env s requestId) := by
  -- The response is queued first, in the same room system.
  have hrooms : (g.queueDisconnectResponse env s requestId true .none).roomSystem
      = g.roomSystem := roomSystem_queueMessage env g s _
  have hbuilt := built_leaveIfPresent env
    (g := g.queueDisconnectResponse env s requestId true .none) (hrooms ▸ hw) s
  refine ⟨?_, ?_, ?_⟩
  · unfold handleDisconnectRequest
    simp only [hrooms]
    cases g.roomSystem.findSession s with
    | none =>
        simp only [hrooms]
        exact hw.removeSession_eq_forget s
    | some session =>
        simp only [roomSystem_notifyRoomLeave, hrooms]
        exact hw.removeSession_eq_forget s
  · refine hbuilt.trans ?_
    rw [hrooms, queueDisconnectResponse, built_queueMessage, List.append_assoc]
    rfl
  · unfold handleDisconnectRequest
    simp only [hrooms]
    cases g.roomSystem.findSession s with
    | none => simp only [queueDisconnectResponse, pendingDisconnects_queueMessage]; rfl
    | some session =>
        simp only [pendingDisconnects_notifyRoomLeave, queueDisconnectResponse,
          pendingDisconnects_queueMessage]
        rfl

/-- The part of `HandleJoinRoomRequest` after the session has left its old
    room. -/
theorem performs_enter (env : Env) {g : GameLogicSystem} (hw : g.roomSystem.WellFormed)
    {s r : UInt32} (requestId : UInt32) {session : SessionState} {room : RoomState}
    (hs : g.roomSystem.findSession s = some session)
    (hr : g.roomSystem.findRoom r = some room) :
    Performs g s { change := .place r
                   messages := enterNotices env g.roomSystem s requestId r session room }
      (let existingMembers := g.roomSystem.getRoomMembers env.toIteration r
       let g := { g with roomSystem := g.roomSystem.moveSessionToRoom s r }
       match g.roomSystem.findSession s, g.roomSystem.findRoom r with
       | some session, some room =>
         let g := g.queueJoinRoomResponse env s requestId true .none (some room)
         let g := g.queueSystemMessage env s room.roomId
           (room.roomName ++ utf8 " 방에 입장했습니다.")
         g.notifyRoomJoin env s session room existingMembers
       | _, _ => g) := by
  have hmove := RoomSystem.moveSessionToRoom_eq hw.toConsistent hs hr
  have hkey := hw.room_key r room hr
  have hs' : (g.roomSystem.assign s r).findSession s = some { session with roomId := r } := by
    rw [RoomSystem.findSession_assign, if_pos rfl, hs, Option.map_some]
  have hr' : (g.roomSystem.assign s r).findRoom r
      = some { room with members := room.members.insert s } := by
    rw [RoomSystem.findRoom_assign, hr, Option.map_some]
    simp only [if_true]
  -- Everybody already there is logged in, so the announcements skip nobody.
  have hall : ∀ member ∈ g.roomSystem.getRoomMembers env.toIteration r,
      member.loggedIn = true := by
    intro member hm
    rcases mem_getRoomMembers hw.toConsistent hm with ⟨t, ht, hmr, hne⟩
    exact hw.loggedIn ht (hmr ▸ hne)
  simp only [hmove, hs', hr']
  refine ⟨?_, ?_, ?_⟩
  · rw [(notifyRoomJoin_calls env _ s _ _ _ hall).1]
    simp only [queueSystemMessage, queueJoinRoomResponse, roomSystem_queueMessage]
    rfl
  · unfold built
    rw [(notifyRoomJoin_calls env _ s _ _ _ hall).2]
    simp only [queueSystemMessage, queueJoinRoomResponse, roomSystem_queueMessage,
      queueCalls_queueMessage, enterNotices, hkey, List.map_append, List.append_assoc,
      List.map_flatMap, List.map_cons, List.map_nil, List.cons_append, List.nil_append]
    rfl
  · simp only [pendingDisconnects_notifyRoomJoin, queueSystemMessage, queueJoinRoomResponse,
      pendingDisconnects_queueMessage, List.append_nil]

/-- Leaving the old room hides nobody from a newcomer to another one. -/
theorem enterNotices_assign {rs : RoomSystem} (hw : rs.WellFormed) {s r requestId : UInt32}
    {session : SessionState} {room : RoomState} (hs : rs.findSession s = some session)
    (hr : rs.findRoom r = some room) (hne : session.roomId ≠ r) :
    enterNotices env (rs.assign s noRoomId) s requestId r { session with roomId := noRoomId }
      { room with members := room.members.erase s }
      = enterNotices env rs s requestId r session room := by
  -- The session is not in the room it is about to enter.
  have hnot : ¬ rs.IsMember s r := hw.not_isMember hs hne
  have hout : s ∉ room.members := fun hm => hnot ⟨room, hr, hm⟩
  have hmembers : (rs.assign s noRoomId).getRoomMembers env.toIteration r
      = rs.getRoomMembers env.toIteration r := by
    refine (RoomSystem.getRoomMembers_congr env.toIteration r none ?_ (fun t ht _ => ?_)).symm
    · rw [RoomSystem.findRoom_assign_elsewhere (hw.ne_noRoomId hr) hnot]
    · have hts : s ≠ t := by
        rintro rfl
        exact hnot ht
      rw [RoomSystem.findSession_assign, if_neg hts]
  unfold enterNotices
  rw [hmembers, UnorderedSet.erase_eq_self hout]

theorem performs_join (hw : g.roomSystem.WellFormed) (s requestId r : UInt32) :
    Performs g s (joinEffect env g.roomSystem s requestId r)
      (g.handleJoinRoomRequest env s requestId r) := by
  unfold handleJoinRoomRequest joinEffect
  cases hs : g.roomSystem.findSession s with
  | none => exact performs_nothing s
  | some session =>
      simp only
      by_cases hlogged : session.loggedIn = false
      · rw [if_pos hlogged, if_pos hlogged]
        exact performs_reply s _
      rw [if_neg hlogged, if_neg hlogged]
      cases hr : g.roomSystem.findRoom r with
      | none => exact performs_reply s _
      | some room =>
          simp only
          by_cases hsame : session.roomId = r
          · rw [if_pos hsame, if_pos hsame]
            exact performs_reply s _
          rw [if_neg hsame, if_neg hsame]
          by_cases hroom : session.roomId = noRoomId
          · -- From no room: nobody to tell.
            have hnone : leaveNotices env g.roomSystem session = [] := by
              rw [leaveNotices, hroom, hw.getRoomMembers_noRoomId, List.map_nil]
            simp only [ne_eq, hroom, not_true_eq_false, if_false, hnone, List.nil_append]
            exact performs_enter env hw requestId hs hr
          · -- A room switch: out of the old room first.
            simp only [ne_eq, hroom, not_false_eq_true, if_true]
            have hrooms : (g.notifyRoomLeave env session).roomSystem.removeSessionFromCurrentRoom s
                = g.roomSystem.assign s noRoomId := by
              rw [roomSystem_notifyRoomLeave,
                RoomSystem.removeSessionFromCurrentRoom_eq hw.toConsistent]
            have hw' : (g.roomSystem.assign s noRoomId).WellFormed :=
              RoomSystem.wellFormed_assign hw (Or.inl rfl)
            have hs' : (g.roomSystem.assign s noRoomId).findSession s
                = some { session with roomId := noRoomId } := by
              rw [RoomSystem.findSession_assign, if_pos rfl, hs, Option.map_some]
            have hr' : (g.roomSystem.assign s noRoomId).findRoom r
                = some { room with members := room.members.erase s } := by
              rw [hw.findRoom_assign_noRoomId, hr, Option.map_some]
            simp only [hrooms]
            have henter := performs_enter env
              (g := { g.notifyRoomLeave env session with
                roomSystem := g.roomSystem.assign s noRoomId }) hw' requestId hs' hr'
            refine ⟨henter.roomSystem.trans ?_, henter.built.trans ?_,
              henter.pendingDisconnects.trans ?_⟩
            · exact hw.assign_assign (hw.not_isMember hs hsame)
            · simp only [enterNotices_assign hw hs hr hsame]
              rw [← List.append_assoc, ← built_notifyRoomLeave env hw hs]
              rfl
            · simp only [pendingDisconnects_notifyRoomLeave]

/-- In a well-formed state every handler does what its effect says. -/
theorem handleEvent_performs (env : Env) {g : GameLogicSystem} (hw : g.roomSystem.WellFormed)
    (event : ServerEvent) :
    Performs g event.sessionId (effect env g.clockReads g.roomSystem event)
      (handleEvent env g event) := by
  cases event with
  | sessionConnected s => exact ⟨rfl, (List.append_nil _).symm, (List.append_nil _).symm⟩
  | sessionDisconnected s => exact performs_sessionDisconnected hw s
  | invalidPacket s message => exact performs_reply s _
  | loginRequest s requestId name => exact performs_login s requestId name
  | roomListRequest s requestId => exact performs_reply s _
  | joinRoomRequest s requestId r => exact performs_join hw s requestId r
  | chatSendRequest s requestId content => exact performs_chat s content
  | leaveRoomRequest s requestId => exact performs_leave hw s requestId
  | disconnectRequest s requestId => exact performs_disconnect hw s requestId

end GameLogicSystem

/-! ### Changes of different sessions -/

/-- The entry of session `s` after a change, from the entry before. -/
def Change.entry (s : UInt32) (entry : Option SessionState) : Change → Option SessionState
  | .keep => entry
  | .add => some (entry.getD { sessionId := s, userId := s })
  | .login name => entry.map fun session =>
      { session with loggedIn := true, displayName := name }
  | .place r => entry.map fun session => { session with roomId := r }
  | .remove => none

/-- The member set of room `q` after a change of session `s`. -/
def Change.members (s q : UInt32) (members : UnorderedSet UInt32) :
    Change → UnorderedSet UInt32
  | .keep | .add | .login _ => members
  | .place r => if q = r then members.insert s else members.erase s
  | .remove => members.erase s

namespace RoomSystem

theorem findSession_change (rs : RoomSystem) (s t : UInt32) (c : Change) :
    (rs.change s c).findSession t
      = if s = t then c.entry s (rs.findSession t) else rs.findSession t := by
  cases c with
  | keep =>
      by_cases hst : s = t
      · rw [if_pos hst]
        rfl
      · rw [if_neg hst]
        rfl
  | add => exact findSession_addSession rs s t
  | login name => exact findSession_setLoggedIn rs s t name
  | place r => exact findSession_assign rs s r t
  | remove => exact findSession_forget rs s t

theorem findRoom_change (rs : RoomSystem) (s q : UInt32) (c : Change) :
    (rs.change s c).findRoom q = (rs.findRoom q).map (fun room => { room with
      members := c.members s q room.members }) := by
  cases c with
  | keep => exact Option.map_id'.symm
  | add => exact Option.map_id'.symm
  | login name => exact Option.map_id'.symm
  | place r => exact findRoom_assign rs s r q
  | remove => exact findRoom_forget rs s q

/-- Nobody else's membership changes. -/
theorem mem_members_change_other {s t : UInt32} (hts : t ≠ s) (q : UInt32)
    (m : UnorderedSet UInt32) (c : Change) : t ∈ c.members s q m ↔ t ∈ m := by
  cases c with
  | keep => exact Iff.rfl
  | add => exact Iff.rfl
  | login name => exact Iff.rfl
  | place r =>
      refine (mem_members_assign m s r t q).trans ?_
      rw [if_neg hts]
  | remove =>
      refine (UnorderedSet.mem_erase_iff m s t).trans ?_
      exact ⟨And.right, fun ht => ⟨hts, ht⟩⟩

/-- A member set the session neither is in nor is placed in stays as it is. -/
theorem members_change_elsewhere {s q : UInt32} {m : UnorderedSet UInt32} {c : Change}
    (hs : s ∉ m) (hplace : c ≠ .place q) : c.members s q m = m := by
  cases c with
  | keep => rfl
  | add => rfl
  | login name => rfl
  | place r =>
      have hqr : q ≠ r := fun hc => hplace (hc ▸ rfl)
      exact (if_neg hqr).trans (UnorderedSet.erase_eq_self hs)
  | remove => exact UnorderedSet.erase_eq_self hs

/-- Two changes of different sessions commute on a member set that one of them
    leaves alone. If both changed it, its history would tell which came first. -/
theorem members_change_comm {s t : UInt32} (hst : s ≠ t) {q : UInt32}
    {m : UnorderedSet UInt32} {c d : Change}
    (hone : (s ∉ m ∧ c ≠ .place q) ∨ (t ∉ m ∧ d ≠ .place q)) :
    d.members t q (c.members s q m) = c.members s q (d.members t q m) := by
  rcases hone with ⟨hs, hc⟩ | ⟨ht, hd⟩
  · have hs' : s ∉ d.members t q m := fun h => hs ((mem_members_change_other hst q m d).mp h)
    rw [members_change_elsewhere hs hc, members_change_elsewhere hs' hc]
  · have ht' : t ∉ c.members s q m := fun h =>
      ht ((mem_members_change_other hst.symm q m c).mp h)
    rw [members_change_elsewhere ht hd, members_change_elsewhere ht' hd]

/-- Changes of different sessions that concern different rooms commute. -/
theorem change_comm {rs : RoomSystem} {s t : UInt32} (hst : s ≠ t) {c d : Change}
    (hone : ∀ q, (∃ room, rs.findRoom q = some room) →
      (¬ rs.IsMember s q ∧ c ≠ .place q) ∨ (¬ rs.IsMember t q ∧ d ≠ .place q)) :
    (rs.change s c).change t d = (rs.change t d).change s c := by
  refine ext_find _ _ (fun a => ?_) (fun q => ?_)
  · simp only [findSession_change]
    by_cases hs : s = a
    · have ht : t ≠ a := fun ht => hst (hs.trans ht.symm)
      rw [if_pos hs, if_pos hs, if_neg ht, if_neg ht]
    · rw [if_neg hs, if_neg hs]
  · simp only [findRoom_change, Option.map_map, Function.comp_def]
    cases hq : rs.findRoom q with
    | none => rfl
    | some room =>
        -- Not to be a member is not to be in this set.
        have hset : ∀ u, ¬ rs.IsMember u q → u ∉ room.members :=
          fun u hnot hu => hnot ⟨room, hq, hu⟩
        have hmembers := members_change_comm hst
          ((hone q ⟨room, hq⟩).imp (And.imp_left (hset s)) (And.imp_left (hset t)))
        rw [Option.map_some, Option.map_some, hmembers]

/-- A room the session neither is in nor is placed in stays as it is. -/
theorem findRoom_change_elsewhere {rs : RoomSystem} {s q : UInt32} {c : Change}
    (hnot : ¬ rs.IsMember s q) (hplace : c ≠ .place q) :
    (rs.change s c).findRoom q = rs.findRoom q := by
  rw [findRoom_change]
  cases hq : rs.findRoom q with
  | none => rfl
  | some room =>
      have hs : s ∉ room.members := fun hm => hnot ⟨room, hq, hm⟩
      rw [Option.map_some, members_change_elsewhere hs hplace]

end RoomSystem

/-! ### What an effect depends on -/

/-- The room a join asks for. -/
def ServerEvent.target : ServerEvent → Option UInt32
  | .joinRoomRequest _ _ r => some r
  | _ => none

/-- The rooms an event concerns: the one its session is in, and the one it
    asks to join. -/
def Touches (rs : RoomSystem) (event : ServerEvent) (r : UInt32) : Prop :=
  r ≠ noRoomId ∧
    ((∃ session, rs.findSession event.sessionId = some session ∧ session.roomId = r) ∨
      event.target = some r)

/-- Two room systems that look the same to an event. -/
structure Agree (event : ServerEvent) (rs rs' : RoomSystem) : Prop where
  entry : rs.findSession event.sessionId = rs'.findSession event.sessionId
  room : ∀ r, Touches rs event r → rs.findRoom r = rs'.findRoom r
  members : ∀ r t, Touches rs event r → rs.IsMember t r → rs.findSession t = rs'.findSession t
  names : ∀ s requestId name, event = .loginRequest s requestId name →
    rs.isDisplayNameTaken name s = rs'.isDisplayNameTaken name s
  rooms : ∀ s requestId, event = .roomListRequest s requestId →
    ∀ r, rs.findRoom r = rs'.findRoom r

section Congruence

variable {event : ServerEvent} {rs rs' : RoomSystem}

theorem Agree.findRoom (h : Agree event rs rs') (hc : rs.Consistent) (hc' : rs'.Consistent)
    {r : UInt32} (hr : r ≠ noRoomId → Touches rs event r) : rs.findRoom r = rs'.findRoom r := by
  by_cases hne : r = noRoomId
  · rw [hne, hc.findRoom_noRoomId, hc'.findRoom_noRoomId]
  · exact h.room r (hr hne)

theorem Agree.getRoomMembers (h : Agree event rs rs') (hc : rs.Consistent)
    (hc' : rs'.Consistent) (it : Iteration) {r : UInt32}
    (hr : r ≠ noRoomId → Touches rs event r) (exclude : Option UInt32) :
    rs.getRoomMembers it r exclude = rs'.getRoomMembers it r exclude := by
  refine RoomSystem.getRoomMembers_congr it r exclude ?_ (fun t ht _ => ?_)
  · rw [h.findRoom hc hc' hr]
  · rcases hc.session_of_isMember ht with ⟨_, _, _, hne⟩
    exact h.members r t (hr hne) ht

theorem touches_current {session : SessionState}
    (hs : rs.findSession event.sessionId = some session) (hne : session.roomId ≠ noRoomId) :
    Touches rs event session.roomId := ⟨hne, Or.inl ⟨session, hs, rfl⟩⟩

theorem Agree.leaveNotices (h : Agree event rs rs') (hc : rs.Consistent)
    (hc' : rs'.Consistent) (env : Env) {session : SessionState}
    (hs : rs.findSession event.sessionId = some session) :
    leaveNotices env rs session = leaveNotices env rs' session := by
  unfold ProjectNight.leaveNotices
  rw [h.getRoomMembers hc hc' env.toIteration (touches_current hs)]

theorem Agree.farewells (h : Agree event rs rs') (hc : rs.Consistent) (hc' : rs'.Consistent)
    (env : Env) :
    farewells env rs event.sessionId = farewells env rs' event.sessionId := by
  unfold ProjectNight.farewells
  rw [← h.entry]
  cases hs : rs.findSession event.sessionId with
  | none => rfl
  | some session => exact h.leaveNotices hc hc' env hs

/-- An effect depends on nothing but what the two states agree on. -/
theorem effect_congr (h : Agree event rs rs') (hc : rs.Consistent) (hc' : rs'.Consistent)
    (env : Env) (reads : Nat) : effect env reads rs event = effect env reads rs' event := by
  cases event with
  | sessionConnected s => rfl
  | sessionDisconnected s =>
      have hnotices : farewells env rs s = farewells env rs' s := h.farewells hc hc' env
      simp only [effect, hnotices]
  | invalidPacket s message => rfl
  | loginRequest s requestId name =>
      have hentry := h.entry
      simp only [ServerEvent.sessionId] at hentry
      simp only [effect, loginEffect, ← hentry, h.names s requestId name rfl]
  | roomListRequest s requestId =>
      have hrooms : rs.rooms = rs'.rooms :=
        Std.ExtTreeMap.ext_getElem? (h.rooms s requestId rfl)
      simp only [effect, roomListMessage, RoomSystem.findRoom, hrooms]
  | joinRoomRequest s requestId r =>
      have hentry := h.entry
      simp only [ServerEvent.sessionId] at hentry
      have htarget : r ≠ noRoomId → Touches rs (.joinRoomRequest s requestId r) r :=
        fun hne => ⟨hne, Or.inr rfl⟩
      simp only [effect, joinEffect, ← hentry, ← h.findRoom hc hc' htarget]
      cases hs : rs.findSession s with
      | none => rfl
      | some session =>
          simp only [enterNotices, h.leaveNotices hc hc' env hs,
            h.getRoomMembers hc hc' env.toIteration htarget]
  | chatSendRequest s requestId content =>
      have hentry := h.entry
      simp only [ServerEvent.sessionId] at hentry
      simp only [effect, chatMessages, ← hentry]
      cases hs : rs.findSession s with
      | none => rfl
      | some session => simp only [h.getRoomMembers hc hc' env.toIteration (touches_current hs)]
  | leaveRoomRequest s requestId =>
      have hentry := h.entry
      simp only [ServerEvent.sessionId] at hentry
      simp only [effect, leaveEffect, ← hentry]
      cases hs : rs.findSession s with
      | none => rfl
      | some session => simp only [h.leaveNotices hc hc' env hs]
  | disconnectRequest s requestId =>
      have hnotices : farewells env rs s = farewells env rs' s := h.farewells hc hc' env
      simp only [effect, hnotices]

/-! ### Who is told -/

theorem mem_leaveNotices (event : ServerEvent) (hc : rs.Consistent) {env : Env}
    {session : SessionState} (hs : rs.findSession event.sessionId = some session)
    {out : OutgoingMessage}
    (hout : out ∈ leaveNotices env rs session) :
    ∃ r, Touches rs event r ∧ rs.IsMember out.sessionId r := by
  rcases List.mem_map.mp hout with ⟨member, hmember, rfl⟩
  have hm := (hc.findSession_of_mem hmember).2.2.1
  rcases hc.session_of_isMember hm with ⟨_, _, _, hne⟩
  exact ⟨session.roomId, touches_current hs hne, hm⟩

theorem mem_farewells (hc : rs.Consistent) {env : Env} {out : OutgoingMessage}
    (hout : out ∈ farewells env rs event.sessionId) :
    ∃ r, Touches rs event r ∧ rs.IsMember out.sessionId r := by
  unfold farewells at hout
  cases hs : rs.findSession event.sessionId with
  | none =>
      rw [hs] at hout
      exact absurd hout List.not_mem_nil
  | some session =>
      rw [hs] at hout
      exact mem_leaveNotices event hc hs hout

/-- An event is answered to its own session and to members of the rooms it
    touches, and to nobody else. -/
theorem recipient_of_mem (hc : rs.Consistent) {env : Env} {reads : Nat} {out : OutgoingMessage}
    (hout : out ∈ (effect env reads rs event).messages) :
    out.sessionId = event.sessionId ∨ ∃ r, Touches rs event r ∧ rs.IsMember out.sessionId r := by
  cases event with
  | sessionConnected s => exact absurd hout List.not_mem_nil
  | sessionDisconnected s => exact Or.inr (mem_farewells hc hout)
  | invalidPacket s message => exact Or.inl (by rw [List.mem_singleton.mp hout]; rfl)
  | loginRequest s requestId name =>
      simp only [effect] at hout
      rcases loginEffect_cases rs s requestId name with ⟨_, he⟩ | ⟨_, _, he⟩ | ⟨_, _, _, he⟩
      · rw [he] at hout
        exact absurd hout List.not_mem_nil
      · rw [he] at hout
        exact Or.inl (by rw [List.mem_singleton.mp hout]; rfl)
      · rw [he] at hout
        exact Or.inl (by rw [List.mem_singleton.mp hout]; rfl)
  | roomListRequest s requestId => exact Or.inl (by rw [List.mem_singleton.mp hout]; rfl)
  | joinRoomRequest s requestId r =>
      simp only [effect] at hout
      rcases joinEffect_cases env rs s requestId r with ⟨_, he⟩ | ⟨_, _, he⟩ |
        ⟨session, room, hs, _, hr, _, he⟩
      · rw [he] at hout
        exact absurd hout List.not_mem_nil
      · rw [he] at hout
        exact Or.inl (by rw [List.mem_singleton.mp hout]; rfl)
      · rw [he] at hout
        rcases List.mem_append.mp hout with hleave | henter
        · exact Or.inr (mem_leaveNotices (.joinRoomRequest s requestId r) hc hs hleave)
        rcases List.mem_cons.mp henter with rfl | henter
        · exact Or.inl rfl
        rcases List.mem_cons.mp henter with rfl | henter
        · exact Or.inl rfl
        rcases List.mem_flatMap.mp henter with ⟨other, hother, henter⟩
        rcases List.mem_cons.mp henter with rfl | henter
        · exact Or.inr ⟨r, ⟨hc.ne_noRoomId hr, Or.inr rfl⟩,
            (hc.findSession_of_mem hother).2.2.1⟩
        · exact Or.inl (by rw [List.mem_singleton.mp henter]; rfl)
  | chatSendRequest s requestId content =>
      simp only [effect, chatMessages] at hout
      cases hs : rs.findSession s with
      | none =>
          rw [hs] at hout
          exact absurd hout List.not_mem_nil
      | some session =>
          rw [hs] at hout
          simp only at hout
          split_ifs at hout with hlogged hroom hempty hlong
          · exact absurd hout List.not_mem_nil
          · exact Or.inl (by rw [List.mem_singleton.mp hout]; rfl)
          · exact Or.inl (by rw [List.mem_singleton.mp hout]; rfl)
          · exact Or.inl (by rw [List.mem_singleton.mp hout]; rfl)
          · rcases List.mem_map.mp hout with ⟨p, hp, rfl⟩
            have hmember := List.fst_mem_of_mem_zipIdx hp
            exact Or.inr ⟨session.roomId, touches_current hs hroom,
              (hc.findSession_of_mem hmember).2.2.1⟩
  | leaveRoomRequest s requestId =>
      simp only [effect] at hout
      rcases leaveEffect_cases env rs s requestId with ⟨_, he⟩ | ⟨_, he⟩ | ⟨session, hs, _, he⟩
      · rw [he] at hout
        exact absurd hout List.not_mem_nil
      · rw [he] at hout
        exact Or.inl (by rw [List.mem_singleton.mp hout]; rfl)
      · rw [he] at hout
        rcases List.mem_append.mp hout with hleave | hreply
        · exact Or.inr (mem_leaveNotices (.leaveRoomRequest s requestId) hc hs hleave)
        rcases List.mem_cons.mp hreply with rfl | hreply
        · exact Or.inl rfl
        · exact Or.inl (by rw [List.mem_singleton.mp hreply]; rfl)
  | disconnectRequest s requestId =>
      rcases List.mem_cons.mp hout with rfl | hout
      · exact Or.inl rfl
      · exact Or.inr (mem_farewells hc hout)

end Congruence

end ProjectNight
