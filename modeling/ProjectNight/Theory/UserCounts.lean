import ProjectNight.Theory.Heard
import ProjectNight.Theory.SizeLimits
import ProjectNight.Theory.WaysOut

/-!
# User Counts

A room is reported with the size of its member set. What a user takes the
number for is how many users are in the room, and that is a count over the
table of sessions: those that are logged in and whose room it is. The two are
the same in every reachable state, because the two copies of membership agree
and nobody is in a room without being logged in (`WellFormed.size_members`).

A join moves the session before it counts, so the confirmation includes the
newcomer; the members were read before the move, so they do not. The newcomer
is told of each of them once, and their user ids tell these notices apart.

The count is narrowed to 32 bits. It is at most the number of sessions.

## Main definitions

* `RoomSystem.usersIn`: The logged-in sessions of a room.
* `ListsRooms`: A list of all rooms with true counts.

## Theorems

* `WellFormed.size_members`: The member set counts them.
* `listsRooms_roomListMessage`: The room list.
* `distinct_arrivals`: The notices to a newcomer.
* `user_counts_true`: Every response of every run.
-/

namespace ProjectNight

namespace RoomSystem

/-- The number of live sessions that are logged in and in room `r`. -/
def usersIn (rs : RoomSystem) (r : UInt32) : Nat :=
  rs.sessions.toList.countP fun p => p.2.loggedIn && p.2.roomId == r

theorem usersIn_le_size (rs : RoomSystem) (r : UInt32) : rs.usersIn r ≤ rs.sessions.size := by
  rw [← Std.ExtTreeMap.length_toList]
  exact List.countP_le_length

/-- The ids of the sessions that are counted. -/
def userIds (rs : RoomSystem) (r : UInt32) : List UInt32 :=
  (rs.sessions.toList.filter fun p => p.2.loggedIn && p.2.roomId == r).map Prod.fst

theorem length_userIds (rs : RoomSystem) (r : UInt32) : (rs.userIds r).length = rs.usersIn r := by
  unfold userIds usersIn
  rw [List.length_map, List.countP_eq_length_filter]

theorem nodup_userIds (rs : RoomSystem) (r : UInt32) : (rs.userIds r).Nodup := by
  have hkeys : (rs.sessions.toList.map Prod.fst).Nodup := by
    refine List.Pairwise.map _ (fun a b hne heq => hne ?_) rs.sessions.distinct_keys_toList
    exact Std.compare_eq_iff_eq.mpr heq
  exact hkeys.sublist (List.filter_sublist.map _)

theorem mem_userIds (rs : RoomSystem) (r s : UInt32) : s ∈ rs.userIds r ↔
    ∃ session, rs.findSession s = some session ∧ session.loggedIn = true ∧ session.roomId = r := by
  unfold userIds
  simp only [List.mem_map, List.mem_filter, Bool.and_eq_true, beq_iff_eq, Prod.exists,
    exists_and_right, exists_eq_right, Std.ExtTreeMap.mem_toList_iff_getElem?_eq_some]
  rfl

/-- The member set of a room counts its users. -/
theorem WellFormed.size_members {rs : RoomSystem} (hw : rs.WellFormed) {r : UInt32}
    {room : RoomState} (hr : rs.findRoom r = some room) : room.members.size = rs.usersIn r := by
  have hmem : ∀ s, s ∈ Iteration.ascending.order room.members ↔ s ∈ rs.userIds r := by
    intro s
    rw [Iteration.ascending.mem_order, mem_userIds]
    have hiff := hw.member_iff s r
    constructor
    · intro hs
      rcases hw.session_of_isMember ⟨room, hr, hs⟩ with ⟨session, hfind, hroom, hne⟩
      exact ⟨session, hfind, hw.loggedIn hfind (hroom ▸ hne), hroom⟩
    · rintro ⟨session, hfind, _, hroom⟩
      rcases hiff.mpr ⟨⟨room, hr⟩, session, hfind, hroom⟩ with ⟨room', hr', hs⟩
      rw [hr, Option.some.injEq] at hr'
      rwa [hr']
  have hnodup := Iteration.ascending.nodup_order room.members
  rw [← Iteration.ascending.length_order, ← length_userIds]
  exact ((List.perm_ext_iff_of_nodup hnodup (rs.nodup_userIds r)).mpr hmem).length_eq

/-- A loop over the members visits as many. -/
theorem WellFormed.length_getRoomMembers {rs : RoomSystem} (hw : rs.WellFormed) (it : Iteration)
    {r : UInt32} {room : RoomState} (hr : rs.findRoom r = some room) :
    (rs.getRoomMembers it r).length = room.members.size := by
  have hids := hw.toConsistent.map_sessionId_getRoomMembers it hr none
  rw [← it.length_order, ← List.length_map SessionState.sessionId, hids]
  simp

/-- The reported count is not cut by its 32 bits. -/
theorem WellFormed.toNat_userCount {rs : RoomSystem} (hw : rs.WellFormed)
    (hfew : rs.sessions.size < 2 ^ 32) {r : UInt32} {room : RoomState}
    (hr : rs.findRoom r = some room) : (buildRoomInfo room).userCount.toNat = rs.usersIn r := by
  have hle := rs.usersIn_le_size r
  change (UInt32.ofNat room.members.size).toNat = rs.usersIn r
  rw [hw.size_members hr, UInt32.toNat_ofNat', Nat.mod_eq_of_lt (by omega)]

end RoomSystem

/-! ### The room list -/

/-- Every room once, with the number of its users. -/
def ListsRooms (rs : RoomSystem) (rooms : List RoomInfo) : Prop :=
  (rooms.map RoomInfo.roomId).Nodup ∧
  (∀ r, r ∈ rooms.map RoomInfo.roomId ↔ ∃ room, rs.findRoom r = some room) ∧
  ∀ info ∈ rooms, info.userCount.toNat = rs.usersIn info.roomId

theorem listsRooms_roomListMessage (env : Env) {rs : RoomSystem} (hw : rs.WellFormed)
    (hfew : rs.sessions.size < 2 ^ 32) :
    ListsRooms rs ((env.order (UnorderedSet.ofKeys rs.rooms.keys)).filterMap
      fun roomId => (rs.findRoom roomId).map buildRoomInfo) := by
  -- The listed ids are the visited ones.
  have hids : ((env.order (UnorderedSet.ofKeys rs.rooms.keys)).filterMap
      fun roomId => (rs.findRoom roomId).map buildRoomInfo).map RoomInfo.roomId
        = env.order (UnorderedSet.ofKeys rs.rooms.keys) := by
    rw [List.map_filterMap]
    refine (List.filterMap_congr (fun r hr => ?_)).trans (List.filterMap_some)
    rcases (rs.mem_roomIds env.toIteration r).mp hr with ⟨room, hroom⟩
    rw [hroom, Option.map_some, Option.map_some]
    exact congrArg some (hw.room_key r room hroom)
  refine ⟨?_, fun r => ?_, fun info hinfo => ?_⟩
  · rw [hids]
    exact env.nodup_order _
  · rw [hids]
    exact rs.mem_roomIds env.toIteration r
  · rcases List.mem_filterMap.mp hinfo with ⟨r, _, hr⟩
    rcases Option.map_eq_some_iff.mp hr with ⟨room, hroom, rfl⟩
    rw [hw.toNat_userCount hfew hroom]
    exact congrArg rs.usersIn (hw.room_key r room hroom).symm

/-! ### The notices to a newcomer -/

def Message.isUserJoined (m : Message) : Bool :=
  match m.payload with
  | .userJoinedEvent _ => true
  | _ => false

/-- The user ids tell the notices of different members apart. -/
theorem nodup_arrivals {rs : RoomSystem} (hw : rs.WellFormed) (it : Iteration) (r : UInt32) :
    ((rs.getRoomMembers it r).map (userJoinedMessage r)).Nodup := by
  have hids := hw.toConsistent.nodup_getRoomMembers it r none
  refine List.Nodup.map_on (fun a ha b hb heq => ?_) (List.Nodup.of_map _ hids)
  have hmem := hw.toConsistent.findSession_of_mem ha
  have hmem' := hw.toConsistent.findSession_of_mem hb
  have huser : a.userId = b.userId := by
    simp only [userJoinedMessage, buildUserInfo, createUserInfoDirect, Message.mk.injEq,
      MessagePayload.userJoinedEvent.injEq, Option.some.injEq, UserEvent.mk.injEq,
      UserInfo.mk.injEq, true_and] at heq
    exact heq.1
  have hsession : a.sessionId = b.sessionId := hmem.2.1.symm.trans (huser.trans hmem'.2.1)
  have hfound := hmem.1
  rw [hsession, hmem'.1, Option.some.injEq] at hfound
  exact hfound.symm

/-- A newcomer is told of each member once. -/
theorem distinct_arrivals {env : Env} (henv : env.NoticesFit) {rs : RoomSystem}
    (hw : rs.WellFormed) {s r : UInt32} (requestId : UInt32) {session : SessionState}
    {room : RoomState} (hs : rs.findSession s = some session) (hr : rs.findRoom r = some room)
    (hne : session.roomId ≠ r) :
    (((messagesFor s ((leaveNotices env rs session
        ++ enterNotices env rs s requestId r session room).filter
          (fun out => env.fits out.payload))).filter Message.isUserJoined).dedup).length
      = room.members.size := by
  -- The two messages in front are of other kinds, and the notices all fit.
  have hall : ∀ m ∈ (rs.getRoomMembers env.toIteration r).map (userJoinedMessage r),
      m.isUserJoined = true ∧ env.fits m = true := by
    intro m hm
    rcases List.mem_map.mp hm with ⟨other, hother, rfl⟩
    refine ⟨rfl, henv _ (fun hquiet => Option.some_ne_none _ hquiet.2) ?_⟩
    rcases GameLogicSystem.mem_getRoomMembers hw.toConsistent hother with ⟨t, ht, hroom, hin⟩
    exact small_userInfo hw ht (hw.loggedIn ht (hroom ▸ hin))
  rw [← messagesFor_filter, messagesFor_append, messagesFor_leaveNotices_self env hw hs,
    List.nil_append, messagesFor_enter_self env hw requestId hs hr hne, List.filter_filter]
  have hfilter : ∀ m ∈ (rs.getRoomMembers env.toIteration r).map (userJoinedMessage r),
      (m.isUserJoined && env.fits m) = true := fun m hm => by
    rw [(hall m hm).1, (hall m hm).2]
    rfl
  rw [List.filter_cons_of_neg (by exact Bool.false_ne_true),
    List.filter_cons_of_neg (by exact Bool.false_ne_true), List.filter_eq_self.mpr hfilter,
    (nodup_arrivals hw env.toIteration r).dedup, List.length_map,
    hw.length_getRoomMembers env.toIteration hr]

/-! ### Every response -/

/-- Only a request for the list is answered with one. -/
theorem roomList_of_builds {env : Env} {rs : RoomSystem} {event : ServerEvent} {m : Message}
    (h : Builds env rs event m) {table : Option RoomListResponse}
    (htable : m.payload = .roomListResponse table) :
    ∃ s requestId, event = .roomListRequest s requestId ∧
      m = roomListMessage env rs requestId := by
  cases h with
  | roomList s requestId => exact ⟨s, requestId, rfl, rfl⟩
  | _ => cases htable

/-- A join is confirmed to the session that asked for it, with the room as it
    is after the move. -/
theorem join_of_mem {env : Env} {reads : Nat} {rs : RoomSystem} (hw : rs.WellFormed)
    {event : ServerEvent} {out : OutgoingMessage}
    (hout : out ∈ (effect env reads rs event).messages) {table : JoinRoomResponse}
    (htable : out.payload.payload = .joinRoomResponse (some table))
    (hsuccess : table.success = true) :
    ∃ requestId r session room, event = .joinRoomRequest out.sessionId requestId r ∧
      rs.findSession out.sessionId = some session ∧ rs.findRoom r = some room ∧
      session.roomId ≠ r ∧
      effect env reads rs event = {
        change := .place r
        messages := leaveNotices env rs session
          ++ enterNotices env rs out.sessionId requestId r session room } ∧
      table.room = some (buildRoomInfo
        { room with members := room.members.insert out.sessionId }) := by
  have hevent : ∃ s requestId r, event = .joinRoomRequest s requestId r := by
    have hbuilds := builds_of_mem hw hout
    generalize out.payload = m at hbuilds htable
    cases hbuilds with
    | joinRefused s requestId r code => exact ⟨s, requestId, r, rfl⟩
    | joinAccepted s requestId r room hr => exact ⟨s, requestId, r, rfl⟩
    | _ => cases htable
  rcases hevent with ⟨s, requestId, r, rfl⟩
  simp only [effect] at hout
  rcases joinEffect_cases env rs s requestId r with ⟨_, he⟩ | ⟨code, _, he⟩ |
    ⟨session, room, hs, hlogged, hr, hne, he⟩
  · rw [he] at hout
    exact absurd hout List.not_mem_nil
  · rw [he] at hout
    rw [List.mem_singleton.mp hout] at htable
    cases htable
    exact absurd hsuccess Bool.false_ne_true
  · rw [he] at hout
    rcases List.mem_append.mp hout with hleave | henter
    · rcases List.mem_map.mp hleave with ⟨member, _, rfl⟩
      cases htable
    rcases List.mem_cons.mp henter with rfl | henter
    · refine ⟨requestId, r, session, room, rfl, hs, hr, hne, he, ?_⟩
      cases htable
      rfl
    rcases List.mem_cons.mp henter with rfl | henter
    · cases htable
    · rcases List.mem_flatMap.mp henter with ⟨other, _, henter⟩
      rcases List.mem_cons.mp henter with rfl | henter
      · cases htable
      · rw [List.mem_singleton.mp henter] at htable
        cases htable

namespace GameLogicSystem

/-- In every run, and for what one more event queues: a room list names every
    room once with the number of its users, and the confirmation of a join
    names the room that was asked for with the number of its users after the
    join. That is one more than the notices of arrivals, each counted once,
    that are queued to the newcomer. -/
theorem user_counts_true (env : Env) (henv : env.NoticesFit) (events : List ServerEvent)
    (event : ServerEvent)
    (hfew : (handleEvent env (update env initial events) event).roomSystem.sessions.size
      < 2 ^ 32) :
    let g := update env initial events
    let g' := handleEvent env g event
    ∃ new, g'.outgoingMessages = g.outgoingMessages ++ new ∧
      (∀ out ∈ new, ∀ table, out.payload.payload = .roomListResponse table →
        g'.roomSystem = g.roomSystem ∧
        ∃ rooms, table = some ⟨some rooms⟩ ∧ ListsRooms g'.roomSystem rooms) ∧
      (∀ out ∈ new, ∀ table, out.payload.payload = .joinRoomResponse (some table) →
        table.success = true →
        ∃ requestId info session,
          event = .joinRoomRequest out.sessionId requestId info.roomId ∧
          g'.roomSystem.findSession out.sessionId = some session ∧
          session.roomId = info.roomId ∧ table.room = some info ∧
          info.userCount.toNat = g'.roomSystem.usersIn info.roomId ∧
          info.userCount.toNat
            = (((messagesFor out.sessionId new).filter Message.isUserJoined).dedup).length
              + 1) := by
  intro g g'
  have hw : g.roomSystem.WellFormed := update_wellFormed env events
  have hw' : g'.roomSystem.WellFormed := wellFormed_handleEvent env hw event
  have hdoes := handleEvent_performs env hw event
  refine ⟨_, outgoingMessages_step env events event,
    fun out hout table htable => ?_, fun out hout table htable hsuccess => ?_⟩
  · have hmem := List.mem_of_mem_filter hout
    rcases roomList_of_builds (builds_of_mem hw hmem) htable with ⟨s, requestId, rfl, hm⟩
    have hsame : g'.roomSystem = g.roomSystem := hdoes.roomSystem
    refine ⟨hsame, ?_⟩
    rw [hm] at htable
    rw [hsame]
    refine ⟨_, ?_, listsRooms_roomListMessage env hw (hsame ▸ hfew)⟩
    cases htable
    rfl
  · have hmem := List.mem_of_mem_filter hout
    rcases join_of_mem hw hmem htable hsuccess with
      ⟨requestId, r, session, room, rfl, hs, hr, hne, he, hinfo⟩
    have hrooms : g'.roomSystem = g.roomSystem.assign out.sessionId r := by
      have hchange := hdoes.roomSystem
      rw [he] at hchange
      exact hchange
    have hr' : g'.roomSystem.findRoom r
        = some { room with members := room.members.insert out.sessionId } := by
      rw [hrooms, RoomSystem.findRoom_assign, hr, Option.map_some, if_pos rfl]
    have hkey : room.roomId = r := hw.room_key r room hr
    have hs' : g'.roomSystem.findSession out.sessionId = some { session with roomId := r } := by
      rw [hrooms, RoomSystem.findSession_assign, if_pos rfl, hs, Option.map_some]
    have hnotin : out.sessionId ∉ room.members := fun hin =>
      hw.not_isMember hs hne ⟨room, hr, hin⟩
    have hcount := hw'.toNat_userCount hfew hr'
    refine ⟨requestId, _, _, ?_, hs', hkey.symm, hinfo, hcount.trans ?_, hcount.trans ?_⟩
    · exact congrArg (ServerEvent.joinRoomRequest out.sessionId requestId) hkey.symm
    · exact congrArg g'.roomSystem.usersIn hkey.symm
    · have hmessages := congrArg Effect.messages he
      rw [hmessages, distinct_arrivals henv hw requestId hs hr hne, ← hw'.size_members hr']
      exact UnorderedSet.size_insert hnotin

/-- Session 1 is in the lobby, and session 2 joins it. -/
theorem user_counts_true_lobby :
    let events : List ServerEvent := [.sessionConnected 1, .sessionConnected 2,
      .loginRequest 1 1 [97], .loginRequest 2 1 [98], .joinRoomRequest 1 2 1001]
    let g := update sampleEnv initial events
    let g' := handleEvent sampleEnv g (.joinRoomRequest 2 2 1001)
    g'.roomSystem.usersIn 1001 = 2 ∧
      ∃ new, g'.outgoingMessages = g.outgoingMessages ++ new ∧ new.length = 4 := by
  intro events g g'
  have hfew : g'.roomSystem.sessions.size < 2 ^ 32 := by decide +kernel
  rcases user_counts_true sampleEnv noticesFit_sampleEnv events (.joinRoomRequest 2 2 1001) hfew
    with ⟨new, hnew, _⟩
  refine ⟨by decide +kernel, new, hnew, ?_⟩
  have hlength := congrArg List.length hnew
  have hbefore : g.outgoingMessages.length = 4 := by decide +kernel
  have hafter : g'.outgoingMessages.length = 8 := by decide +kernel
  rw [List.length_append, hbefore, hafter] at hlength
  omega

end GameLogicSystem

end ProjectNight
