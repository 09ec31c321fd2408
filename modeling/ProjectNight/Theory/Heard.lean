import ProjectNight.Theory.Buffers
import ProjectNight.Theory.WaysOut

/-!
# What One Session Hears

`effect` says what an event sends to everybody. Here it is read from the other
end: which messages reach one session `c`, when the event is its own or
somebody else's. `RoomView` asked the same of the moves a handler is made of;
a whole event has fewer outcomes, and the conditions a run has to meet are
about events.

Messages that say nothing of logins, joins, arrivals or departures are silent.
Of the others `c` hears its own login, its own join with the members it finds,
or the departure and the arrival of one other session, as that session leaves
or enters the room `c` is in.

## Main definitions

* `ServerEvent.OfWindow`: The requests a window makes.
* `Message.confirmsLogin`: A successful login response.
* `Message.IsSilent`: Nothing a window would react to beyond its log.
* `Heard`: What an event and its change look like to a session.

## Theorems

* `heard_effect`: Every event is heard in one of these ways.
* `Heard.silent_of_not_fits`: What the size guard drops is silent.
-/

namespace ProjectNight

/-- The requests the window of session `c` makes. -/
inductive ServerEvent.OfWindow (c : UInt32) : ServerEvent → Prop where
  | login (requestId : UInt32) (name : Bytes) : OfWindow c (.loginRequest c requestId name)
  | roomList (requestId : UInt32) : OfWindow c (.roomListRequest c requestId)
  | join (requestId r : UInt32) : OfWindow c (.joinRoomRequest c requestId r)
  | chat (requestId : UInt32) (content : Bytes) :
      OfWindow c (.chatSendRequest c requestId content)

/-- A successful `LoginResponse`. -/
def Message.confirmsLogin (m : Message) : Bool :=
  match m.payload with
  | .loginResponse (some table) => table.success
  | _ => false

/-- No confirmation of a join or a login, and no notice. -/
def Message.IsSilent (m : Message) : Prop := m.IsQuiet ∧ m.confirmsLogin = false

/-- The arrival of `session` in room `q` as a member `c` of it hears it. -/
def arrivals (rs : RoomSystem) (c q : UInt32) (session : SessionState) : List Message :=
  if rs.IsMember c q then [userJoinedMessage q { session with roomId := q }] else []

/-- The departure of `session` as another member `c` of its room hears it. -/
def partings (rs : RoomSystem) (c : UInt32) (session : SessionState) : List Message :=
  if rs.IsMember c session.roomId then [userLeftMessage session.roomId session] else []

theorem mem_arrivals {rs : RoomSystem} {c q : UInt32} {session : SessionState} {m : Message}
    (hm : m ∈ arrivals rs c q session) :
    rs.IsMember c q ∧ m = userJoinedMessage q { session with roomId := q } := by
  unfold arrivals at hm
  by_cases hmember : rs.IsMember c q
  · rw [if_pos hmember] at hm
    exact ⟨hmember, List.mem_singleton.mp hm⟩
  · rw [if_neg hmember] at hm
    exact absurd hm List.not_mem_nil

theorem mem_partings {rs : RoomSystem} {c : UInt32} {session : SessionState} {m : Message}
    (hm : m ∈ partings rs c session) :
    rs.IsMember c session.roomId ∧ m = userLeftMessage session.roomId session := by
  unfold partings at hm
  by_cases hmember : rs.IsMember c session.roomId
  · rw [if_pos hmember] at hm
    exact ⟨hmember, List.mem_singleton.mp hm⟩
  · rw [if_neg hmember] at hm
    exact absurd hm List.not_mem_nil

/-- What session `c` hears when an event makes a change in room system `rs`. -/
inductive Heard (env : Env) (rs : RoomSystem) (c : UInt32) :
    ServerEvent → Change → List Message → Prop where
  | silent (event : ServerEvent) (change : Change) (ms : List Message)
      (hms : ∀ m ∈ ms, m.IsSilent)
      (hchange : change = .keep ∨ event = .sessionConnected event.sessionId ∧ change = .add ∨
        change = .remove ∧ rs.findSession event.sessionId = none) :
      Heard env rs c event change ms
  -- Somebody else's login is answered to nobody else.
  | otherLogin (s requestId : UInt32) (name : Bytes) (hsc : s ≠ c)
      (haccepted : LoginAccepted rs s name) :
      Heard env rs c (.loginRequest s requestId name) (.login name) []
  | login (requestId : UInt32) (name : Bytes) (session : SessionState)
      (hs : rs.findSession c = some session) (haccepted : LoginAccepted rs c name) :
      Heard env rs c (.loginRequest c requestId name) (.login name)
        [loginResponseMessage requestId true .none
          (some { session with loggedIn := true, displayName := name })]
  | join (requestId r : UInt32) (session : SessionState) (room : RoomState)
      (hs : rs.findSession c = some session) (hlogged : session.loggedIn = true)
      (hr : rs.findRoom r = some room) (hne : session.roomId ≠ r) :
      Heard env rs c (.joinRoomRequest c requestId r) (.place r)
        (joinRoomResponseMessage requestId true .none
            (some { room with members := room.members.insert c }) ::
          systemMessage r (room.roomName ++ utf8 " 방에 입장했습니다.") ::
          (rs.getRoomMembers env.toIteration r).map (userJoinedMessage r))
  -- Another session enters a room, or leaves for good or for no room.
  | enters (s requestId q : UInt32) (session : SessionState) (room : RoomState) (hsc : s ≠ c)
      (hs : rs.findSession s = some session) (hlogged : session.loggedIn = true)
      (hq : rs.findRoom q = some room) (hne : session.roomId ≠ q) :
      Heard env rs c (.joinRoomRequest s requestId q) (.place q)
        (partings rs c session ++ arrivals rs c q session)
  | leaves (event : ServerEvent) (change : Change) (session : SessionState)
      (hsc : event.sessionId ≠ c) (hs : rs.findSession event.sessionId = some session)
      (hchange : change = .place noRoomId ∨ change = .remove) :
      Heard env rs c event change (partings rs c session)
  -- The session itself is gone.
  | ended : Heard env rs c (.sessionDisconnected c) .remove []

section Notices

variable {rs : RoomSystem} (env : Env)

theorem messagesFor_partings (hw : rs.WellFormed) {c s : UInt32} (hsc : s ≠ c)
    {session : SessionState} (hs : rs.findSession s = some session) :
    messagesFor c (leaveNotices env rs session) = partings rs c session := by
  rw [messagesFor_leaveNotices env hw hs]
  exact if_congr ⟨And.right, fun h => ⟨fun hc => hsc hc.symm, h⟩⟩ rfl rfl

-- The notices of a join are the calls of `enterCalls`.
theorem messagesFor_enterNotices (hw : rs.WellFormed) (c s requestId : UInt32) {r : UInt32}
    (session : SessionState) {room : RoomState} (hr : rs.findRoom r = some room) :
    messagesFor c (enterNotices env rs s requestId r session room)
      = told c (enterCalls env rs rs s requestId { session with roomId := r }
        { room with members := room.members.insert s }) := by
  rw [← messagesFor_map]
  unfold enterNotices enterCalls
  rw [List.map_cons, List.map_cons, List.map_flatMap, hw.room_key r room hr]
  rfl

theorem messagesFor_arrivals (hw : rs.WellFormed) {c s : UInt32} (hsc : s ≠ c)
    (requestId : UInt32) {r : UInt32} (session : SessionState) {room : RoomState}
    (hr : rs.findRoom r = some room) :
    messagesFor c (enterNotices env rs s requestId r session room)
      = arrivals rs c r session := by
  rw [messagesFor_enterNotices env hw c s requestId session hr, told_enterCalls_other hw hsc]
  simp only [hw.room_key r room hr]
  rfl

-- The newcomer is not among the members it is told of.
theorem messagesFor_enter_self (hw : rs.WellFormed) {c r : UInt32} (requestId : UInt32)
    {session : SessionState} {room : RoomState} (hs : rs.findSession c = some session)
    (hr : rs.findRoom r = some room) (hne : session.roomId ≠ r) :
    messagesFor c (enterNotices env rs c requestId r session room)
      = joinRoomResponseMessage requestId true .none
            (some { room with members := room.members.insert c }) ::
          systemMessage r (room.roomName ++ utf8 " 방에 입장했습니다.") ::
          (rs.getRoomMembers env.toIteration r).map (userJoinedMessage r) := by
  have hothers : ∀ other ∈ rs.getRoomMembers env.toIteration r, other.sessionId ≠ c := by
    intro other hother heq
    have hmem := (hw.findSession_of_mem hother).2.2.1
    rw [heq] at hmem
    exact hw.not_isMember hs hne hmem
  rw [messagesFor_enterNotices env hw c c requestId session hr]
  unfold enterCalls
  rw [told_cons_self, told_cons_self]
  simp only [hw.room_key r room hr]
  rw [told_announce_self _ hothers]

end Notices

theorem messagesFor_singleton_self (c : UInt32) (m : Message) : messagesFor c [⟨c, m⟩] = [m] := by
  unfold messagesFor
  rw [List.filter_cons_of_pos (by simp only [decide_true])]
  rfl

theorem messagesFor_singleton_other {c s : UInt32} (h : s ≠ c) (m : Message) :
    messagesFor c [⟨s, m⟩] = [] :=
  messagesFor_eq_nil (fun out hout => by rw [List.mem_singleton.mp hout]; exact h)

-- One answer, to the session that asked.
theorem silent_reply {c s : UInt32} {m : Message} (hm : m.IsSilent) :
    ∀ m' ∈ messagesFor c [⟨s, m⟩], m'.IsSilent := by
  intro m' hm'
  rcases List.mem_map.mp hm' with ⟨out, hout, rfl⟩
  rw [List.mem_singleton.mp (List.mem_of_mem_filter hout)]
  exact hm

theorem silent_chatMessages (env : Env) (reads : Nat) (rs : RoomSystem) (c s : UInt32)
    (content : Bytes) : ∀ m ∈ messagesFor c (chatMessages env reads rs s content), m.IsSilent := by
  unfold chatMessages
  cases rs.findSession s with
  | none => exact fun m hm => absurd hm List.not_mem_nil
  | some session =>
      simp only
      split_ifs
      · exact fun m hm => absurd hm List.not_mem_nil
      · exact silent_reply ⟨⟨rfl, rfl⟩, rfl⟩
      · exact silent_reply ⟨⟨rfl, rfl⟩, rfl⟩
      · exact silent_reply ⟨⟨rfl, rfl⟩, rfl⟩
      · intro m hm
        rcases List.mem_map.mp hm with ⟨out, hout, rfl⟩
        rcases List.mem_map.mp (List.mem_of_mem_filter hout) with ⟨p, _, rfl⟩
        exact ⟨⟨rfl, rfl⟩, rfl⟩

/-- The session that leaves is told nothing of it. -/
theorem messagesFor_leaveNotices_self (env : Env) {rs : RoomSystem} (hw : rs.WellFormed)
    {c : UInt32} {session : SessionState} (hs : rs.findSession c = some session) :
    messagesFor c (leaveNotices env rs session) = [] := by
  rw [messagesFor_leaveNotices env hw hs, if_neg (fun h => h.1 rfl)]

-- Whoever goes without having been there goes unnoticed.
theorem heard_farewells (env : Env) {rs : RoomSystem} (hw : rs.WellFormed) {c : UInt32}
    (event : ServerEvent) (hsc : event.sessionId ≠ c) :
    Heard env rs c event .remove (messagesFor c (farewells env rs event.sessionId)) := by
  unfold farewells
  cases hs : rs.findSession event.sessionId with
  | none =>
      exact Heard.silent event .remove [] (fun m hm => absurd hm List.not_mem_nil)
        (Or.inr (Or.inr ⟨rfl, hs⟩))
  | some session =>
      simp only
      rw [messagesFor_partings env hw hsc hs]
      exact Heard.leaves event .remove session hsc hs (Or.inr rfl)

/-- Every event is heard in one of these ways, when those of session `c` are
    requests of its window or the beginning or the end of the session. -/
theorem heard_effect (env : Env) (reads : Nat) {rs : RoomSystem} (hw : rs.WellFormed)
    {c : UInt32} (event : ServerEvent)
    (hown : event.sessionId = c → event.OfWindow c ∨ event = .sessionConnected c ∨
      event = .sessionDisconnected c) :
    Heard env rs c event (effect env reads rs event).change
      (messagesFor c (effect env reads rs event).messages) := by
  -- A refusal, a list of rooms, a remark: one silent answer and no change.
  have hreply : ∀ (event : ServerEvent) (s : UInt32) (m : Message), m.IsSilent →
      Heard env rs c event .keep (messagesFor c [⟨s, m⟩]) :=
    fun event s m hm => Heard.silent event .keep _ (silent_reply hm) (Or.inl rfl)
  have hnothing : ∀ event : ServerEvent, Heard env rs c event .keep [] :=
    fun event => Heard.silent event .keep [] (fun m hm => absurd hm List.not_mem_nil) (Or.inl rfl)
  cases event with
  | sessionConnected s =>
      exact Heard.silent _ .add [] (fun m hm => absurd hm List.not_mem_nil)
        (Or.inr (Or.inl ⟨rfl, rfl⟩))
  | sessionDisconnected s =>
      by_cases hsc : s = c
      · subst hsc
        have hnone : messagesFor s (farewells env rs s) = [] := by
          unfold farewells
          cases hs : rs.findSession s with
          | none => rfl
          | some session => exact messagesFor_leaveNotices_self env hw hs
        simp only [effect, hnone]
        exact Heard.ended
      · exact heard_farewells env hw (.sessionDisconnected s) hsc
  | invalidPacket s message => exact hreply _ s _ ⟨⟨rfl, rfl⟩, rfl⟩
  | loginRequest s requestId name =>
      simp only [effect]
      rcases loginEffect_cases rs s requestId name with ⟨_, he⟩ | ⟨code, _, he⟩ |
        ⟨session, haccepted, hs, he⟩
      · rw [he]
        exact hnothing _
      · rw [he]
        exact hreply _ s _ ⟨⟨rfl, rfl⟩, rfl⟩
      · rw [he]
        by_cases hsc : s = c
        · subst hsc
          simp only [messagesFor_singleton_self]
          exact Heard.login requestId name session hs haccepted
        · simp only [messagesFor_singleton_other hsc]
          exact Heard.otherLogin s requestId name hsc haccepted
  | roomListRequest s requestId => exact hreply _ s _ ⟨⟨rfl, rfl⟩, rfl⟩
  | joinRoomRequest s requestId r =>
      simp only [effect]
      rcases joinEffect_cases env rs s requestId r with ⟨_, he⟩ | ⟨code, _, he⟩ |
        ⟨session, room, hs, hlogged, hr, hne, he⟩
      · rw [he]
        exact hnothing _
      · rw [he]
        exact hreply _ s _ ⟨⟨rfl, rfl⟩, rfl⟩
      · rw [he]
        simp only [messagesFor_append]
        by_cases hsc : s = c
        · subst hsc
          rw [messagesFor_leaveNotices_self env hw hs, List.nil_append,
            messagesFor_enter_self env hw requestId hs hr hne]
          exact Heard.join requestId r session room hs hlogged hr hne
        · rw [messagesFor_partings env hw hsc hs,
            messagesFor_arrivals env hw hsc requestId session hr]
          exact Heard.enters s requestId r session room hsc hs hlogged hr hne
  | chatSendRequest s requestId content =>
      exact Heard.silent _ .keep _ (silent_chatMessages env reads rs c s content) (Or.inl rfl)
  | leaveRoomRequest s requestId =>
      have hsc : s ≠ c := by
        intro hc
        rcases hown hc with hwindow | hconnected | hdisconnected
        · cases hwindow
        · cases hconnected
        · cases hdisconnected
      simp only [effect]
      rcases leaveEffect_cases env rs s requestId with ⟨_, he⟩ | ⟨_, he⟩ | ⟨session, hs, _, he⟩
      · rw [he]
        exact hnothing _
      · rw [he]
        exact hreply _ s _ ⟨⟨rfl, rfl⟩, rfl⟩
      · rw [he]
        have hreplies : messagesFor c [⟨s, leaveRoomResponseMessage requestId true .none⟩,
            ⟨s, systemMessage session.roomId (utf8 "방에서 퇴장했습니다.")⟩] = [] := by
          refine messagesFor_eq_nil (fun out hout => ?_)
          rcases List.mem_cons.mp hout with rfl | hout
          · exact hsc
          · rw [List.mem_singleton.mp hout]
            exact hsc
        simp only [messagesFor_append]
        rw [messagesFor_partings env hw hsc hs, hreplies, List.append_nil]
        exact Heard.leaves (.leaveRoomRequest s requestId) (.place noRoomId) session hsc hs
          (Or.inl rfl)
  | disconnectRequest s requestId =>
      have hsc : s ≠ c := by
        intro hc
        rcases hown hc with hwindow | hconnected | hdisconnected
        · cases hwindow
        · cases hconnected
        · cases hdisconnected
      have hfirst : messagesFor c (effect env reads rs (.disconnectRequest s requestId)).messages
          = messagesFor c (farewells env rs s) := by
        have happend := messagesFor_append c [⟨s, disconnectResponseMessage requestId⟩]
          (farewells env rs s)
        rw [messagesFor_singleton_other hsc, List.nil_append] at happend
        exact happend
      rw [hfirst]
      exact heard_farewells env hw (.disconnectRequest s requestId) hsc

/-! ### What the size guard drops -/

-- A notice shows the name of a session in a room, and such names are short.
theorem Heard.short {env : Env} {rs : RoomSystem} (hw : rs.WellFormed) {c : UInt32}
    {event : ServerEvent} {change : Change} {ms : List Message}
    (h : Heard env rs c event change ms) : ∀ m ∈ ms, ¬ m.IsQuiet → m.textLength ≤ 32 := by
  have hname : ∀ s session, rs.findSession s = some session → session.loggedIn = true →
      (cStr session.displayName).length ≤ 32 := by
    intro s session hs hl
    exact (length_cStr_le _).trans (hw.name_bounds s session hs hl).2
  have hparting : ∀ s session, rs.findSession s = some session →
      ∀ m ∈ partings rs c session, m.textLength ≤ 32 := by
    intro s session hs m hm
    rcases mem_partings hm with ⟨hmember, rfl⟩
    rcases hw.session_of_isMember hmember with ⟨_, _, _, hne⟩
    exact hname s session hs (hw.loggedIn hs hne)
  intro m hm hloud
  cases h with
  | silent event change ms hms _ => exact absurd (hms m hm).1 hloud
  | otherLogin s requestId name hsc haccepted => exact absurd hm List.not_mem_nil
  | login requestId name session hs haccepted =>
      rw [List.mem_singleton.mp hm] at hloud
      exact absurd ⟨rfl, rfl⟩ hloud
  | join requestId r session room hs hlogged hr hne =>
      rcases List.mem_cons.mp hm with rfl | hm
      · have hroomName : (cStr room.roomName).length ≤ 32 :=
          (length_cStr_le _).trans (hw.length_roomName_le hr)
        exact hroomName
      rcases List.mem_cons.mp hm with rfl | hm
      · exact absurd ⟨rfl, rfl⟩ hloud
      rcases List.mem_map.mp hm with ⟨other, hother, rfl⟩
      have hfound := hw.findSession_of_mem hother
      rcases hw.session_of_isMember hfound.2.2.1 with ⟨other', hother', hr', hne'⟩
      rw [hfound.1, Option.some.injEq] at hother'
      exact hname _ other hfound.1 (hw.loggedIn hfound.1 (hother' ▸ hr' ▸ hne'))
  | enters s requestId q session room hsc hs hlogged hq hne =>
      rcases List.mem_append.mp hm with hm | hm
      · exact hparting s session hs m hm
      · rcases mem_arrivals hm with ⟨_, rfl⟩
        exact hname s session hs hlogged
  | leaves event change session hsc hs _ => exact hparting _ session hs m hm
  | ended => exact absurd hm List.not_mem_nil

/-- What the size guard drops is quiet. -/
theorem Heard.quiet_of_not_fits {env : Env} (henv : env.NoticesFit) {rs : RoomSystem}
    (hw : rs.WellFormed) {c : UInt32} {event : ServerEvent} {change : Change} {ms : List Message}
    (h : Heard env rs c event change ms) {m : Message} (hm : m ∈ ms)
    (hfits : ¬ env.fits m = true) : m.IsQuiet := by
  by_contra hloud
  exact hfits (henv m hloud (h.short hw m hm hloud))

/-- What the size guard drops is silent. -/
theorem Heard.silent_of_not_fits {env : Env} (henv : env.NoticesFit)
    (hlogins : env.LoginResponsesFit) {rs : RoomSystem} (hw : rs.WellFormed) {c : UInt32}
    {event : ServerEvent} {change : Change} {ms : List Message}
    (h : Heard env rs c event change ms) {m : Message} (hm : m ∈ ms)
    (hfits : ¬ env.fits m = true) : m.IsSilent := by
  refine ⟨h.quiet_of_not_fits henv hw hm hfits, ?_⟩
  cases h with
  | silent event change ms hms _ => exact (hms m hm).2
  | otherLogin s requestId name hsc haccepted => exact absurd hm List.not_mem_nil
  | login requestId name session hs haccepted =>
      rw [List.mem_singleton.mp hm] at hfits
      exact absurd (hlogins requestId _ haccepted.2.2.1) hfits
  | join requestId r session room hs hlogged hr hne =>
      rcases List.mem_cons.mp hm with rfl | hm
      · rfl
      rcases List.mem_cons.mp hm with rfl | hm
      · rfl
      rcases List.mem_map.mp hm with ⟨other, _, rfl⟩
      rfl
  | enters s requestId q session room hsc hs hlogged hq hne =>
      rcases List.mem_append.mp hm with hm | hm
      · rcases mem_partings hm with ⟨_, rfl⟩
        rfl
      · rcases mem_arrivals hm with ⟨_, rfl⟩
        rfl
  | leaves event change session hsc hs _ =>
      rcases mem_partings hm with ⟨_, rfl⟩
      rfl
  | ended => exact absurd hm List.not_mem_nil

end ProjectNight
