import ProjectNight.Theory.Agreement

/-!
# What a Session May Be Told

The protocol has no document of its own; what a client may rely on is in the
order of the messages it is sent. Here it is as a monitor. A `Stage` is what a
client knows of itself: whether it is logged in, and the room it is in. Every
message is checked against the stage it arrives in: a join is confirmed to
somebody who is logged in and not in that room, room traffic is about the room
the client is in, a leave is refused to somebody who is in no room, a response
succeeds exactly when it carries no error. A message that does not fit ends the
monitor.

No run of the server ends it, and the stage is always right: what a client has
been told is what the server holds for its session. The one thing a session is
not told is its own end, and then there is nobody left to tell.

## Main definitions

* `Stage`, `Stage.next`: The monitor.
* `Message.coded`: The flag of a response and its error code agree.
* `Stage.Knows`: The stage is what the server holds.
* `GameLogicSystem.listen`: The monitor along a run.

## Theorems

* `coded_effect`: Flags and codes of every event.
* `hears_others`: What a session hears of other sessions.
* `hears_effect`: One event, as its own session or another one hears it.
* `GameLogicSystem.stream_conforms`: In every run.
-/

namespace ProjectNight

/-! ### The monitor -/

/-- What a client knows of itself. `left` is the room it was last told to have
    left; a remark about it may still follow. -/
structure Stage where
  loggedIn : Bool := false
  room : Option UInt32 := none
  left : Option UInt32 := none
  deriving DecidableEq, Repr

/-- A response succeeds exactly when it carries no error. -/
def Message.coded (m : Message) : Bool :=
  match m.payload with
  | .loginResponse (some table) => table.success = decide (table.errorCode = .none)
  | .joinRoomResponse (some table) => table.success = decide (table.errorCode = .none)
  | .leaveRoomResponse (some table) => table.success = decide (table.errorCode = .none)
  | .disconnectResponse (some table) => table.success = decide (table.errorCode = .none)
  | _ => true

/-- The stage after a message, or `none` when the message does not fit. -/
def Stage.next (st : Stage) (m : Message) : Option Stage :=
  match m.payload with
  | .loginResponse (some table) => some { st with loggedIn := st.loggedIn || table.success }
  | .roomListResponse (some _) => some st
  | .joinRoomResponse (some ⟨true, _, some room⟩) =>
      if st.loggedIn = true ∧ st.room ≠ some room.roomId then
        some { st with room := some room.roomId, left := none }
      else none
  | .joinRoomResponse (some ⟨false, _, none⟩) => some st
  | .leaveRoomResponse (some ⟨true, _⟩) =>
      if st.room.isSome then some { st with room := none, left := st.room } else none
  | .leaveRoomResponse (some ⟨false, _⟩) => if st.room = none then some st else none
  | .disconnectResponse (some _) => some {}
  | .chatBroadcast (some table) => if st.room = some table.roomId then some st else none
  | .userJoinedEvent (some ⟨roomId, some _⟩) => if st.room = some roomId then some st else none
  | .userLeftEvent (some ⟨roomId, some _⟩) => if st.room = some roomId then some st else none
  | .systemMessageEvent (some table) =>
      if table.roomId = noRoomId ∨ st.room = some table.roomId ∨ st.left = some table.roomId then
        some st
      else none
  | _ => none

/-- The stage after some messages. -/
def Stage.hear (st : Stage) (ms : List Message) : Option Stage := ms.foldlM Stage.next st

/-- Messages that change nothing. -/
theorem Stage.hear_still {st : Stage} {ms : List Message}
    (h : ∀ m ∈ ms, st.next m = some st) : st.hear ms = some st := by
  induction ms with
  | nil => rfl
  | cons m ms ih =>
      unfold hear at ih ⊢
      rw [List.foldlM_cons, h m List.mem_cons_self]
      exact ih (fun m' hm' => h m' (List.mem_cons_of_mem _ hm'))

theorem Stage.hear_cons {st st' : Stage} {m : Message} (ms : List Message)
    (h : st.next m = some st') : st.hear (m :: ms) = st'.hear ms := by
  unfold hear
  rw [List.foldlM_cons, h]
  rfl

/-- The stage is what the server holds for session `c`. -/
structure Stage.Knows (rs : RoomSystem) (c : UInt32) (st : Stage) : Prop where
  loggedIn : st.loggedIn = (rs.findSession c).any SessionState.loggedIn
  room : st.room = rs.place c

/-! ### Flags and codes -/

theorem coded_effect (env : Env) (reads : Nat) (rs : RoomSystem) (event : ServerEvent)
    {out : OutgoingMessage} (hout : out ∈ (effect env reads rs event).messages) :
    out.payload.coded = true := by
  have hleaving : ∀ session, out ∈ leaveNotices env rs session → out.payload.coded = true := by
    intro session h
    rcases List.mem_map.mp h with ⟨member, _, rfl⟩
    rfl
  have hfarewell : ∀ s, out ∈ farewells env rs s → out.payload.coded = true := by
    intro s h
    unfold farewells at h
    cases hs : rs.findSession s with
    | none =>
        rw [hs] at h
        exact absurd h List.not_mem_nil
    | some session =>
        rw [hs] at h
        exact hleaving session h
  have hone : ∀ {s m}, m.coded = true → out ∈ [(⟨s, m⟩ : OutgoingMessage)] →
      out.payload.coded = true := by
    intro s m hm h
    rw [List.mem_singleton.mp h]
    exact hm
  cases event with
  | sessionConnected s => exact absurd hout List.not_mem_nil
  | sessionDisconnected s => exact hfarewell s hout
  | invalidPacket s message => exact hone rfl hout
  | roomListRequest s requestId => exact hone rfl hout
  | disconnectRequest s requestId =>
      rcases List.mem_cons.mp hout with rfl | hout
      · rfl
      · exact hfarewell s hout
  | chatSendRequest s requestId content =>
      have hbuilds := builds_chat requestId hout
      generalize out.payload = m at hbuilds
      cases hbuilds <;> rfl
  | loginRequest s requestId name =>
      simp only [effect, loginEffect] at hout
      split at hout
      · exact absurd hout List.not_mem_nil
      · split_ifs at hout
        all_goals exact hone rfl hout
  | joinRoomRequest s requestId r =>
      simp only [effect, joinEffect] at hout
      split at hout
      · exact absurd hout List.not_mem_nil
      · rename_i session hs
        -- The two conditions come apart first, and then whether the room exists.
        split_ifs at hout with hlogged hsame
        · exact hone rfl hout
        · split at hout
          · exact hone rfl hout
          · exact hone rfl hout
        · split at hout
          · exact hone rfl hout
          · rcases List.mem_append.mp hout with hout | hout
            · exact hleaving session hout
            rcases List.mem_cons.mp hout with rfl | hout
            · rfl
            rcases List.mem_cons.mp hout with rfl | hout
            · rfl
            rcases List.mem_flatMap.mp hout with ⟨other, _, hout⟩
            rcases List.mem_cons.mp hout with rfl | hout
            · rfl
            · exact hone rfl hout
  | leaveRoomRequest s requestId =>
      simp only [effect, leaveEffect] at hout
      split at hout
      · exact absurd hout List.not_mem_nil
      · rename_i session hs
        split_ifs at hout
        · exact hone rfl hout
        · rcases List.mem_append.mp hout with hout | hout
          · exact hleaving session hout
          rcases List.mem_cons.mp hout with rfl | hout
          · rfl
          · exact hone rfl hout

/-! ### What a session hears of others -/

section Hearing

variable {env : Env} {reads : Nat} {rs : RoomSystem} {c : UInt32} {st : Stage}

/-- Room traffic fits when it is about the room the session is in. -/
theorem Stage.next_notice (hw : rs.WellFormed) (h : st.Knows rs c) {r : UInt32}
    (hr : rs.IsMember c r) {m : Message} (hm : (∃ user, m = userJoinedMessage r user) ∨
      (∃ user, m = userLeftMessage r user)) : st.next m = some st := by
  have hroom : st.room = some r := h.room.trans (hw.place_eq_some.mpr hr)
  rcases hm with ⟨user, rfl⟩ | ⟨user, rfl⟩
  · exact if_pos hroom
  · exact if_pos hroom

/-- A remark names the room the session is in, the one it has left, or none. -/
theorem Stage.next_remark {r : UInt32} (text : Bytes)
    (h : r = noRoomId ∨ st.room = some r ∨ st.left = some r) :
    st.next (systemMessage r text) = some st :=
  if_pos h

/-- A line fits when it is sent to a member. -/
theorem Stage.next_line (hw : rs.WellFormed) (h : st.Knows rs c) {s : UInt32} {content : Bytes}
    {session : SessionState} (hacc : ChatAccepted rs s content session) {m : Message}
    (hm : m ∈ messagesFor c (chatMessages env reads rs s content)) : st.next m = some st := by
  by_cases hmember : rs.IsMember c session.roomId
  · rcases messagesFor_chat env hw reads hacc hmember with ⟨timestamp, hone⟩
    rw [hone, List.mem_singleton] at hm
    rw [hm]
    exact if_pos (h.room.trans (hw.place_eq_some.mpr hmember))
  · rw [messagesFor_chat_elsewhere hw hacc hmember] at hm
    exact absurd hm List.not_mem_nil

/-- Whatever other sessions do fits, and leaves the stage alone. -/
theorem hears_others (hw : rs.WellFormed) (h : st.Knows rs c) (event : ServerEvent)
    (hne : event.sessionId ≠ c) {m : Message}
    (hm : m ∈ messagesFor c (effect env reads rs event).messages) : st.next m = some st := by
  have hleft : ∀ s session, s ≠ c → rs.findSession s = some session →
      m ∈ messagesFor c (leaveNotices env rs session) → st.next m = some st := by
    intro s session hsc hs hmem
    rw [messagesFor_partings env hw hsc hs] at hmem
    rcases mem_partings hmem with ⟨hmember, rfl⟩
    exact Stage.next_notice hw h hmember (Or.inr ⟨session, rfl⟩)
  have hfarewell : ∀ s, s ≠ c → m ∈ messagesFor c (farewells env rs s) → st.next m = some st := by
    intro s hsc hmem
    unfold farewells at hmem
    cases hs : rs.findSession s with
    | none =>
        rw [hs] at hmem
        exact absurd hmem List.not_mem_nil
    | some session =>
        rw [hs] at hmem
        exact hleft s session hsc hs hmem
  -- Answers go to who asked.
  have hanswer : ∀ {s m'}, s ≠ c → m ∈ messagesFor c [(⟨s, m'⟩ : OutgoingMessage)] → False := by
    intro s m' hsc hmem
    rw [messagesFor_singleton_other hsc] at hmem
    exact absurd hmem List.not_mem_nil
  cases event with
  | sessionConnected s => exact absurd hm List.not_mem_nil
  | sessionDisconnected s => exact hfarewell s hne hm
  | invalidPacket s message => exact absurd hm (hanswer hne)
  | roomListRequest s requestId => exact absurd hm (hanswer hne)
  | loginRequest s requestId name =>
      simp only [effect] at hm
      rcases loginEffect_cases rs s requestId name with ⟨_, he⟩ | ⟨_, _, he⟩ | ⟨_, _, _, he⟩
      · rw [he] at hm
        exact absurd hm List.not_mem_nil
      · rw [he] at hm
        exact absurd hm (hanswer hne)
      · rw [he] at hm
        exact absurd hm (hanswer hne)
  | joinRoomRequest s requestId r =>
      simp only [effect] at hm
      rcases joinEffect_cases env rs s requestId r with ⟨_, he⟩ | ⟨_, _, he⟩ |
        ⟨session, room, hs, _, hr, _, he⟩
      · rw [he] at hm
        exact absurd hm List.not_mem_nil
      · rw [he] at hm
        exact absurd hm (hanswer hne)
      · rw [he, messagesFor_append, List.mem_append] at hm
        rcases hm with hm | hm
        · exact hleft s session hne hs hm
        · have hsc : s ≠ c := hne
          rw [messagesFor_arrivals env hw hsc requestId session hr] at hm
          rcases mem_arrivals hm with ⟨hmember, rfl⟩
          exact Stage.next_notice hw h hmember (Or.inl ⟨_, rfl⟩)
  | chatSendRequest s requestId content =>
      simp only [effect] at hm
      rcases chatMessages_cases env reads rs s content with ⟨_, hnone⟩ |
        ⟨_, _, _, _, _, _, hremark⟩ | ⟨session, hacc⟩
      · rw [hnone] at hm
        exact absurd hm List.not_mem_nil
      · rw [hremark] at hm
        exact absurd hm (hanswer hne)
      · exact Stage.next_line hw h hacc hm
  | leaveRoomRequest s requestId =>
      simp only [effect] at hm
      rcases leaveEffect_cases env rs s requestId with ⟨_, he⟩ | ⟨_, he⟩ | ⟨session, hs, _, he⟩
      · rw [he] at hm
        exact absurd hm List.not_mem_nil
      · rw [he] at hm
        exact absurd hm (hanswer hne)
      · rw [he, messagesFor_append, List.mem_append] at hm
        rcases hm with hm | hm
        · exact hleft s session hne hs hm
        · refine absurd hm ?_
          rw [messagesFor_eq_nil]
          · exact List.not_mem_nil
          · intro out hout
            rcases List.mem_cons.mp hout with rfl | hout
            · exact hne
            · rw [List.mem_singleton.mp hout]
              exact hne
  | disconnectRequest s requestId =>
      have hsplit : m ∈ messagesFor c ([⟨s, disconnectResponseMessage requestId⟩]
        ++ farewells env rs s) := hm
      rw [messagesFor_append, List.mem_append] at hsplit
      rcases hsplit with hm | hm
      · exact absurd hm (hanswer hne)
      · exact hfarewell s hne hm

/-! ### What a session hears of itself -/

theorem Stage.Knows.of_change {st' : Stage} {change : Change}
    (hlogged : st'.loggedIn = (change.entry c (rs.findSession c)).any SessionState.loggedIn)
    (hroom : st'.room = (rs.change c change).place c) : st'.Knows (rs.change c change) c where
  loggedIn := by rw [hlogged, RoomSystem.findSession_change, if_pos rfl]
  room := hroom

/-- One answer that changes nothing. -/
theorem hears_remark (h : st.Knows rs c) {m : Message} (hm : st.next m = some st) :
    ∃ st', st.hear (messagesFor c [⟨c, m⟩]) = some st' ∧ st'.Knows (rs.change c .keep) c := by
  refine ⟨st, ?_, h⟩
  rw [messagesFor_singleton_self]
  exact Stage.hear_still (fun m' hm' => by rw [List.mem_singleton.mp hm']; exact hm)

theorem hears_login (h : st.Knows rs c) (requestId : UInt32) (name : Bytes) :
    ∃ st', st.hear (messagesFor c (loginEffect rs c requestId name).messages) = some st' ∧
      st'.Knows (rs.change c (loginEffect rs c requestId name).change) c := by
  rcases loginEffect_cases rs c requestId name with ⟨_, he⟩ | ⟨code, _, he⟩ |
    ⟨session, _, hs, he⟩
  · rw [he]
    exact ⟨st, rfl, h⟩
  · rw [he]
    refine hears_remark h ?_
    simp only [Stage.next, loginResponseMessage, Bool.or_false]
  · rw [he]
    refine ⟨{ st with loggedIn := true }, ?_, .of_change ?_ ?_⟩
    · simp only [messagesFor_singleton_self]
      refine (Stage.hear_cons [] ?_).trans rfl
      simp only [Stage.next, loginResponseMessage, Bool.or_true]
    · rw [hs]
      rfl
    · rw [rs.place_change_still c c (Or.inr (Or.inr ⟨name, rfl⟩))]
      exact h.room

theorem hears_join (hw : rs.WellFormed) (h : st.Knows rs c) (requestId r : UInt32) :
    ∃ st', st.hear (messagesFor c (joinEffect env rs c requestId r).messages) = some st' ∧
      st'.Knows (rs.change c (joinEffect env rs c requestId r).change) c := by
  rcases joinEffect_cases env rs c requestId r with ⟨_, he⟩ | ⟨code, _, he⟩ |
    ⟨session, room, hs, hlogged, hr, hne, he⟩
  · rw [he]
    exact ⟨st, rfl, h⟩
  · rw [he]
    exact hears_remark h rfl
  · rw [he]
    have hin : st.loggedIn = true := by
      rw [h.loggedIn, hs]
      exact hlogged
    have hout : st.room ≠ some r := by
      rw [h.room]
      exact fun hc => hw.not_isMember hs hne (hw.place_eq_some.mp hc)
    refine ⟨{ st with room := some r, left := none }, ?_, .of_change ?_ ?_⟩
    · simp only [messagesFor_append]
      rw [messagesFor_leaveNotices_self env hw hs, List.nil_append,
        messagesFor_enter_self env hw requestId hs hr hne]
      have hconfirmed : st.next (joinRoomResponseMessage requestId true .none
          (some { room with members := room.members.insert c }))
          = some { st with room := some r, left := none } := by
        have hkey : room.roomId = r := hw.room_key r room hr
        rw [← hkey] at hout ⊢
        exact if_pos ⟨hin, hout⟩
      rw [Stage.hear_cons _ hconfirmed]
      -- What follows is about the new room.
      refine Stage.hear_still (fun m hm => ?_)
      rcases List.mem_cons.mp hm with rfl | hm
      · exact Stage.next_remark _ (Or.inr (Or.inl rfl))
      · rcases List.mem_map.mp hm with ⟨other, _, rfl⟩
        exact if_pos rfl
    · rw [hs]
      exact hin.trans hlogged.symm
    · rw [rs.place_change_enter c c hs (hw.ne_noRoomId hr), if_pos rfl]

theorem hears_leave (hw : rs.WellFormed) (h : st.Knows rs c) (requestId : UInt32) :
    ∃ st', st.hear (messagesFor c (leaveEffect env rs c requestId).messages) = some st' ∧
      st'.Knows (rs.change c (leaveEffect env rs c requestId).change) c := by
  rcases leaveEffect_cases env rs c requestId with ⟨_, he⟩ | ⟨hrefused, he⟩ |
    ⟨session, hs, hroom, he⟩
  · rw [he]
    exact ⟨st, rfl, h⟩
  · rw [he]
    refine hears_remark h ?_
    have hnone : st.room = none := by
      rw [h.room]
      exact place_of_not_leaveAccepted hrefused
    exact if_pos hnone
  · rw [he]
    have hplace : st.room = some session.roomId :=
      h.room.trans (hw.place_eq_some.mpr (hw.isMember_of_session hs hroom))
    refine ⟨{ st with room := none, left := st.room }, ?_, .of_change ?_ ?_⟩
    · simp only [messagesFor_append]
      have hreplies : messagesFor c [⟨c, leaveRoomResponseMessage requestId true .none⟩,
          ⟨c, systemMessage session.roomId (utf8 "방에서 퇴장했습니다.")⟩]
          = [leaveRoomResponseMessage requestId true .none,
            systemMessage session.roomId (utf8 "방에서 퇴장했습니다.")] := by
        simp only [messagesFor, List.filter_cons, decide_true, if_true, List.filter_nil,
          List.map_cons, List.map_nil]
      rw [messagesFor_leaveNotices_self env hw hs, List.nil_append, hreplies]
      have hconfirmed : st.next (leaveRoomResponseMessage requestId true .none)
          = some { st with room := none, left := st.room } :=
        if_pos (by rw [hplace]; rfl)
      rw [Stage.hear_cons _ hconfirmed]
      -- The remark names the room that was left.
      refine Stage.hear_still (fun m hm => ?_)
      rw [List.mem_singleton.mp hm]
      exact Stage.next_remark _ (Or.inr (Or.inr hplace))
    · rw [hs, h.loggedIn, hs]
      rfl
    · rw [rs.place_change_out c c, if_pos rfl]

theorem hears_chat (hw : rs.WellFormed) (h : st.Knows rs c) (content : Bytes) :
    ∃ st', st.hear (messagesFor c (chatMessages env reads rs c content)) = some st' ∧
      st'.Knows (rs.change c .keep) c := by
  rcases chatMessages_cases env reads rs c content with ⟨_, hnone⟩ |
    ⟨session, r, text, _, hs, hr, hremark⟩ | ⟨session, hacc⟩
  · rw [hnone]
    exact ⟨st, rfl, h⟩
  · rw [hremark]
    refine hears_remark h (Stage.next_remark text ?_)
    by_cases hno : r = noRoomId
    · exact Or.inl hno
    · have hroom := hr.resolve_left hno
      rw [hroom] at hno
      refine Or.inr (Or.inl (h.room.trans ?_))
      exact hroom ▸ hw.place_eq_some.mpr (hw.isMember_of_session hs hno)
  · exact ⟨st, Stage.hear_still (fun m hm => Stage.next_line hw h hacc hm), h⟩

-- Whoever goes is not told.
theorem messagesFor_farewells_self (hw : rs.WellFormed) (s : UInt32) :
    messagesFor s (farewells env rs s) = [] := by
  unfold farewells
  cases hs : rs.findSession s with
  | none => rfl
  | some session => exact messagesFor_leaveNotices_self env hw hs

/-- Everything a session is told of its own doing fits, and it is told all of it
    but its end. -/
theorem hears_own (hw : rs.WellFormed) (h : st.Knows rs c) (event : ServerEvent)
    (hown : event.sessionId = c) (hend : event ≠ .sessionDisconnected c) :
    ∃ st', st.hear (messagesFor c (effect env reads rs event).messages) = some st' ∧
      st'.Knows (rs.change c (effect env reads rs event).change) c := by
  cases event with
  | sessionConnected s =>
      refine ⟨st, rfl, .of_change ?_ ?_⟩
      · rw [h.loggedIn]
        cases rs.findSession c with
        | none => rfl
        | some session => rfl
      · exact h.room.trans (rs.place_change_still c c (Or.inr (Or.inl rfl))).symm
  | sessionDisconnected s =>
      subst hown
      exact absurd rfl hend
  | invalidPacket s message =>
      subst hown
      exact hears_remark h (Stage.next_remark message (Or.inl rfl))
  | loginRequest s requestId name =>
      subst hown
      exact hears_login h requestId name
  | roomListRequest s requestId =>
      subst hown
      exact hears_remark h rfl
  | joinRoomRequest s requestId r =>
      subst hown
      exact hears_join hw h requestId r
  | chatSendRequest s requestId content =>
      subst hown
      exact hears_chat hw h content
  | leaveRoomRequest s requestId =>
      subst hown
      exact hears_leave hw h requestId
  | disconnectRequest s requestId =>
      subst hown
      refine ⟨{}, ?_, .of_change rfl ?_⟩
      · have hsplit := messagesFor_append s [⟨s, disconnectResponseMessage requestId⟩]
          (farewells env rs s)
        rw [messagesFor_singleton_self, messagesFor_farewells_self hw, List.append_nil] at hsplit
        refine (congrArg st.hear hsplit).trans ?_
        rw [Stage.hear_cons [] rfl]
        rfl
      · exact ((rs.place_change_remove s s).trans (if_pos rfl)).symm

-- A change of another session.
theorem Stage.Knows.other (h : st.Knows rs c) {s : UInt32} (hsc : s ≠ c) (change : Change) :
    st.Knows (rs.change s change) c where
  loggedIn := by rw [h.loggedIn, RoomSystem.findSession_change, if_neg hsc]
  room := by rw [h.room, rs.place_change_other hsc]

/-- One event, and the stage after it. A session whose end was handled starts
    over. -/
theorem hears_effect (henv : env.Compact) (hw : rs.WellFormed) (h : st.Knows rs c)
    (event : ServerEvent) :
    ∃ st', st.hear (messagesFor c ((effect env reads rs event).messages.filter
        (fun out => env.fits out.payload))) = some st' ∧
      (if event = .sessionDisconnected c then {} else st').Knows
        (rs.change event.sessionId (effect env reads rs event).change) c := by
  rw [← messagesFor_filter]
  by_cases hown : event.sessionId = c
  · by_cases hend : event = .sessionDisconnected c
    · subst hend
      refine ⟨st, ?_, ?_⟩
      · have hnone : messagesFor c (effect env reads rs (.sessionDisconnected c)).messages = [] :=
          messagesFor_farewells_self hw c
        rw [hnone]
        rfl
      · rw [if_pos rfl]
        exact .of_change rfl ((rs.place_change_remove c c).trans (if_pos rfl)).symm
    · have hevent : ∃ st', st.hear (messagesFor c (effect env reads rs event).messages) = some st' ∧
          st'.Knows (rs.change c (effect env reads rs event).change) c :=
        hears_own hw h event hown hend
      rcases hevent with ⟨st', hhear, hknows⟩
      simp only [if_neg hend, hown]
      by_cases hbrief : event.Brief
      · refine ⟨st', ?_, hknows⟩
        rw [messagesFor_filter, henv.filter_effect hw hbrief]
        exact hhear
      · -- Too long a remark about an invalid packet may be dropped.
        cases event with
        | invalidPacket s message =>
            subst hown
            refine ⟨st, Stage.hear_still (fun m hm => ?_), h⟩
            have hone : messagesFor s [⟨s, systemMessage 0 message⟩] = [systemMessage 0 message] :=
              messagesFor_singleton_self s _
            have hmem : m ∈ messagesFor s [⟨s, systemMessage 0 message⟩] :=
              (List.mem_filter.mp hm).1
            rw [hone, List.mem_singleton] at hmem
            rw [hmem]
            exact Stage.next_remark message (Or.inl rfl)
        | _ => exact absurd trivial hbrief
  · refine ⟨st, ?_, ?_⟩
    · refine Stage.hear_still (fun m hm => ?_)
      exact hears_others hw h event hown (List.mem_filter.mp hm).1
    · rw [if_neg (fun hc => hown (by rw [hc]; rfl))]
      exact h.other hown _

end Hearing

/-! ### Whole runs -/

namespace GameLogicSystem

/-- What one event adds to the queue. -/
def queuedBy (env : Env) (g : GameLogicSystem) (event : ServerEvent) : List OutgoingMessage :=
  (handleEvent env g event).outgoingMessages.drop g.outgoingMessages.length

/-- The monitor of session `c` along some events. It starts over when the end of
    the session is handled. -/
def listen (env : Env) (c : UInt32) (g : GameLogicSystem) (st : Stage) :
    List ServerEvent → Option Stage
  | [] => some st
  | event :: events =>
      (st.hear (messagesFor c (queuedBy env g event))).bind fun st' =>
        listen env c (handleEvent env g event)
          (if event = .sessionDisconnected c then {} else st') events

theorem listen_knows {env : Env} (henv : env.Compact) (c : UInt32) (events : List ServerEvent)
    {g : GameLogicSystem} (hw : g.roomSystem.WellFormed) (hsync : Synced env g) {st : Stage}
    (h : st.Knows g.roomSystem c) :
    ∃ st', listen env c g st events = some st' ∧
      st'.Knows (g.update env events).roomSystem c := by
  induction events generalizing g st with
  | nil => exact ⟨st, rfl, h⟩
  | cons event events ih =>
      have hdoes := handleEvent_performs env hw event
      have hsync' : Synced env (handleEvent env g event) := synced_handleEvent hsync event
      have hqueued : queuedBy env g event = (effect env g.clockReads g.roomSystem
          event).messages.filter (fun out => env.fits out.payload) := by
        unfold queuedBy
        rw [outgoingMessages_effect hdoes hsync hsync', List.drop_left]
      rcases hears_effect henv hw h event with ⟨st', hhear, hknows⟩
      rw [← hdoes.roomSystem] at hknows
      rw [listen, hqueued, hhear]
      exact ih (wellFormed_handleEvent env hw event) hsync' hknows

theorem coded_queued (env : Env) (events : List ServerEvent) {out : OutgoingMessage}
    (hout : out ∈ (initial.update env events).outgoingMessages) : out.payload.coded = true := by
  induction events using List.reverseRecOn with
  | nil => exact absurd hout List.not_mem_nil
  | append_singleton events event ih =>
      rw [update_concat, outgoingMessages_step, List.mem_append] at hout
      rcases hout with hold | hnew
      · exact ih hold
      · exact coded_effect env _ _ event (List.mem_filter.mp hnew).1

/-- In every run, the messages queued for a session fit the protocol one after
    the other, and the stage they lead to is what the server holds: whether the
    session is logged in, and the room it is in. Every response that was queued
    succeeds exactly when it carries no error. -/
theorem stream_conforms (env : Env) (henv : env.Compact) (events : List ServerEvent) :
    let g := initial.update env events
    (∀ c, ∃ st, listen env c initial {} events = some st ∧
      st.loggedIn = (g.roomSystem.findSession c).any SessionState.loggedIn ∧
      ∀ r, st.room = some r ↔ g.roomSystem.IsMember c r) ∧
    ∀ out ∈ g.outgoingMessages, out.payload.coded = true := by
  intro g
  refine ⟨fun c => ?_, ?_⟩
  · have hstart : Stage.Knows initial.roomSystem c {} := ⟨rfl, (if_pos rfl).symm⟩
    rcases listen_knows henv c events RoomSystem.wellFormed_init (synced_initial env) hstart with
      ⟨st, hlisten, hknows⟩
    refine ⟨st, hlisten, hknows.loggedIn, fun r => ?_⟩
    rw [hknows.room]
    exact (update_wellFormed env events).place_eq_some
  · exact fun out hout => coded_queued env events hout

/-- A session moves from one room to another, where somebody joins it, and leaves;
    a second leave is refused. -/
theorem stream_conforms_twoRooms :
    let events : List ServerEvent := [.sessionConnected 1, .sessionConnected 2,
      .loginRequest 1 1 [97], .loginRequest 2 1 [98], .joinRoomRequest 1 2 1001,
      .joinRoomRequest 1 3 1002, .joinRoomRequest 2 2 1002, .chatSendRequest 2 3 [72],
      .leaveRoomRequest 1 4, .leaveRoomRequest 1 5]
    listen plainCodec.toEnv 1 initial {} events = some ⟨true, none, some 1002⟩ ∧
      ∀ r, ¬ (initial.update plainCodec.toEnv events).roomSystem.IsMember 1 r := by
  intro events
  have hstage : listen plainCodec.toEnv 1 initial {} events = some ⟨true, none, some 1002⟩ := by
    decide +kernel
  rcases (stream_conforms plainCodec.toEnv compact_plainCodec events).1 1 with
    ⟨st, hlisten, _, hroom⟩
  rw [hstage, Option.some.injEq] at hlisten
  refine ⟨hstage, fun r hmember => ?_⟩
  have hsome := (hroom r).mpr hmember
  rw [← hlisten] at hsome
  exact absurd hsome (Option.some_ne_none r).symm

end GameLogicSystem

end ProjectNight
