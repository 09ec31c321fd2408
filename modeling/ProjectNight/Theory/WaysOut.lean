import ProjectNight.Theory.Responses

/-!
# Ways Out of a Room

A session leaves a room on request, by joining another one, by asking for a
disconnect, or when its connection ends. Four handlers, each with its own
sequence of updates, have to look the same to everybody who stays: one leave
notice to each, and the session gone from the member set.

Each of the four has the leave notices of the session in its effect, and no
other message of that kind (`userLeft_effect`). The rest of the module is two
equations between runs. Joining from a room is leaving it and then joining,
since the member sets see the same changes either way and the new room has the
same members. And after a `DisconnectRequest` the session is forgotten
already, so the `SessionDisconnected` that the transport delivers later finds
nothing to do, whatever the others did in between (`forget_eq_self`).

The notice shows the name through a `const char*`. With somebody there to read
it, it is the current name exactly when that name has no NUL byte.

## Main definitions

* `Message.isUserLeft`: A leave notice.
* `ToldOut`: Everybody who stays is told once, and the session is out.
* `SameForOthers`: Two states and histories that others cannot tell apart.
* `waysOut`: The four events.
* `OutAgrees`: The ways out agree.

## Theorems

* `userLeft_effect`: The leave notices among the messages of a way out.
* `toldOut_iff`: When the others are told the current name.
* `join_eq_leave_join`, `disconnect_eq_disconnected`: The two equations.
* `update_waysOut`: When the ways out agree, for every reachable state.
-/

namespace ProjectNight

def Message.isUserLeft (m : Message) : Bool :=
  match m.payload with
  | .userLeftEvent _ => true
  | _ => false

/-- The four events with which session `s` leaves its room; `r'` is another
    room. -/
def waysOut (s requestId r' : UInt32) : List ServerEvent :=
  [.leaveRoomRequest s requestId, .disconnectRequest s requestId, .sessionDisconnected s,
    .joinRoomRequest s requestId r']

/-- From `g` to `g'` every other member of room `r` was queued one leave notice
    of session `s` under `name`, nobody else was queued one, and the session
    is out of the room. -/
def ToldOut (g g' : GameLogicSystem) (s r : UInt32) (name : Bytes) : Prop :=
  ∃ new, g'.outgoingMessages = g.outgoingMessages ++ new ∧
    (∀ t, (messagesFor t new).filter Message.isUserLeft
      = if t ≠ s ∧ g.roomSystem.IsMember t r then
          [{ requestId := 0
             payload := .userLeftEvent (some { roomId := r, user := some ⟨s, some name⟩ }) }]
        else []) ∧
    ¬ g'.roomSystem.IsMember s r

/-- The same room system, and the same messages to everybody but `s`. -/
def SameForOthers (s : UInt32) (g g' : GameLogicSystem) : Prop :=
  g.roomSystem = g'.roomSystem ∧
    ∀ t, t ≠ s → messagesFor t g.queued = messagesFor t g'.queued

/-- Everything built so far fits the queue. -/
def AllFit (env : Env) (g : GameLogicSystem) : Prop :=
  ∀ call ∈ g.queueCalls, env.fits call.message = true

namespace GameLogicSystem

/-- The ways out of room `r` agree for session `s`, whose name is `name`: each
    one tells everybody else once; a join of `r'` is a leave and then the join;
    and a disconnect request, whatever the others do until the connection has
    ended, is the end of the connection. -/
def OutAgrees (env : Env) (g : GameLogicSystem) (s r : UInt32) (name : Bytes)
    (requestId leaveId r' : UInt32) (others : List ServerEvent) : Prop :=
  (∀ out ∈ waysOut s requestId r', ToldOut g (update env g [out]) s r name) ∧
  SameForOthers s (update env g [.joinRoomRequest s requestId r'])
    (update env g [.leaveRoomRequest s leaveId, .joinRoomRequest s requestId r']) ∧
  SameForOthers s (update env g (.disconnectRequest s requestId :: others
      ++ [.sessionDisconnected s]))
    (update env g (.sessionDisconnected s :: others))

/-- The runs the ways out are compared by. -/
def outRuns (s requestId leaveId r' : UInt32) (others : List ServerEvent) :
    List (List ServerEvent) :=
  (waysOut s requestId r').map (fun out => [out])
    ++ [[.leaveRoomRequest s leaveId, .joinRoomRequest s requestId r'],
      .disconnectRequest s requestId :: others ++ [.sessionDisconnected s],
      .sessionDisconnected s :: others]

end GameLogicSystem

/-! ### Leave notices -/

section Notices

variable {rs : RoomSystem} (env : Env)

-- Everybody else in the room gets one.
theorem messagesFor_leaveNotices (hw : rs.WellFormed) {s : UInt32} {session : SessionState}
    (hs : rs.findSession s = some session) (t : UInt32) :
    messagesFor t (leaveNotices env rs session)
      = if t ≠ s ∧ rs.IsMember t session.roomId then
          [userLeftMessage session.roomId session] else [] := by
  have htold := told_map_member (hw.nodup_getRoomMembers env.toIteration session.roomId
    (some session.sessionId)) t rs (userLeftMessage session.roomId session)
  have hsame : messagesFor t (leaveNotices env rs session)
      = told t ((rs.getRoomMembers env.toIteration session.roomId (some session.sessionId)).map
        (fun member => ⟨rs, member.sessionId, userLeftMessage session.roomId session⟩)) := by
    rw [← messagesFor_map, List.map_map]
    rfl
  rw [hsame, htold]
  refine if_congr ?_ rfl rfl
  rw [hw.mem_map_getRoomMembers, (hw.session_key s session hs).1, ne_eq, Option.some.injEq]
  exact ⟨fun h => ⟨fun hc => h.2 hc.symm, h.1⟩, fun h => ⟨h.2, fun hc => h.1 hc.symm⟩⟩

theorem filter_isUserLeft_leaveNotices (session : SessionState) :
    (leaveNotices env rs session).filter (fun out => out.payload.isUserLeft)
      = leaveNotices env rs session := by
  rw [List.filter_eq_self]
  intro out hout
  rcases List.mem_map.mp hout with ⟨member, _, rfl⟩
  rfl

theorem filter_isUserLeft_enterNotices (s requestId r : UInt32) (session : SessionState)
    (room : RoomState) : (enterNotices env rs s requestId r session room).filter
      (fun out => out.payload.isUserLeft) = [] := by
  rw [List.filter_eq_nil_iff]
  intro out hout
  rcases List.mem_cons.mp hout with rfl | hout
  · exact Bool.false_ne_true
  rcases List.mem_cons.mp hout with rfl | hout
  · exact Bool.false_ne_true
  rcases List.mem_flatMap.mp hout with ⟨other, _, hout⟩
  rcases List.mem_cons.mp hout with rfl | hout
  · exact Bool.false_ne_true
  · rw [List.mem_singleton.mp hout]
    exact Bool.false_ne_true

/-- Whatever the way out, the leave notices are those of the session. -/
theorem userLeft_effect (hw : rs.WellFormed) {s requestId r' : UInt32}
    {session : SessionState} {room' : RoomState} (hs : rs.findSession s = some session)
    (hroom : session.roomId ≠ noRoomId) (hr' : rs.findRoom r' = some room')
    (hne : session.roomId ≠ r') {out : ServerEvent} (hout : out ∈ waysOut s requestId r')
    (reads : Nat) : (effect env reads rs out).messages.filter (fun out => out.payload.isUserLeft)
      = leaveNotices env rs session := by
  have hfarewells : farewells env rs s = leaveNotices env rs session := by
    unfold farewells
    rw [hs]
  rcases List.mem_cons.mp hout with rfl | hout
  · simp only [effect, leaveEffect_of_accepted env requestId hs hroom]
    rw [List.filter_append, filter_isUserLeft_leaveNotices]
    exact List.append_nil _
  rcases List.mem_cons.mp hout with rfl | hout
  · simp only [effect, hfarewells]
    exact (List.filter_cons_of_neg Bool.false_ne_true).trans
      (filter_isUserLeft_leaveNotices env session)
  rcases List.mem_cons.mp hout with rfl | hout
  · simp only [effect, hfarewells]
    exact filter_isUserLeft_leaveNotices env session
  · rw [List.mem_singleton.mp hout]
    simp only [effect, joinEffect_of_accepted env requestId hs (hw.loggedIn hs hroom) hr' hne]
    rw [List.filter_append, filter_isUserLeft_leaveNotices, filter_isUserLeft_enterNotices,
      List.append_nil]

end Notices

theorem messagesFor_filter (t : UInt32) (l : List OutgoingMessage) (f : Message → Bool) :
    (messagesFor t l).filter f = messagesFor t (l.filter (fun out => f out.payload)) := by
  unfold messagesFor
  rw [List.filter_map, List.filter_filter, List.filter_filter]
  refine congrArg (List.map OutgoingMessage.payload) (List.filter_congr (fun out _ => ?_))
  exact Bool.and_comm _ _

-- Afterwards the entry of the session is gone or names another room.
theorem not_isMember_way_out {rs rs' : RoomSystem} (hw : rs.WellFormed) (hc : rs'.Consistent)
    (env : Env) (reads : Nat) {s requestId r' : UInt32} {session : SessionState}
    {room' : RoomState} (hs : rs.findSession s = some session)
    (hroom : session.roomId ≠ noRoomId) (hr' : rs.findRoom r' = some room')
    (hne : session.roomId ≠ r') {out : ServerEvent} (hout : out ∈ waysOut s requestId r')
    (hrs : rs' = rs.change s (effect env reads rs out).change) :
    ¬ rs'.IsMember s session.roomId := by
  have hentry : rs'.findSession s = (effect env reads rs out).change.entry s (some session) := by
    rw [hrs, RoomSystem.findSession_change, if_pos rfl, hs]
  intro hm
  rcases hc.session_of_isMember hm with ⟨session', hs', hr, _⟩
  rw [hs'] at hentry
  rcases List.mem_cons.mp hout with rfl | hout
  · simp only [effect, leaveEffect_of_accepted env requestId hs hroom, Change.entry,
      Option.map_some, Option.some.injEq] at hentry
    rw [hentry] at hr
    exact hroom hr.symm
  rcases List.mem_cons.mp hout with rfl | hout
  · cases hentry
  rcases List.mem_cons.mp hout with rfl | hout
  · cases hentry
  · rw [List.mem_singleton.mp hout] at hentry
    simp only [effect, joinEffect_of_accepted env requestId hs (hw.loggedIn hs hroom) hr' hne,
      Change.entry, Option.map_some, Option.some.injEq] at hentry
    rw [hentry] at hr
    exact hne hr.symm

-- Forgetting a session that is not there changes nothing.
theorem RoomSystem.forget_eq_self {rs : RoomSystem} (h : rs.Consistent) {s : UInt32}
    (hs : rs.findSession s = none) : rs.forget s = rs := by
  refine ext_find _ _ (fun t => ?_) (fun q => ?_)
  · rw [findSession_forget]
    by_cases hst : s = t
    · rw [if_pos hst, ← hst, hs]
    · rw [if_neg hst]
  · rw [findRoom_forget]
    refine h.erase_elsewhere (fun session hs' => ?_)
    cases hs.symm.trans hs'

namespace GameLogicSystem

variable {env : Env} {g g' : GameLogicSystem}

-- With everything in the queue, the queue is what was built.
theorem outgoingMessages_of_allFit (h : Synced env g) (hfit : AllFit env g) :
    g.outgoingMessages = g.built := by
  rw [outgoingMessages_eq_built h, List.filter_eq_self]
  intro out hout
  rcases List.mem_map.mp hout with ⟨call, hcall, rfl⟩
  exact hfit call hcall

theorem queued_of_allFit (h : Synced env g) (hfit : AllFit env g) : g.queued = g.transcript := by
  unfold queued transcript
  rw [outgoingMessages_of_allFit h hfit]

-- What was built before fits if everything built so far does.
theorem allFit_of_performs {s : UInt32} {e : Effect} (hdoes : Performs g s e g')
    (hfit : AllFit env g') : AllFit env g := by
  intro call hcall
  have hmem : call.outgoing ∈ g'.built := by
    rw [hdoes.built]
    exact List.mem_append_left _ (List.mem_map_of_mem hcall)
  rcases List.mem_map.mp hmem with ⟨call', hcall', heq⟩
  have hmessage : call'.message = call.message := congrArg OutgoingMessage.payload heq
  rw [← hmessage]
  exact hfit call' hcall'

/-- After any way out everybody else has been told, under the current name
    exactly when a `const char*` shows it whole or nobody is there to read
    it. -/
theorem toldOut_iff (hw : g.roomSystem.WellFormed) (h : Synced env g) {s requestId r' : UInt32}
    {session : SessionState} {room' : RoomState}
    (hs : g.roomSystem.findSession s = some session) (hroom : session.roomId ≠ noRoomId)
    (hr' : g.roomSystem.findRoom r' = some room') (hne : session.roomId ≠ r')
    {out : ServerEvent} (hout : out ∈ waysOut s requestId r')
    (hfit : AllFit env (handleEvent env g out)) :
    ToldOut g (handleEvent env g out) s session.roomId session.displayName ↔
      (0 : UInt8) ∉ session.displayName ∨
        ∀ t, g.roomSystem.IsMember t session.roomId → t = s := by
  have hsession : out.sessionId = s := by
    simp only [waysOut, List.mem_cons, List.not_mem_nil, or_false] at hout
    rcases hout with rfl | rfl | rfl | rfl <;> rfl
  have hdoes := handleEvent_performs env hw out
  rw [hsession] at hdoes
  have hw' := wellFormed_handleEvent env hw out
  -- Everything fits, so the queue grows by the messages of the effect.
  have hqueue : (handleEvent env g out).outgoingMessages
      = g.outgoingMessages ++ (effect env g.clockReads g.roomSystem out).messages := by
    rw [outgoingMessages_of_allFit (synced_handleEvent h out) hfit,
      outgoingMessages_of_allFit h (allFit_of_performs hdoes hfit), hdoes.built]
  have hleft : ∀ t, (messagesFor t (effect env g.clockReads g.roomSystem out).messages).filter
      Message.isUserLeft = if t ≠ s ∧ g.roomSystem.IsMember t session.roomId then
        [{ requestId := 0
           payload := .userLeftEvent (some { roomId := session.roomId
                                             user := some ⟨s, some (cStr session.displayName)⟩ }) }]
        else [] := by
    intro t
    rw [messagesFor_filter, userLeft_effect env hw hs hroom hr' hne hout,
      messagesFor_leaveNotices env hw hs]
    rw [userLeftMessage, buildUserInfo, (hw.session_key s session hs).2]
    rfl
  constructor
  · rintro ⟨new, hnew, htold, _⟩
    rw [hqueue, List.append_cancel_left_eq] at hnew
    by_cases halone : ∀ t, g.roomSystem.IsMember t session.roomId → t = s
    · exact Or.inr halone
    · -- Somebody reads the notice, and it shows the encoded name.
      rw [not_forall] at halone
      rcases halone with ⟨t, ht⟩
      rw [Classical.not_imp] at ht
      have hread := htold t
      rw [← hnew, hleft t, if_pos ⟨ht.2, ht.1⟩, if_pos ⟨ht.2, ht.1⟩] at hread
      simp only [List.cons.injEq, Message.mk.injEq, MessagePayload.userLeftEvent.injEq,
        Option.some.injEq, UserEvent.mk.injEq, UserInfo.mk.injEq, true_and, and_true] at hread
      exact Or.inl ((cStr_eq_self_iff _).mp hread)
  · intro hname
    refine ⟨_, hqueue, fun t => ?_, ?_⟩
    · rw [hleft t]
      by_cases ht : t ≠ s ∧ g.roomSystem.IsMember t session.roomId
      · rw [if_pos ht, if_pos ht]
        rcases hname with hnul | halone
        · rw [cStr_eq_self _ hnul]
        · exact absurd (halone t ht.2) ht.1
      · rw [if_neg ht, if_neg ht]
    · exact not_isMember_way_out hw hw'.toConsistent env g.clockReads hs hroom hr' hne hout
        hdoes.roomSystem

/-! ### Joining from a room -/

theorem messagesFor_transcript (t : UInt32) (g : GameLogicSystem) :
    messagesFor t g.transcript = (messagesFor t g.built).map Message.timeless := by
  unfold transcript messagesFor
  rw [List.filter_map, List.map_map, List.map_map]
  rfl

theorem sameForOthers_of_transcript {s : UInt32} (h : Synced env g) (h' : Synced env g')
    (hfit : AllFit env g) (hfit' : AllFit env g') (hrooms : g.roomSystem = g'.roomSystem)
    (hsent : ∀ t, t ≠ s → messagesFor t g.transcript = messagesFor t g'.transcript) :
    SameForOthers s g g' := by
  refine ⟨hrooms, fun t ht => ?_⟩
  rw [queued_of_allFit h hfit, queued_of_allFit h' hfit']
  exact hsent t ht

/-- A join from a room is a leave and then the join, for everybody else. -/
theorem join_eq_leave_join (env : Env) {g : GameLogicSystem} (hw : g.roomSystem.WellFormed)
    {s r' : UInt32} (requestId leaveId : UInt32) {session : SessionState} {room' : RoomState}
    (hs : g.roomSystem.findSession s = some session) (hroom : session.roomId ≠ noRoomId)
    (hr' : g.roomSystem.findRoom r' = some room') (hne : session.roomId ≠ r') :
    let joined := handleEvent env g (.joinRoomRequest s requestId r')
    let left := handleEvent env g (.leaveRoomRequest s leaveId)
    let rejoined := handleEvent env left (.joinRoomRequest s requestId r')
    joined.roomSystem = rejoined.roomSystem ∧
      ∀ t, t ≠ s → messagesFor t joined.built = messagesFor t rejoined.built := by
  intro joined left rejoined
  have hlogged := hw.loggedIn hs hroom
  have hw' := wellFormed_handleEvent env hw (.leaveRoomRequest s leaveId)
  have hjoin : Performs g s _ joined := performs_join hw s requestId r'
  have hleave : Performs g s _ left := performs_leave hw s leaveId
  have hrejoin : Performs left s _ rejoined := performs_join hw' s requestId r'
  -- After the leave the session is in no room and the target has the same members.
  rw [leaveEffect_of_accepted env leaveId hs hroom] at hleave
  have hrooms : left.roomSystem = g.roomSystem.assign s noRoomId := hleave.roomSystem
  have hs' : left.roomSystem.findSession s = some { session with roomId := noRoomId } := by
    rw [hrooms, RoomSystem.findSession_assign, if_pos rfl, hs, Option.map_some]
  have hr'' : left.roomSystem.findRoom r'
      = some { room' with members := room'.members.erase s } := by
    rw [hrooms, hw.findRoom_assign_noRoomId, hr', Option.map_some]
  have hzero : noRoomId ≠ r' := (hw.ne_noRoomId hr').symm
  rw [joinEffect_of_accepted env requestId hs hlogged hr' hne] at hjoin
  rw [joinEffect_of_accepted env requestId hs' hlogged hr'' hzero] at hrejoin
  refine ⟨?_, fun t ht => ?_⟩
  · rw [hjoin.roomSystem, hrejoin.roomSystem, hrooms]
    exact (hw.assign_assign (hw.not_isMember hs hne)).symm
  · -- From no room there is nobody to tell, and the members found are the same.
    have hnobody : leaveNotices env left.roomSystem { session with roomId := noRoomId } = [] := by
      rw [leaveNotices, hw'.getRoomMembers_noRoomId, List.map_nil]
    have hsame : enterNotices env left.roomSystem s requestId r'
        { session with roomId := noRoomId } { room' with members := room'.members.erase s }
        = enterNotices env g.roomSystem s requestId r' session room' := by
      rw [hrooms]
      exact enterNotices_assign hw hs hr' hne
    -- The answers to the leave go to the session itself.
    have hown : messagesFor t [(⟨s, leaveRoomResponseMessage leaveId true .none⟩ : OutgoingMessage),
        ⟨s, systemMessage session.roomId (utf8 "방에서 퇴장했습니다.")⟩] = [] := by
      refine messagesFor_eq_nil (fun out hout hc => ?_)
      simp only [List.mem_cons, List.not_mem_nil, or_false] at hout
      rcases hout with rfl | rfl <;> exact ht hc.symm
    rw [hjoin.built, hrejoin.built, hleave.built, hnobody, hsame, List.nil_append]
    simp only [messagesFor_append, hown, List.nil_append, List.append_assoc]

/-! ### Disconnecting -/

-- From the same room system the same events have the same effects.
theorem update_same (env : Env) (events : List ServerEvent) {g g' : GameLogicSystem}
    (hw : g.roomSystem.WellFormed) (hrooms : g.roomSystem = g'.roomSystem) :
    (update env g events).roomSystem = (update env g' events).roomSystem ∧
    ∃ new, (update env g events).transcript = g.transcript ++ new ∧
      (update env g' events).transcript = g'.transcript ++ new := by
  induction events generalizing g g' with
  | nil => exact ⟨hrooms, [], (List.append_nil _).symm, (List.append_nil _).symm⟩
  | cons event events ih =>
      have hstep := handleEvent_timeless env hw env.currentTimestampMs event
      have hstep' := handleEvent_timeless env (hrooms ▸ hw) env.currentTimestampMs event
      rw [← hrooms] at hstep'
      have hnext : (handleEvent env g event).roomSystem = (handleEvent env g' event).roomSystem :=
        hstep.1.trans hstep'.1.symm
      rcases ih (wellFormed_handleEvent env hw event) hnext with ⟨hend, new, hnew, hnew'⟩
      refine ⟨hend, (timelessEffect env g.roomSystem event).messages ++ new, ?_, ?_⟩
      · rw [← List.append_assoc, ← hstep.2.1]
        exact hnew
      · rw [← List.append_assoc, ← hstep'.2.1]
        exact hnew'

-- Events of others do not bring a session back.
theorem absent_update (env : Env) (events : List ServerEvent) {g : GameLogicSystem} {s : UInt32}
    (hw : g.roomSystem.WellFormed) (hs : g.roomSystem.findSession s = none)
    (hothers : ∀ event ∈ events, event.sessionId ≠ s) :
    (update env g events).roomSystem.findSession s = none := by
  induction events generalizing g with
  | nil => exact hs
  | cons event events ih =>
      refine ih (wellFormed_handleEvent env hw event) ?_
        (fun e he => hothers e (List.mem_cons_of_mem event he))
      rw [(handleEvent_performs env hw event).roomSystem, RoomSystem.findSession_change,
        if_neg (hothers event List.mem_cons_self)]
      exact hs

theorem wellFormed_update (env : Env) (events : List ServerEvent) {g : GameLogicSystem}
    (hw : g.roomSystem.WellFormed) : (update env g events).roomSystem.WellFormed := by
  induction events generalizing g with
  | nil => exact hw
  | cons event events ih => exact ih (wellFormed_handleEvent env hw event)

-- A session that is not there is not removed again.
theorem disconnected_absent (env : Env) {g : GameLogicSystem} (hw : g.roomSystem.WellFormed)
    {s : UInt32} (hs : g.roomSystem.findSession s = none) :
    (handleEvent env g (.sessionDisconnected s)).roomSystem = g.roomSystem ∧
      (handleEvent env g (.sessionDisconnected s)).built = g.built := by
  have hdoes : Performs g s _ (handleEvent env g (.sessionDisconnected s)) :=
    performs_sessionDisconnected hw s
  refine ⟨?_, ?_⟩
  · rw [hdoes.roomSystem]
    exact RoomSystem.forget_eq_self hw.toConsistent hs
  · have hnobody : farewells env g.roomSystem s = [] := by
      unfold farewells
      rw [hs]
    rw [hdoes.built, hnobody, List.append_nil]

/-- A disconnect request, any events of others, and the end of the connection
    look to the others like the end of the connection alone. -/
theorem disconnect_eq_disconnected (env : Env) {g : GameLogicSystem}
    (hw : g.roomSystem.WellFormed) (s requestId : UInt32) {others : List ServerEvent}
    (hothers : ∀ event ∈ others, event.sessionId ≠ s) :
    let asked := update env g (.disconnectRequest s requestId :: others
      ++ [.sessionDisconnected s])
    let ended := update env g (.sessionDisconnected s :: others)
    asked.roomSystem = ended.roomSystem ∧
      ∀ t, t ≠ s → messagesFor t asked.transcript = messagesFor t ended.transcript := by
  intro asked ended
  have hrequest : Performs g s _ (handleEvent env g (.disconnectRequest s requestId)) :=
    performs_disconnect hw s requestId
  have hend : Performs g s _ (handleEvent env g (.sessionDisconnected s)) :=
    performs_sessionDisconnected hw s
  have hw' := wellFormed_handleEvent env hw (.disconnectRequest s requestId)
  -- Both have forgotten the session, and nothing brings it back.
  have hrooms : (handleEvent env g (.disconnectRequest s requestId)).roomSystem
      = (handleEvent env g (.sessionDisconnected s)).roomSystem :=
    hrequest.roomSystem.trans hend.roomSystem.symm
  have hgone : (handleEvent env g (.disconnectRequest s requestId)).roomSystem.findSession s
      = none := by
    rw [hrequest.roomSystem, RoomSystem.findSession_change, if_pos rfl]
    rfl
  have hlast := disconnected_absent env (wellFormed_update env others hw')
    (absent_update env others hw' hgone hothers)
  rcases update_same env others hw' hrooms with ⟨hafter, new, hnew, hnew'⟩
  have hasked : asked = handleEvent env (update env (handleEvent env g
      (.disconnectRequest s requestId)) others) (.sessionDisconnected s) := by
    simp only [asked, update, List.cons_append, List.foldl_cons, List.foldl_append, List.foldl_nil]
  refine ⟨?_, fun t ht => ?_⟩
  · rw [hasked, hlast.1, hafter]
    rfl
  · have htranscript : asked.transcript
        = (handleEvent env g (.disconnectRequest s requestId)).transcript ++ new := by
      rw [hasked, ← hnew]
      unfold transcript
      rw [hlast.2]
    have hended : ended.transcript
        = (handleEvent env g (.sessionDisconnected s)).transcript ++ new := hnew'
    -- Only the response is extra, and it goes to the session itself.
    have hresponse : messagesFor t [(⟨s, disconnectResponseMessage requestId⟩ : OutgoingMessage)]
        = [] := by
      refine messagesFor_eq_nil (fun out hout hc => ?_)
      rw [List.mem_singleton.mp hout] at hc
      exact ht hc.symm
    have hfirst : messagesFor t (handleEvent env g (.disconnectRequest s requestId)).built
        = messagesFor t (handleEvent env g (.sessionDisconnected s)).built := by
      rw [hrequest.built, hend.built, messagesFor_append, messagesFor_append]
      refine congrArg _ ?_
      rw [effect, ← List.singleton_append, messagesFor_append, hresponse, List.nil_append]
    rw [htranscript, hended, messagesFor_append, messagesFor_append, messagesFor_transcript,
      messagesFor_transcript, hfirst]

/-- For every reachable state in which session `s` is in room `r`, every other
    room `r'`, and whatever the others do between a disconnect request and the
    end of the connection: the ways out of the room agree if and only if the
    name of the session has no NUL byte or nobody else is in the room. -/
theorem update_waysOut (env : Env) (events : List ServerEvent) (s r : UInt32)
    (session : SessionState)
    (hs : (update env initial events).roomSystem.findSession s = some session)
    (hin : (update env initial events).roomSystem.IsMember s r)
    (requestId leaveId r' : UInt32)
    (hr' : ∃ room', (update env initial events).roomSystem.findRoom r' = some room')
    (hne : r ≠ r') (others : List ServerEvent) (hothers : ∀ event ∈ others, event.sessionId ≠ s)
    (hfit : ∀ run ∈ outRuns s requestId leaveId r' others,
      AllFit env (update env (update env initial events) run)) :
    OutAgrees env (update env initial events) s r session.displayName requestId leaveId r'
        others ↔
      (0 : UInt8) ∉ session.displayName ∨
        ∀ t, (update env initial events).roomSystem.IsMember t r → t = s := by
  have hw := update_wellFormed env events
  have hsync := synced_update (synced_initial env) events
  rcases hr' with ⟨room', hr'⟩
  -- The room of the session is the one it names.
  have hroom : session.roomId = r := by
    rcases hw.session_of_isMember hin with ⟨session', hs', hr, _⟩
    rw [hs, Option.some.injEq] at hs'
    rw [hs']
    exact hr
  subst hroom
  have hzero : session.roomId ≠ noRoomId := by
    rcases hw.session_of_isMember hin with ⟨_, _, _, hne⟩
    exact hne
  have htold : ∀ out ∈ waysOut s requestId r',
      (ToldOut (update env initial events) (update env (update env initial events) [out]) s
        session.roomId session.displayName ↔ (0 : UInt8) ∉ session.displayName ∨
          ∀ t, (update env initial events).roomSystem.IsMember t session.roomId → t = s) := by
    intro out hout
    refine toldOut_iff hw hsync hs hzero hr' hne hout (hfit [out] ?_)
    exact List.mem_append_left _ (List.mem_map.mpr ⟨out, hout, rfl⟩)
  constructor
  · intro h
    -- One way out is enough to tell.
    have hend : ServerEvent.sessionDisconnected s ∈ waysOut s requestId r' :=
      List.mem_cons_of_mem _ (List.mem_cons_of_mem _ List.mem_cons_self)
    exact (htold _ hend).mp (h.1 _ hend)
  · intro hname
    refine ⟨fun out hout => (htold out hout).mpr hname, ?_, ?_⟩
    · have hsame := join_eq_leave_join env hw requestId leaveId hs hzero hr' hne
      refine sameForOthers_of_transcript (synced_update hsync _) (synced_update hsync _)
        (hfit _ ?_) (hfit _ ?_) hsame.1 (fun t ht => ?_)
      · exact List.mem_append_left _ (List.mem_map.mpr ⟨_, List.mem_cons_of_mem _
          (List.mem_cons_of_mem _ (List.mem_cons_of_mem _ List.mem_cons_self)), rfl⟩)
      · exact List.mem_append_right _ List.mem_cons_self
      · rw [messagesFor_transcript, messagesFor_transcript]
        exact congrArg _ (hsame.2 t ht)
    · have hsame := disconnect_eq_disconnected env hw s requestId hothers
      refine sameForOthers_of_transcript (synced_update hsync _) (synced_update hsync _)
        (hfit _ ?_) (hfit _ ?_) hsame.1 hsame.2
      · exact List.mem_append_right _ (List.mem_cons_of_mem _ List.mem_cons_self)
      · exact List.mem_append_right _ (List.mem_cons_of_mem _ (List.mem_cons_of_mem _
          List.mem_cons_self))

/-- Session 1 leaves the lobby, where session 2 stays and goes on talking. -/
theorem update_waysOut_lobby :
    OutAgrees sampleEnv (update sampleEnv initial (twoInLobby [97])) 1 1001 [97] 3 4 1002
      [.chatSendRequest 2 3 [104, 105]] := by
  have hs : (update sampleEnv initial (twoInLobby [97])).roomSystem.findSession 1
      = some ⟨1, 1, [97], 1001, true⟩ := by decide +kernel
  have hr : ∃ room, (update sampleEnv initial (twoInLobby [97])).roomSystem.findRoom 1002
      = some room := by
    rw [← Option.isSome_iff_exists]
    decide +kernel
  exact (update_waysOut sampleEnv (twoInLobby [97]) 1 1001 _ hs (by decide +kernel) 3 4 1002 hr
    (by decide) _ (by decide) (fun _ _ _ _ => rfl)).mpr (Or.inl (by decide))

/-- The leave notice of a session named `a`, NUL, `b` says `a`. -/
theorem not_outAgrees_nul :
    let g := update sampleEnv initial (twoInLobby [97, 0, 98])
    g.roomSystem.IsMember 1 1001 ∧
      (∀ run ∈ outRuns 1 3 4 1002 [], AllFit sampleEnv (update sampleEnv g run)) ∧
      ¬ OutAgrees sampleEnv g 1 1001 [97, 0, 98] 3 4 1002 [] := by
  intro g
  have hs : g.roomSystem.findSession 1 = some ⟨1, 1, [97, 0, 98], 1001, true⟩ := by decide +kernel
  have hin : g.roomSystem.IsMember 1 1001 := by decide +kernel
  have hin2 : g.roomSystem.IsMember 2 1001 := by decide +kernel
  have hr : g.roomSystem.findRoom 1002 ≠ none := by
    rw [ne_eq, ← Option.isNone_iff_eq_none]
    decide +kernel
  rcases Option.ne_none_iff_exists'.mp hr with ⟨room, hroom⟩
  refine ⟨hin, fun _ _ _ _ => rfl, fun h => ?_⟩
  have htold := (toldOut_iff (update_wellFormed sampleEnv _)
    (synced_update (synced_initial sampleEnv) _) hs (by decide) hroom (by decide)
    (List.mem_cons_self (a := ServerEvent.leaveRoomRequest 1 3)) (fun _ _ => rfl)).mp
    (h.1 _ List.mem_cons_self)
  rcases htold with hnul | halone
  · exact hnul (by decide)
  · exact absurd (halone 2 hin2) (by decide)

end GameLogicSystem

end ProjectNight
