import ProjectNight.Theory.Noninterference

/-!
# One Response to Each Request

A client matches a response to its request by kind and request id, and takes
the success flag at its word. This module shows that it may: every login, room
list, join, leave and disconnect request of a live session is answered by
exactly one message of a response kind, of the right kind and with the right
id; the flag says whether the request met its conditions; and the room system
has changed as requested or not at all.

A request is settled by its effect, so most of this is reading the cases of
`effect`. What has to be added is what the change amounts to: only the entry
of the requesting session is rewritten, and membership follows the entry
because the state after the event is consistent again
(`DoneAsRequested.of_change`).

The queue keeps what fits. The responses are assumed to fit; the notices that
go with a success may be dropped without any consequence here.

## Main definitions

* `Message.isResponse`, `Message.succeeded`: Response kinds and their flag.
* `ServerEvent.AnsweredBy`: A response of the kind and with the id of a request.
* `ServerEvent.Accepted`: When a request is to succeed.
* `ServerEvent.requested`: The entry a request asks for.
* `ServerEvent.isReading`: Events that only read.
* `DoneAsRequested`: The change is the requested one and no other.
* `Answered`: One response, and success or failure as a whole.

## Theorems

* `outgoingMessages_effect`: What an event adds to the queue.
* `answered_handleEvent`: Every request is answered.
* `update_responses`: In every reachable state, and nobody else is changed.
-/

namespace ProjectNight

/-- The five response kinds of the schema. -/
def Message.isResponse (m : Message) : Bool :=
  match m.payload with
  | .loginResponse _ | .roomListResponse _ | .joinRoomResponse _ | .leaveRoomResponse _
  | .disconnectResponse _ => true
  | _ => false

/-- The success flag of a response; a room list has none and never fails. -/
def Message.succeeded (m : Message) : Bool :=
  match m.payload with
  | .loginResponse (some table) => table.success
  | .joinRoomResponse (some table) => table.success
  | .leaveRoomResponse (some table) => table.success
  | .disconnectResponse (some table) => table.success
  | .roomListResponse (some _) => true
  | _ => false

/-- The requests that are answered by a response kind. -/
def ServerEvent.isRequest : ServerEvent → Bool
  | .loginRequest _ _ _ | .roomListRequest _ _ | .joinRoomRequest _ _ _
  | .leaveRoomRequest _ _ | .disconnectRequest _ _ => true
  | _ => false

/-- The message is a response of the kind and with the id of the request. -/
def ServerEvent.AnsweredBy (m : Message) : ServerEvent → Prop
  | .loginRequest _ requestId _ =>
      m.requestId = requestId ∧ ∃ table, m.payload = .loginResponse (some table)
  | .roomListRequest _ requestId =>
      m.requestId = requestId ∧ ∃ table, m.payload = .roomListResponse (some table)
  | .joinRoomRequest _ requestId _ =>
      m.requestId = requestId ∧ ∃ table, m.payload = .joinRoomResponse (some table)
  | .leaveRoomRequest _ requestId =>
      m.requestId = requestId ∧ ∃ table, m.payload = .leaveRoomResponse (some table)
  | .disconnectRequest _ requestId =>
      m.requestId = requestId ∧ ∃ table, m.payload = .disconnectResponse (some table)
  | _ => False

/-- When a request is to succeed: a login with a name of 1 to 32 bytes that no
    other logged-in session holds, a join by a logged-in session of a room
    that exists and that it is not in, a leave by a session that is in a room,
    and the other two always. -/
def ServerEvent.Accepted (rs : RoomSystem) : ServerEvent → Prop
  | .loginRequest s _ name => 1 ≤ name.length ∧ name.length ≤ 32 ∧
      ∀ t session, t ≠ s → rs.findSession t = some session → session.loggedIn = true →
        session.displayName ≠ name
  | .joinRoomRequest s _ r => (∃ session, rs.findSession s = some session ∧
      session.loggedIn = true) ∧ (∃ room, rs.findRoom r = some room) ∧ ¬ rs.IsMember s r
  | .leaveRoomRequest s _ => ∃ r, rs.IsMember s r
  | _ => True

/-- The entry a request asks for, given the entry before. -/
def ServerEvent.requested (session : SessionState) : ServerEvent → Option SessionState
  | .loginRequest _ _ name => some { session with loggedIn := true, displayName := name }
  | .joinRoomRequest _ _ r => some { session with roomId := r }
  | .leaveRoomRequest _ _ => some { session with roomId := noRoomId }
  | .disconnectRequest _ _ => none
  | _ => some session

/-- From `rs` to `rs'` the entry of session `s` became `entry`, its membership
    followed, and everything else stayed. -/
structure DoneAsRequested (s : UInt32) (entry : Option SessionState) (rs rs' : RoomSystem) :
    Prop where
  own : rs'.findSession s = entry
  others : ∀ t, t ≠ s → rs'.findSession t = rs.findSession t
  membership : ∀ r, rs'.IsMember s r ↔
    r ≠ noRoomId ∧ ∃ session, entry = some session ∧ session.roomId = r
  memberships : ∀ t r, t ≠ s → (rs'.IsMember t r ↔ rs.IsMember t r)
  rooms : ∀ r, (rs'.findRoom r).map (fun room => (room.roomId, room.roomName))
    = (rs.findRoom r).map (fun room => (room.roomId, room.roomName))

/-- What the step from `g` to `g'` does with a request of a session whose
    entry was `session`: one response, and the change as a whole or none. -/
def Answered (g g' : GameLogicSystem) (event : ServerEvent) (session : SessionState) : Prop :=
  ∃ new m, g'.outgoingMessages = g.outgoingMessages ++ new ∧
    new.filter (fun out => out.payload.isResponse) = [⟨event.sessionId, m⟩] ∧
    event.AnsweredBy m ∧
    (m.succeeded = true ↔ event.Accepted g.roomSystem) ∧
    (event.Accepted g.roomSystem → DoneAsRequested event.sessionId (event.requested session)
      g.roomSystem g'.roomSystem) ∧
    (¬ event.Accepted g.roomSystem →
      g'.roomSystem = g.roomSystem ∧ new = [⟨event.sessionId, m⟩])

/-- The events that read the room system and never write it. -/
def ServerEvent.isReading : ServerEvent → Bool
  | .chatSendRequest _ _ _ | .roomListRequest _ _ | .invalidPacket _ _ => true
  | _ => false

/-! ### Changes -/

-- Nobody else's membership is affected by a change.
theorem RoomSystem.isMember_change_other (rs : RoomSystem) {s t : UInt32} (hts : t ≠ s)
    (c : Change) (r : UInt32) : (rs.change s c).IsMember t r ↔ rs.IsMember t r := by
  unfold IsMember
  rw [findRoom_change]
  cases rs.findRoom r with
  | none => rfl
  | some room =>
      simp only [Option.map_some, Option.some.injEq, exists_eq_left']
      exact mem_members_change_other hts r room.members c

-- In a consistent state the membership of a session is read off its entry.
theorem DoneAsRequested.of_change {rs rs' : RoomSystem} {s : UInt32} {c : Change}
    {entry : Option SessionState} (hc : rs'.Consistent) (hrs : rs' = rs.change s c)
    (hentry : c.entry s (rs.findSession s) = entry) : DoneAsRequested s entry rs rs' := by
  have hfound : rs'.findSession s = entry := by
    rw [hrs, RoomSystem.findSession_change, if_pos rfl, hentry]
  refine ⟨hfound, fun t ht => ?_, fun r => ?_, fun t r ht => ?_, fun r => ?_⟩
  · rw [hrs, RoomSystem.findSession_change, if_neg (fun hc => ht hc.symm)]
  · constructor
    · intro hm
      rcases hc.session_of_isMember hm with ⟨session, hs, hroom, hne⟩
      exact ⟨hne, session, hfound.symm.trans hs, hroom⟩
    · rintro ⟨hne, session, hs, hroom⟩
      rw [← hroom] at hne ⊢
      exact hc.isMember_of_session (hfound.trans hs) hne
  · rw [hrs]
    exact RoomSystem.isMember_change_other rs ht c r
  · rw [hrs, RoomSystem.findRoom_change, Option.map_map]
    rfl

/-! ### The conditions as the handlers check them -/

theorem accepted_login_iff {rs : RoomSystem} {s : UInt32} {session : SessionState}
    (hs : rs.findSession s = some session) (requestId : UInt32) (name : Bytes) :
    (ServerEvent.loginRequest s requestId name).Accepted rs ↔ LoginAccepted rs s name := by
  unfold LoginAccepted ServerEvent.Accepted maxDisplayNameBytes
  have hne : name ≠ [] ↔ 1 ≤ name.length := List.length_pos_iff.symm
  -- The scan finds a name exactly when somebody else holds it.
  have hfree : rs.isDisplayNameTaken name s = false ↔ ∀ t session, t ≠ s →
      rs.findSession t = some session → session.loggedIn = true →
        session.displayName ≠ name := by
    rw [← Bool.not_eq_true, RoomSystem.isDisplayNameTaken_iff]
    constructor
    · intro h t session hts hfound hlogged hname
      exact h ⟨t, session, hts, hfound, hlogged, hname⟩
    · rintro h ⟨t, session, hts, hfound, hlogged, hname⟩
      exact h t session hts hfound hlogged hname
  rw [hne, hfree]
  exact ⟨fun h => ⟨⟨session, hs⟩, h⟩, And.right⟩

theorem accepted_join_iff {rs : RoomSystem} (hw : rs.WellFormed) (s requestId r : UInt32) :
    (ServerEvent.joinRoomRequest s requestId r).Accepted rs ↔ JoinAccepted rs s r := by
  constructor
  · rintro ⟨⟨session, hs, hlogged⟩, ⟨room, hr⟩, hnot⟩
    refine ⟨session, room, hs, hlogged, hr, fun hroom => hnot ?_⟩
    rw [← hroom] at hr ⊢
    exact hw.isMember_of_session hs (hw.ne_noRoomId hr)
  · rintro ⟨session, room, hs, hlogged, hr, hne⟩
    exact ⟨⟨session, hs, hlogged⟩, ⟨room, hr⟩, hw.not_isMember hs hne⟩

theorem accepted_leave_iff {rs : RoomSystem} (hw : rs.WellFormed) (s requestId : UInt32) :
    (ServerEvent.leaveRoomRequest s requestId).Accepted rs ↔ LeaveAccepted rs s := by
  constructor
  · rintro ⟨r, hm⟩
    rcases hw.session_of_isMember hm with ⟨session, hs, hroom, hne⟩
    exact ⟨session, hs, hroom ▸ hne⟩
  · rintro ⟨session, hs, hne⟩
    exact ⟨session.roomId, hw.isMember_of_session hs hne⟩

/-! ### Responses among the messages -/

-- Notices are no responses.
theorem filter_isResponse_leaveNotices (env : Env) (rs : RoomSystem) (session : SessionState) :
    (leaveNotices env rs session).filter (fun out => out.payload.isResponse) = [] := by
  rw [List.filter_eq_nil_iff]
  intro out hout
  rcases List.mem_map.mp hout with ⟨member, _, rfl⟩
  exact Bool.false_ne_true

theorem filter_isResponse_farewells (env : Env) (rs : RoomSystem) (s : UInt32) :
    (farewells env rs s).filter (fun out => out.payload.isResponse) = [] := by
  unfold farewells
  cases rs.findSession s with
  | none => rfl
  | some session => exact filter_isResponse_leaveNotices env rs session

theorem filter_isResponse_enterNotices (env : Env) (rs : RoomSystem) (s requestId r : UInt32)
    (session : SessionState) (room : RoomState) :
    (enterNotices env rs s requestId r session room).filter (fun out => out.payload.isResponse)
      = [⟨s, joinRoomResponseMessage requestId true .none
          (some { room with members := room.members.insert s })⟩] := by
  have hquiet : ((rs.getRoomMembers env.toIteration r).flatMap fun other =>
      [(⟨other.sessionId, userJoinedMessage r { session with roomId := r }⟩ : OutgoingMessage),
        ⟨s, userJoinedMessage r other⟩]).filter (fun out => out.payload.isResponse) = [] := by
    rw [List.filter_eq_nil_iff]
    intro out hout
    rcases List.mem_flatMap.mp hout with ⟨other, _, hout⟩
    rcases List.mem_cons.mp hout with rfl | hout
    · exact Bool.false_ne_true
    · rw [List.mem_singleton.mp hout]
      exact Bool.false_ne_true
  unfold enterNotices
  rw [List.filter_cons_of_pos rfl, List.filter_cons_of_neg Bool.false_ne_true, hquiet]

namespace GameLogicSystem

variable {env : Env} {g g' : GameLogicSystem}

-- The queue is what fits of what was built.
theorem outgoingMessages_eq_built (h : Synced env g) :
    g.outgoingMessages = g.built.filter (fun out => env.fits out.payload) := by
  unfold Synced at h
  unfold built
  rw [h, List.filter_map]
  rfl

theorem outgoingMessages_effect {s : UInt32} {e : Effect} (hdoes : Performs g s e g')
    (h : Synced env g) (h' : Synced env g') : g'.outgoingMessages
      = g.outgoingMessages ++ e.messages.filter (fun out => env.fits out.payload) := by
  rw [outgoingMessages_eq_built h', outgoingMessages_eq_built h, hdoes.built, List.filter_append]

-- Reading an answer off an effect, when its responses fit.
theorem answered_of_effect {event : ServerEvent} {session : SessionState} {e : Effect}
    (m : Message) (hdoes : Performs g event.sessionId e g') (h : Synced env g)
    (h' : Synced env g') (hw' : g'.roomSystem.WellFormed)
    (hs : g.roomSystem.findSession event.sessionId = some session)
    (hfits : ∀ out ∈ e.messages, out.payload.isResponse = true → env.fits out.payload = true)
    (hone : e.messages.filter (fun out => out.payload.isResponse) = [⟨event.sessionId, m⟩])
    (hkind : event.AnsweredBy m) (hflag : m.succeeded = true ↔ event.Accepted g.roomSystem)
    (hdone : event.Accepted g.roomSystem →
      e.change.entry event.sessionId (some session) = event.requested session)
    (hfail : ¬ event.Accepted g.roomSystem →
      e.change = .keep ∧ e.messages = [⟨event.sessionId, m⟩]) :
    Answered g g' event session := by
  -- What does not fit is no response.
  have hkept : (e.messages.filter (fun out => env.fits out.payload)).filter
      (fun out => out.payload.isResponse) = [⟨event.sessionId, m⟩] := by
    rw [List.filter_filter, ← hone]
    refine List.filter_congr (fun out hout => ?_)
    cases hresp : out.payload.isResponse with
    | false => rfl
    | true => rw [hfits out hout hresp]; rfl
  refine ⟨_, m, outgoingMessages_effect hdoes h h', hkept, hkind, hflag, fun hacc => ?_,
    fun hrej => ?_⟩
  · refine DoneAsRequested.of_change hw'.toConsistent hdoes.roomSystem ?_
    rw [hs]
    exact hdone hacc
  · rcases hfail hrej with ⟨hkeep, hmessages⟩
    refine ⟨?_, ?_⟩
    · rw [hdoes.roomSystem, hkeep]
      rfl
    · -- The one response is all there is, and it fits.
      have hmem : ⟨event.sessionId, m⟩ ∈ e.messages.filter (fun out => out.payload.isResponse) := by
        rw [hone]
        exact List.mem_singleton.mpr rfl
      rw [List.mem_filter] at hmem
      have hfit := hfits _ hmem.1 hmem.2
      rw [hmessages, List.filter_cons, if_pos hfit, List.filter_nil]

theorem answered_of_accepted {event : ServerEvent} {session : SessionState} {e : Effect}
    (m : Message) (hdoes : Performs g event.sessionId e g') (h : Synced env g)
    (h' : Synced env g') (hw' : g'.roomSystem.WellFormed)
    (hs : g.roomSystem.findSession event.sessionId = some session)
    (hfits : ∀ out ∈ e.messages, out.payload.isResponse = true → env.fits out.payload = true)
    (hacc : event.Accepted g.roomSystem)
    (hone : e.messages.filter (fun out => out.payload.isResponse) = [⟨event.sessionId, m⟩])
    (hkind : event.AnsweredBy m) (hflag : m.succeeded = true)
    (hdone : e.change.entry event.sessionId (some session) = event.requested session) :
    Answered g g' event session := by
  refine answered_of_effect m hdoes h h' hw' hs hfits hone hkind ?_ (fun _ => hdone) ?_
  · exact ⟨fun _ => hacc, fun _ => hflag⟩
  · intro hrej
    exact absurd hacc hrej

-- A refusal is its response and nothing else.
theorem answered_of_refused {event : ServerEvent} {session : SessionState} {e : Effect}
    (m : Message) (hdoes : Performs g event.sessionId e g') (h : Synced env g)
    (h' : Synced env g') (hw' : g'.roomSystem.WellFormed)
    (hs : g.roomSystem.findSession event.sessionId = some session)
    (hfits : ∀ out ∈ e.messages, out.payload.isResponse = true → env.fits out.payload = true)
    (hrej : ¬ event.Accepted g.roomSystem)
    (he : e = { messages := [⟨event.sessionId, m⟩] })
    (hresponse : m.isResponse = true) (hkind : event.AnsweredBy m)
    (hflag : m.succeeded = false) : Answered g g' event session := by
  subst he
  refine answered_of_effect m hdoes h h' hw' hs hfits ?_ hkind ?_ ?_ (fun _ => ⟨rfl, rfl⟩)
  · exact List.filter_cons_of_pos hresponse
  · rw [hflag]
    exact ⟨fun hc => absurd hc Bool.false_ne_true, fun hc => absurd hc hrej⟩
  · intro hacc
    exact absurd hacc hrej

theorem synced_initial (env : Env) : Synced env initial := rfl

/-- What one event adds to the queue of a run is what fits of its messages. -/
theorem outgoingMessages_step (env : Env) (events : List ServerEvent) (event : ServerEvent) :
    (handleEvent env (update env initial events) event).outgoingMessages
      = (update env initial events).outgoingMessages
        ++ (effect env (update env initial events).clockReads
          (update env initial events).roomSystem event).messages.filter
            (fun out => env.fits out.payload) := by
  have hsync : Synced env (update env initial events) := synced_update (synced_initial env) events
  exact outgoingMessages_effect (handleEvent_performs env (update_wellFormed env events) event)
    hsync (synced_handleEvent hsync event)

/-- Every request of a live session is answered, once. -/
theorem answered_handleEvent (hw : g.roomSystem.WellFormed) (h : Synced env g)
    {event : ServerEvent} (hrequest : event.isRequest = true) {session : SessionState}
    (hs : g.roomSystem.findSession event.sessionId = some session)
    (hfits : ∀ out ∈ (handleEvent env g event).built, out.payload.isResponse = true →
      env.fits out.payload = true) : Answered g (handleEvent env g event) event session := by
  have hdoes := handleEvent_performs env hw event
  have hw' := wellFormed_handleEvent env hw event
  have h' : Synced env (handleEvent env g event) := synced_handleEvent h event
  have hnew : ∀ out ∈ (effect env g.clockReads g.roomSystem event).messages,
      out.payload.isResponse = true → env.fits out.payload = true := by
    intro out hout
    refine hfits out ?_
    rw [hdoes.built]
    exact List.mem_append_right _ hout
  cases event with
  | loginRequest s requestId name =>
      have haccept := accepted_login_iff hs requestId name
      simp only [effect] at hdoes hnew
      rcases loginEffect_cases g.roomSystem s requestId name with ⟨hnone, _⟩ | ⟨code, hrej, he⟩ |
        ⟨session', hacc, hs', he⟩
      · cases hnone.symm.trans hs
      · exact answered_of_refused _ hdoes h h' hw' hs hnew (haccept.not.mpr hrej) he rfl
          ⟨rfl, _, rfl⟩ rfl
      · rw [he] at hdoes hnew
        exact answered_of_accepted _ hdoes h h' hw' hs hnew (haccept.mpr hacc) rfl ⟨rfl, _, rfl⟩
          rfl rfl
  | roomListRequest s requestId =>
      exact answered_of_accepted _ hdoes h h' hw' hs hnew trivial rfl ⟨rfl, _, rfl⟩ rfl rfl
  | joinRoomRequest s requestId r =>
      have haccept := accepted_join_iff hw s requestId r
      simp only [effect] at hdoes hnew
      rcases joinEffect_cases env g.roomSystem s requestId r with ⟨hnone, _⟩ | ⟨code, hrej, he⟩ |
        ⟨session', room, hs', hlogged, hr, hne, he⟩
      · cases hnone.symm.trans hs
      · exact answered_of_refused _ hdoes h h' hw' hs hnew (haccept.not.mpr hrej) he rfl
          ⟨rfl, _, rfl⟩ rfl
      · have hacc : JoinAccepted g.roomSystem s r := ⟨session', room, hs', hlogged, hr, hne⟩
        rw [he] at hdoes hnew
        refine answered_of_accepted (joinRoomResponseMessage requestId true .none
          (some { room with members := room.members.insert s })) hdoes h h' hw' hs hnew
          (haccept.mpr hacc) ?_ ⟨rfl, _, rfl⟩ rfl rfl
        -- The notices to the old room and the arrivals are no responses.
        simp only [List.filter_append, filter_isResponse_leaveNotices,
          filter_isResponse_enterNotices, List.nil_append]
        rfl
  | leaveRoomRequest s requestId =>
      have haccept := accepted_leave_iff hw s requestId
      simp only [effect] at hdoes hnew
      rcases leaveEffect_cases env g.roomSystem s requestId with ⟨hnone, _⟩ | ⟨hrej, he⟩ |
        ⟨session', hs', hne, he⟩
      · cases hnone.symm.trans hs
      · exact answered_of_refused _ hdoes h h' hw' hs hnew (haccept.not.mpr hrej) he rfl
          ⟨rfl, _, rfl⟩ rfl
      · have hacc : LeaveAccepted g.roomSystem s := ⟨session', hs', hne⟩
        rw [he] at hdoes hnew
        refine answered_of_accepted (leaveRoomResponseMessage requestId true .none) hdoes h h' hw'
          hs hnew (haccept.mpr hacc) ?_ ⟨rfl, _, rfl⟩ rfl rfl
        simp only [List.filter_append, filter_isResponse_leaveNotices, List.nil_append]
        rfl
  | disconnectRequest s requestId =>
      refine answered_of_accepted (disconnectResponseMessage requestId) hdoes h h' hw' hs hnew
        trivial ?_ ⟨rfl, _, rfl⟩ rfl rfl
      refine (List.filter_cons_of_pos rfl).trans ?_
      rw [filter_isResponse_farewells]
      rfl
  | sessionConnected s => exact absurd hrequest Bool.false_ne_true
  | sessionDisconnected s => exact absurd hrequest Bool.false_ne_true
  | invalidPacket s message => exact absurd hrequest Bool.false_ne_true
  | chatSendRequest s requestId content => exact absurd hrequest Bool.false_ne_true

/-- In every reachable state: every request of a live session is answered by
    one response of its kind with its id, which says whether the request met
    its conditions; a request that did is carried out and nothing else changes,
    and one that did not leaves the room system alone and is answered by that
    response only. Chat lines, room lists and invalid packets change nothing,
    and no event changes the entry or the membership of another session. -/
theorem update_responses (env : Env) (events : List ServerEvent) (event : ServerEvent)
    (hfits : ∀ call ∈ (handleEvent env (update env initial events) event).queueCalls,
      call.message.isResponse = true → env.fits call.message = true) :
    let g := update env initial events
    let g' := handleEvent env g event
    (∀ session, event.isRequest = true →
      g.roomSystem.findSession event.sessionId = some session → Answered g g' event session) ∧
    (event.isReading = true → g'.roomSystem = g.roomSystem) ∧
    ∀ t, t ≠ event.sessionId → g'.roomSystem.findSession t = g.roomSystem.findSession t ∧
      ∀ r, g'.roomSystem.IsMember t r ↔ g.roomSystem.IsMember t r := by
  intro g g'
  have hw : g.roomSystem.WellFormed := update_wellFormed env events
  have hdoes : Performs g event.sessionId _ g' := handleEvent_performs env hw event
  refine ⟨fun session hrequest hs => ?_, fun hreading => ?_, fun t ht => ⟨?_, fun r => ?_⟩⟩
  · refine answered_handleEvent hw (synced_update (synced_initial env) events) hrequest hs ?_
    intro out hout
    rcases List.mem_map.mp hout with ⟨call, hcall, rfl⟩
    exact hfits call hcall
  · -- None of the three has a change in its effect.
    rw [hdoes.roomSystem]
    cases event with
    | chatSendRequest s requestId content => rfl
    | roomListRequest s requestId => rfl
    | invalidPacket s message => rfl
    | sessionConnected s => exact absurd hreading Bool.false_ne_true
    | sessionDisconnected s => exact absurd hreading Bool.false_ne_true
    | loginRequest s requestId name => exact absurd hreading Bool.false_ne_true
    | joinRoomRequest s requestId r => exact absurd hreading Bool.false_ne_true
    | leaveRoomRequest s requestId => exact absurd hreading Bool.false_ne_true
    | disconnectRequest s requestId => exact absurd hreading Bool.false_ne_true
  · rw [hdoes.roomSystem, RoomSystem.findSession_change, if_neg (fun hc => ht hc.symm)]
  · rw [hdoes.roomSystem]
    exact RoomSystem.isMember_change_other _ ht _ r

/-- Session 1 of the lobby moves to the room next door. -/
theorem update_responses_switch :
    let g := update sampleEnv initial (twoInLobby [97])
    let event := ServerEvent.joinRoomRequest 1 3 1002
    event.Accepted g.roomSystem ∧
      Answered g (handleEvent sampleEnv g event) event ⟨1, 1, [97], 1001, true⟩ := by
  intro g event
  have hs : g.roomSystem.findSession 1 = some ⟨1, 1, [97], 1001, true⟩ := by decide +kernel
  have hr : ∃ room, g.roomSystem.findRoom 1002 = some room := by
    rw [← Option.isSome_iff_exists]
    decide +kernel
  refine ⟨⟨⟨_, hs, rfl⟩, hr, by decide +kernel⟩, ?_⟩
  exact (update_responses sampleEnv (twoInLobby [97]) event (fun _ _ _ => rfl)).1 _ rfl hs

end GameLogicSystem

end ProjectNight
