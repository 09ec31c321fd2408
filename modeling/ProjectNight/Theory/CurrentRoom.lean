import ProjectNight.Lib.Machine
import ProjectNight.Theory.Screen

/-!
# The Current Room

The window keeps the id of its room and asks it before a chat line is sent.
The server keeps one per session. They agree as long as one session lasts: the
room of a session changes with a confirmed join, the confirmation carries the
room, and the window makes no request that would take it out of a room again.

A session can end while the window stays open, and nothing resets the room
then. After the next connect the window still shows the room of the session
before, while the server has just opened a session that is in none. So the two
agree in the runs in which the user connects only from a window that shows no
room, and in which the server does not end a session that is in a room while
the window still counts as connected (`staysInTouch`).

## Main definitions

* `RoomSystem.roomOf`: The room the server holds for a session.
* `Conversation.roomView`: The room the window shows once it has caught up.
* `Conversation.RoomShown`: The window that has caught up shows that room, and
  sends chat lines only from one.
* `Conversation.staysInTouch`: The condition on the steps.

## Theorems

* `Heard.room`: An event changes the room as its messages say.
* `roomView_step`: A step keeps the two in agreement.
* `conversation_room`: They agree in every run that meets the condition.
-/

namespace ProjectNight

/-- The room the server holds for a session; none for one it does not know. -/
def RoomSystem.roomOf (rs : RoomSystem) (s : UInt32) : UInt32 :=
  (rs.findSession s).elim noRoomId SessionState.roomId

-- A change of another session leaves the room alone.
theorem RoomSystem.roomOf_change_other (rs : RoomSystem) {s c : UInt32} (hsc : s ≠ c)
    (change : Change) : (rs.change s change).roomOf c = rs.roomOf c := by
  unfold roomOf
  rw [findSession_change, if_neg hsc]

theorem RoomSystem.roomOf_change_self (rs : RoomSystem) (c : UInt32) (change : Change) :
    (rs.change c change).roomOf c
      = (change.entry c (rs.findSession c)).elim noRoomId SessionState.roomId := by
  unfold roomOf
  rw [findSession_change, if_pos rfl]

-- Joining and leaving of others is not mistaken for a join of one's own.
theorem roomAfter_partings (rs : RoomSystem) (c : UInt32) (session : SessionState)
    (room : UInt32) : (partings rs c session).foldl roomAfter room = room := by
  unfold partings
  split_ifs <;> rfl

theorem roomAfter_arrivals (rs : RoomSystem) (c q : UInt32) (session : SessionState)
    (room : UInt32) : (arrivals rs c q session).foldl roomAfter room = room := by
  unfold arrivals
  split_ifs <;> rfl

/-- Whoever follows the messages of an event from the room before has the room
    after, unless the event ends the session while it is in a room. -/
theorem Heard.room {env : Env} {rs : RoomSystem} (hw : rs.WellFormed) {c : UInt32}
    {event : ServerEvent} {change : Change} {ms : List Message}
    (h : Heard env rs c event change ms)
    (hended : event = .sessionDisconnected c → rs.roomOf c = noRoomId) :
    ms.foldl roomAfter (rs.roomOf c) = (rs.change event.sessionId change).roomOf c := by
  cases h with
  | silent event change ms hms hchange =>
      rw [foldl_of_idle (fun m hm room => roomAfter_of_isQuiet (hms m hm).1 room)]
      by_cases hsc : event.sessionId = c
      · rw [hsc, RoomSystem.roomOf_change_self]
        unfold RoomSystem.roomOf
        rcases hchange with rfl | ⟨_, rfl⟩ | ⟨rfl, hnone⟩
        · rfl
        · cases rs.findSession c <;> rfl
        · rw [← hsc, hnone]
          rfl
      · rw [RoomSystem.roomOf_change_other rs hsc]
  | otherLogin s requestId name hsc haccepted =>
      exact (RoomSystem.roomOf_change_other rs hsc _).symm
  | login requestId name session hs haccepted =>
      have hafter : (rs.change c (.login name)).roomOf c = rs.roomOf c := by
        rw [RoomSystem.roomOf_change_self, RoomSystem.roomOf, hs]
        rfl
      exact hafter.symm
  | join requestId r session room hs hlogged hr hne =>
      have hafter : (rs.change c (.place r)).roomOf c = r := by
        rw [RoomSystem.roomOf_change_self, hs]
        rfl
      have hconfirmed : roomAfter (rs.roomOf c) (joinRoomResponseMessage requestId true .none
          (some { room with members := room.members.insert c })) = r :=
        hw.room_key r room hr
      rw [List.foldl_cons, hconfirmed]
      refine Eq.trans ?_ hafter.symm
      refine foldl_of_idle (fun m hm x => ?_) r
      rcases List.mem_cons.mp hm with rfl | hm
      · rfl
      · rcases List.mem_map.mp hm with ⟨other, _, rfl⟩
        rfl
  | enters s requestId q session room hsc hs hlogged hq hne =>
      rw [List.foldl_append, roomAfter_partings, roomAfter_arrivals]
      exact (RoomSystem.roomOf_change_other rs hsc _).symm
  | leaves event change session hsc hs _ =>
      rw [roomAfter_partings, RoomSystem.roomOf_change_other rs hsc]
  | ended =>
      have hafter : (rs.change c .remove).roomOf c = noRoomId := by
        rw [RoomSystem.roomOf_change_self]
        rfl
      exact (hended rfl).trans hafter.symm

namespace Conversation

/-- The room the window shows once it has processed everything on the way. -/
def roomView (s : Conversation) (c : UInt32) : UInt32 :=
  (s.pending c).foldl roomAfter s.window.currentRoomId

/-- Connected and with all messages processed, the window shows the room the
    server holds for its session, and the Send button makes a request only
    when the session is in a room. -/
def RoomShown (wx : Wx) (s : Conversation) : Prop :=
  ∀ c, s.session = some c → s.connected = true → s.read = (s.queuedFor c).length →
    s.window.currentRoomId = s.game.roomSystem.roomOf c ∧
    ∀ input, (s.onSendClicked wx c input).requests ≠ s.requests →
      ∃ r, s.game.roomSystem.IsMember c r

/-- The user connects from a window that shows no room, and the server does not
    end a session in a room before the client knows. -/
def staysInTouch (s : Conversation) : Action → Bool
  | .connectClicked _ => s.window.currentRoomId = noRoomId
  | .drop => !s.connected || s.session.all (fun c => s.game.roomSystem.roomOf c = noRoomId)
  | _ => true

/-- What the window will show is what the server holds. -/
structure InTouch (codec : Codec) (s : Conversation) : Prop extends Sound codec s where
  agrees : ∀ c, s.session = some c → s.connected = true →
    s.roomView c = s.game.roomSystem.roomOf c

variable {codec : Codec} {wx : Wx} {s t : Conversation}

theorem roomOf_of_drop {c : UInt32} (hsession : s.session = some c) (hin : s.connected = true)
    (hcond : s.staysInTouch .drop = true) : s.game.roomSystem.roomOf c = noRoomId := by
  unfold staysInTouch at hcond
  rw [hin, hsession, Option.all_some, Bool.not_true, Bool.false_or] at hcond
  exact of_decide_eq_true hcond

theorem roomView_step (hcodec : codec.Faithful) (hnotices : codec.toEnv.NoticesFit)
    {a : Action} (h : InTouch codec s) (hcond : s.staysInTouch a = true)
    (hstep : step codec wx s a = some t) : InTouch codec t := by
  have houtcome := outcome_of_step h.requests hstep
  refine { sound_outcome h.toSound houtcome with agrees := fun c hc hconnected => ?_ }
  cases houtcome with
  | clicks a window more next hroom husers hmore hevent =>
      unfold roomView
      simp only [hroom]
      exact h.agrees c hc hconnected
  | connects c' name hsession hfresh hqueue =>
      have hsame : c' = c := Option.some.inj hc
      subst hsame
      -- Nothing is on the way yet, and the server knows no room.
      have hnone : (s.onConnectClicked wx c' name).pending c' = [] :=
        pending_eq_nil (congrArg List.length hqueue).symm
      have hserver : (s.onConnectClicked wx c' name).game.roomSystem.roomOf c' = noRoomId := by
        unfold RoomSystem.roomOf
        rw [show (s.onConnectClicked wx c' name).game.roomSystem.findSession c' = none from hfresh]
        rfl
      have hwindow : (s.onConnectClicked wx c' name).window.currentRoomId
          = s.window.currentRoomId := ChatWindow.currentRoomId_appendSystemMessage _ _
      rw [roomView, hnone, List.foldl_nil, hserver, hwindow]
      exact of_decide_eq_true hcond
  | processes c' out hsession hout =>
      have hsame : c' = c := Option.some.inj (hsession.symm.trans hc)
      subst hsame
      have hfirst := pending_processes hout (processMessage codec wx s.window out.payload)
      have hfits : codec.fits out.payload = true :=
        fits_of_mem_pending h.toSound (hfirst ▸ List.mem_cons_self)
      have hold := h.agrees c' hc hconnected
      rw [roomView, hfirst, List.foldl_cons] at hold
      rw [roomView, currentRoomId_processMessage hcodec wx hfits]
      exact hold
  | handles a e requests admitted hevent hrequests hown hother =>
      have hheard := heard_effect codec.toEnv s.game.clockReads h.wellFormed e
        (fun he => (hown c hc he).kind)
      have hrs := (GameLogicSystem.handleEvent_performs codec.toEnv h.wellFormed e).roomSystem
      have hold := h.agrees c hc hconnected
      -- The end of the session is a drop, and the condition is about those.
      have hended : e = .sessionDisconnected c → s.game.roomSystem.roomOf c = noRoomId := by
        rintro rfl
        have hsession : s.session = some c := hc
        have hin : s.connected = true := hconnected
        cases hown c hsession rfl with
        | request a e hwindow _ => cases hwindow
        | drop _ => exact roomOf_of_drop hsession hin hcond
      unfold roomView at hold ⊢
      rw [pending_handles h.toSound hc e requests admitted, List.foldl_append]
      simp only [handle]
      rw [hold, hrs, ← hheard.room h.wellFormed hended]
      refine foldl_filter_of_idle roomAfter _ _ (fun m hm hfits room => ?_) _
      exact roomAfter_of_isQuiet (hheard.quiet_of_not_fits hnotices h.wellFormed hm hfits) room
  | disconnected => exact absurd hconnected Bool.false_ne_true
  | lost window hroom husers => cases hc

-- A session with a room is a member of it.
theorem exists_isMember_of_roomOf {rs : RoomSystem} (hw : rs.WellFormed) {c : UInt32}
    (h : rs.roomOf c ≠ noRoomId) : ∃ r, rs.IsMember c r := by
  unfold RoomSystem.roomOf at h
  cases hs : rs.findSession c with
  | none =>
      rw [hs] at h
      exact absurd rfl h
  | some session =>
      rw [hs] at h
      exact ⟨session.roomId, hw.isMember_of_session hs h⟩

-- Nothing is sent from a window that shows no room.
theorem currentRoomId_of_sends {c : UInt32} {input : WxString}
    (h : (s.onSendClicked wx c input).requests ≠ s.requests) :
    s.window.currentRoomId ≠ noRoomId := by
  intro hroom
  have hnone : s.window.chatText wx input = none := by
    unfold ChatWindow.chatText
    exact if_pos hroom
  unfold onSendClicked at h
  rw [hnone] at h
  exact h rfl

/-- In every run in which the user connects only from a window without a room
    and no session in a room is ended behind the back of a connected client,
    the window shows the room the server holds. -/
theorem conversation_room (codec : Codec) (wx : Wx) (hcodec : codec.Faithful)
    (hnotices : codec.toEnv.NoticesFit) (actions : List Action) (s : Conversation)
    (hrun : Machine.run (step codec wx) (start wx) actions = some s)
    (hcond : Machine.Respects (step codec wx) staysInTouch (start wx) actions = true) :
    s.RoomShown wx := by
  have hinit : InTouch codec (start wx) :=
    { sound_start codec wx with agrees := fun _ hc => by cases hc }
  have h := Machine.invariant_of_respects
    (fun _ _ _ h hc hstep => roomView_step hcodec hnotices h hc hstep) hrun hcond hinit
  intro c hc hconnected hread
  have hview := h.agrees c hc hconnected
  rw [roomView, pending_eq_nil hread, List.foldl_nil] at hview
  refine ⟨hview, fun input hsends => ?_⟩
  exact exists_isMember_of_roomOf h.wellFormed (hview ▸ currentRoomId_of_sends hsends)

/-- Session `c` connects and logs in; both answers are processed. -/
def signIn (c : UInt32) : List Action :=
  [.connectClicked c, .announce, .serve, .serve, .process, .process]

/-- The user joins the first room of the list. -/
def enterLobby : List Action := [.joinClicked 0, .serve, .process, .process]

/-- A connection is lost before any room was joined; the next one is used. -/
def secondTry : List Action := signIn 1 ++ [.disconnected, .drop, .lost] ++ signIn 2 ++ enterLobby

theorem conversation_room_secondTry :
    ∃ s, Machine.run (step plainCodec asciiWx) (start asciiWx) secondTry = some s ∧
      s.window.currentRoomId = 1001 ∧ s.RoomShown asciiWx := by
  have hend : (Machine.run (step plainCodec asciiWx) (start asciiWx) secondTry).map
      (fun s => s.window.currentRoomId) = some 1001 := by decide +kernel
  rcases Option.map_eq_some_iff.mp hend with ⟨s, hrun, hroom⟩
  refine ⟨s, hrun, hroom, ?_⟩
  exact conversation_room plainCodec asciiWx faithful_plainCodec compact_plainCodec.noticesFit
    secondTry s hrun (by decide +kernel)

/-- The connection is lost while the window is in the lobby, and the user
    connects again. -/
def backFromLobby : List Action :=
  signIn 1 ++ enterLobby ++ [.disconnected, .drop, .lost] ++ signIn 2

/-- The window still shows the lobby, while session 2 is in no room. -/
theorem not_roomShown_backFromLobby :
    plainCodec.Faithful ∧ plainCodec.toEnv.NoticesFit ∧
    ∃ s, Machine.run (step plainCodec asciiWx) (start asciiWx) backFromLobby = some s ∧
      s.session = some 2 ∧ s.connected = true ∧ ¬ s.RoomShown asciiWx := by
  have hend : (Machine.run (step plainCodec asciiWx) (start asciiWx) backFromLobby).map
      (fun s => (s.session, s.connected, s.read, (s.queuedFor 2).length,
        s.window.currentRoomId, s.game.roomSystem.roomOf 2))
        = some (some 2, true, 2, 2, 1001, 0) := by decide +kernel
  rcases Option.map_eq_some_iff.mp hend with ⟨s, hrun, hs⟩
  simp only [Prod.mk.injEq] at hs
  rcases hs with ⟨hsession, hconnected, hread, hqueued, hroom, hserver⟩
  refine ⟨faithful_plainCodec, compact_plainCodec.noticesFit, s, hrun, hsession, hconnected,
    fun h => ?_⟩
  have hshown := (h 2 hsession hconnected (hread.trans hqueued.symm)).1
  rw [hroom, hserver] at hshown
  exact absurd hshown (by decide)

end Conversation

end ProjectNight
