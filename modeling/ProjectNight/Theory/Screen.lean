import ProjectNight.Core.Conversation
import ProjectNight.Theory.Heard

/-!
# What Reaches the Window

The window shows the room it takes itself to be in and the users it knows of,
and both change only while a message is processed. This module says which
message changes what (`roomAfter`, `usersAfter`), what a step of a
conversation can be (`Outcome`), and what the game logic sends to the session
of the window when it handles an event.

A property of the window cannot be compared with the server at any moment: the
messages on the way have to be counted as well. `pending` are those, and what
the window will show once it has caught up is a fold over them. Processing a
message leaves that fold alone, and an event appends to it
(`pending_processes`, `pending_handles`).

## Main definitions

* `roomAfter`, `usersAfter`: What a message does to the room and the users.
* `Message.events`: The events a message is decoded to.
* `Conversation.pending`: The messages not yet processed.
* `ServerEvent.OfWindow`: The requests a window makes.
* `Own`, `Outcome`: What a step can be.
* `Conversation.Sound`: What holds in every run.

## Theorems

* `currentRoomId_processMessage`, `userList_processMessage`: The window follows
  the two functions.
* `outcome_of_step`: Every step has such an outcome.
* `sound_run`: Every run is sound.
* `messagesFor_effect_other`, `messagesFor_join_self`: What a session hears.
-/

namespace ProjectNight

/-! ### The window -/

namespace ChatWindow

variable (wx : Wx) (w : ChatWindow)

@[simp] theorem currentRoomId_appendLine (line : WxString) :
    (w.appendLine line).currentRoomId = w.currentRoomId := by
  unfold appendLine
  split_ifs <;> rfl

@[simp] theorem userList_appendLine (line : WxString) :
    (w.appendLine line).userList = w.userList := by
  unfold appendLine
  split_ifs <;> rfl

@[simp] theorem currentRoomId_appendSystemMessage (message : WxString) :
    (w.appendSystemMessage message).currentRoomId = w.currentRoomId :=
  currentRoomId_appendLine w _

@[simp] theorem userList_appendSystemMessage (message : WxString) :
    (w.appendSystemMessage message).userList = w.userList :=
  userList_appendLine w _

@[simp] theorem currentRoomId_addUser (name : WxString) :
    (w.addUser wx name).currentRoomId = w.currentRoomId := by
  unfold addUser
  split_ifs
  · rfl
  · cases w.findString wx name <;> rfl

@[simp] theorem currentRoomId_removeUser (name : WxString) :
    (w.removeUser wx name).currentRoomId = w.currentRoomId := by
  unfold removeUser
  cases w.findString wx name <;> rfl

end ChatWindow

/-- `AddUser` on the list of users alone. -/
def addName (wx : Wx) (users : List WxString) (name : WxString) : List WxString :=
  if name = [] ∨ ∃ entry ∈ users, wx.sameNoCase entry name = true then users
  else users ++ [name]

/-- `RemoveUser` on the list of users alone: the first match goes. -/
def removeName (wx : Wx) (users : List WxString) (name : WxString) : List WxString :=
  users.eraseP (fun entry => wx.sameNoCase entry name)

theorem ChatWindow.userList_addUser (wx : Wx) (w : ChatWindow) (name : WxString) :
    (w.addUser wx name).userList = addName wx w.userList name := by
  unfold ChatWindow.addUser addName ChatWindow.findString
  by_cases hempty : name = []
  · rw [if_pos (List.isEmpty_iff.mpr hempty), if_pos (Or.inl hempty)]
  rw [if_neg (by rw [List.isEmpty_iff]; exact hempty)]
  cases hfind : w.userList.findIdx? (fun entry => wx.sameNoCase entry name) with
  | none =>
      rw [List.findIdx?_eq_none_iff] at hfind
      rw [if_neg]
      rintro (hc | ⟨entry, hentry, hsame⟩)
      · exact hempty hc
      · rw [hfind entry hentry] at hsame
        exact Bool.false_ne_true hsame
  | some index =>
      rw [if_pos]
      rcases List.findIdx?_eq_some_iff_getElem.mp hfind with ⟨hlt, hsame, _⟩
      exact Or.inr ⟨_, List.getElem_mem hlt, hsame⟩

theorem ChatWindow.userList_removeUser (wx : Wx) (w : ChatWindow) (name : WxString) :
    (w.removeUser wx name).userList = removeName wx w.userList name := by
  unfold ChatWindow.removeUser removeName ChatWindow.findString
  rw [List.eraseP_eq_eraseIdx]
  cases w.userList.findIdx? (fun entry => wx.sameNoCase entry name) <;> rfl

/-- The current room after a message: only the confirmation of a join sets
    it. -/
def roomAfter (room : UInt32) (m : Message) : UInt32 :=
  match m.payload with
  | .joinRoomResponse (some ⟨true, _, some info⟩) => info.roomId
  | _ => room

/-- The users after a message. -/
def usersAfter (wx : Wx) (users : List WxString) (m : Message) : List WxString :=
  match m.payload with
  | .loginResponse (some ⟨true, _, some user⟩) =>
      addName wx users (wx.fromUTF8 (toUtf8 user.displayName))
  | .userJoinedEvent (some ⟨_, some user⟩) =>
      addName wx users (wx.fromUTF8 (toUtf8 user.displayName))
  | .userLeftEvent (some ⟨_, some user⟩) =>
      removeName wx users (wx.fromUTF8 (toUtf8 user.displayName))
  | _ => users

/-- A confirmation of a login carries a name. Without one the window would
    show the name in its own field instead. -/
def Message.IsNamed (m : Message) : Prop :=
  match m.payload with
  | .loginResponse (some ⟨true, _, user⟩) =>
      ∃ info, user = some info ∧ toUtf8 info.displayName ≠ []
  | _ => True

/-- The events a message is decoded to. -/
def Message.events (m : Message) : List ChatProtocolEvent :=
  match m.payload with
  | .loginResponse (some response) =>
    if response.success then
      [.loginSucceeded (match response.user with
        | some user => toUtf8 user.displayName
        | none => [])]
    else [.loginFailed (toErrorString response.errorCode)]
  | .roomListResponse (some response) =>
    [.roomList ((response.rooms.getD []).map toChatRoomInfo)]
  | .joinRoomResponse (some response) =>
    match response.success, response.room with
    | true, some room => [.joinRoomSucceeded (toChatRoomInfo room)]
    | _, _ => [.joinRoomFailed (toErrorString response.errorCode)]
  | .chatBroadcast (some broadcast) =>
    [.messageReceived broadcast.roomId (toUtf8 broadcast.senderName)
      (toUtf8 broadcast.content)]
  | .userJoinedEvent (some ⟨roomId, some user⟩) =>
    [.userJoined roomId (toUtf8 user.displayName)]
  | .userLeftEvent (some ⟨roomId, some user⟩) =>
    [.userLeft roomId (toUtf8 user.displayName)]
  | .systemMessageEvent (some event) =>
    [.systemMessage event.roomId (toUtf8 event.content)]
  | _ => []

section Processing

variable {codec : Codec} (hcodec : codec.Faithful) (wx : Wx)

include hcodec

-- A message that was sent is not empty and is read back.
theorem decodePacket_buildMessage {m : Message} (hfits : codec.fits m = true) :
    decodePacket codec (codec.buildMessage m) = m.events := by
  have hne : (codec.buildMessage m).isEmpty = false := by
    simp only [Env.fits, Bool.not_eq_true', Bool.or_eq_false_iff] at hfits
    exact hfits.1
  unfold decodePacket
  rw [hcodec m hfits, if_neg (by rw [hne]; exact Bool.false_ne_true)]
  rfl

open Conversation in
theorem currentRoomId_processMessage {m : Message} (hfits : codec.fits m = true)
    (w : ChatWindow) :
    (processMessage codec wx w m).currentRoomId = roomAfter w.currentRoomId m := by
  unfold processMessage roomAfter
  rw [decodePacket_buildMessage hcodec hfits]
  rcases m with ⟨requestId, payload⟩
  cases payload with
  | loginResponse table =>
      rcases table with _ | ⟨_ | _, code, user⟩
      · rfl
      · exact ChatWindow.currentRoomId_appendSystemMessage _ _
      · exact (ChatWindow.currentRoomId_appendSystemMessage _ _).trans
          (ChatWindow.currentRoomId_addUser wx w _)
  | joinRoomResponse table =>
      rcases table with _ | ⟨_ | _, code, _ | info⟩
      · rfl
      · exact ChatWindow.currentRoomId_appendSystemMessage _ _
      · exact ChatWindow.currentRoomId_appendSystemMessage _ _
      · exact ChatWindow.currentRoomId_appendSystemMessage _ _
      · exact ChatWindow.currentRoomId_appendSystemMessage _ _
  | roomListResponse table => cases table <;> rfl
  | chatBroadcast table =>
      cases table with
      | none => rfl
      | some table => exact ChatWindow.currentRoomId_appendLine w _
  | userJoinedEvent table =>
      rcases table with _ | ⟨roomId, _ | user⟩
      · rfl
      · rfl
      · exact (ChatWindow.currentRoomId_appendSystemMessage _ _).trans
          (ChatWindow.currentRoomId_addUser wx w _)
  | userLeftEvent table =>
      rcases table with _ | ⟨roomId, _ | user⟩
      · rfl
      · rfl
      · exact (ChatWindow.currentRoomId_appendSystemMessage _ _).trans
          (ChatWindow.currentRoomId_removeUser wx w _)
  | systemMessageEvent table =>
      cases table with
      | none => rfl
      | some table => exact ChatWindow.currentRoomId_appendSystemMessage _ _
  | _ => rfl

open Conversation in
theorem userList_processMessage {m : Message} (hfits : codec.fits m = true)
    (hnamed : m.IsNamed) (w : ChatWindow) :
    (processMessage codec wx w m).userList = usersAfter wx w.userList m := by
  unfold processMessage usersAfter
  rw [decodePacket_buildMessage hcodec hfits]
  rcases m with ⟨requestId, payload⟩
  cases payload with
  | loginResponse table =>
      rcases table with _ | ⟨_ | _, code, user⟩
      · rfl
      · exact ChatWindow.userList_appendSystemMessage _ _
      · rcases hnamed with ⟨info, rfl, hname⟩
        simp only [Message.events, if_true, List.foldl_cons, List.foldl_nil,
          ChatWindow.processProtocolEvent, List.isEmpty_iff, if_neg hname,
          ChatWindow.userList_appendSystemMessage, ChatWindow.userList_addUser]
  | joinRoomResponse table =>
      rcases table with _ | ⟨_ | _, code, _ | info⟩
      · rfl
      · exact ChatWindow.userList_appendSystemMessage _ _
      · exact ChatWindow.userList_appendSystemMessage _ _
      · exact ChatWindow.userList_appendSystemMessage _ _
      · exact ChatWindow.userList_appendSystemMessage _ _
  | roomListResponse table => cases table <;> rfl
  | chatBroadcast table =>
      cases table with
      | none => rfl
      | some table => exact ChatWindow.userList_appendLine w _
  | userJoinedEvent table =>
      rcases table with _ | ⟨roomId, _ | user⟩
      · rfl
      · rfl
      · exact (ChatWindow.userList_appendSystemMessage _ _).trans
          (ChatWindow.userList_addUser wx w _)
  | userLeftEvent table =>
      rcases table with _ | ⟨roomId, _ | user⟩
      · rfl
      · rfl
      · exact (ChatWindow.userList_appendSystemMessage _ _).trans
          (ChatWindow.userList_removeUser wx w _)
  | systemMessageEvent table =>
      cases table with
      | none => rfl
      | some table => exact ChatWindow.userList_appendSystemMessage _ _
  | _ => rfl

end Processing

/-! ### Steps -/

namespace Conversation

/-- The event the game logic handles in a step. -/
def event (s : Conversation) : Action → Option ServerEvent
  | .announce => s.session.map .sessionConnected
  | .serve => s.requests.head?
  | .other event => some event
  | .drop => s.session.map .sessionDisconnected
  | _ => none

/-- The messages queued for session `c` that the window has not processed. -/
def pending (s : Conversation) (c : UInt32) : List Message :=
  (messagesFor c s.game.outgoingMessages).drop s.read

variable (codec : Codec) (wx : Wx)

/-- An event of the window's own session `c` is one of its requests, the
    beginning of the session or its end; the session is admitted from then
    on. -/
inductive Own (s : Conversation) (c : UInt32) : Action → ServerEvent → Bool → Prop where
  | request (a : Action) (e : ServerEvent) (hwindow : e.OfWindow c)
      (hadmitted : s.admitted = true) : Own s c a e true
  | announce (hadmitted : s.admitted = false) :
      Own s c .announce (.sessionConnected c) true
  | drop (hadmitted : s.admitted = true) : Own s c .drop (.sessionDisconnected c) true

theorem Own.kind {s : Conversation} {c : UInt32} {a : Action} {e : ServerEvent} {admitted : Bool}
    (h : Own s c a e admitted) :
    e.OfWindow c ∨ e = .sessionConnected c ∨ e = .sessionDisconnected c := by
  cases h with
  | request a e hwindow _ => exact Or.inl hwindow
  | announce _ => exact Or.inr (Or.inl rfl)
  | drop _ => exact Or.inr (Or.inr rfl)

/-- What a step can be. -/
inductive Outcome (s : Conversation) : Action → Conversation → Prop where
  -- The user does something that adds requests at most.
  | clicks (a : Action) (window : ChatWindow) (more : List ServerEvent) (next : UInt32)
      (hroom : window.currentRoomId = s.window.currentRoomId)
      (husers : window.userList = s.window.userList)
      (hmore : ∀ c, s.session = some c → ∀ e ∈ more, e.OfWindow c)
      (hevent : s.event a = none) :
      Outcome s a { s with window, requests := s.requests ++ more, nextRequestId := next }
  | connects (c : UInt32) (name : WxString) (hsession : s.session = none)
      (hfresh : s.game.roomSystem.findSession c = none) (hqueue : s.queuedFor c = []) :
      Outcome s (.connectClicked c) (s.onConnectClicked wx c name)
  | processes (c : UInt32) (out : OutgoingMessage) (hsession : s.session = some c)
      (hout : (s.queuedFor c)[s.read]? = some out) :
      Outcome s .process { s with
        window := processMessage codec wx s.window out.payload, read := s.read + 1 }
  -- The game logic handles an event.
  | handles (a : Action) (e : ServerEvent) (requests : List ServerEvent) (admitted : Bool)
      (hevent : s.event a = some e) (hrequests : ∀ r ∈ requests, r ∈ s.requests)
      (hown : ∀ c, s.session = some c → e.sessionId = c → Own s c a e admitted)
      (hother : s.session ≠ some e.sessionId → admitted = s.admitted) :
      Outcome s a { s.handle codec e with requests, admitted }
  | disconnected : Outcome s .disconnected { s with connected := false }
  | lost (window : ChatWindow) (hroom : window.currentRoomId = s.window.currentRoomId)
      (husers : window.userList = s.window.userList) :
      Outcome s .lost { s with window, session := none, requests := [] }

variable {codec wx} {s t : Conversation}

-- Nothing but the window may change.
theorem outcome_idle {a : Action} (hevent : s.event a = none) (window : ChatWindow)
    (hroom : window.currentRoomId = s.window.currentRoomId)
    (husers : window.userList = s.window.userList) :
    Outcome codec wx s a { s with window } := by
  have hidle : Outcome codec wx s a _ := Outcome.clicks a window [] s.nextRequestId hroom
    husers (fun _ _ e he => absurd he List.not_mem_nil) hevent
  rw [List.append_nil] at hidle
  exact hidle

-- A button adds requests of the session, or does nothing.
theorem outcome_of_clicked {a : Action} (hevent : s.event a = none)
    {handler : UInt32 → Conversation}
    (hhandler : ∀ c, s.session = some c → ∃ window more next,
      handler c = { s with window, requests := s.requests ++ more, nextRequestId := next } ∧
      window.currentRoomId = s.window.currentRoomId ∧
      window.userList = s.window.userList ∧ ∀ e ∈ more, e.OfWindow c)
    (hstep : s.clicked handler = some t) : Outcome codec wx s a t := by
  unfold clicked at hstep
  cases hsession : s.session with
  | none =>
      rw [hsession] at hstep
      cases hstep
  | some c =>
      rw [hsession] at hstep
      simp only [Option.some.injEq] at hstep
      rw [← hstep]
      by_cases hconnected : s.connected = true
      · rw [if_pos hconnected]
        rcases hhandler c hsession with ⟨window, more, next, heq, hroom, husers, hmore⟩
        rw [heq]
        refine Outcome.clicks a window more next hroom husers (fun c' hc' => ?_) hevent
        rw [hsession, Option.some.injEq] at hc'
        exact hc' ▸ hmore
      · rw [if_neg hconnected]
        exact outcome_idle hevent s.window rfl rfl

-- The game logic handles an event of the window's session.
theorem outcome_of_own {a : Action} {e : ServerEvent} {admitted : Bool}
    (hsession : s.session = some e.sessionId) (hevent : s.event a = some e)
    (hown : Own s e.sessionId a e admitted) :
    Outcome codec wx s a { s.handle codec e with requests := s.requests, admitted } := by
  refine Outcome.handles a e s.requests admitted hevent (fun _ hr => hr) (fun c _ he => ?_)
    (fun hne => absurd hsession hne)
  rw [← he]
  exact hown

/-- Every step has an outcome, when the requests under way are those of the
    window. -/
theorem outcome_of_step (hrequests : ∀ c, s.session = some c → ∀ e ∈ s.requests, e.OfWindow c)
    {a : Action} (hstep : step codec wx s a = some t) : Outcome codec wx s a t := by
  cases a with
  | typeName text =>
      simp only [step, Option.some.injEq] at hstep
      rw [← hstep]
      exact outcome_idle rfl { s.window with displayNameCtrl := text } rfl rfl
  | connectClicked c =>
      simp only [step] at hstep
      split_ifs at hstep with hcan
      rw [Option.some.injEq] at hstep
      rw [← hstep]
      exact Outcome.connects c _ hcan.1 hcan.2.2.1 hcan.2.2.2
  | refreshClicked =>
      refine outcome_of_clicked rfl (fun c _ => ?_) hstep
      refine ⟨_, [.roomListRequest c s.nextRequestId], _, rfl,
        ChatWindow.currentRoomId_appendSystemMessage _ _,
        ChatWindow.userList_appendSystemMessage _ _, fun e he => ?_⟩
      rw [List.mem_singleton.mp he]
      exact .roomList _
  | joinClicked selected =>
      refine outcome_of_clicked rfl (fun c _ => ?_) hstep
      unfold onJoinRoomClicked
      cases s.window.getSelectedRoom selected with
      | none =>
          exact ⟨s.window, [], s.nextRequestId, by rw [List.append_nil], rfl, rfl,
            fun e he => absurd he List.not_mem_nil⟩
      | some room =>
          refine ⟨_, [.joinRoomRequest c s.nextRequestId room.roomId], _, rfl,
            ChatWindow.currentRoomId_appendSystemMessage _ _,
            ChatWindow.userList_appendSystemMessage _ _, fun e he => ?_⟩
          rw [List.mem_singleton.mp he]
          exact .join _ _
  | sendClicked input =>
      refine outcome_of_clicked rfl (fun c _ => ?_) hstep
      unfold onSendClicked
      cases s.window.chatText wx input with
      | none =>
          exact ⟨s.window, [], s.nextRequestId, by rw [List.append_nil], rfl, rfl,
            fun e he => absurd he List.not_mem_nil⟩
      | some text =>
          refine ⟨s.window, [.chatSendRequest c s.nextRequestId text], _, rfl, rfl, rfl,
            fun e he => ?_⟩
          rw [List.mem_singleton.mp he]
          exact .chat _ _
  | process =>
      simp only [step] at hstep
      cases hsession : s.session with
      | none =>
          rw [hsession] at hstep
          cases hstep
      | some c =>
          rw [hsession] at hstep
          rcases Option.map_eq_some_iff.mp hstep with ⟨out, hout, heq⟩
          have hprocess : Outcome codec wx s _ _ := Outcome.processes c out hsession hout
          rw [hsession] at hprocess
          rw [← heq]
          exact hprocess
  | announce =>
      simp only [step] at hstep
      cases hsession : s.session with
      | none =>
          rw [hsession] at hstep
          cases hstep
      | some c =>
          rw [hsession] at hstep
          simp only at hstep
          split_ifs at hstep with hadmitted
          rw [Option.some.injEq] at hstep
          rw [← hstep]
          have hevent : s.event .announce = some (.sessionConnected c) := by
            rw [event, hsession]
            rfl
          exact outcome_of_own hsession hevent (.announce (Bool.not_eq_true _ ▸ hadmitted))
  | serve =>
      simp only [step] at hstep
      cases hreq : s.requests with
      | nil =>
          rw [hreq] at hstep
          cases hstep
      | cons request rest =>
          rw [hreq] at hstep
          simp only at hstep
          split_ifs at hstep with hadmitted
          rw [Option.some.injEq] at hstep
          rw [← hstep]
          refine Outcome.handles _ request rest s.admitted ?_ (fun r hr => ?_)
            (fun c hc _ => ?_) (fun _ => rfl)
          · rw [event, hreq]
            rfl
          · rw [hreq]
            exact List.mem_cons_of_mem _ hr
          · rw [hadmitted]
            exact .request _ request
              (hrequests c hc request (by rw [hreq]; exact List.mem_cons_self)) hadmitted
  | other e =>
      simp only [step] at hstep
      split_ifs at hstep with hsession
      rw [Option.some.injEq] at hstep
      rw [← hstep]
      exact Outcome.handles _ e s.requests s.admitted rfl (fun _ hr => hr)
        (fun c hc he => absurd (hc.trans (congrArg some he.symm)) hsession) (fun _ => rfl)
  | drop =>
      simp only [step] at hstep
      cases hsession : s.session with
      | none =>
          rw [hsession] at hstep
          cases hstep
      | some c =>
          rw [hsession] at hstep
          simp only at hstep
          split_ifs at hstep with hadmitted
          rw [Option.some.injEq] at hstep
          rw [← hstep]
          have hevent : s.event .drop = some (.sessionDisconnected c) := by
            rw [event, hsession]
            rfl
          have hown : Own s c .drop (.sessionDisconnected c) s.admitted := by
            rw [hadmitted]
            exact .drop hadmitted
          exact outcome_of_own hsession hevent hown
  | disconnected =>
      simp only [step] at hstep
      split_ifs at hstep
      rw [Option.some.injEq] at hstep
      rw [← hstep]
      exact Outcome.disconnected
  | lost =>
      simp only [step] at hstep
      split_ifs at hstep
      rw [Option.some.injEq] at hstep
      rw [← hstep]
      exact Outcome.lost _ (ChatWindow.currentRoomId_appendSystemMessage _ _)
        (ChatWindow.userList_appendSystemMessage _ _)

/-! ### What holds in every run -/

/-- The room system is well formed, the queue has what fits, the requests under
    way are those of the window, and no message was processed that is not
    there. -/
structure Sound (codec : Codec) (s : Conversation) : Prop where
  wellFormed : s.game.roomSystem.WellFormed
  synced : GameLogicSystem.Synced codec.toEnv s.game
  requests : ∀ c, s.session = some c → ∀ e ∈ s.requests, e.OfWindow c
  read_le : ∀ c, s.session = some c → s.read ≤ (s.queuedFor c).length

theorem sound_start (codec : Codec) (wx : Wx) : Sound codec (start wx) where
  wellFormed := RoomSystem.wellFormed_init
  synced := rfl
  requests := fun _ hc => by cases hc
  read_le := fun _ hc => by cases hc

/-- What an event of the game logic adds to the queue. -/
theorem outgoingMessages_handle (h : Sound codec s) (e : ServerEvent) :
    (s.handle codec e).game.outgoingMessages = s.game.outgoingMessages
      ++ (effect codec.toEnv s.game.clockReads s.game.roomSystem e).messages.filter
        (fun out => codec.fits out.payload) :=
  GameLogicSystem.outgoingMessages_effect
    (GameLogicSystem.handleEvent_performs codec.toEnv h.wellFormed e) h.synced
    (GameLogicSystem.synced_handleEvent h.synced e)

theorem length_queuedFor_handle (h : Sound codec s) (e : ServerEvent) (c : UInt32) :
    (s.queuedFor c).length ≤ ((s.handle codec e).queuedFor c).length := by
  unfold queuedFor
  rw [outgoingMessages_handle h e, List.filter_append, List.length_append]
  omega

theorem sound_outcome (h : Sound codec s) {a : Action} (ho : Outcome codec wx s a t) :
    Sound codec t := by
  cases ho with
  | clicks a window more next hroom husers hmore hevent =>
      refine ⟨h.wellFormed, h.synced, fun c hc e he => ?_, h.read_le⟩
      rcases List.mem_append.mp he with he | he
      · exact h.requests c hc e he
      · exact hmore c hc e he
  | connects c name hsession hfresh hqueue =>
      refine ⟨h.wellFormed, h.synced, fun c' hc' e he => ?_, fun _ _ => Nat.zero_le _⟩
      have hsame : c = c' := Option.some.inj hc'
      subst hsame
      rcases List.mem_cons.mp he with rfl | he
      · exact .login _ _
      · rw [List.mem_singleton.mp he]
        exact .roomList _
  | processes c out hsession hout =>
      refine ⟨h.wellFormed, h.synced, h.requests, fun c' hc' => ?_⟩
      have hsame : c' = c := Option.some.inj (hc'.symm.trans hsession)
      rw [hsame]
      exact (List.getElem?_eq_some_iff.mp hout).1
  | handles a e requests admitted hevent hrequests hown hother =>
      refine ⟨GameLogicSystem.wellFormed_handleEvent _ h.wellFormed e,
        GameLogicSystem.synced_handleEvent h.synced e,
        fun c hc r hr => h.requests c hc r (hrequests r hr), fun c hc => ?_⟩
      exact (h.read_le c hc).trans (length_queuedFor_handle h e c)
  | disconnected => exact ⟨h.wellFormed, h.synced, h.requests, h.read_le⟩
  | lost window hroom husers =>
      exact ⟨h.wellFormed, h.synced, fun _ hc => (by cases hc), fun _ hc => (by cases hc)⟩

/-! ### The messages on the way -/

theorem fits_of_mem_pending (h : Sound codec s) {c : UInt32} {m : Message}
    (hm : m ∈ s.pending c) : codec.fits m = true := by
  rcases List.mem_map.mp (List.mem_of_mem_drop hm) with ⟨out, hout, rfl⟩
  have hqueued := List.mem_of_mem_filter hout
  rw [GameLogicSystem.outgoingMessages_eq_built h.synced] at hqueued
  exact (List.mem_filter.mp hqueued).2

-- The message that is processed was the first of them.
theorem pending_processes {c : UInt32} {out : OutgoingMessage}
    (hout : (s.queuedFor c)[s.read]? = some out) (window : ChatWindow) :
    s.pending c = out.payload :: { s with window, read := s.read + 1 }.pending c := by
  rcases List.getElem?_eq_some_iff.mp hout with ⟨hlt, heq⟩
  unfold pending messagesFor
  rw [← List.map_drop, ← List.map_drop, ← heq]
  exact congrArg (List.map OutgoingMessage.payload) (List.drop_eq_getElem_cons hlt)

-- The messages of an event come last.
theorem pending_handles (h : Sound codec s) {c : UInt32} (hc : s.session = some c)
    (e : ServerEvent) (requests : List ServerEvent) (admitted : Bool) :
    { s.handle codec e with requests, admitted }.pending c
      = s.pending c ++ (messagesFor c (effect codec.toEnv s.game.clockReads s.game.roomSystem
        e).messages).filter codec.fits := by
  have hread : s.read ≤ (messagesFor c s.game.outgoingMessages).length := by
    rw [messagesFor, List.length_map]
    exact h.read_le c hc
  have hqueue := outgoingMessages_handle h e
  unfold pending
  rw [messagesFor_filter]
  simp only [hqueue, messagesFor_append]
  exact List.drop_append_of_le_length hread

-- When everything was processed, nothing is on the way.
theorem pending_eq_nil {c : UInt32} (hread : s.read = (s.queuedFor c).length) :
    s.pending c = [] := by
  refine List.drop_eq_nil_of_le ?_
  rw [messagesFor, List.length_map, hread]
  exact le_refl _

end Conversation

/-- Messages that change nothing may be left out of a fold. -/
theorem foldl_filter_of_idle {σ : Type} (after : σ → Message → σ) (f : Message → Bool)
    (ms : List Message) (h : ∀ m ∈ ms, ¬ f m = true → ∀ x, after x m = x) (x : σ) :
    (ms.filter f).foldl after x = ms.foldl after x := by
  induction ms generalizing x with
  | nil => rfl
  | cons m ms ih =>
      have htail := ih (fun m' hm' => h m' (List.mem_cons_of_mem m hm'))
      by_cases hf : f m = true
      · rw [List.filter_cons_of_pos hf, List.foldl_cons, List.foldl_cons, htail]
      · rw [List.filter_cons_of_neg hf, List.foldl_cons, htail, h m List.mem_cons_self hf]

theorem foldl_of_idle {σ : Type} {after : σ → Message → σ} {ms : List Message}
    (h : ∀ m ∈ ms, ∀ x, after x m = x) (x : σ) : ms.foldl after x = x := by
  induction ms with
  | nil => rfl
  | cons m ms ih =>
      rw [List.foldl_cons, h m List.mem_cons_self]
      exact ih (fun m' hm' => h m' (List.mem_cons_of_mem m hm'))

theorem roomAfter_of_isQuiet {m : Message} (hm : m.IsQuiet) (room : UInt32) :
    roomAfter room m = room := by
  unfold roomAfter
  split
  · next code info hpayload =>
      have hconfirms := hm.1
      rw [Message.confirmsJoin, hpayload] at hconfirms
      exact absurd hconfirms.symm Bool.false_ne_true
  · rfl

theorem usersAfter_of_isSilent (wx : Wx) {m : Message} (hm : m.IsSilent)
    (users : List WxString) : usersAfter wx users m = users := by
  unfold usersAfter
  split
  · next code user hpayload =>
      have hconfirms := hm.2
      rw [Message.confirmsLogin, hpayload] at hconfirms
      exact absurd hconfirms.symm Bool.false_ne_true
  · next roomId user hpayload =>
      have hnotice := hm.1.2
      rw [Message.notice, hpayload] at hnotice
      cases hnotice
  · next roomId user hpayload =>
      have hnotice := hm.1.2
      rw [Message.notice, hpayload] at hnotice
      cases hnotice
  · rfl

-- A silent message confirms no login.
theorem Message.isNamed_of_isSilent {m : Message} (hm : m.IsSilent) : m.IsNamed := by
  unfold IsNamed
  split
  · next code user hpayload =>
      have hconfirms := hm.2
      rw [Message.confirmsLogin, hpayload] at hconfirms
      exact absurd hconfirms.symm Bool.false_ne_true
  · trivial

/-- The conversions on ASCII text; anything else is taken for bytes that are
    not valid UTF-8. -/
def asciiWx : Wx where
  fromUTF8 s := if s.all (fun b => b < 128) then s.map (fun b => Char.ofNat b.toNat) else []
  toStdString text := text.map (fun c => UInt8.ofNat c.toNat)
  sameNoCase a b := a.map Char.toLower = b.map Char.toLower

end ProjectNight
