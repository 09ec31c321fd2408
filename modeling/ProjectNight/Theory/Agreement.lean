import ProjectNight.Lib.Board
import ProjectNight.Theory.Authentic
import ProjectNight.Theory.CurrentRoom
import ProjectNight.Theory.Streams

/-!
# The Same Conversation for Everybody

A room is a conversation when its members read the same lines in the same
order. The server keeps no log of a room; there is only what it queues for
each session, one message after the other. This module shows that these queues
amount to a `Board`: the lines a member has been sent since its latest join
are the lines said in its room since then, so that two members of a room agree
on everything both were there for.

Every event is at most one act on the board. An accepted chat line is posted,
an accepted join enters, and each of the ways out leaves; leaving a room one is
not in is nothing. The proof is a simulation, one event at a time: `Shows` says
that the board puts every session where the server has it, and shows every
member what it was sent.

## Main definitions

* `ChatLine`, `Message.chatLine`: A line as it is sent, without its timestamp.
* `RoomSystem.place`: The room a session is in, if it is in one.
* `ServerEvent.act`: What an event does on the board.
* `Acts`: What an event sends and changes, sorted by its act.
* `Shows`: The server and the board agree.
* `GameLogicSystem.board`: The board after a list of events.
* `GameLogicSystem.posted`, `GameLogicSystem.heardBy`: All lines, and those of
  them that are said where a session is.

## Theorems

* `acts_effect`: Every event is one act at most.
* `place_step`, `lines_step`: The rooms and the lines after an event.
* `shows_step`: Every event keeps the agreement.
* `GameLogicSystem.members_agree`: The conversation of a room.
* `GameLogicSystem.chatLines_messagesFor`: The whole stream of a session.
* `Network.windows_agree`: The windows show parts of one conversation.
-/

namespace ProjectNight

/-! ### Lines -/

/-- Who said what, as it is sent to a member. -/
structure ChatLine where
  senderId : UInt32
  senderName : Option Bytes
  content : Option Bytes
  deriving DecidableEq, Repr

/-- The room and the line of a broadcast. Each member is sent a timestamp of its
    own, which is left aside here. -/
def Message.chatLine (m : Message) : Option (UInt32 × ChatLine) :=
  match m.payload with
  | .chatBroadcast (some table) =>
      some (table.roomId, ⟨table.senderId, table.senderName, table.content⟩)
  | _ => none

/-- The lines among some messages. -/
def chatLines (ms : List Message) : List (UInt32 × ChatLine) := ms.filterMap Message.chatLine

/-- What `session` says with `content`. -/
def SessionState.uttered (session : SessionState) (content : Bytes) : ChatLine :=
  ⟨session.userId, some (cStr session.displayName), some (cStr content)⟩

theorem chatLine_chatBroadcast (session : SessionState) (content : Bytes) (timestamp : UInt64) :
    (chatBroadcastMessage session content timestamp).chatLine
      = some (session.roomId, session.uttered content) := rfl

theorem chatLines_append (a b : List Message) : chatLines (a ++ b) = chatLines a ++ chatLines b :=
  List.filterMap_append

theorem chatLines_eq_nil {ms : List Message} (h : ∀ m ∈ ms, m.chatLine = none) :
    chatLines ms = [] :=
  List.filterMap_eq_nil_iff.mpr h

/-- A message with a line in it is a broadcast. -/
theorem broadcast_of_chatLine {m : Message} {line : UInt32 × ChatLine}
    (h : m.chatLine = some line) : ∃ table, m.payload = .chatBroadcast (some table) := by
  unfold Message.chatLine at h
  split at h
  · rename_i table hpayload
    exact ⟨table, hpayload⟩
  · exact absurd h (Option.some_ne_none line).symm

/-! ### Where everybody is -/

/-- The room a session is in, if it is in one. -/
def RoomSystem.place (rs : RoomSystem) (s : UInt32) : Option UInt32 :=
  if rs.roomOf s = noRoomId then none else some (rs.roomOf s)

theorem RoomSystem.Consistent.place_eq_some {rs : RoomSystem} (h : rs.Consistent)
    {s r : UInt32} : rs.place s = some r ↔ rs.IsMember s r := by
  unfold place
  constructor
  · intro hplace
    by_cases hno : rs.roomOf s = noRoomId
    · rw [if_pos hno] at hplace
      exact absurd hplace (Option.some_ne_none r).symm
    · rw [if_neg hno, Option.some.injEq] at hplace
      unfold roomOf at hno hplace
      cases hs : rs.findSession s with
      | none =>
          rw [hs] at hno
          exact absurd rfl hno
      | some session =>
          rw [hs] at hno hplace
          rw [← hplace]
          exact h.isMember_of_session hs hno
  · intro hmember
    rcases h.session_of_isMember hmember with ⟨session, hs, hroom, hne⟩
    have hroomOf : rs.roomOf s = r := by
      unfold roomOf
      rw [hs]
      exact hroom
    rw [hroomOf, if_neg hne]

/-- Only a session in a room can leave. -/
theorem place_of_not_leaveAccepted {rs : RoomSystem} {s : UInt32} (h : ¬ LeaveAccepted rs s) :
    rs.place s = none := by
  refine if_pos ?_
  unfold RoomSystem.roomOf
  cases hs : rs.findSession s with
  | none => rfl
  | some session => exact by_contra (fun hne => h ⟨session, hs, hne⟩)

section Places

variable (rs : RoomSystem) (s t : UInt32)

theorem RoomSystem.place_change_other {s t : UInt32} (h : s ≠ t) (change : Change) :
    (rs.change s change).place t = rs.place t := by
  unfold place
  rw [roomOf_change_other rs h]

/-- Neither a connect nor a login moves anybody. -/
theorem RoomSystem.place_change_still {change : Change}
    (h : change = .keep ∨ change = .add ∨ ∃ name, change = .login name) :
    (rs.change s change).place t = rs.place t := by
  by_cases hst : s = t
  · subst hst
    have hroom : (rs.change s change).roomOf s = rs.roomOf s := by
      rw [roomOf_change_self]
      unfold roomOf
      rcases h with rfl | rfl | ⟨name, rfl⟩ <;> cases rs.findSession s <;> rfl
    unfold place
    rw [hroom]
  · exact place_change_other rs hst change

theorem RoomSystem.place_change_remove :
    (rs.change s .remove).place t = if t = s then none else rs.place t := by
  by_cases hts : t = s
  · subst hts
    unfold place
    rw [if_pos rfl, roomOf_change_self]
    exact if_pos rfl
  · rw [if_neg hts, place_change_other rs (fun hc => hts hc.symm)]

theorem RoomSystem.place_change_out :
    (rs.change s (.place noRoomId)).place t = if t = s then none else rs.place t := by
  by_cases hts : t = s
  · subst hts
    unfold place
    rw [if_pos rfl, roomOf_change_self]
    cases rs.findSession t <;> exact if_pos rfl
  · rw [if_neg hts, place_change_other rs (fun hc => hts hc.symm)]

theorem RoomSystem.place_change_enter {session : SessionState} {r : UInt32}
    (hs : rs.findSession s = some session) (hr : r ≠ noRoomId) :
    (rs.change s (.place r)).place t = if t = s then some r else rs.place t := by
  by_cases hts : t = s
  · subst hts
    unfold place
    rw [if_pos rfl, roomOf_change_self, hs]
    exact if_neg hr
  · rw [if_neg hts, place_change_other rs (fun hc => hts hc.symm)]

end Places

/-! ### What an event does on the board -/

/-- An accepted line is posted, an accepted join enters, and the ways out leave. -/
def ServerEvent.act (rs : RoomSystem) : ServerEvent → Option (Board.Act UInt32 UInt32 ChatLine)
  | .joinRoomRequest s _ r =>
      match rs.findSession s, rs.findRoom r with
      | some session, some _ =>
          if session.loggedIn = true ∧ session.roomId ≠ r then some (.enter s r) else none
      | _, _ => none
  | .chatSendRequest s _ content =>
      match rs.findSession s with
      | some session =>
          if session.loggedIn = true ∧ session.roomId ≠ noRoomId ∧ 1 ≤ content.length ∧
            content.length ≤ 512 then some (.post session.roomId (session.uttered content)) else none
      | none => none
  | .leaveRoomRequest s _ | .disconnectRequest s _ | .sessionDisconnected s => some (.leave s)
  | _ => none

/-- Neither the confirmation of a join nor a line. -/
def Message.IsAside (m : Message) : Prop := m.confirmsJoin = false ∧ m.chatLine = none

/-- The events that can lead to one or the other. -/
def ServerEvent.opens : ServerEvent → Bool
  | .joinRoomRequest _ _ _ | .chatSendRequest _ _ _ => true
  | _ => false

theorem Builds.isAside {env : Env} {rs : RoomSystem} {event : ServerEvent} {m : Message}
    (h : Builds env rs event m) (hopens : event.opens = false) : m.IsAside := by
  cases h with
  | joinAccepted s requestId r => exact absurd hopens.symm Bool.false_ne_true
  | chat s requestId content => exact absurd hopens.symm Bool.false_ne_true
  | _ => exact ⟨rfl, rfl⟩

section Lines

variable {rs : RoomSystem} {s : UInt32} {content : Bytes}

theorem act_accepted (requestId : UInt32) {session : SessionState}
    (hacc : ChatAccepted rs s content session) :
    (ServerEvent.chatSendRequest s requestId content).act rs
      = some (.post session.roomId (session.uttered content)) := by
  rcases hacc with ⟨hs, hchecks⟩
  simp only [ServerEvent.act, hs]
  exact if_pos hchecks

theorem act_refused (requestId : UInt32) (hacc : ∀ session, ¬ ChatAccepted rs s content session) :
    (ServerEvent.chatSendRequest s requestId content).act rs = none := by
  cases hs : rs.findSession s with
  | none => simp only [ServerEvent.act, hs]
  | some session =>
      simp only [ServerEvent.act, hs]
      exact if_neg (fun hchecks => hacc session ⟨hs, hchecks⟩)

/-- A line that is not accepted is answered with a remark at most. -/
theorem isAside_refused {env : Env} {reads : Nat}
    (hacc : ∀ session, ¬ ChatAccepted rs s content session) {out : OutgoingMessage}
    (hout : out ∈ chatMessages env reads rs s content) : out.payload.IsAside := by
  rcases chatMessages_cases env reads rs s content with ⟨_, hnone⟩ | ⟨_, _, _, _, _, _, hremark⟩ |
    ⟨session, haccepted⟩
  · rw [hnone] at hout
    exact absurd hout List.not_mem_nil
  · rw [hremark] at hout
    rw [List.mem_singleton.mp hout]
    exact ⟨rfl, rfl⟩
  · exact absurd haccepted (hacc session)

end Lines

section Joins

variable {rs : RoomSystem} {s r : UInt32}

theorem act_joined (requestId : UInt32) {session : SessionState} {room : RoomState}
    (hs : rs.findSession s = some session) (hlogged : session.loggedIn = true)
    (hr : rs.findRoom r = some room) (hne : session.roomId ≠ r) :
    (ServerEvent.joinRoomRequest s requestId r).act rs = some (.enter s r) := by
  simp only [ServerEvent.act, hs, hr]
  exact if_pos ⟨hlogged, hne⟩

theorem act_not_joined (requestId : UInt32) (h : ¬ JoinAccepted rs s r) :
    (ServerEvent.joinRoomRequest s requestId r).act rs = none := by
  cases hs : rs.findSession s with
  | none => simp only [ServerEvent.act, hs]
  | some session =>
      cases hr : rs.findRoom r with
      | none => simp only [ServerEvent.act, hs, hr]
      | some room =>
          simp only [ServerEvent.act, hs, hr]
          exact if_neg (fun hchecks => h ⟨session, room, hs, hchecks.1, hr, hchecks.2⟩)

end Joins

/-- What an event can do on the board, and what it sends and changes then. -/
inductive Acts (env : Env) (reads : Nat) (rs : RoomSystem) (event : ServerEvent) : Prop where
  | still (hact : event.act rs = none)
      (haside : ∀ out ∈ (effect env reads rs event).messages, out.payload.IsAside)
      (hchange : (effect env reads rs event).change = .keep ∨
        (effect env reads rs event).change = .add ∨
        ∃ name, (effect env reads rs event).change = .login name)
  | leaves (hact : event.act rs = some (.leave event.sessionId))
      (haside : ∀ out ∈ (effect env reads rs event).messages, out.payload.IsAside)
      (hchange : (effect env reads rs event).change = .remove ∨
        (effect env reads rs event).change = .place noRoomId ∨
        (effect env reads rs event).change = .keep ∧ rs.place event.sessionId = none)
  | enters (s requestId r : UInt32) (session : SessionState) (room : RoomState)
      (hevent : event = .joinRoomRequest s requestId r) (hs : rs.findSession s = some session)
      (hlogged : session.loggedIn = true) (hr : rs.findRoom r = some room)
      (hne : session.roomId ≠ r) (hact : event.act rs = some (.enter s r))
  | posts (s requestId : UInt32) (content : Bytes) (session : SessionState)
      (hevent : event = .chatSendRequest s requestId content)
      (hacc : ChatAccepted rs s content session)
      (hact : event.act rs = some (.post session.roomId (session.uttered content)))

/-- Every event is one of these. -/
theorem acts_effect (env : Env) (reads : Nat) {rs : RoomSystem} (hw : rs.WellFormed)
    (event : ServerEvent) : Acts env reads rs event := by
  -- What the other events build is neither a confirmation nor a line.
  have haside : event.opens = false →
      ∀ out ∈ (effect env reads rs event).messages, out.payload.IsAside :=
    fun hopens out hout => (builds_of_mem hw hout).isAside hopens
  cases event with
  | sessionConnected s =>
      exact .still rfl (fun out hout => absurd hout List.not_mem_nil) (Or.inr (Or.inl rfl))
  | sessionDisconnected s =>
      exact .leaves rfl (haside rfl) (Or.inl rfl)
  | invalidPacket s message =>
      exact .still rfl (haside rfl) (Or.inl rfl)
  | loginRequest s requestId name =>
      refine .still rfl (haside rfl) ?_
      simp only [effect]
      rcases loginEffect_cases rs s requestId name with ⟨_, he⟩ | ⟨_, _, he⟩ | ⟨_, _, _, he⟩
      · exact Or.inl (by rw [he])
      · exact Or.inl (by rw [he])
      · exact Or.inr (Or.inr ⟨name, by rw [he]⟩)
  | roomListRequest s requestId =>
      exact .still rfl (haside rfl) (Or.inl rfl)
  | joinRoomRequest s requestId r =>
      rcases joinEffect_cases env rs s requestId r with ⟨hnone, he⟩ | ⟨code, hrefused, he⟩ |
        ⟨session, room, hs, hlogged, hr, hne, he⟩
      · refine .still (act_not_joined requestId ?_) ?_ (Or.inl (by simp only [effect, he]))
        · rintro ⟨session, _, hs, _⟩
          rw [hnone] at hs
          exact absurd hs (Option.some_ne_none session).symm
        · simp only [effect, he]
          exact fun out hout => absurd hout List.not_mem_nil
      · refine .still (act_not_joined requestId hrefused) ?_ (Or.inl (by simp only [effect, he]))
        simp only [effect, he]
        intro out hout
        rw [List.mem_singleton.mp hout]
        exact ⟨rfl, rfl⟩
      · exact .enters s requestId r session room rfl hs hlogged hr hne
          (act_joined requestId hs hlogged hr hne)
  | chatSendRequest s requestId content =>
      by_cases hacc : ∃ session, ChatAccepted rs s content session
      · rcases hacc with ⟨session, hacc⟩
        exact .posts s requestId content session rfl hacc (act_accepted requestId hacc)
      · have hnone : ∀ session, ¬ ChatAccepted rs s content session :=
          fun session h => hacc ⟨session, h⟩
        exact .still (act_refused requestId hnone) (fun out hout => isAside_refused hnone hout)
          (Or.inl rfl)
  | leaveRoomRequest s requestId =>
      refine .leaves rfl (haside rfl) ?_
      simp only [effect]
      rcases leaveEffect_cases env rs s requestId with ⟨hs, he⟩ | ⟨hrefused, he⟩ | ⟨_, _, _, he⟩
      · refine Or.inr (Or.inr ⟨by rw [he], place_of_not_leaveAccepted ?_⟩)
        rintro ⟨session, hs', _⟩
        exact absurd (hs.symm.trans hs') (Option.some_ne_none session).symm
      · exact Or.inr (Or.inr ⟨by rw [he], place_of_not_leaveAccepted hrefused⟩)
      · exact Or.inr (Or.inl (by rw [he]))
  | disconnectRequest s requestId =>
      exact .leaves rfl (haside rfl) (Or.inl rfl)

/-! ### One event on both sides -/

section Step

variable {env : Env} {reads : Nat} {rs : RoomSystem} {b : Board UInt32 UInt32 ChatLine}

/-- The board follows the members of the rooms. -/
theorem place_step (hw : rs.WellFormed) (event : ServerEvent)
    (h : ∀ t, rs.place t = b.roomOf t) (t : UInt32) :
    (rs.change event.sessionId (effect env reads rs event).change).place t
      = (b.act (event.act rs)).roomOf t := by
  cases acts_effect env reads hw event with
  | still hact _ hchange =>
      rw [hact, rs.place_change_still event.sessionId t hchange]
      exact h t
  | leaves hact _ hchange =>
      have hboard : (b.act (event.act rs)).roomOf t
          = if t = event.sessionId then none else rs.place t := by
        rw [hact, h t]
        exact b.roomOf_leave event.sessionId t
      rw [hboard]
      rcases hchange with hchange | hchange | ⟨hchange, hnone⟩
      · rw [hchange, RoomSystem.place_change_remove]
      · rw [hchange, RoomSystem.place_change_out]
      · rw [hchange, rs.place_change_still event.sessionId t (Or.inl rfl)]
        by_cases ht : t = event.sessionId
        · rw [if_pos ht, ht, hnone]
        · rw [if_neg ht]
  | enters s requestId r session room hevent hs hlogged hr hne hact =>
      have hboard : (b.act (event.act rs)).roomOf t = if t = s then some r else rs.place t := by
        rw [hact, h t]
        exact b.roomOf_enter s t r
      rw [hboard, hevent]
      simp only [effect, joinEffect_of_accepted env requestId hs hlogged hr hne]
      exact rs.place_change_enter s t hs (hw.ne_noRoomId hr)
  | posts s requestId content session hevent hacc hact =>
      rw [hact, hevent]
      exact h t

-- Asides do not start the lines over, and add none.
theorem chatLines_asides (ms : List Message) {new : List Message} (h : ∀ m ∈ new, m.IsAside) :
    chatLines (sinceJoin (ms ++ new)) = chatLines (sinceJoin ms) := by
  rw [sinceJoin_append (fun m hm => (h m hm).1), chatLines_append,
    chatLines_eq_nil (fun m hm => (h m hm).2), List.append_nil]

/-- Everybody but the session that joins is told asides. -/
theorem isAside_enter {s t requestId r : UInt32} (hts : t ≠ s) {session : SessionState}
    {room : RoomState} {m : Message}
    (hm : m ∈ messagesFor t (leaveNotices env rs session
      ++ enterNotices env rs s requestId r session room)) : m.IsAside := by
  rcases List.mem_map.mp hm with ⟨out, hout, rfl⟩
  rcases List.mem_filter.mp hout with ⟨hmem, hid⟩
  rw [decide_eq_true_eq] at hid
  rcases List.mem_append.mp hmem with hleft | hentered
  · rcases List.mem_map.mp hleft with ⟨member, _, rfl⟩
    exact ⟨rfl, rfl⟩
  rcases List.mem_cons.mp hentered with rfl | hentered
  · exact absurd hid.symm hts
  rcases List.mem_cons.mp hentered with rfl | hentered
  · exact ⟨rfl, rfl⟩
  rcases List.mem_flatMap.mp hentered with ⟨other, _, hother⟩
  rcases List.mem_cons.mp hother with rfl | hother
  · exact ⟨rfl, rfl⟩
  · rw [List.mem_singleton.mp hother]
    exact ⟨rfl, rfl⟩

/-- Whoever joins reads from there on. -/
theorem chatLines_joined (hw : rs.WellFormed) (ms : List Message) {s requestId r : UInt32}
    {session : SessionState} {room : RoomState} (hs : rs.findSession s = some session)
    (hr : rs.findRoom r = some room) (hne : session.roomId ≠ r) :
    chatLines (sinceJoin (ms ++ messagesFor s (leaveNotices env rs session
      ++ enterNotices env rs s requestId r session room))) = [] := by
  have hrest : ∀ m ∈ systemMessage r (room.roomName ++ utf8 " 방에 입장했습니다.") ::
      (rs.getRoomMembers env.toIteration r).map (userJoinedMessage r), m.IsAside := by
    intro m hm
    rcases List.mem_cons.mp hm with rfl | hm
    · exact ⟨rfl, rfl⟩
    · rcases List.mem_map.mp hm with ⟨other, _, rfl⟩
      exact ⟨rfl, rfl⟩
  rw [messagesFor_append, messagesFor_leaveNotices_self env hw hs, List.nil_append,
    messagesFor_enter_self env hw requestId hs hr hne,
    sinceJoin_confirmation ms rfl (fun m hm => (hrest m hm).1)]
  exact chatLines_eq_nil (fun m hm => (hrest m hm).2)

/-- A line reaches the members of the room, and nobody else. -/
theorem messagesFor_chat_elsewhere (hw : rs.WellFormed) {s t : UInt32} {content : Bytes}
    {session : SessionState} (hacc : ChatAccepted rs s content session)
    (ht : ¬ rs.IsMember t session.roomId) :
    messagesFor t (chatMessages env reads rs s content) = [] := by
  refine messagesFor_eq_nil (fun out hout hc => ?_)
  rw [chatMessages_of_accepted env reads hacc] at hout
  rcases List.mem_map.mp hout with ⟨p, hp, rfl⟩
  have hmember := (hw.toConsistent.findSession_of_mem (List.fst_mem_of_mem_zipIdx hp)).2.2.1
  exact ht (hc ▸ hmember)

theorem chatLines_posted (hw : rs.WellFormed) (ms : List Message) {s t : UInt32}
    {content : Bytes} {session : SessionState} (hacc : ChatAccepted rs s content session)
    (ht : rs.IsMember t session.roomId) :
    chatLines (sinceJoin (ms ++ messagesFor t (chatMessages env reads rs s content)))
      = chatLines (sinceJoin ms) ++ [(session.roomId, session.uttered content)] := by
  rcases messagesFor_chat env hw reads hacc ht with ⟨timestamp, hone⟩
  rw [hone, sinceJoin_append (fun m hm => by rw [List.mem_singleton.mp hm]; rfl),
    chatLines_append]
  rfl

end Step

/-- The board has every session in the room the server has it in, and shows
    every member the lines it was sent since its latest join. -/
structure Shows (g : GameLogicSystem) (b : Board UInt32 UInt32 ChatLine) : Prop where
  rooms : ∀ t, g.roomSystem.place t = b.roomOf t
  lines : ∀ t r, b.roomOf t = some r →
    chatLines (sinceJoin (messagesFor t g.outgoingMessages)) = (b.view t).map (Prod.mk r)

theorem shows_initial : Shows GameLogicSystem.initial Board.empty where
  rooms := fun _ => if_pos rfl
  lines := fun _ _ _ => rfl

namespace GameLogicSystem

/-- The lines of one session after one more event. -/
theorem lines_step {env : Env} (henv : env.Compact) {events : List ServerEvent}
    (event : ServerEvent) {b : Board UInt32 UInt32 ChatLine}
    (h : Shows (initial.update env events) b) {t r : UInt32}
    (hroom : (b.act (event.act (initial.update env events).roomSystem)).roomOf t = some r) :
    chatLines (sinceJoin (messagesFor t
        (handleEvent env (initial.update env events) event).outgoingMessages))
      = ((b.act (event.act (initial.update env events).roomSystem)).view t).map (Prod.mk r) := by
  have hw := update_wellFormed env events
  rw [outgoingMessages_step, messagesFor_append]
  -- What is queued of some asides are asides.
  have hqueued : ∀ {l : List OutgoingMessage}, (∀ out ∈ l, out.payload.IsAside) →
      ∀ m ∈ messagesFor t (l.filter (fun out => env.fits out.payload)), m.IsAside := by
    intro l hl m hm
    rcases List.mem_map.mp hm with ⟨out, hout, rfl⟩
    exact hl out (List.mem_filter.mp (List.mem_filter.mp hout).1).1
  cases acts_effect env (initial.update env events).clockReads hw event with
  | still hact haside _ =>
      rw [hact] at hroom ⊢
      rw [chatLines_asides _ (hqueued haside)]
      exact h.lines t r hroom
  | leaves hact haside _ =>
      rw [hact] at hroom ⊢
      rw [chatLines_asides _ (hqueued haside)]
      simp only [Board.act, Board.roomOf_leave, Board.view_leave] at hroom ⊢
      by_cases ht : t = event.sessionId
      · rw [if_pos ht] at hroom
        exact absurd hroom (Option.some_ne_none r).symm
      · rw [if_neg ht] at hroom ⊢
        exact h.lines t r hroom
  | enters s requestId q session room hevent hs hlogged hr hne hact =>
      rw [hact] at hroom ⊢
      subst hevent
      have hbrief : (ServerEvent.joinRoomRequest s requestId q).Brief := trivial
      rw [henv.filter_effect hw hbrief]
      simp only [effect, joinEffect_of_accepted env requestId hs hlogged hr hne]
      simp only [Board.act, Board.roomOf_enter, Board.view_enter] at hroom ⊢
      by_cases ht : t = s
      · subst ht
        rw [if_pos rfl, chatLines_joined hw _ hs hr hne]
        rfl
      · rw [if_neg ht] at hroom ⊢
        rw [chatLines_asides _ (fun m hm => isAside_enter ht hm)]
        exact h.lines t r hroom
  | posts s requestId content session hevent hacc hact =>
      rw [hact] at hroom ⊢
      subst hevent
      have hbrief : (ServerEvent.chatSendRequest s requestId content).Brief := trivial
      rw [henv.filter_effect hw hbrief]
      -- Where `t` is has not changed.
      have hplace : b.roomOf t = some r := hroom
      simp only [effect, Board.act, Board.view_post]
      by_cases ht : b.roomOf t = some session.roomId
      · have hmember : (initial.update env events).roomSystem.IsMember t session.roomId :=
          hw.place_eq_some.mp ((h.rooms t).trans ht)
        rw [if_pos ht, chatLines_posted hw _ hacc hmember, h.lines t r hplace, List.map_append]
        rw [hplace, Option.some.injEq] at ht
        rw [ht]
        rfl
      · have hmember : ¬ (initial.update env events).roomSystem.IsMember t session.roomId :=
          fun hm => ht ((h.rooms t).symm.trans (hw.place_eq_some.mpr hm))
        rw [if_neg ht, messagesFor_chat_elsewhere hw hacc hmember, List.append_nil]
        exact h.lines t r hplace

/-- Every event keeps the agreement. -/
theorem shows_step {env : Env} (henv : env.Compact) {events : List ServerEvent}
    (event : ServerEvent) {b : Board UInt32 UInt32 ChatLine}
    (h : Shows (initial.update env events) b) :
    Shows (handleEvent env (initial.update env events) event)
      (b.act (event.act (initial.update env events).roomSystem)) where
  rooms := by
    intro t
    have hw := update_wellFormed env events
    rw [(handleEvent_performs env hw event).roomSystem]
    exact place_step hw event h.rooms t
  lines := fun t r hroom => lines_step henv event h hroom

/-- The board after some events, from `b` and a state of the server. -/
def board (env : Env) (g : GameLogicSystem) (b : Board UInt32 UInt32 ChatLine) :
    List ServerEvent → Board UInt32 UInt32 ChatLine
  | [] => b
  | event :: events =>
      board env (handleEvent env g event) (b.act (event.act g.roomSystem)) events

theorem board_concat (env : Env) (events : List ServerEvent) (event : ServerEvent)
    (g : GameLogicSystem) (b : Board UInt32 UInt32 ChatLine) :
    board env g b (events ++ [event])
      = (board env g b events).act (event.act (g.update env events).roomSystem) := by
  induction events generalizing g b with
  | nil => rfl
  | cons first events ih => exact ih (handleEvent env g first) (b.act (first.act g.roomSystem))

/-- And so does every run. -/
theorem shows_run {env : Env} (henv : env.Compact) (events : List ServerEvent) :
    Shows (initial.update env events) (board env initial Board.empty events) := by
  induction events using List.reverseRecOn with
  | nil => exact shows_initial
  | append_singleton events event ih =>
      rw [update_concat, board_concat]
      exact shows_step henv event ih

/-- After every list of events the server is the board those events make: it
    has every session where the board has it, every member has been sent, since
    its latest join, the lines posted in its room since it entered, and of two
    members of a room one has been sent all that the other was, in the same
    order. -/
theorem members_agree (env : Env) (henv : env.Compact) (events : List ServerEvent) :
    let g := initial.update env events
    let b := board env initial Board.empty events
    let sent := fun s => chatLines (sinceJoin (messagesFor s g.outgoingMessages))
    (∀ s r, g.roomSystem.IsMember s r ↔ b.roomOf s = some r) ∧
    (∀ s r, g.roomSystem.IsMember s r → sent s = (b.view s).map (Prod.mk r)) ∧
    ∀ s t r, g.roomSystem.IsMember s r → g.roomSystem.IsMember t r →
      sent s <:+ sent t ∨ sent t <:+ sent s := by
  intro g b sent
  have h : Shows g b := shows_run henv events
  have hrooms : ∀ s r, g.roomSystem.IsMember s r ↔ b.roomOf s = some r := by
    intro s r
    rw [← h.rooms s]
    exact (update_wellFormed env events).place_eq_some.symm
  have hlines : ∀ s r, g.roomSystem.IsMember s r → sent s = (b.view s).map (Prod.mk r) :=
    fun s r hs => h.lines s r ((hrooms s r).mp hs)
  refine ⟨hrooms, hlines, fun s t r hs ht => ?_⟩
  rw [hlines s r hs, hlines t r ht]
  rcases b.view_comparable ((hrooms s r).mp hs) ((hrooms t r).mp ht) with hst | hts
  · exact Or.inl (hst.map _)
  · exact Or.inr (hts.map _)

/-- Two sessions in the lobby, the second of which came after the first line. -/
theorem members_agree_lobby :
    let env := plainCodec.toEnv
    let g := initial.update env [.sessionConnected 1, .sessionConnected 2, .loginRequest 1 1 [97],
      .loginRequest 2 1 [98], .joinRoomRequest 1 2 1001, .chatSendRequest 1 3 [72],
      .joinRoomRequest 2 2 1001, .chatSendRequest 1 4 [73], .chatSendRequest 2 3 [74]]
    let sent := fun s => chatLines (sinceJoin (messagesFor s g.outgoingMessages))
    (sent 1).length = 3 ∧ (sent 2).length = 2 ∧ sent 2 <:+ sent 1 := by
  intro env g sent
  have hone : (sent 1).length = 3 := by decide +kernel
  have htwo : (sent 2).length = 2 := by decide +kernel
  have hin : g.roomSystem.roomOf 1 = 1001 ∧ g.roomSystem.roomOf 2 = 1001 := by decide +kernel
  have hplace : ∀ s, g.roomSystem.roomOf s = 1001 → g.roomSystem.IsMember s 1001 := by
    intro s hs
    refine (update_wellFormed env _).place_eq_some.mp ?_
    unfold RoomSystem.place
    rw [hs]
    rfl
  refine ⟨hone, htwo, ?_⟩
  rcases (members_agree env compact_plainCodec _).2.2 2 1 1001 (hplace 2 hin.2)
    (hplace 1 hin.1) with h | h
  · exact h
  · -- The longer list is not the end of the shorter one.
    have hlength := h.length_le
    rw [hone, htwo] at hlength
    omega

/-! ### The whole stream of a session -/

/-- The line an act posts. -/
def postOf : Option (Board.Act UInt32 UInt32 ChatLine) → List (UInt32 × ChatLine)
  | some (.post r line) => [(r, line)]
  | _ => []

/-- The lines that some events post, in all rooms. -/
def posted (env : Env) (g : GameLogicSystem) (events : List ServerEvent) :
    List (UInt32 × ChatLine) :=
  collect env (fun rs event => postOf (event.act rs)) g events

/-- Those of them that are posted where session `c` is at the time. -/
def heardBy (env : Env) (c : UInt32) (g : GameLogicSystem) (events : List ServerEvent) :
    List (UInt32 × ChatLine) :=
  collect env (fun rs event => (postOf (event.act rs)).filter (fun p => rs.place c = some p.1))
    g events

/-- The lines one event adds to the stream of a session. -/
theorem chatLines_effect {env : Env} (henv : env.Compact) {rs : RoomSystem} (hw : rs.WellFormed)
    (reads : Nat) (c : UInt32) (event : ServerEvent) :
    chatLines (messagesFor c ((effect env reads rs event).messages.filter
        (fun out => env.fits out.payload)))
      = (postOf (event.act rs)).filter (fun p => rs.place c = some p.1) := by
  have hnone : (∀ out ∈ (effect env reads rs event).messages, out.payload.chatLine = none) →
      chatLines (messagesFor c ((effect env reads rs event).messages.filter
        (fun out => env.fits out.payload))) = [] := by
    intro h
    refine chatLines_eq_nil (fun m hm => ?_)
    rcases List.mem_map.mp hm with ⟨out, hout, rfl⟩
    exact h out (List.mem_filter.mp (List.mem_filter.mp hout).1).1
  cases acts_effect env reads hw event with
  | still hact haside _ =>
      rw [hact, hnone (fun out hout => (haside out hout).2)]
      rfl
  | leaves hact haside _ =>
      rw [hact, hnone (fun out hout => (haside out hout).2)]
      rfl
  | enters s requestId r session room hevent hs hlogged hr hne hact =>
      -- A join is answered and announced, but no line is said.
      rw [hact]
      refine hnone (fun out hout => ?_)
      have hbuilds := builds_of_mem hw hout
      rw [hevent] at hbuilds
      generalize out.payload = m at hbuilds
      cases hbuilds <;> rfl
  | posts s requestId content session hevent hacc hact =>
      rw [hact]
      subst hevent
      have hbrief : (ServerEvent.chatSendRequest s requestId content).Brief := trivial
      rw [henv.filter_effect hw hbrief]
      simp only [effect, postOf]
      -- The line goes to the members of the room, once each, and to nobody else.
      by_cases hc : rs.IsMember c session.roomId
      · rcases messagesFor_chat env hw reads hacc hc with ⟨timestamp, hone⟩
        have hplace := hw.place_eq_some.mpr hc
        rw [hone]
        simp only [hplace, List.filter_cons, decide_true, if_true, List.filter_nil]
        rfl
      · have hplace : ¬ rs.place c = some session.roomId :=
          fun h => hc (hw.place_eq_some.mp h)
        rw [messagesFor_chat_elsewhere hw hacc hc]
        simp only [hplace, List.filter_cons, decide_false, Bool.false_eq_true, if_false,
          List.filter_nil]
        rfl

/-- A session is sent the lines that are posted where it is, in order. -/
theorem chatLines_messagesFor {env : Env} (henv : env.Compact) (c : UInt32)
    (events : List ServerEvent) :
    chatLines (messagesFor c (initial.update env events).outgoingMessages)
      = heardBy env c initial events := by
  refine collect_queued (P := fun queue => chatLines (messagesFor c queue)) env rfl ?_ ?_ events
  · intro a b
    rw [messagesFor_append, chatLines_append]
  · exact fun rs reads event hw => chatLines_effect henv hw reads c event

end GameLogicSystem

/-! ### What the windows show -/

/-- The room, the sender and the text of a line that is shown. -/
def ChatProtocolEvent.line : ChatProtocolEvent → Option (UInt32 × Bytes × Bytes)
  | .messageReceived roomId senderName content => some (roomId, senderName, content)
  | _ => none

/-- A line as a client reads it. -/
def shownLine (p : UInt32 × ChatLine) : UInt32 × Bytes × Bytes :=
  (p.1, toUtf8 p.2.senderName, toUtf8 p.2.content)

/-- The lines among the events of a message. -/
theorem filterMap_line_events (m : Message) :
    m.events.filterMap ChatProtocolEvent.line = (m.chatLine.map shownLine).toList := by
  cases hline : m.chatLine with
  | some line =>
      rcases m with ⟨requestId, payload⟩
      rcases broadcast_of_chatLine hline with ⟨table, rfl⟩
      cases hline
      rfl
  | none =>
      refine List.filterMap_eq_nil_iff.mpr (fun event hevent => ?_)
      cases event with
      | messageReceived roomId senderName content =>
          rcases broadcast_of_mem_events hevent with ⟨table, hpayload, _⟩
          rw [Message.chatLine, hpayload] at hline
          exact absurd hline (Option.some_ne_none _)
      | _ => rfl

theorem filterMap_line_flatMap (c : UInt32) (queue : List OutgoingMessage) :
    ((queue.filter (fun out => out.sessionId = c)).flatMap
        (fun out => out.payload.events)).filterMap ChatProtocolEvent.line
      = (chatLines (messagesFor c queue)).map shownLine := by
  unfold messagesFor chatLines
  induction queue.filter (fun out => decide (out.sessionId = c)) with
  | nil => rfl
  | cons out rest ih =>
      rw [List.flatMap_cons, List.filterMap_append, ih, filterMap_line_events, List.map_cons,
        List.filterMap_cons]
      cases out.payload.chatLine with
      | none => rfl
      | some line => rfl

namespace Network

/-- In every run with fewer than 2^32 accepted connections there is one list of
    lines, those the game accepted, in the order in which it handled them. Every
    client is shown, in that order, lines that were posted where its session
    was at the time, and without gaps when it has dropped nothing. -/
theorem windows_agree (codec : Codec) (hcodec : codec.Faithful) (hcompact : codec.Compact)
    (actions : List Action) (n : Network) (hrun : Machine.run (step codec) {} actions = some n)
    (hfew : n.host.server.accepts < 2 ^ 32) (k index : Nat) (link : Link) (session : Session)
    (hlink : n.links[k]? = some link) (hindex : link.object = some index)
    (hobject : n.host.server.objects[index]? = some session) :
    let said := GameLogicSystem.posted codec.toEnv .initial n.host.handled
    let heard := GameLogicSystem.heardBy codec.toEnv session.id .initial n.host.handled
    let lines := (link.clientPolled.flatMap (decodePacket codec)).filterMap ChatProtocolEvent.line
    heard.Sublist said ∧ lines.Sublist (heard.map shownLine) ∧
      (link.client.droppedPackets = 0 → lines <+: heard.map shownLine) := by
  intro said heard lines
  have hshown := shown_of_wired hcodec (wired_run hrun hfew) (tallied_run hrun) hlink hindex hobject
  have hmeant := filterMap_line_flatMap session.id
    (GameLogicSystem.initial.update codec.toEnv n.host.handled).outgoingMessages
  rw [GameLogicSystem.chatLines_messagesFor hcompact] at hmeant
  rw [← hmeant]
  refine ⟨?_, hshown.1.filterMap _, fun hnone => (hshown.2 hnone).filterMap _⟩
  exact GameLogicSystem.collect_sublist codec.toEnv (fun rs event => List.filter_sublist)
    n.host.handled .initial

/-- Two clients in the first room; the second joins between two lines of the
    first. Both have polled everything. -/
def twoWindows : List Action :=
  let login (name : UInt8) := plainCodec.buildMessage
    ⟨1, .loginRequest (some { displayName := some [name] })⟩
  let join := plainCodec.buildMessage ⟨2, .joinRoomRequest (some { roomId := 1001 })⟩
  let say (text : UInt8) := plainCodec.buildMessage
    ⟨3, .chatSendRequest (some { content := some [text] })⟩
  [.connect, .connect, .accept 0, .accept 1] ++
    upload 0 (login 65) ++ upload 0 join ++ upload 0 (say 72) ++
    upload 1 (login 66) ++ upload 1 join ++ upload 0 (say 73) ++
    List.replicate 23 .game ++ [0, 0, 0, 0, 1, 1, 1, 0, 1, 0, 1].flatMap download

theorem windows_agree_twoWindows :
    ∃ n link link' session session', Machine.run (step plainCodec) {} twoWindows = some n ∧
      n.links[0]? = some link ∧ n.host.server.objects[0]? = some session ∧
      n.links[1]? = some link' ∧ n.host.server.objects[1]? = some session' ∧
      (link.clientPolled.flatMap (decodePacket plainCodec)).filterMap ChatProtocolEvent.line
        = [(1001, [65], [72]), (1001, [65], [73])] ∧
      [(1001, [65], [72]), (1001, [65], [73])]
        <+: (GameLogicSystem.heardBy plainCodec.toEnv session.id .initial n.host.handled).map
          shownLine ∧
      [(1001, [65], [73])]
        <+: (GameLogicSystem.heardBy plainCodec.toEnv session'.id .initial n.host.handled).map
          shownLine := by
  have hend : (Machine.run (step plainCodec) {} twoWindows).map (fun n => decide (
      n.links[0]?.map (fun link => (link.object, decide (link.client.droppedPackets = 0 ∧
          (link.clientPolled.flatMap (decodePacket plainCodec)).filterMap ChatProtocolEvent.line
            = [(1001, [65], [72]), (1001, [65], [73])]))) = some (some 0, true) ∧
      n.links[1]?.map (fun link => (link.object, decide (link.client.droppedPackets = 0 ∧
          (link.clientPolled.flatMap (decodePacket plainCodec)).filterMap ChatProtocolEvent.line
            = [(1001, [65], [73])]))) = some (some 1, true) ∧
      n.host.server.objects[0]?.map Session.id = some 1 ∧
      n.host.server.objects[1]?.map Session.id = some 2 ∧ n.host.server.accepts = 2))
      = some true := by decide +kernel
  rcases Option.map_eq_some_iff.mp hend with ⟨n, hrun, hn⟩
  simp only [Prod.mk.injEq, Option.map_eq_some_iff, decide_eq_true_eq] at hn
  rcases hn with ⟨⟨link, hlink, hobject, hdropped, hlines⟩,
    ⟨link', hlink', hobject', hdropped', hlines'⟩, ⟨session, hsession, _⟩,
    ⟨session', hsession', _⟩, haccepts⟩
  have hfew : n.host.server.accepts < 2 ^ 32 := by
    rw [haccepts]
    decide
  have hfirst := windows_agree plainCodec faithful_plainCodec compact_plainCodec twoWindows n hrun
    hfew 0 0 link session hlink hobject hsession
  have hsecond := windows_agree plainCodec faithful_plainCodec compact_plainCodec twoWindows n hrun
    hfew 1 1 link' session' hlink' hobject' hsession'
  refine ⟨n, link, link', session, session', hrun, hlink, hsession, hlink', hsession', hlines,
    ?_, ?_⟩
  · rw [← hlines]
    exact hfirst.2.2 hdropped
  · rw [← hlines']
    exact hsecond.2.2 hdropped'

end Network

end ProjectNight
