import ProjectNight.Theory.Names

/-!
# Who Receives What

Recipients come out of `GetRoomMembers`, which walks a member set and looks
every id up in the session table. In a consistent state no lookup fails, so
the ids it yields are the member set, each once (`map_sessionId_getRoomMembers`);
a loop over the result sends one message per member and none to anybody else.

From there the two halves of room isolation follow. An accepted chat line
queues one broadcast per member of the sender's room; and over whole runs a
broadcast or a notice that names a room goes only to sessions that are in that
room when it is queued, because every move sends its notices from the state
they are true in.

The broadcast carries the sender's name through a `const char*`, so it is the
current name exactly when that name has no NUL byte.

## Main definitions

* `ChatAccepted`: The checks of `HandleChatSendRequest`.
* `Message.noticeRoom`: The room a broadcast or a notice speaks of.
* `ChatDelivered`: One broadcast per member, none otherwise.
* `RoomIsolated`: Broadcasts and notices stay in their room.

## Theorems

* `map_sessionId_getRoomMembers`, `nodup_getRoomMembers`,
  `mem_map_getRoomMembers`: The recipients of a member loop.
* `isolated_move`, `update_isolated`: Isolation, for a move and for a run.
* `chatDelivered_iff`: When a chat line is delivered as promised.
* `update_chat`: Both, for every reachable state.
-/

namespace ProjectNight

namespace RoomSystem

/-- Looking up ids that are all there loses none of them. -/
theorem map_sessionId_filterMap {rs : RoomSystem} (exclude : Option UInt32) (l : List UInt32)
    (h : ∀ t ∈ l, ∃ session, rs.findSession t = some session ∧ session.sessionId = t) :
    (l.filterMap (fun t => if exclude = some t then none else rs.findSession t)).map
      SessionState.sessionId = l.filter (fun t => exclude ≠ some t) := by
  induction l with
  | nil => rfl
  | cons t l ih =>
      have htail := ih (fun u hu => h u (List.mem_cons_of_mem t hu))
      rcases h t List.mem_cons_self with ⟨session, hs, hkey⟩
      by_cases hex : exclude = some t
      · rw [List.filterMap_cons_none (by rw [if_pos hex]),
          List.filter_cons_of_neg (by simp only [hex, ne_eq, not_true_eq_false, decide_false,
            Bool.false_eq_true, not_false_eq_true])]
        exact htail
      · rw [List.filterMap_cons_some (by rw [if_neg hex]; exact hs),
          List.filter_cons_of_pos (by simp only [hex, ne_eq, not_false_eq_true, decide_true]),
          List.map_cons, hkey, htail]

/-- The ids `GetRoomMembers` yields are the member set without the excluded
    session. -/
theorem Consistent.map_sessionId_getRoomMembers {rs : RoomSystem} (h : rs.Consistent)
    (it : Iteration) {r : UInt32} {room : RoomState} (hroom : rs.findRoom r = some room)
    (exclude : Option UInt32) :
    (rs.getRoomMembers it r exclude).map SessionState.sessionId
      = (it.order room.members).filter (fun t => exclude ≠ some t) := by
  unfold getRoomMembers
  rw [hroom]
  refine map_sessionId_filterMap exclude (it.order room.members) (fun t ht => ?_)
  rcases h.session_of_isMember ⟨room, hroom, (it.mem_order _ _).mp ht⟩ with ⟨session, hs, _⟩
  exact ⟨session, hs, (h.session_key t session hs).1⟩

theorem Consistent.nodup_getRoomMembers {rs : RoomSystem} (h : rs.Consistent)
    (it : Iteration) (r : UInt32) (exclude : Option UInt32) :
    ((rs.getRoomMembers it r exclude).map SessionState.sessionId).Nodup := by
  cases hroom : rs.findRoom r with
  | none =>
      unfold getRoomMembers
      rw [hroom]
      exact List.nodup_nil
  | some room =>
      rw [h.map_sessionId_getRoomMembers it hroom]
      exact (it.nodup_order room.members).filter _

theorem Consistent.mem_map_getRoomMembers {rs : RoomSystem} (h : rs.Consistent)
    (it : Iteration) (r : UInt32) (exclude : Option UInt32) (t : UInt32) :
    t ∈ (rs.getRoomMembers it r exclude).map SessionState.sessionId ↔
      rs.IsMember t r ∧ exclude ≠ some t := by
  unfold IsMember
  cases hroom : rs.findRoom r with
  | none =>
      unfold getRoomMembers
      rw [hroom]
      simp only [List.map_nil, List.not_mem_nil, reduceCtorEq, false_and, exists_false]
  | some room =>
      rw [h.map_sessionId_getRoomMembers it hroom, List.mem_filter, it.mem_order,
        decide_eq_true_eq]
      simp only [Option.some.injEq, exists_eq_left']

/-- What `GetRoomMembers` yields is the current record of a member. -/
theorem Consistent.findSession_of_mem {rs : RoomSystem} (h : rs.Consistent) {it : Iteration}
    {r : UInt32} {exclude : Option UInt32} {member : SessionState}
    (hm : member ∈ rs.getRoomMembers it r exclude) :
    rs.findSession member.sessionId = some member ∧ member.userId = member.sessionId ∧
      rs.IsMember member.sessionId r ∧ exclude ≠ some member.sessionId := by
  have hid : member.sessionId ∈ (rs.getRoomMembers it r exclude).map SessionState.sessionId :=
    List.mem_map_of_mem hm
  rcases GameLogicSystem.mem_getRoomMembers h hm with ⟨t, ht, _, _⟩
  have hkey := h.session_key t member ht
  rw [hkey.1, hkey.2]
  rw [hkey.1] at hid
  exact ⟨ht, rfl, (h.mem_map_getRoomMembers it r exclude t).mp hid⟩

end RoomSystem

/-! ### Isolation -/

/-- The room a broadcast or a notice of an arrival or departure speaks of. -/
def Message.noticeRoom (m : Message) : Option UInt32 :=
  match m.payload with
  | .chatBroadcast (some table) => some table.roomId
  | .userJoinedEvent (some table) | .userLeftEvent (some table) => some table.roomId
  | _ => none

/-- A broadcast or notice goes to a member of its room. -/
def QueueCall.Isolated (call : QueueCall) : Prop :=
  ∀ r, call.message.noticeRoom = some r → call.rooms.IsMember call.sessionId r

theorem Message.noticeRoom_of_isReply {m : Message} (h : m.IsReply) : m.noticeRoom = none := by
  unfold IsReply at h
  unfold noticeRoom
  split at h
  · exact absurd h id
  · exact absurd h id
  · exact absurd h id
  · rename_i heq
    rw [heq]
  · exact absurd h id
  · rename_i h1 h2 h3 _ _
    split
    · exact absurd ‹_› (h1 _)
    · exact absurd ‹_› (h2 _)
    · exact absurd ‹_› (h3 _)
    · rfl

/-- Every call of a move is isolated: the notices of a leave are sent before
    the leave takes effect and those of a join after. -/
theorem isolated_move {env : Env} {allowed : RoomSystem → UInt32 → Bytes → Prop}
    (rs : RoomSystem) (calls : List QueueCall) (rs' : RoomSystem) (hw : rs.WellFormed)
    (hm : Move env allowed rs calls rs') : ∀ call ∈ calls, call.Isolated := by
  intro call hcall r hr
  cases hm with
  | connect s => exact absurd hcall List.not_mem_nil
  | login s requestId name haccepted hallow =>
      rw [List.mem_singleton] at hcall
      rw [hcall] at hr
      exact absurd hr (by simp only [Message.noticeRoom, loginResponseMessage, reduceCtorEq,
        not_false_eq_true])
  | leave s session hs hroom hlogged =>
      -- Told before the leave takes effect, so its recipients are still members.
      rcases List.mem_map.mp hcall with ⟨member, hmem, rfl⟩
      have hfound := hw.findSession_of_mem hmem
      simp only [Message.noticeRoom, userLeftMessage, Option.some.injEq] at hr
      rw [← hr]
      exact hfound.2.2.1
  | enter s requestId q session room hs hroom hlogged hq =>
      have hkey := hw.room_key q room hq
      -- The newcomer is in the room by the time it is told of the others.
      have hself : (rs.assign s q).IsMember s q := by
        rw [RoomSystem.isMember_assign, if_pos rfl]
        exact ⟨rfl, room, hq⟩
      rcases List.mem_cons.mp hcall with rfl | hcall
      · exact absurd hr (by simp only [Message.noticeRoom, joinRoomResponseMessage,
          reduceCtorEq, not_false_eq_true])
      rcases List.mem_cons.mp hcall with rfl | hcall
      · exact absurd hr (by simp only [Message.noticeRoom, systemMessage, reduceCtorEq,
          not_false_eq_true])
      rcases List.mem_flatMap.mp hcall with ⟨other, hother, hcall⟩
      simp only [hkey] at hother hcall
      rcases List.mem_cons.mp hcall with rfl | hcall
      · simp only [Message.noticeRoom, userJoinedMessage, Option.some.injEq] at hr
        rw [← hr]
        have hmem : rs.IsMember other.sessionId q := (hw.findSession_of_mem hother).2.2.1
        -- The old members stay members.
        by_cases hos : other.sessionId = s
        · rw [hos]
          exact hself
        · rw [RoomSystem.isMember_assign, if_neg hos]
          exact hmem
      · rw [List.mem_singleton] at hcall
        rw [hcall] at hr ⊢
        simp only [Message.noticeRoom, userJoinedMessage, Option.some.injEq] at hr
        rw [← hr]
        exact hself
  | remove s hroom => exact absurd hcall List.not_mem_nil
  | chat s session content reads hs hroom hlogged =>
      rcases List.mem_map.mp hcall with ⟨⟨member, i⟩, hmem, rfl⟩
      have hfound := hw.findSession_of_mem (List.fst_mem_of_mem_zipIdx hmem)
      simp only [Message.noticeRoom, chatBroadcastMessage, createChatBroadcastDirect,
        Option.some.injEq] at hr
      rw [← hr]
      exact hfound.2.2.1
  | reply s m hm =>
      rw [List.mem_singleton] at hcall
      rw [hcall, Message.noticeRoom_of_isReply hm] at hr
      exact absurd hr (by simp only [reduceCtorEq, not_false_eq_true])

/-! ### Chat lines -/

/-- The checks that let a chat line of `session` through. -/
def ChatAccepted (rs : RoomSystem) (s : UInt32) (content : Bytes) (session : SessionState) :
    Prop :=
  rs.findSession s = some session ∧ session.loggedIn = true ∧ session.roomId ≠ noRoomId ∧
    1 ≤ content.length ∧ content.length ≤ 512

/-- What the step from `g` to `g'` queues for a chat line of session `s`: one
    broadcast for every member of the sender's room, the sender included,
    under the room, the id and the current name of the sender; and no
    broadcast at all when the line is not accepted. -/
def ChatDelivered (g g' : GameLogicSystem) (s : UInt32) (content : Bytes) : Prop :=
  ∃ queued, g'.outgoingMessages = g.outgoingMessages ++ queued ∧
    (∀ session, ChatAccepted g.roomSystem s content session →
      g.roomSystem.IsMember s session.roomId ∧
      (queued.map OutgoingMessage.sessionId).Nodup ∧
      (∀ t, t ∈ queued.map OutgoingMessage.sessionId ↔
        g.roomSystem.IsMember t session.roomId) ∧
      ∀ out ∈ queued, ∃ table, out.payload.payload = .chatBroadcast (some table) ∧
        table.roomId = session.roomId ∧ table.senderId = s ∧
        toUtf8 table.senderName = session.displayName) ∧
    ((∀ session, ¬ ChatAccepted g.roomSystem s content session) →
      ∀ out ∈ queued, ∀ table, out.payload.payload ≠ .chatBroadcast table)

/-- Every broadcast and notice recorded so far went to a session that was then
    in the room it names. -/
def RoomIsolated (g : GameLogicSystem) : Prop := ∀ call ∈ g.queueCalls, call.Isolated

namespace GameLogicSystem

variable (env : Env)

theorem update_isolated (events : List ServerEvent) :
    RoomIsolated (update env initial events) := by
  rcases update_emits events initial RoomSystem.wellFormed_init
    (loginsAllowed_true env initial events) with ⟨calls, hrun, hcalls⟩
  unfold RoomIsolated
  rw [hcalls]
  exact hrun.outputs wellFormed_move isolated_move RoomSystem.wellFormed_init

/-- An accepted line is broadcast to the members of the room. -/
theorem queueCalls_chat_accepted {g : GameLogicSystem} {s : UInt32} {content : Bytes}
    {session : SessionState} (h : ChatAccepted g.roomSystem s content session) :
    (g.handleChatSendRequest env s content).queueCalls
      = g.queueCalls ++ chatCalls env g.roomSystem session content g.clockReads := by
  rcases h with ⟨hs, hlogged, hroom, hpos, hlen⟩
  have hempty : ¬ content.isEmpty = true := by
    rw [List.isEmpty_iff]
    intro hc
    rw [hc, List.length_nil] at hpos
    omega
  have hlong : ¬ content.length > maxChatMessageBytes := by
    unfold maxChatMessageBytes
    omega
  unfold handleChatSendRequest
  rw [hs]
  simp only
  rw [if_neg (by rw [hlogged]; exact fun hc => Bool.false_ne_true hc.symm), if_neg hroom,
    if_neg hempty, if_neg hlong]
  exact (foldl_queueChatBroadcast env session content _ g).2

/-- Any other line is answered with at most a system message. -/
theorem queueCalls_chat_rejected {g : GameLogicSystem} {s : UInt32} {content : Bytes}
    (h : ∀ session, ¬ ChatAccepted g.roomSystem s content session) :
    ∃ calls, (g.handleChatSendRequest env s content).queueCalls = g.queueCalls ++ calls ∧
      ∀ call ∈ calls, ∀ table, call.message.payload ≠ .chatBroadcast table := by
  -- One system message, whatever its text.
  have hsystem : ∀ roomId text, ∃ calls,
      (g.queueSystemMessage env s roomId text).queueCalls = g.queueCalls ++ calls ∧
        ∀ call ∈ calls, ∀ table, call.message.payload ≠ .chatBroadcast table := by
    intro roomId text
    refine ⟨_, queueCalls_queueMessage env g s _, fun call hcall table => ?_⟩
    rw [List.mem_singleton] at hcall
    rw [hcall]
    simp only [ne_eq, reduceCtorEq, not_false_eq_true]
  have hnothing : ∃ calls, g.queueCalls = g.queueCalls ++ calls ∧
      ∀ call ∈ calls, ∀ table, call.message.payload ≠ .chatBroadcast table :=
    ⟨[], (List.append_nil _).symm, fun call hcall => absurd hcall List.not_mem_nil⟩
  unfold handleChatSendRequest
  cases hs : g.roomSystem.findSession s with
  | none => exact hnothing
  | some session =>
      simp only
      split_ifs with hlogged hroom hempty hlong
      · exact hnothing
      · exact hsystem _ _
      · exact hsystem _ _
      · exact hsystem _ _
      · -- All four checks passed, so the line was accepted after all.
        rw [Bool.not_eq_false] at hlogged
        rw [List.isEmpty_iff] at hempty
        refine absurd ⟨hs, hlogged, hroom, List.length_pos_iff.mpr hempty, ?_⟩ (h session)
        unfold maxChatMessageBytes at hlong
        omega

/-- The broadcasts of an accepted line, one per member. -/
theorem chatCalls_delivered {rs : RoomSystem} (hw : rs.WellFormed) (session : SessionState)
    (content : Bytes) (reads : Nat) :
    ((chatCalls env rs session content reads).map QueueCall.sessionId).Nodup ∧
    (∀ t, t ∈ (chatCalls env rs session content reads).map QueueCall.sessionId ↔
      rs.IsMember t session.roomId) ∧
    ∀ call ∈ chatCalls env rs session content reads, ∃ timestamp,
      call.message = chatBroadcastMessage session content timestamp := by
  have hids : (chatCalls env rs session content reads).map QueueCall.sessionId
      = (rs.getRoomMembers env.toIteration session.roomId).map SessionState.sessionId := by
    unfold chatCalls
    rw [List.map_map]
    have hcomp : (QueueCall.sessionId ∘ fun p : SessionState × Nat => (⟨rs, p.1.sessionId,
        chatBroadcastMessage session content (env.currentTimestampMs p.2)⟩ : QueueCall))
        = SessionState.sessionId ∘ Prod.fst := rfl
    rw [hcomp, ← List.map_map, List.zipIdx_map_fst]
  rw [hids]
  refine ⟨hw.nodup_getRoomMembers _ _ _, fun t => ?_, fun call hcall => ?_⟩
  · rw [hw.mem_map_getRoomMembers]
    exact ⟨And.left, fun hm => ⟨hm, by simp only [ne_eq, reduceCtorEq, not_false_eq_true]⟩⟩
  · rcases List.mem_map.mp hcall with ⟨p, _, rfl⟩
    exact ⟨_, rfl⟩

/-- The queue after one more event, when everything that was built fits. -/
theorem outgoingMessages_handleEvent (events : List ServerEvent) (event : ServerEvent)
    (hfits : ∀ call ∈ (handleEvent env (update env initial events) event).queueCalls,
      env.fits call.message = true) (calls : List QueueCall)
    (hcalls : (handleEvent env (update env initial events) event).queueCalls
      = (update env initial events).queueCalls ++ calls) :
    (handleEvent env (update env initial events) event).outgoingMessages
      = (update env initial events).outgoingMessages
        ++ calls.map (fun call => ⟨call.sessionId, call.message⟩) := by
  have hlast : update env initial (events ++ [event])
      = handleEvent env (update env initial events) event := by
    unfold update
    rw [List.foldl_append]
    rfl
  have hbefore := outgoingMessages_update env events (fun call hcall =>
    hfits call (by rw [hcalls]; exact List.mem_append_left calls hcall))
  have hafter := outgoingMessages_update env (events ++ [event]) (by rw [hlast]; exact hfits)
  rw [hlast, hcalls, List.map_append] at hafter
  rw [hafter, hbefore]

/-- A chat line is delivered as promised exactly when the sender's name, if
    the line is accepted, survives the `const char*`. -/
theorem chatDelivered_iff (events : List ServerEvent) (s requestId : UInt32) (content : Bytes)
    (hfits : ∀ call ∈ (handleEvent env (update env initial events)
      (.chatSendRequest s requestId content)).queueCalls, env.fits call.message = true) :
    ChatDelivered (update env initial events)
        (handleEvent env (update env initial events) (.chatSendRequest s requestId content))
        s content ↔
      ∀ session, ChatAccepted (update env initial events).roomSystem s content session →
        (0 : UInt8) ∉ session.displayName := by
  have hw := update_wellFormed env events
  have hqueue :=
    outgoingMessages_handleEvent env events (.chatSendRequest s requestId content) hfits
  constructor
  · intro hdelivered session hacc
    rcases hdelivered with ⟨queued, hqueued, haccepted, _⟩
    rcases haccepted session hacc with ⟨hself, _, hmem, htables⟩
    -- The sender's own copy shows the name as it was encoded.
    rcases List.mem_map.mp ((hmem s).mpr hself) with ⟨out, hout, _⟩
    have heq := hqueue _ (queueCalls_chat_accepted env hacc)
    rw [hqueued, List.append_cancel_left_eq] at heq
    rw [heq] at hout
    rcases List.mem_map.mp hout with ⟨call, hcall, rfl⟩
    rcases (chatCalls_delivered env hw session content _).2.2 call hcall with ⟨timestamp, hmsg⟩
    rw [heq] at htables
    rcases htables _ hout with ⟨table, htable, _, _, hname⟩
    rw [hmsg] at htable
    simp only [chatBroadcastMessage, MessagePayload.chatBroadcast.injEq,
      Option.some.injEq] at htable
    rw [← htable] at hname
    exact (cStr_eq_self_iff _).mp hname
  · intro hnul
    by_cases hacc : ∃ session, ChatAccepted (update env initial events).roomSystem s content session
    · rcases hacc with ⟨session, hacc⟩
      refine ⟨_, hqueue _ (queueCalls_chat_accepted env hacc), fun session' hacc' => ?_,
        fun hc => absurd hacc (hc session)⟩
      -- The session of the request is unique.
      have hsame : session' = session := by
        have hs := hacc.1
        rw [hacc'.1, Option.some.injEq] at hs
        exact hs
      rw [hsame]
      have hchat :=
        chatCalls_delivered env hw session content (update env initial events).clockReads
      rw [List.map_map]
      refine ⟨hw.isMember_of_session hacc.1 hacc.2.2.1, hchat.1, hchat.2.1, fun out hout => ?_⟩
      rcases List.mem_map.mp hout with ⟨call, hcall, rfl⟩
      rcases hchat.2.2 call hcall with ⟨timestamp, hmsg⟩
      refine ⟨_, congrArg Message.payload hmsg, rfl, (hw.session_key s session hacc.1).2, ?_⟩
      exact cStr_eq_self _ (hnul session hacc)
    · have hnone : ∀ session,
          ¬ ChatAccepted (update env initial events).roomSystem s content session :=
        fun session hc => hacc ⟨session, hc⟩
      rcases queueCalls_chat_rejected env hnone with ⟨calls, hcalls, hquiet⟩
      refine ⟨_, hqueue calls hcalls, fun session hc => absurd hc (hnone session),
        fun _ out hout => ?_⟩
      rcases List.mem_map.mp hout with ⟨call, hcall, rfl⟩
      exact hquiet call hcall

/-- In every reachable state and for every chat request: the line goes to
    exactly the members of the sender's room under the sender's room, id and
    current name, no other request is broadcast, and every broadcast and
    notice of the whole run went to a session that was in its room, if and
    only if the sender of an accepted line has no NUL byte in its name. -/
theorem update_chat (events : List ServerEvent) (s requestId : UInt32) (content : Bytes)
    (hfits : ∀ call ∈ (handleEvent env (update env initial events)
      (.chatSendRequest s requestId content)).queueCalls, env.fits call.message = true) :
    let g := update env initial events
    let g' := handleEvent env g (.chatSendRequest s requestId content)
    (ChatDelivered g g' s content ∧ RoomIsolated g') ↔
      ∀ session, ChatAccepted g.roomSystem s content session →
        (0 : UInt8) ∉ session.displayName := by
  intro g g'
  have hiff := chatDelivered_iff env events s requestId content hfits
  have hisolated : RoomIsolated g' := by
    have hrun := update_isolated env (events ++ [.chatSendRequest s requestId content])
    unfold update at hrun
    rw [List.foldl_append] at hrun
    exact hrun
  exact ⟨fun h => hiff.mp h.1, fun h => ⟨hiff.mpr h, hisolated⟩⟩

/-- Sessions 1 and 2, logged in under the given name and as `b`, both in the
    lobby; session 3 is logged in as `c` and in another room. -/
def twoInLobby (name : Bytes) : List ServerEvent :=
  [.sessionConnected 1, .sessionConnected 2, .sessionConnected 3, .loginRequest 1 1 name,
    .loginRequest 2 1 [98], .loginRequest 3 1 [99], .joinRoomRequest 1 2 1001,
    .joinRoomRequest 2 2 1001, .joinRoomRequest 3 2 1002]

theorem update_chat_lobby :
    let g := update sampleEnv initial (twoInLobby [97])
    let g' := handleEvent sampleEnv g (.chatSendRequest 1 3 [104, 105])
    ChatAccepted g.roomSystem 1 [104, 105] ⟨1, 1, [97], 1001, true⟩ ∧
      ChatDelivered g g' 1 [104, 105] ∧ RoomIsolated g' := by
  intro g g'
  have hfound : g.roomSystem.findSession 1 = some ⟨1, 1, [97], 1001, true⟩ := by decide +kernel
  refine ⟨⟨hfound, rfl, by decide, by decide, by decide⟩, ?_⟩
  refine (update_chat sampleEnv (twoInLobby [97]) 1 3 [104, 105] (by decide +kernel)).mpr ?_
  intro session hacc
  rw [hacc.1, Option.some.injEq] at hfound
  rw [hfound]
  decide

/-- A sender whose name is `a`, NUL, `b` is broadcast as `a`. -/
theorem not_chatDelivered_nul :
    let g := update sampleEnv initial (twoInLobby [97, 0, 98])
    let g' := handleEvent sampleEnv g (.chatSendRequest 1 3 [104, 105])
    (∀ call ∈ g'.queueCalls, sampleEnv.fits call.message = true) ∧
      ¬ (ChatDelivered g g' 1 [104, 105] ∧ RoomIsolated g') := by
  intro g g'
  have hfits : ∀ call ∈ g'.queueCalls, sampleEnv.fits call.message = true := by decide +kernel
  have hfound : g.roomSystem.findSession 1 = some ⟨1, 1, [97, 0, 98], 1001, true⟩ := by
    decide +kernel
  refine ⟨hfits, fun h => ?_⟩
  have hiff := chatDelivered_iff sampleEnv (twoInLobby [97, 0, 98]) 1 3 [104, 105] hfits
  exact hiff.mp h.1 _ ⟨hfound, rfl, by decide, by decide, by decide⟩ (by decide)

end GameLogicSystem

end ProjectNight
