import ProjectNight.Theory.Agreement
import ProjectNight.Theory.Responses

/-!
# Questions and Answers

A client numbers its requests and is answered with the same numbers. One
request has one response, which `Responses` settles event by event; here it is
read along a whole connection. The responses a session is queued are those to
its own requests, in the order in which the game handled them, and a client
that has polled some responses finds their kinds and numbers, in order, among
the requests it was given to send. So a response never comes without its
request, never twice, and never before the response to an earlier request.

A login, a join or a leave of a session the game does not know is not answered.
That happens to a request behind the disconnect request of the same client.

## Main definitions

* `RequestKind`: The requests that have a response.
* `ServerEvent.question`, `Message.answer`: The kind and the number of a request
  and of a response.
* `ServerEvent.reply`: What a request is answered with.

## Theorems

* `answers_effect`: The answers of one event.
* `GameLogicSystem.answers_queued`: The answers of a run.
* `Network.read_of_wired`: What a client reads of what is queued for it.
* `Network.answers_in_order`: The answers a client has, in every run.
-/

namespace ProjectNight

/-- The requests that are answered by a response. -/
inductive RequestKind where
  | login
  | roomList
  | joinRoom
  | leaveRoom
  | disconnect
  deriving DecidableEq, Repr

/-- The kind and the number of a request. -/
def ServerEvent.question : ServerEvent → Option (RequestKind × UInt32)
  | .loginRequest _ requestId _ => some (.login, requestId)
  | .roomListRequest _ requestId => some (.roomList, requestId)
  | .joinRoomRequest _ requestId _ => some (.joinRoom, requestId)
  | .leaveRoomRequest _ requestId => some (.leaveRoom, requestId)
  | .disconnectRequest _ requestId => some (.disconnect, requestId)
  | _ => none

/-- The kind and the number of a response. -/
def Message.answer (m : Message) : Option (RequestKind × UInt32) :=
  match m.payload with
  | .loginResponse _ => some (.login, m.requestId)
  | .roomListResponse _ => some (.roomList, m.requestId)
  | .joinRoomResponse _ => some (.joinRoom, m.requestId)
  | .leaveRoomResponse _ => some (.leaveRoom, m.requestId)
  | .disconnectResponse _ => some (.disconnect, m.requestId)
  | _ => none

/-- What a request is answered with: three handlers ignore a session they do not
    find. -/
def ServerEvent.reply (rs : RoomSystem) (event : ServerEvent) : Option (RequestKind × UInt32) :=
  match event with
  | .loginRequest s _ _ | .joinRoomRequest s _ _ | .leaveRoomRequest s _ =>
      if (rs.findSession s).isSome then event.question else none
  | _ => event.question

/-- The answers among some messages. -/
def answers (ms : List Message) : List (RequestKind × UInt32) := ms.filterMap Message.answer

theorem answers_append (a b : List Message) : answers (a ++ b) = answers a ++ answers b :=
  List.filterMap_append

/-! ### One event -/

section Effects

variable {env : Env} {reads : Nat} {rs : RoomSystem}

/-- The answers to session `c` among some outgoing messages. -/
def answersTo (c : UInt32) (queue : List OutgoingMessage) : List (RequestKind × UInt32) :=
  answers (messagesFor c queue)

theorem answersTo_append (c : UInt32) (a b : List OutgoingMessage) :
    answersTo c (a ++ b) = answersTo c a ++ answersTo c b := by
  unfold answersTo
  rw [messagesFor_append, answers_append]

theorem answersTo_singleton (c s : UInt32) (m : Message) :
    answersTo c [⟨s, m⟩] = if s = c then m.answer.toList else [] := by
  unfold answersTo
  by_cases hsc : s = c
  · subst hsc
    rw [if_pos rfl, messagesFor_singleton_self]
    unfold answers
    rw [List.filterMap_cons]
    cases m.answer <;> rfl
  · rw [if_neg hsc, messagesFor_singleton_other hsc]
    rfl

theorem answersTo_eq_nil {c : UInt32} {queue : List OutgoingMessage}
    (h : ∀ out ∈ queue, out.payload.answer = none) : answersTo c queue = [] := by
  refine List.filterMap_eq_nil_iff.mpr (fun m hm => ?_)
  rcases List.mem_map.mp hm with ⟨out, hout, rfl⟩
  exact h out (List.mem_filter.mp hout).1

-- Notices are no answers.
theorem answersTo_leaveNotices (c : UInt32) (session : SessionState) :
    answersTo c (leaveNotices env rs session) = [] := by
  refine answersTo_eq_nil (fun out hout => ?_)
  rcases List.mem_map.mp hout with ⟨member, _, rfl⟩
  rfl

theorem answersTo_farewells (c s : UInt32) : answersTo c (farewells env rs s) = [] := by
  unfold farewells
  cases rs.findSession s with
  | none => rfl
  | some session => exact answersTo_leaveNotices c session

theorem answersTo_enterNotices (c s requestId r : UInt32) (session : SessionState)
    (room : RoomState) :
    answersTo c (enterNotices env rs s requestId r session room)
      = if s = c then [(.joinRoom, requestId)] else [] := by
  have hrest : answersTo c (⟨s, systemMessage r (room.roomName ++ utf8 " 방에 입장했습니다.")⟩ ::
      (rs.getRoomMembers env.toIteration r).flatMap fun other =>
        [⟨other.sessionId, userJoinedMessage r { session with roomId := r }⟩,
          ⟨s, userJoinedMessage r other⟩]) = [] := by
    refine answersTo_eq_nil (fun out hout => ?_)
    rcases List.mem_cons.mp hout with rfl | hout
    · rfl
    rcases List.mem_flatMap.mp hout with ⟨other, _, hout⟩
    rcases List.mem_cons.mp hout with rfl | hout
    · rfl
    · rw [List.mem_singleton.mp hout]
      rfl
  have hsplit := answersTo_append c [⟨s, joinRoomResponseMessage requestId true .none
    (some { room with members := room.members.insert s })⟩]
    (⟨s, systemMessage r (room.roomName ++ utf8 " 방에 입장했습니다.")⟩ ::
      (rs.getRoomMembers env.toIteration r).flatMap fun other =>
        [⟨other.sessionId, userJoinedMessage r { session with roomId := r }⟩,
          ⟨s, userJoinedMessage r other⟩])
  rw [hrest, List.append_nil, answersTo_singleton] at hsplit
  exact hsplit

/-- An event is answered to its own session, with its own kind and number. -/
theorem answers_effect (c : UInt32) (event : ServerEvent) :
    answersTo c (effect env reads rs event).messages
      = if event.sessionId = c then (event.reply rs).toList else [] := by
  have hunasked : ∀ s : UInt32, (if s = c then ([] : List (RequestKind × UInt32)) else []) = [] :=
    fun s => ite_self _
  cases event with
  | sessionConnected s => exact (hunasked s).symm
  | sessionDisconnected s => exact (answersTo_farewells c s).trans (hunasked s).symm
  | invalidPacket s message => exact answersTo_singleton c s _
  | roomListRequest s requestId => exact answersTo_singleton c s _
  | chatSendRequest s requestId content =>
      -- A chat request has no response: it is answered by broadcasts, or by a notice.
      refine (answersTo_eq_nil (fun out hout => ?_)).trans (hunasked s).symm
      have hbuilds := builds_chat requestId hout
      generalize out.payload = m at hbuilds
      cases hbuilds <;> rfl
  | disconnectRequest s requestId =>
      have hsplit := answersTo_append c [⟨s, disconnectResponseMessage requestId⟩]
        (farewells env rs s)
      rw [answersTo_farewells, List.append_nil, answersTo_singleton] at hsplit
      exact hsplit
  | loginRequest s requestId name =>
      cases hs : rs.findSession s with
      | none =>
          -- The session is gone, and the request is not answered at all.
          simp only [effect, loginEffect, ServerEvent.reply, hs]
          exact (hunasked s).symm
      | some session =>
          simp only [effect, ServerEvent.reply, hs]
          rcases loginEffect_cases rs s requestId name with ⟨hnone, _⟩ | ⟨code, _, he⟩ |
            ⟨_, _, _, he⟩
          · cases hnone.symm.trans hs
          · rw [he]
            exact answersTo_singleton c s _
          · rw [he]
            exact answersTo_singleton c s _
  | joinRoomRequest s requestId r =>
      cases hs : rs.findSession s with
      | none =>
          simp only [effect, joinEffect, ServerEvent.reply, hs]
          exact (hunasked s).symm
      | some session =>
          simp only [effect, ServerEvent.reply, hs]
          rcases joinEffect_cases env rs s requestId r with ⟨hnone, _⟩ | ⟨code, _, he⟩ |
            ⟨session', room, _, _, _, _, he⟩
          · cases hnone.symm.trans hs
          · rw [he]
            exact answersTo_singleton c s _
          -- The notices to the old and the new room are not answers to anybody.
          · rw [he, answersTo_append, answersTo_leaveNotices, List.nil_append]
            exact answersTo_enterNotices c s requestId r session' room
  | leaveRoomRequest s requestId =>
      cases hs : rs.findSession s with
      | none =>
          simp only [effect, leaveEffect, ServerEvent.reply, hs]
          exact (hunasked s).symm
      | some session =>
          simp only [effect, ServerEvent.reply, hs]
          rcases leaveEffect_cases env rs s requestId with ⟨hnone, _⟩ | ⟨_, he⟩ |
            ⟨session', _, _, he⟩
          · cases hnone.symm.trans hs
          · rw [he]
            exact answersTo_singleton c s _
          · have hgoodbye : answersTo c [⟨s, systemMessage session'.roomId
                (utf8 "방에서 퇴장했습니다.")⟩] = [] :=
              answersTo_eq_nil (fun out hout => by rw [List.mem_singleton.mp hout]; rfl)
            have hsplit := answersTo_append c [⟨s, leaveRoomResponseMessage requestId true .none⟩]
              [⟨s, systemMessage session'.roomId (utf8 "방에서 퇴장했습니다.")⟩]
            rw [hgoodbye, List.append_nil, answersTo_singleton] at hsplit
            rw [he, answersTo_append, answersTo_leaveNotices, List.nil_append]
            exact hsplit

/-- The guard of `QueueMessage` drops no answer: whatever is too long is a remark
    about an invalid packet. -/
theorem answersTo_filter (henv : env.Compact) (hw : rs.WellFormed) (c : UInt32)
    (event : ServerEvent) :
    answersTo c ((effect env reads rs event).messages.filter (fun out => env.fits out.payload))
      = answersTo c (effect env reads rs event).messages := by
  cases event with
  | invalidPacket s message =>
      have hnone : ∀ out ∈ (effect env reads rs (.invalidPacket s message)).messages,
          out.payload.answer = none :=
        fun out hout => by rw [List.mem_singleton.mp hout]; rfl
      rw [answersTo_eq_nil hnone]
      exact answersTo_eq_nil (fun out hout => hnone out (List.mem_filter.mp hout).1)
  | _ =>
      refine congrArg (answersTo c) (henv.filter_effect hw ?_ reads)
      exact trivial

end Effects

/-! ### Whole runs -/

namespace GameLogicSystem

/-- What is answered to session `c` in a run. -/
def replies (env : Env) (c : UInt32) (g : GameLogicSystem) (events : List ServerEvent) :
    List (RequestKind × UInt32) :=
  collect env (fun rs event => if event.sessionId = c then (event.reply rs).toList else []) g
    events

/-- The answers queued for a session. -/
theorem answers_queued {env : Env} (henv : env.Compact) (c : UInt32)
    (events : List ServerEvent) :
    answersTo c (initial.update env events).outgoingMessages = replies env c initial events := by
  refine collect_queued env rfl (answersTo_append c) ?_ events
  intro rs reads event hw
  rw [answersTo_filter henv hw, answers_effect]

-- A request is answered as asked or not at all.
theorem reply_sublist (rs : RoomSystem) (event : ServerEvent) :
    (event.reply rs).toList.Sublist event.question.toList := by
  have hcases : event.reply rs = event.question ∨ event.reply rs = none := by
    cases event with
    | loginRequest s requestId name => exact ite_eq_or_eq _ _ _
    | joinRoomRequest s requestId r => exact ite_eq_or_eq _ _ _
    | leaveRoomRequest s requestId => exact ite_eq_or_eq _ _ _
    | _ => exact Or.inl rfl
  rcases hcases with h | h
  · rw [h]
  · rw [h]
    exact List.nil_sublist _

/-- Nobody is answered who has not asked. -/
theorem replies_sublist (env : Env) (c : UInt32) (events : List ServerEvent)
    (g : GameLogicSystem) :
    (replies env c g events).Sublist
      ((events.filter (fun e => e.isMessage && e.sessionId = c)).filterMap
        ServerEvent.question) := by
  induction events generalizing g with
  | nil => exact List.Sublist.slnil
  | cons event events ih =>
      have hrest := ih (handleEvent env g event)
      unfold replies at hrest ⊢
      rw [collect, List.filter_cons]
      by_cases hc : (event.isMessage && decide (event.sessionId = c)) = true
      · have hid : event.sessionId = c := of_decide_eq_true (Bool.and_eq_true_iff.mp hc).2
        have hhead : (event :: events.filter (fun e => e.isMessage && e.sessionId = c)).filterMap
            ServerEvent.question = event.question.toList
              ++ (events.filter (fun e => e.isMessage && e.sessionId = c)).filterMap
                ServerEvent.question := by
          rw [List.filterMap_cons]
          cases event.question <;> rfl
        rw [if_pos hc, if_pos hid, hhead]
        exact (reply_sublist g.roomSystem event).append hrest
      · -- Neither an event of another session nor one without a payload asks.
        have hnone : (if event.sessionId = c then (event.reply g.roomSystem).toList else []) = [] := by
          by_cases hid : event.sessionId = c
          · rw [if_pos hid]
            cases event with
            | sessionConnected s => rfl
            | sessionDisconnected s => rfl
            | _ => exact absurd (Bool.and_eq_true_iff.mpr ⟨rfl, decide_eq_true hid⟩) hc
          · rw [if_neg hid]
        rw [if_neg hc, hnone, List.nil_append]
        exact hrest

end GameLogicSystem

/-! ### What a client reads -/

namespace Network

variable {codec : Codec} {n : Network} {k index : Nat} {link : Link} {session : Session}

/-- What a client reads of what it has polled are messages the game has queued
    for its session. -/
theorem read_of_wired {past : List LoopOutput} (hcodec : codec.Faithful) (h : Wired codec past n)
    (htally : Tallied n) (hlink : n.links[k]? = some link) (hindex : link.object = some index)
    (hobject : n.host.server.objects[index]? = some session) :
    let queued := messagesFor session.id
      (GameLogicSystem.initial.update codec.toEnv n.host.handled).outgoingMessages
    let read := link.clientPolled.filterMap codec.verifiedMessage
    read.Sublist queued ∧ (link.client.droppedPackets = 0 → read <+: queued) := by
  intro queued read
  have hdown := (delivers_of_wired h hlink hindex hobject).2
  -- Every buffer that was sent is read back.
  have hsent := (sentTo_le h session.id).filterMap codec.verifiedMessage
  have hback : ((((GameLogicSystem.initial.update codec.toEnv
      n.host.handled).outgoingMessages.filter (fun out => out.sessionId = session.id)).map
        (fun out => codec.buildMessage out.payload)).filterMap codec.verifiedMessage) = queued := by
    change _ = List.map OutgoingMessage.payload _
    rw [List.filterMap_map, ← List.filterMap_eq_map]
    refine List.filterMap_congr (fun out hout => ?_)
    exact hcodec out.payload (GameLogicSystem.fits_of_mem_outgoingMessages codec.toEnv
      n.host.handled (List.mem_filter.mp hout).1)
  rw [hback] at hsent
  refine ⟨?_, fun hnone => ?_⟩
  · refine List.Sublist.trans (List.Sublist.filterMap _ ?_) hsent.sublist
    exact (List.sublist_append_left _ _).trans hdown.sublist
  · refine List.IsPrefix.trans (List.IsPrefix.filterMap _ ?_) hsent
    have hcounted := counted_of_countedIn ((htally k link hlink).1.trans hnone)
    exact (List.prefix_append _ _).trans (hdown.isPrefix hcounted)

/-- In every run with fewer than 2^32 accepted connections, for every accepted
    link and its session: the responses among the messages the client has polled
    are, by kind and number and in order, the answers to requests of its session
    that the game has handled, the first of them when the client counts no
    dropped packet; and those were, in order, among the requests the client was
    given to send. -/
theorem answers_in_order (codec : Codec) (hcodec : codec.Faithful) (hcompact : codec.Compact)
    (actions : List Action) (n : Network) (hrun : Machine.run (step codec) {} actions = some n)
    (hfew : n.host.server.accepts < 2 ^ 32) (k index : Nat) (link : Link) (session : Session)
    (hlink : n.links[k]? = some link) (hindex : link.object = some index)
    (hobject : n.host.server.objects[index]? = some session) :
    let asked := (link.sentToServer.flatMap (decodeProtocolPacket codec session.id)).filterMap
      ServerEvent.question
    let due := GameLogicSystem.replies codec.toEnv session.id .initial n.host.handled
    let answered := answers (link.clientPolled.filterMap codec.verifiedMessage)
    due.Sublist asked ∧ answered.Sublist due ∧
      (link.client.droppedPackets = 0 → answered <+: due) := by
  intro asked due answered
  have h := wired_run hrun hfew
  have htally := tallied_run hrun
  have hheard := (heard_of_wired h htally hlink hindex hobject).1
  have hread := read_of_wired hcodec h htally hlink hindex hobject
  have hqueued := GameLogicSystem.answers_queued hcompact session.id n.host.handled
  have hdue : answers (messagesFor session.id
      (GameLogicSystem.initial.update codec.toEnv n.host.handled).outgoingMessages) = due := hqueued
  refine ⟨?_, ?_, fun hnone => ?_⟩
  · exact (GameLogicSystem.replies_sublist codec.toEnv session.id n.host.handled .initial).trans
      (hheard.filterMap _)
  · rw [← hdue]
    exact hread.1.filterMap _
  · rw [← hdue]
    exact (hread.2 hnone).filterMap _

/-- A login, a join and a line, and what the client has of it. -/
theorem answers_in_order_chatRoundTrip :
    ∃ n link session, Machine.run (step plainCodec) {} chatRoundTrip = some n ∧
      n.links[0]? = some link ∧ n.host.server.objects[0]? = some session ∧
      answers (link.clientPolled.filterMap plainCodec.verifiedMessage)
        = [(.login, 1), (.joinRoom, 2)] ∧
      [(.login, 1), (.joinRoom, 2)]
        <+: GameLogicSystem.replies plainCodec.toEnv session.id .initial n.host.handled := by
  have hend : (Machine.run (step plainCodec) {} chatRoundTrip).map (fun n => decide (
      n.links[0]?.map (fun link => (link.object, decide (link.client.droppedPackets = 0 ∧
          answers (link.clientPolled.filterMap plainCodec.verifiedMessage)
            = [(.login, 1), (.joinRoom, 2)]))) = some (some 0, true) ∧
      n.host.server.objects[0]?.map Session.id = some 1 ∧ n.host.server.accepts = 1))
      = some true := by decide +kernel
  rcases Option.map_eq_some_iff.mp hend with ⟨n, hrun, hn⟩
  simp only [Prod.mk.injEq, Option.map_eq_some_iff, decide_eq_true_eq] at hn
  rcases hn with ⟨⟨link, hlink, hobject, hdropped, hanswers⟩, ⟨session, hsession, _⟩, haccepts⟩
  have hfew : n.host.server.accepts < 2 ^ 32 := by
    rw [haccepts]
    decide
  have h := answers_in_order plainCodec faithful_plainCodec compact_plainCodec chatRoundTrip n hrun
    hfew 0 0 link session hlink hobject hsession
  refine ⟨n, link, session, hrun, hlink, hsession, hanswers, ?_⟩
  rw [← hanswers]
  exact h.2.2 hdropped

end Network

end ProjectNight
