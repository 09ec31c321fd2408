import ProjectNight.Theory.EndToEnd
import ProjectNight.Theory.Fidelity
import ProjectNight.Theory.Kinds

/-!
# Whose Words Are Shown

A chat line in a window passed two connections, the decoders at both ends and
the game. It was said: there is the chat request the game handled, by a
session that was logged in under the name shown and was in the room shown; the
session of the window was in that room as well when the request was handled;
and when the session that said it belongs to one of the clients, that client
was given the request to send. So nobody is shown words from a room he was not
in, and no client is made to say what it did not, whatever the others and the
strangers do.

Name and content are cut at their first NUL byte on the way out, which is what
the builder of the server does with a C string.

## Main definitions

* `Said`: A line, and the request it comes from.

## Theorems

* `chatMessages_cases`: What a chat line leads to.
* `said_of_outgoing`: Every broadcast that is queued was said.
* `Network.shown_was_said`: Every line that is shown was said, in every run.
-/

namespace ProjectNight

/-- Among `events` is the chat request `requestId` of session `s` with `text`, and
    when it was handled, `s` was logged in under `name`, and `s` and `listener`
    were both in room `roomId`. -/
def Said (env : Env) (events : List ServerEvent) (listener s requestId roomId : UInt32)
    (name text : Bytes) : Prop :=
  ∃ before after session, events = before ++ .chatSendRequest s requestId text :: after ∧
    (GameLogicSystem.initial.update env before).roomSystem.findSession s = some session ∧
    session.loggedIn = true ∧ session.displayName = name ∧ session.roomId = roomId ∧
    (GameLogicSystem.initial.update env before).roomSystem.IsMember s roomId ∧
    (GameLogicSystem.initial.update env before).roomSystem.IsMember listener roomId

theorem Said.append {env : Env} {events : List ServerEvent} {listener s requestId roomId : UInt32}
    {name text : Bytes} (h : Said env events listener s requestId roomId name text)
    (more : List ServerEvent) : Said env (events ++ more) listener s requestId roomId name text := by
  rcases h with ⟨before, after, session, rfl, hrest⟩
  refine ⟨before, after ++ more, session, ?_, hrest⟩
  rw [List.append_assoc, List.cons_append]

/-- What a chat line leads to: nothing for a session that is not logged in, one
    remark when a check fails, and otherwise the line was accepted. -/
theorem chatMessages_cases (env : Env) (reads : Nat) (rs : RoomSystem) (s : UInt32)
    (content : Bytes) :
    ((∀ session, ¬ ChatAccepted rs s content session) ∧
      chatMessages env reads rs s content = []) ∨
    (∃ session r text, (∀ session, ¬ ChatAccepted rs s content session) ∧
      rs.findSession s = some session ∧ (r = noRoomId ∨ r = session.roomId) ∧
      chatMessages env reads rs s content = [⟨s, systemMessage r text⟩]) ∨
    ∃ session, ChatAccepted rs s content session := by
  cases hs : rs.findSession s with
  | none =>
      refine Or.inl ⟨fun session hacc => ?_, by simp only [chatMessages, hs]⟩
      exact absurd (hacc.1.symm.trans hs) (Option.some_ne_none session)
  | some session =>
      have honly : ∀ session', ChatAccepted rs s content session' →
          ChatAccepted rs s content session := by
        intro session' hacc
        rw [Option.some.inj (hs.symm.trans hacc.1)]
        exact hacc
      simp only [chatMessages, hs]
      split_ifs with hlogged hroom hempty hlong
      · refine Or.inl ⟨fun session' hacc => ?_, rfl⟩
        exact Bool.false_ne_true (hlogged.symm.trans (honly session' hacc).2.1)
      · refine Or.inr (Or.inl ⟨session, _, _, fun session' hacc => ?_, rfl, Or.inl rfl, rfl⟩)
        exact (honly session' hacc).2.2.1 hroom
      · refine Or.inr (Or.inl ⟨session, _, _, fun session' hacc => ?_, rfl, Or.inr rfl, rfl⟩)
        exact List.length_pos_iff.mp (honly session' hacc).2.2.2.1 hempty
      · refine Or.inr (Or.inl ⟨session, _, _, fun session' hacc => ?_, rfl, Or.inr rfl, rfl⟩)
        exact Nat.not_lt.mpr (honly session' hacc).2.2.2.2 hlong
      · exact Or.inr (Or.inr ⟨session, hs, (Bool.not_eq_false _).mp hlogged, hroom,
          List.length_pos_iff.mpr hempty, Nat.not_lt.mp hlong⟩)

/-- A chat line that is accepted goes to the members of the room of its sender. -/
theorem mem_chatMessages {env : Env} {rs : RoomSystem} (hw : rs.WellFormed) {reads : Nat}
    {s : UInt32} {content : Bytes} {out : OutgoingMessage} {table : ChatBroadcast}
    (hout : out ∈ chatMessages env reads rs s content)
    (hpayload : out.payload.payload = .chatBroadcast (some table)) :
    ∃ session, rs.findSession s = some session ∧ session.loggedIn = true ∧
      rs.IsMember s session.roomId ∧ rs.IsMember out.sessionId session.roomId ∧
      table.roomId = session.roomId ∧ table.senderName = some (cStr session.displayName) ∧
      table.content = some (cStr content) := by
  rcases chatMessages_cases env reads rs s content with ⟨_, hnone⟩ | ⟨_, _, _, _, _, _, hremark⟩ |
    ⟨session, hacc⟩
  · rw [hnone] at hout
    exact absurd hout List.not_mem_nil
  · -- A remark is not a broadcast.
    rw [hremark] at hout
    rw [List.mem_singleton.mp hout] at hpayload
    cases hpayload
  · rw [chatMessages_of_accepted env reads hacc] at hout
    rcases List.mem_map.mp hout with ⟨p, hp, rfl⟩
    have hmember := List.fst_mem_of_mem_zipIdx hp
    have htable : createChatBroadcastDirect session.roomId session.userId
        session.displayName content (env.currentTimestampMs p.2) = table := by
      simp only [chatBroadcastMessage, MessagePayload.chatBroadcast.injEq,
        Option.some.injEq] at hpayload
      exact hpayload
    rw [← htable]
    exact ⟨session, hacc.1, hacc.2.1, hw.isMember_of_session hacc.1 hacc.2.2.1,
      (hw.toConsistent.findSession_of_mem hmember).2.2.1, rfl, rfl, rfl⟩

/-- No other event leads to a broadcast. -/
theorem chat_of_broadcast {env : Env} {rs : RoomSystem} (hw : rs.WellFormed) {reads : Nat}
    {event : ServerEvent} {out : OutgoingMessage} {table : ChatBroadcast}
    (hout : out ∈ (effect env reads rs event).messages)
    (hpayload : out.payload.payload = .chatBroadcast (some table)) :
    ∃ s requestId content, event = .chatSendRequest s requestId content := by
  have hbuilds := builds_of_mem hw hout
  generalize out.payload = m at hbuilds hpayload
  cases hbuilds with
  | chat s requestId content => exact ⟨s, requestId, content, rfl⟩
  | _ => cases hpayload

/-- Every broadcast that was queued for a session was said, in a room it was
    in. -/
theorem said_of_outgoing (env : Env) (events : List ServerEvent) {out : OutgoingMessage}
    {table : ChatBroadcast}
    (hout : out ∈ (GameLogicSystem.initial.update env events).outgoingMessages)
    (hpayload : out.payload.payload = .chatBroadcast (some table)) :
    ∃ s requestId name text,
      Said env events out.sessionId s requestId table.roomId name text ∧
      table.senderName = some (cStr name) ∧ table.content = some (cStr text) := by
  induction events using List.reverseRecOn with
  | nil => exact absurd hout List.not_mem_nil
  | append_singleton events event ih =>
      rw [GameLogicSystem.update_concat, GameLogicSystem.outgoingMessages_step,
        List.mem_append] at hout
      rcases hout with hold | hnew
      · rcases ih hold with ⟨s, requestId, name, text, hsaid, hrest⟩
        exact ⟨s, requestId, name, text, hsaid.append [event], hrest⟩
      · have hw := GameLogicSystem.update_wellFormed env events
        have hmem := (List.mem_filter.mp hnew).1
        rcases chat_of_broadcast hw hmem hpayload with ⟨s, requestId, text, rfl⟩
        rcases mem_chatMessages hw hmem hpayload with ⟨session, hs, hlogged, hself, hlistener,
          hroom, hname, hcontent⟩
        rw [← hroom] at hself hlistener
        exact ⟨s, requestId, session.displayName, text,
          ⟨events, [], session, rfl, hs, hlogged, rfl, hroom.symm, hself, hlistener⟩,
          hname, hcontent⟩

/-- The lines among the events of a message are those of a broadcast. -/
theorem broadcast_of_mem_events {m : Message} {roomId : UInt32} {name content : Bytes}
    (h : .messageReceived roomId name content ∈ m.events) :
    ∃ table, m.payload = .chatBroadcast (some table) ∧ table.roomId = roomId ∧
      toUtf8 table.senderName = name ∧ toUtf8 table.content = content := by
  rcases m with ⟨requestId, payload⟩
  cases payload with
  | chatBroadcast table =>
      cases table with
      | none => exact absurd h List.not_mem_nil
      | some table =>
          have heq := List.mem_singleton.mp h
          rw [ChatProtocolEvent.messageReceived.injEq] at heq
          exact ⟨table, rfl, heq.1.symm, heq.2.1.symm, heq.2.2.symm⟩
  | loginResponse table =>
      rcases table with _ | ⟨_ | _, code, user⟩
      · exact absurd h List.not_mem_nil
      · cases List.mem_singleton.mp h
      · cases List.mem_singleton.mp h
  | roomListResponse table =>
      cases table with
      | none => exact absurd h List.not_mem_nil
      | some table => cases List.mem_singleton.mp h
  | joinRoomResponse table =>
      rcases table with _ | ⟨_ | _, code, _ | info⟩
      · exact absurd h List.not_mem_nil
      all_goals cases List.mem_singleton.mp h
  | userJoinedEvent table =>
      rcases table with _ | ⟨r, _ | user⟩
      · exact absurd h List.not_mem_nil
      · exact absurd h List.not_mem_nil
      · cases List.mem_singleton.mp h
  | userLeftEvent table =>
      rcases table with _ | ⟨r, _ | user⟩
      · exact absurd h List.not_mem_nil
      · exact absurd h List.not_mem_nil
      · cases List.mem_singleton.mp h
  | systemMessageEvent table =>
      cases table with
      | none => exact absurd h List.not_mem_nil
      | some table => cases List.mem_singleton.mp h
  | _ => exact absurd h List.not_mem_nil

/-- A payload leads to at most one event. -/
theorem decodeProtocolPacket_of_mem {codec : Codec} {id : UInt32} {data : Bytes}
    {event : ServerEvent} (h : event ∈ decodeProtocolPacket codec id data) :
    decodeProtocolPacket codec id data = [event] := by
  by_cases hmissing : TableMissing codec data
  · rw [(decodeProtocolPacket_eq_nil codec id data).mpr hmissing] at h
    exact absurd h List.not_mem_nil
  · rcases accounted_of_table codec id hmissing with ⟨decoded, hdecoded, _⟩
    rw [hdecoded, List.mem_singleton] at h
    rw [hdecoded, h]

namespace Network

/-- In every run with fewer than 2^32 accepted connections: a line that a client
    makes of what it has polled was said, while its own session was in the room
    of the line; and if the session that said it is that of a link, the client
    of that link was given the very request to send. -/
theorem shown_was_said (codec : Codec) (hcodec : codec.Faithful) (actions : List Action)
    (n : Network) (hrun : Machine.run (step codec) {} actions = some n)
    (hfew : n.host.server.accepts < 2 ^ 32) (k index : Nat) (link : Link) (session : Session)
    (hlink : n.links[k]? = some link) (hindex : link.object = some index)
    (hobject : n.host.server.objects[index]? = some session) (roomId : UInt32)
    (senderName content : Bytes)
    (hshown : .messageReceived roomId senderName content
      ∈ link.clientPolled.flatMap (decodePacket codec)) :
    ∃ s requestId name text,
      Said codec.toEnv n.host.handled session.id s requestId roomId name text ∧
      senderName = cStr name ∧ content = cStr text ∧
      ∀ (j index' : Nat) (link' : Link) (session' : Session), n.links[j]? = some link' →
        link'.object = some index' → n.host.server.objects[index']? = some session' →
        session'.id = s → ∃ data ∈ link'.sentToServer,
          decodeProtocolPacket codec s data = [.chatSendRequest s requestId text] := by
  have h := wired_run hrun hfew
  have htally := tallied_run hrun
  -- Back from the line to the message it was decoded from, and from there to the request
  -- the game handled.
  have hmeant := (shown_of_wired hcodec h htally hlink hindex hobject).1.subset hshown
  rcases List.mem_flatMap.mp hmeant with ⟨out, hout, hevent⟩
  rcases List.mem_filter.mp hout with ⟨hqueued, hto⟩
  rcases broadcast_of_mem_events hevent with ⟨table, hpayload, hroom, hname, hcontent⟩
  rcases said_of_outgoing codec.toEnv n.host.handled hqueued hpayload with
    ⟨s, requestId, name, text, hsaid, hname', hcontent'⟩
  rw [of_decide_eq_true hto, hroom] at hsaid
  rw [hname'] at hname
  rw [hcontent'] at hcontent
  refine ⟨s, requestId, name, text, hsaid, hname.symm, hcontent.symm,
    fun j index' link' session' hlink' hindex' hobject' hid => ?_⟩
  -- The request was handled, so it came out of a payload of the sender's session, and the
  -- client of that session was given it.
  rcases hsaid with ⟨before, after, entry, hhandled, _⟩
  have hheard := (heard_of_wired h htally hlink' hindex' hobject').1.subset
    (show .chatSendRequest s requestId text ∈ _ from List.mem_filter.mpr ⟨by
      rw [hhandled]
      exact List.mem_append_right _ List.mem_cons_self, by
      rw [Bool.and_eq_true]
      exact ⟨rfl, decide_eq_true hid.symm⟩⟩)
  rw [hid] at hheard
  rcases List.mem_flatMap.mp hheard with ⟨data, hdata, hdecoded⟩
  refine ⟨data, hdata, ?_⟩
  exact decodeProtocolPacket_of_mem hdecoded

/-- A client logs in, joins the first room and says something there, and polls
    the four answers. -/
def chatRoundTrip : List Action :=
  [.connect, .accept 0] ++
    upload 0 (plainCodec.buildMessage ⟨1, .loginRequest (some { displayName := some [65] })⟩) ++
    upload 0 (plainCodec.buildMessage ⟨2, .joinRoomRequest (some { roomId := 1001 })⟩) ++
    upload 0 (plainCodec.buildMessage ⟨3, .chatSendRequest (some { content := some [72] })⟩) ++
    List.replicate 10 .game ++ download 0 ++ download 0 ++ download 0 ++ download 0

theorem shown_was_said_chatRoundTrip :
    ∃ n link session, Machine.run (step plainCodec) {} chatRoundTrip = some n ∧
      n.links[0]? = some link ∧ link.object = some 0 ∧
      n.host.server.objects[0]? = some session ∧
      .messageReceived 1001 [65] [72] ∈ link.clientPolled.flatMap (decodePacket plainCodec) ∧
      ∃ s requestId name text,
        Said plainCodec.toEnv n.host.handled session.id s requestId 1001 name text ∧
        [65] = cStr name ∧ [72] = cStr text := by
  have hend : (Machine.run (step plainCodec) {} chatRoundTrip).map (fun n =>
      (n.links[0]?.map (fun link => (link.object, decide (.messageReceived 1001 [65] [72]
          ∈ link.clientPolled.flatMap (decodePacket plainCodec)))),
        n.host.server.objects[0]?.map Session.id, n.host.server.accepts))
      = some (some (some 0, true), some 1, 1) := by decide +kernel
  rcases Option.map_eq_some_iff.mp hend with ⟨n, hrun, hn⟩
  simp only [Prod.mk.injEq, Option.map_eq_some_iff] at hn
  rcases hn with ⟨⟨link, hlink, hobject, hshown⟩, ⟨session, hsession, _⟩, haccepts⟩
  rw [decide_eq_true_eq] at hshown
  refine ⟨n, link, session, hrun, hlink, hobject, hsession, hshown, ?_⟩
  rcases shown_was_said plainCodec faithful_plainCodec chatRoundTrip n hrun
    (by rw [haccepts]; decide) 0 0 link session hlink hobject hsession 1001 [65] [72] hshown with
    ⟨s, requestId, name, text, hsaid, hname, htext, _⟩
  exact ⟨s, requestId, name, text, hsaid, hname, htext⟩

end Network

end ProjectNight
