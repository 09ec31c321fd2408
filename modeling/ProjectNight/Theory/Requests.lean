import ProjectNight.Theory.Fidelity
import ProjectNight.Theory.StreamParsing

/-!
# Requests and Their Answers

A request of a client on its way to the game logic: `SendChatRequest` or
`SendLoginRequest` builds a message, `send` frames it and posts the frame, the
session at the other end reads the frame from the stream, and `Receive` decodes
it. Where nothing fails on the way, a request that arrives is answered, a chat
line with a broadcast or a remark and a login with its response. The handlers
have limits of their own, 512 bytes for a line and 32 for a name, and say so
when a request is over them.

One limit is different. A message of more than 2048 bytes is ignored by `send`
on the side of the client, as its documentation says, so the handler that
would have refused it never sees it. A request is answered exactly when its
encoding is not longer than that.

## Main definitions

* `ChatProtocolClient.posted`: The frames that were handed to the I/O thread.
* `Session.carried`: The packets a session makes of frames.
* `afterRequest`: The game logic after what a call has posted has arrived.
* `ChatAnswer`, `LoginAnswer`, `Queues`: What counts as an answer.

## Theorems

* `posted_sendRequest`: A request posts one frame, or none when it is too long.
* `carried_frame`: The frame is read back.
* `afterRequest_eq`: The whole way.
* `requests_answered`: Both requests, in every reachable state.
-/

namespace ProjectNight

open Wire Feed

/-! ### On the way -/

def ClientTask.frame : ClientTask → Option Bytes
  | .enqueueFrame frame => some frame
  | .shutdown => none

/-- The frames that were posted and that no handler has taken yet. -/
def ChatProtocolClient.posted (p : ChatProtocolClient) : List Bytes :=
  ((p.client.map Client.io).getD []).filterMap ClientTask.frame

/-- The packets that come of a list of frames, written to the stream one after
    the other and read by a session. -/
def Session.carried (session : Session) (frames : List Bytes) : List Packet :=
  (readLoop.feed ⟨session, [], []⟩ frames.flatten).outputs.map fun data =>
    ⟨.data, session.id, data⟩

/-- The game logic after the frames that were posted between `p` and `p'` have
    arrived at `session` and have been handled. -/
def afterRequest (codec : Codec) (g : GameLogicSystem) (session : Session)
    (p p' : ChatProtocolClient) : GameLogicSystem :=
  g.update codec.toEnv (receive codec (session.carried (p'.posted.drop p.posted.length)))

theorem Client.send_eq_ite {c : Client} (hlive : c.live = true) (data : Bytes) :
    c.send data = if Sendable data then
      { c with io := c.io ++ [.enqueueFrame (buildDataFrame data)] } else c := by
  rw [Client.live, Bool.and_eq_true, Bool.not_eq_true'] at hlive
  unfold Client.send
  by_cases hsend : Sendable data
  · have hframe := buildDataFrame_ne_nil hsend
    rw [if_neg ((refused_iff data).not.mpr (not_not.mpr hsend)), if_pos hsend]
    simp [hlive.1, hlive.2, hframe]
  · rw [if_pos ((refused_iff data).mpr hsend), if_neg hsend]

/-- A request posts one frame, and none when its message is too long. -/
theorem posted_sendRequest (codec : Codec) {p : ChatProtocolClient} {c : Client}
    (hc : p.client = some c) (hlive : c.live = true) (payload : MessagePayload) :
    (p.sendRequest codec payload).posted = p.posted
      ++ if Sendable (codec.buildMessage ⟨p.nextRequestId, payload⟩) then
          [buildDataFrame (codec.buildMessage ⟨p.nextRequestId, payload⟩)] else [] := by
  unfold ChatProtocolClient.posted ChatProtocolClient.sendRequest
  rw [hc]
  simp only [Client.send_eq_ite hlive, Option.map_some, Option.getD_some]
  split_ifs with hempty hsend hsend
  · exact absurd (List.isEmpty_iff.mp hempty) hsend.1
  · exact (List.append_nil _).symm
  · rw [List.filterMap_append]
    rfl
  · exact (List.append_nil _).symm

/-- What was framed is read back, and nothing comes of nothing. -/
theorem carried_frame {session : Session} (h : session.AtHeader) {data : Bytes}
    (hsend : Sendable data) :
    session.carried [buildDataFrame data] = [⟨.data, session.id, data⟩] := by
  have hreads := ((Session.parsesStreams h).reads [some data] (by simp [hsend])).1
  unfold Session.carried
  exact congrArg (List.map fun data => (⟨.data, session.id, data⟩ : Packet)) hreads

theorem carried_nil {session : Session} (h : session.AtHeader) : session.carried [] = [] := by
  have hreads := ((Session.parsesStreams h).reads [] (by simp)).1
  unfold Session.carried
  exact congrArg (List.map fun data => (⟨.data, session.id, data⟩ : Packet)) hreads

/-- A request that is not too long reaches the decoder as it was built. -/
theorem afterRequest_eq (codec : Codec) (g : GameLogicSystem) {p : ChatProtocolClient}
    {c : Client} (hc : p.client = some c) (hlive : c.live = true) {session : Session}
    (hheader : session.AtHeader) (payload : MessagePayload) :
    afterRequest codec g session p (p.sendRequest codec payload)
      = if codec.fits ⟨p.nextRequestId, payload⟩ = true then
          g.update codec.toEnv (decodeProtocolPacket codec session.id
            (codec.buildMessage ⟨p.nextRequestId, payload⟩))
        else g := by
  unfold afterRequest
  rw [posted_sendRequest codec hc hlive, List.drop_left]
  by_cases hsend : Sendable (codec.buildMessage ⟨p.nextRequestId, payload⟩)
  · rw [if_pos hsend, if_pos ((codec.fits_iff _).mpr hsend), carried_frame hheader hsend]
    unfold receive
    rw [List.flatMap_singleton]
    rfl
  · rw [if_neg hsend, if_neg ((codec.fits_iff _).not.mpr hsend), carried_nil hheader]
    rfl

/-! ### Answers -/

/-- The message of `SendLoginRequest`. -/
def loginRequestMessage (requestId : UInt32) (displayName : Bytes) : Message where
  requestId := requestId
  payload := .loginRequest (some { displayName := some displayName })

/-- A broadcast of the line, or the remark that refuses it. What a broadcast
    shows of a line with a NUL byte in it is the matter of `Theory.Fidelity`. -/
def ChatAnswer (text : Bytes) (m : Message) : Prop :=
  (∃ table, m.payload = .chatBroadcast (some table) ∧
    ((0 : UInt8) ∉ text → table.content = some text)) ∨
  ∃ roomId, m.payload = .systemMessageEvent (some ⟨roomId, some (utf8 "메시지가 너무 깁니다.")⟩)

def LoginAnswer (requestId : UInt32) (m : Message) : Prop :=
  m.requestId = requestId ∧ ∃ table, m.payload = .loginResponse (some table)

/-- Between `g` and `g'` a message of some kind was queued to session `s`. -/
def Queues (g g' : GameLogicSystem) (s : UInt32) (P : Message → Prop) : Prop :=
  ∃ new, g'.outgoingMessages = g.outgoingMessages ++ new ∧ ∃ m ∈ messagesFor s new, P m

theorem not_queues_self (g : GameLogicSystem) (s : UInt32) (P : Message → Prop) :
    ¬ Queues g g s P := by
  rintro ⟨new, hnew, m, hm, _⟩
  rw [List.self_eq_append_right] at hnew
  rw [hnew] at hm
  exact absurd hm List.not_mem_nil

namespace GameLogicSystem

/-- What a brief event builds is queued. -/
theorem queues_step {env : Env} (hcompact : env.Compact) (events : List ServerEvent)
    {event : ServerEvent} (hbrief : event.Brief) {s : UInt32} {P : Message → Prop}
    (h : ∃ m ∈ messagesFor s (effect env (update env initial events).clockReads
      (update env initial events).roomSystem event).messages, P m) :
    Queues (update env initial events) (handleEvent env (update env initial events) event) s P := by
  refine ⟨_, outgoingMessages_step env events event, ?_⟩
  rw [hcompact.filter_effect (update_wellFormed env events) hbrief]
  exact h

/-- A line of a session in a room is broadcast to it or refused. -/
theorem chat_answered (env : Env) {rs : RoomSystem} (hw : rs.WellFormed) (reads : Nat)
    {s : UInt32} {entry : SessionState} (hs : rs.findSession s = some entry)
    (hlogged : entry.loggedIn = true) (hroom : entry.roomId ≠ noRoomId) (requestId : UInt32)
    {text : Bytes} (htext : text ≠ []) :
    ∃ m ∈ messagesFor s (effect env reads rs (.chatSendRequest s requestId text)).messages,
      ChatAnswer text m := by
  simp only [effect]
  by_cases hlen : text.length ≤ 512
  · have hacc : ChatAccepted rs s text entry :=
      ⟨hs, hlogged, hroom, List.length_pos_iff.mpr htext, hlen⟩
    rcases messagesFor_chat env hw reads hacc (hw.isMember_of_session hs hroom) with
      ⟨timestamp, honly⟩
    rw [honly]
    refine ⟨_, List.mem_singleton_self _, Or.inl ⟨_, rfl, fun hnul => ?_⟩⟩
    exact congrArg some (cStr_eq_self text hnul)
  · have hlong : maxChatMessageBytes < text.length := Nat.not_le.mp hlen
    have hrefused : chatMessages env reads rs s text
        = [⟨s, systemMessage entry.roomId (utf8 "메시지가 너무 깁니다.")⟩] := by
      simp only [chatMessages, hs, hlogged, hroom, htext, hlong, if_false, if_true,
        Bool.true_eq_false]
    rw [hrefused, messagesFor_singleton_self]
    refine ⟨_, List.mem_singleton_self _, Or.inr ⟨entry.roomId, ?_⟩⟩
    have hplain : cStr (utf8 "메시지가 너무 깁니다.") = utf8 "메시지가 너무 깁니다." := by decide
    simp only [systemMessage, createSystemMessageEventDirect, hplain]

/-- A login of a session the game logic knows gets its response. -/
theorem login_answered (env : Env) (reads : Nat) {rs : RoomSystem} {s : UInt32}
    {entry : SessionState} (hs : rs.findSession s = some entry) (requestId : UInt32)
    (name : Bytes) :
    ∃ m ∈ messagesFor s (effect env reads rs (.loginRequest s requestId name)).messages,
      LoginAnswer requestId m := by
  simp only [effect]
  rcases loginEffect_cases rs s requestId name with ⟨hnone, _⟩ | ⟨code, _, he⟩ |
    ⟨session, _, _, he⟩
  · rw [hs] at hnone
    exact absurd hnone (Option.some_ne_none _)
  · rw [he, messagesFor_singleton_self]
    exact ⟨_, List.mem_singleton_self _, rfl, _, rfl⟩
  · rw [he, messagesFor_singleton_self]
    exact ⟨_, List.mem_singleton_self _, rfl, _, rfl⟩

/-- A request that is too long is not answered. -/
theorem not_queues_afterRequest (codec : Codec) (g : GameLogicSystem) {p : ChatProtocolClient}
    {c : Client} (hc : p.client = some c) (hlive : c.live = true) {session : Session}
    (hheader : session.AtHeader) {payload : MessagePayload}
    (h : ¬ codec.fits ⟨p.nextRequestId, payload⟩ = true) (s : UInt32) (P : Message → Prop) :
    ¬ Queues g (afterRequest codec g session p (p.sendRequest codec payload)) s P := by
  rw [afterRequest_eq codec g hc hlive hheader, if_neg h]
  exact not_queues_self g s P

/-- A request that is not too long is answered when its event is, and one that
    is too long is not. -/
theorem queues_afterRequest_iff {codec : Codec} (hfaithful : codec.Faithful)
    (hcompact : codec.Compact) (events : List ServerEvent) {p : ChatProtocolClient} {c : Client}
    (hc : p.client = some c) (hlive : c.live = true) {session : Session}
    (hheader : session.AtHeader) {payload : MessagePayload} {event : ServerEvent}
    (hentries : (⟨p.nextRequestId, payload⟩ : Message).roomEntries ≤ 3)
    (hrequest : (⟨p.nextRequestId, payload⟩ : Message).request session.id = some event)
    (hbrief : event.Brief) {P : Message → Prop}
    (hanswer : ∃ m ∈ messagesFor session.id (effect codec.toEnv
      (update codec.toEnv initial events).clockReads
      (update codec.toEnv initial events).roomSystem event).messages, P m) :
    Queues (update codec.toEnv initial events)
        (afterRequest codec (update codec.toEnv initial events) session p
          (p.sendRequest codec payload)) session.id P ↔
      (codec.buildMessage ⟨p.nextRequestId, payload⟩).length ≤ 2048 := by
  by_cases hfits : codec.fits ⟨p.nextRequestId, payload⟩ = true
  · rw [afterRequest_eq codec _ hc hlive hheader, if_pos hfits,
      decodeProtocolPacket_request hfaithful hfits hrequest]
    exact ⟨fun _ => ((codec.fits_iff _).mp hfits).2,
      fun _ => queues_step hcompact events hbrief hanswer⟩
  · refine ⟨fun h => absurd h (not_queues_afterRequest codec _ hc hlive hheader hfits _ _),
      fun hlen => ?_⟩
    exact absurd ((codec.fits_iff _).mpr ⟨(hcompact _ hentries).1, hlen⟩) hfits

/-- In every reachable state, a chat line of a session in a room is broadcast
    to it or refused, and a login of a session gets its response, exactly when
    the encoded request is not longer than 2048 bytes. -/
theorem requests_answered (codec : Codec) (hfaithful : codec.Faithful) (hcompact : codec.Compact)
    (events : List ServerEvent) (p : ChatProtocolClient) (c : Client) (hc : p.client = some c)
    (hlive : c.live = true) (session : Session) (hheader : session.AtHeader)
    (entry : SessionState)
    (hentry : (update codec.toEnv initial events).roomSystem.findSession session.id
      = some entry) :
    let g := update codec.toEnv initial events
    (∀ text, text ≠ [] → entry.loggedIn = true → entry.roomId ≠ noRoomId →
      (Queues g (afterRequest codec g session p (p.sendChatRequest codec text)) session.id
          (ChatAnswer text) ↔
        (codec.buildMessage (chatRequestMessage p.nextRequestId text)).length ≤ 2048)) ∧
    ∀ name, name ≠ [] →
      (Queues g (afterRequest codec g session p (p.sendLoginRequest codec name)) session.id
          (LoginAnswer p.nextRequestId) ↔
        (codec.buildMessage (loginRequestMessage p.nextRequestId name)).length ≤ 2048) := by
  intro g
  have hw : g.roomSystem.WellFormed := update_wellFormed codec.toEnv events
  refine ⟨fun text htext hlogged hroom => ?_, fun name _ => ?_⟩
  · have hentries : (chatRequestMessage p.nextRequestId text).roomEntries ≤ 3 := Nat.zero_le 3
    have hbrief : (ServerEvent.chatSendRequest session.id p.nextRequestId text).Brief := trivial
    exact queues_afterRequest_iff hfaithful hcompact events hc hlive hheader hentries rfl hbrief
      (chat_answered codec.toEnv hw g.clockReads hentry hlogged hroom _ htext)
  · have hentries : (loginRequestMessage p.nextRequestId name).roomEntries ≤ 3 := Nat.zero_le 3
    have hbrief : (ServerEvent.loginRequest session.id p.nextRequestId name).Brief := trivial
    exact queues_afterRequest_iff hfaithful hcompact events hc hlive hheader hentries rfl hbrief
      (login_answered codec.toEnv g.clockReads hentry _ name)

/-- A short line of session 1 in the lobby. -/
theorem requests_answered_lobby :
    let g := update plainCodec.toEnv initial (twoInLobby [97])
    let p := ({} : ChatProtocolClient).connect
    Queues g (afterRequest plainCodec g (Session.start { id := 1 }) p
      (p.sendChatRequest plainCodec [104, 105])) 1 (ChatAnswer [104, 105]) := by
  intro g p
  have hfound : g.roomSystem.findSession 1 = some ⟨1, 1, [97], 1001, true⟩ := by decide +kernel
  have hmain := requests_answered plainCodec faithful_plainCodec compact_plainCodec
    (twoInLobby [97]) p {} rfl rfl (Session.start { id := 1 }) ⟨rfl, rfl⟩ _ hfound
  exact (hmain.1 [104, 105] (List.cons_ne_nil _ _) rfl (by decide)).mpr (by decide)

/-- A line of 2049 bytes, and a name of as many, are neither answered nor
    refused. -/
theorem not_requests_answered_long :
    let g := update plainCodec.toEnv initial (twoInLobby [97])
    let p := ({} : ChatProtocolClient).connect
    let text := List.replicate 2049 97
    g.roomSystem.findSession 1 = some ⟨1, 1, [97], 1001, true⟩ ∧
      ¬ Queues g (afterRequest plainCodec g (Session.start { id := 1 }) p
        (p.sendChatRequest plainCodec text)) 1 (ChatAnswer text) ∧
      ¬ Queues g (afterRequest plainCodec g (Session.start { id := 1 }) p
        (p.sendLoginRequest plainCodec text)) 1 (LoginAnswer 1) := by
  intro g p text
  have hheader : (Session.start { id := 1 }).AtHeader := ⟨rfl, rfl⟩
  have hlength : text.length = 2049 := List.length_replicate
  have hlong : ∀ m : Message, 2049 ≤ (putPayload m.payload).length →
      ¬ plainCodec.fits m = true := by
    intro m hm hfits
    have hle := ((plainCodec.fits_iff m).mp hfits).2
    rw [length_plainCodec] at hle
    unfold maxPayloadSize at hle
    omega
  refine ⟨by decide +kernel, ?_, ?_⟩
  · refine not_queues_afterRequest plainCodec g rfl rfl hheader (hlong _ ?_) 1 _
    simp only [putPayload, chatSendRequestFormat, List.length_cons, Format.length_option_some,
      Format.length_map, Format.length_bytes, hlength]
    omega
  · refine not_queues_afterRequest plainCodec g rfl rfl hheader (hlong _ ?_) 1 _
    simp only [putPayload, loginRequestFormat, List.length_cons, Format.length_option_some,
      Format.length_map, Format.length_bytes, hlength]
    omega

end GameLogicSystem

end ProjectNight
