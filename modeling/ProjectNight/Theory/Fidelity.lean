import ProjectNight.Core.ChatProtocolClient
import ProjectNight.Theory.Overflow

/-!
# The Text of a Chat Line

A chat line is encoded by the client of its sender, decoded by the server,
encoded again once for each member, and decoded by the clients of the members.
Three of the four steps carry a length with the bytes. The one in the middle
does not: `QueueChatBroadcast` hands the content to a builder as a
`const char*`, so what follows the first NUL byte is not sent. The members see
the line as it was written exactly when it has no NUL byte.

## Main definitions

* `chatRequestMessage`: The message of `SendChatRequest`.
* `ChatProtocolEvent.content`, `contentsSeen`: The lines a client reports.

## Theorems

* `contentsSeen_chat`: The client reads what the server wrote.
* `messagesFor_chat`: Each member is sent one broadcast.
* `chat_text_kept`: All four steps.
-/

namespace ProjectNight

/-- The message of `SendChatRequest`; the text is written with its length. -/
def chatRequestMessage (requestId : UInt32) (text : Bytes) : Message where
  requestId := requestId
  payload := .chatSendRequest (some { content := some text })

def ChatProtocolEvent.content : ChatProtocolEvent → Option Bytes
  | .messageReceived _ _ content => some content
  | _ => none

/-- The contents of the `ChatMessageReceivedEvent`s that a client reports for a
    list of messages. -/
def contentsSeen (codec : Codec) (messages : List Message) : List Bytes :=
  (messages.flatMap fun m => decodePacket codec (codec.buildMessage m)).filterMap
    ChatProtocolEvent.content

/-- A broadcast that fits is reported with the content it carries. -/
theorem contentsSeen_chat {codec : Codec} (hfaithful : codec.Faithful) {session : SessionState}
    {text : Bytes} {timestamp : UInt64}
    (hfits : codec.fits (chatBroadcastMessage session text timestamp) = true) :
    contentsSeen codec [chatBroadcastMessage session text timestamp] = [cStr text] := by
  have hne := ((codec.fits_iff _).mp hfits).1
  unfold contentsSeen decodePacket
  rw [List.flatMap_singleton, hfaithful _ hfits, if_neg (by rw [List.isEmpty_iff]; exact hne)]
  rfl

section Chat

variable (env : Env) {rs : RoomSystem}

theorem chatMessages_of_accepted (reads : Nat) {s : UInt32} {content : Bytes}
    {session : SessionState} (hacc : ChatAccepted rs s content session) :
    chatMessages env reads rs s content
      = ((rs.getRoomMembers env.toIteration session.roomId).zipIdx reads).map fun p =>
        ⟨p.1.sessionId, chatBroadcastMessage session content (env.currentTimestampMs p.2)⟩ := by
  rcases hacc with ⟨hs, hlogged, hroom, hpos, hlen⟩
  have hempty : content ≠ [] := List.length_pos_iff.mp hpos
  have hlong : ¬ maxChatMessageBytes < content.length := Nat.not_lt.mpr hlen
  simp only [chatMessages, hs, hlogged, hroom, hempty, hlong, if_false, Bool.true_eq_false]

/-- Each member is sent the line once. -/
theorem messagesFor_chat (hw : rs.WellFormed) (reads : Nat) {s : UInt32} {content : Bytes}
    {session : SessionState} (hacc : ChatAccepted rs s content session) {t : UInt32}
    (ht : rs.IsMember t session.roomId) :
    ∃ timestamp, messagesFor t (chatMessages env reads rs s content)
      = [chatBroadcastMessage session content timestamp] := by
  have hone := length_messagesFor_chat env hw reads s content t
  have hids := (hw.toConsistent.mem_map_getRoomMembers env.toIteration session.roomId none t).mpr
    ⟨ht, (Option.some_ne_none t).symm⟩
  rw [← List.zipIdx_map_fst reads (rs.getRoomMembers env.toIteration session.roomId),
    List.map_map] at hids
  rcases List.mem_map.mp hids with ⟨p, hp, hpt⟩
  have hmem : chatBroadcastMessage session content (env.currentTimestampMs p.2)
      ∈ messagesFor t (chatMessages env reads rs s content) := by
    rw [chatMessages_of_accepted env reads hacc]
    unfold messagesFor
    exact List.mem_map.mpr ⟨_, List.mem_filter.mpr ⟨List.mem_map_of_mem hp,
      decide_eq_true hpt⟩, rfl⟩
  rcases List.length_eq_one_iff.mp (Nat.le_antisymm hone (List.length_pos_of_mem hmem)) with
    ⟨m, hm⟩
  refine ⟨env.currentTimestampMs p.2, ?_⟩
  rw [hm] at hmem ⊢
  rw [List.mem_singleton.mp hmem]

end Chat

namespace GameLogicSystem

/-- An accepted line goes through the client of its sender, the server and the
    client of a member. What the member is shown is the line exactly when the
    line has no NUL byte. -/
theorem chat_text_kept (codec : Codec) (hfaithful : codec.Faithful) (hcompact : codec.Compact)
    (events : List ServerEvent) (s requestId : UInt32) (text : Bytes) (session : SessionState)
    (hacc : ChatAccepted (update codec.toEnv initial events).roomSystem s text session) :
    let g := update codec.toEnv initial events
    let sent := codec.buildMessage (chatRequestMessage requestId text)
    let g' := update codec.toEnv g (decodeProtocolPacket codec s sent)
    ∃ new, g'.outgoingMessages = g.outgoingMessages ++ new ∧
      ((∀ member, g.roomSystem.IsMember member session.roomId →
        contentsSeen codec (messagesFor member new) = [text]) ↔ (0 : UInt8) ∉ text) := by
  intro g sent g'
  have hw : g.roomSystem.WellFormed := update_wellFormed codec.toEnv events
  have hrequest : codec.fits (chatRequestMessage requestId text) = true := by
    refine hcompact.fits ⟨Nat.zero_le _, ?_⟩
    change text.length ≤ 1024
    exact hacc.2.2.2.2.trans (by decide)
  have hstep : g' = handleEvent codec.toEnv g (.chatSendRequest s requestId text) := by
    change update codec.toEnv g (decodeProtocolPacket codec s sent) = _
    rw [decodeProtocolPacket_request hfaithful hrequest rfl]
    rfl
  have hseen : ∀ member, g.roomSystem.IsMember member session.roomId →
      contentsSeen codec (messagesFor member
        ((effect codec.toEnv g.clockReads g.roomSystem
          (.chatSendRequest s requestId text)).messages.filter
            (fun out => codec.fits out.payload))) = [cStr text] := by
    intro member hmember
    rcases messagesFor_chat codec.toEnv hw g.clockReads hacc hmember with ⟨timestamp, honly⟩
    have hbrief : (ServerEvent.chatSendRequest s requestId text).Brief := trivial
    rw [hcompact.filter_effect hw hbrief]
    simp only [effect]
    rw [honly]
    exact contentsSeen_chat hfaithful (hcompact.fits
      (small_chatBroadcast hw hacc.1 hacc.2.1 hacc.2.2.2.2 timestamp))
  refine ⟨_, hstep ▸ outgoingMessages_step codec.toEnv events _, ?_⟩
  rw [← cStr_eq_self_iff]
  constructor
  · intro hall
    -- The sender is a member of its own room.
    have hself : g.roomSystem.IsMember s session.roomId :=
      hw.isMember_of_session hacc.1 hacc.2.2.1
    have hsame := (hseen s hself).symm.trans (hall s hself)
    exact List.head_eq_of_cons_eq hsame
  · intro hkept member hmember
    rw [hseen member hmember, hkept]

/-- A line without a NUL byte in the lobby. -/
theorem chat_text_kept_lobby :
    let g := update plainCodec.toEnv initial (twoInLobby [97])
    let g' := update plainCodec.toEnv g (decodeProtocolPacket plainCodec 1
      (plainCodec.buildMessage (chatRequestMessage 3 [104, 105])))
    ∃ new, g'.outgoingMessages = g.outgoingMessages ++ new ∧
      contentsSeen plainCodec (messagesFor 2 new) = [[104, 105]] := by
  intro g g'
  have hfound : g.roomSystem.findSession 1 = some ⟨1, 1, [97], 1001, true⟩ := by decide +kernel
  have hmember : g.roomSystem.IsMember 2 1001 := by decide +kernel
  rcases chat_text_kept plainCodec faithful_plainCodec compact_plainCodec (twoInLobby [97]) 1 3
    [104, 105] _ ⟨hfound, rfl, by decide, by decide, by decide⟩ with ⟨new, hnew, hiff⟩
  exact ⟨new, hnew, hiff.mpr (by decide) 2 hmember⟩

/-- The line `a`, NUL, `b` is shown as `a`. -/
theorem not_chat_text_kept_nul :
    let g := update plainCodec.toEnv initial (twoInLobby [97])
    let g' := update plainCodec.toEnv g (decodeProtocolPacket plainCodec 1
      (plainCodec.buildMessage (chatRequestMessage 3 [97, 0, 98])))
    ChatAccepted g.roomSystem 1 [97, 0, 98] ⟨1, 1, [97], 1001, true⟩ ∧
      g.roomSystem.IsMember 2 1001 ∧
      ∃ new, g'.outgoingMessages = g.outgoingMessages ++ new ∧
        contentsSeen plainCodec (messagesFor 2 new) = [[97]] := by
  intro g g'
  have hfound : g.roomSystem.findSession 1 = some ⟨1, 1, [97], 1001, true⟩ := by decide +kernel
  refine ⟨⟨hfound, rfl, by decide, by decide, by decide⟩, by decide +kernel,
    g'.outgoingMessages.drop g.outgoingMessages.length, by decide +kernel, by decide +kernel⟩

end GameLogicSystem

end ProjectNight
