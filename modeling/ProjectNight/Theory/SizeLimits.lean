import ProjectNight.Theory.Decoding
import ProjectNight.Theory.PacketWords
import ProjectNight.Theory.Pooling
import ProjectNight.Theory.Transcript

/-!
# Size Limits

Four limits stand between a handler and the peer: the guard of `QueueMessage`,
the guard of `Server::send`, the block size of the buffer pool and the check
of the peer's `decode_header`. Each of them drops what is too long without a
word. They agree, and nothing a handler builds reaches any of them, because
everything that goes into a message is short: a name passed the login check, a
line the chat check, the rooms are the three of the constructor, and the texts
of the system messages are literals of the source. The one text a handler
takes from an event is that of an `InvalidPacketEvent`, and `Receive` makes
those from literals as well.

What FlatBuffers adds to the strings of a message is bounded by `Compact`.

## Main definitions

* `ServerEvent.Brief`: An event with a short text.

## Theorems

* `Env.Compact.chatsFit`: Chat lines pass the guard.
* `brief_receive`: The events of `Receive` are brief.
* `small_of_builds`, `small_update`: What is built is small.
* `Env.Compact.filter_effect`: So nothing of it is dropped.
* `limits_never_reached`: All four limits, for every run.
-/

namespace ProjectNight

open Wire

/-- What the theories about timestamps assume. -/
theorem Env.Compact.chatsFit {env : Env} (h : env.Compact) : env.ChatsFit := by
  rintro ⟨requestId, payload⟩ ⟨table, rfl⟩ hshort
  have hlengths := hshort table rfl
  unfold maxDisplayNameBytes maxChatMessageBytes at hlengths
  refine h.fits ⟨Nat.zero_le _, ?_⟩
  simp only [Message.stringsLength]
  omega

/-! ### The events of `Receive` -/

/-- The text of an event is short enough for a message. The other texts an
    event can have are checked by their handlers. -/
def ServerEvent.Brief : ServerEvent → Prop
  | .invalidPacket _ message => message.length ≤ 1024
  | _ => True

theorem brief_decodeProtocolPacket (codec : Codec) (sessionId : UInt32) (data : Bytes) :
    ∀ event ∈ decodeProtocolPacket codec sessionId data, event.Brief := by
  unfold decodeProtocolPacket
  cases codec.verifiedMessage data with
  | none =>
      intro event hevent
      rw [List.mem_singleton.mp hevent]
      exact Nat.le_of_ble_eq_true rfl
  | some m =>
      rcases m with ⟨requestId, payload⟩
      cases payload with
      | loginRequest table => cases table <;> simp [ServerEvent.Brief]
      | joinRoomRequest table => cases table <;> simp [ServerEvent.Brief]
      | chatSendRequest table => cases table <;> simp [ServerEvent.Brief]
      | roomListRequest table => simp [ServerEvent.Brief]
      | leaveRoomRequest table => simp [ServerEvent.Brief]
      | disconnectRequest table => simp [ServerEvent.Brief]
      | _ =>
          intro event hevent
          rw [List.mem_singleton.mp hevent]
          exact Nat.le_of_ble_eq_true rfl

theorem brief_receive (codec : Codec) (packets : List Packet) :
    ∀ event ∈ receive codec packets, event.Brief := by
  intro event hevent
  rcases List.mem_flatMap.mp hevent with ⟨⟨type, sessionId, data⟩, _, hevent⟩
  cases type with
  | connect =>
      rw [List.mem_singleton.mp hevent]
      trivial
  | disconnect =>
      rw [List.mem_singleton.mp hevent]
      trivial
  | data => exact brief_decodeProtocolPacket codec sessionId data event hevent

/-! ### What is built is small -/

theorem small_systemMessage (r : UInt32) {text : Bytes} (h : text.length ≤ 1024) :
    (systemMessage r text).Small := by
  refine ⟨Nat.zero_le _, ?_⟩
  change (cStr text).length ≤ 1024
  exact (length_cStr_le text).trans h

theorem small_userInfo {rs : RoomSystem} (hw : rs.WellFormed) {t : UInt32} {session : SessionState}
    (ht : rs.findSession t = some session) (hlogged : session.loggedIn = true) :
    (cStr session.displayName).length ≤ 32 := by
  have hname := (hw.name_bounds t session ht hlogged).2
  exact (length_cStr_le _).trans hname

/-- The two strings of a broadcast passed their checks. -/
theorem small_chatBroadcast {rs : RoomSystem} (hw : rs.WellFormed) {s : UInt32}
    {session : SessionState} {content : Bytes} (hs : rs.findSession s = some session)
    (hlogged : session.loggedIn = true) (hlen : content.length ≤ maxChatMessageBytes)
    (timestamp : UInt64) : (chatBroadcastMessage session content timestamp).Small := by
  refine ⟨Nat.zero_le _, ?_⟩
  have hname := small_userInfo hw hs hlogged
  have hline := length_cStr_le content
  unfold maxChatMessageBytes at hlen
  change (cStr session.displayName).length + (cStr content).length ≤ 1024
  omega

/-- The three rooms of the constructor are all there are. -/
theorem RoomSystem.Consistent.room_ids {rs : RoomSystem} (h : rs.Consistent) {r : UInt32}
    {room : RoomState} (hr : rs.findRoom r = some room) : r ∈ [1001, 1002, 1003] := by
  have hfix := h.rooms_fixed r
  rw [hr, RoomSystem.findRoom_init, Option.map_some] at hfix
  split_ifs at hfix with h3 h2 h1
  · rw [← h3]
    exact .tail _ (.tail _ (.head _))
  · rw [← h2]
    exact .tail _ (.head _)
  · rw [← h1]
    exact .head _
  · exact absurd hfix (by simp only [Option.map_none, reduceCtorEq, not_false_eq_true])

/-- The rooms that a list of all rooms visits. -/
theorem RoomSystem.mem_roomIds (rs : RoomSystem) (it : Iteration) (r : UInt32) :
    r ∈ it.order (UnorderedSet.ofKeys rs.rooms.keys) ↔ ∃ room, rs.findRoom r = some room := by
  rw [it.mem_order, UnorderedSet.mem_ofKeys, Std.ExtTreeMap.mem_keys,
    Std.ExtTreeMap.mem_iff_isSome_getElem?, Option.isSome_iff_exists]
  rfl

theorem small_roomList (env : Env) {rs : RoomSystem} (hw : rs.WellFormed) (requestId : UInt32) :
    (roomListMessage env rs requestId).Small := by
  -- The visited ids are distinct and among three.
  have hids : (env.order (UnorderedSet.ofKeys rs.rooms.keys)).length ≤ 3 := by
    have hsub : env.order (UnorderedSet.ofKeys rs.rooms.keys) ⊆ [1001, 1002, 1003] := by
      intro r hr
      rcases (rs.mem_roomIds env.toIteration r).mp hr with ⟨room, hroom⟩
      exact hw.toConsistent.room_ids hroom
    exact (List.Nodup.subperm (env.nodup_order _) hsub).length_le
  have hrooms : ((env.order (UnorderedSet.ofKeys rs.rooms.keys)).filterMap
      fun roomId => (rs.findRoom roomId).map buildRoomInfo).length ≤ 3 :=
    (List.length_filterMap_le _ _).trans hids
  refine ⟨hrooms, ?_⟩
  have hsum := List.sum_le_card_nsmul (((env.order (UnorderedSet.ofKeys rs.rooms.keys)).filterMap
      fun roomId => (rs.findRoom roomId).map buildRoomInfo).map RoomInfo.nameLength) 32 (by
    intro n hn
    rcases List.mem_map.mp hn with ⟨info, hinfo, rfl⟩
    rcases List.mem_filterMap.mp hinfo with ⟨r, _, hr⟩
    rcases Option.map_eq_some_iff.mp hr with ⟨room, hroom, rfl⟩
    exact (length_cStr_le _).trans (hw.toConsistent.length_roomName_le hroom))
  rw [List.length_map, smul_eq_mul] at hsum
  change (List.map RoomInfo.nameLength _).sum ≤ 1024
  omega

/-- Names have passed the login check, lines the chat check, and the texts are
    literals. -/
theorem small_of_builds {env : Env} {rs : RoomSystem} (hw : rs.WellFormed) {event : ServerEvent}
    (hevent : event.Brief) {m : Message} (h : Builds env rs event m) : m.Small := by
  cases h with
  | invalidPacket s text => exact small_systemMessage 0 hevent
  | loginRefused s requestId name code => exact ⟨Nat.zero_le _, Nat.zero_le _⟩
  | loginAccepted s requestId name session hacc =>
      refine ⟨Nat.zero_le _, ?_⟩
      change (cStr name).length ≤ 1024
      exact (length_cStr_le name).trans (hacc.2.2.1.trans (by decide))
  | roomList s requestId => exact small_roomList env hw requestId
  | joinRefused s requestId r code => exact ⟨Nat.zero_le _, Nat.zero_le _⟩
  | joinAccepted s requestId r room hr =>
      refine ⟨Nat.le_add_left 1 2, ?_⟩
      change (cStr room.roomName).length ≤ 1024
      exact (length_cStr_le _).trans ((hw.toConsistent.length_roomName_le hr).trans (by decide))
  | welcome s requestId r room hr =>
      refine small_systemMessage r ?_
      have hname := hw.toConsistent.length_roomName_le hr
      have htext : (utf8 " 방에 입장했습니다.").length ≤ 32 := Nat.le_of_ble_eq_true rfl
      rw [List.length_append]
      omega
  | arrival s requestId r t q session ht hlogged =>
      exact ⟨Nat.zero_le _, (small_userInfo hw ht hlogged).trans (by decide)⟩
  | departure event t session ht hlogged =>
      exact ⟨Nat.zero_le _, (small_userInfo hw ht hlogged).trans (by decide)⟩
  | chatRefused s requestId r content text htext =>
      refine small_systemMessage r ?_
      have hall : ∀ text ∈ chatRefusals, text.length ≤ 1024 := by decide
      exact hall text htext
  | chat s requestId content session timestamp hs hlogged hlen =>
      exact small_chatBroadcast hw hs hlogged hlen timestamp
  | leaveRefused s requestId => exact ⟨Nat.zero_le _, Nat.zero_le _⟩
  | leaveAccepted s requestId => exact ⟨Nat.zero_le _, Nat.zero_le _⟩
  | goodbye s requestId r => exact small_systemMessage r (Nat.le_of_ble_eq_true rfl)
  | disconnect s requestId => exact ⟨Nat.zero_le _, Nat.zero_le _⟩

/-- The guard of `QueueMessage` drops nothing of what a brief event builds. -/
theorem Env.Compact.filter_effect {env : Env} (h : env.Compact) {rs : RoomSystem}
    (hw : rs.WellFormed) {event : ServerEvent} (hevent : event.Brief) (reads : Nat) :
    (effect env reads rs event).messages.filter (fun out => env.fits out.payload)
      = (effect env reads rs event).messages := by
  refine List.filter_eq_self.mpr (fun out hout => ?_)
  exact h.fits (small_of_builds hw hevent (builds_of_mem hw hout))

namespace GameLogicSystem

/-- Everything handed to `QueueMessage` in a run is small. -/
theorem small_update {env : Env} {events : List ServerEvent}
    (hevents : ∀ event ∈ events, event.Brief) {g : GameLogicSystem}
    (hw : g.roomSystem.WellFormed) (hg : ∀ out ∈ g.built, out.payload.Small) :
    ∀ out ∈ (update env g events).built, out.payload.Small := by
  induction events generalizing g with
  | nil => exact hg
  | cons event events ih =>
      refine ih (fun event' hmem => hevents event' (List.mem_cons_of_mem _ hmem))
        (wellFormed_handleEvent env hw event) (fun out hout => ?_)
      rw [(handleEvent_performs env hw event).built] at hout
      rcases List.mem_append.mp hout with hout | hout
      · exact hg out hout
      · exact small_of_builds hw (hevents event List.mem_cons_self) (builds_of_mem hw hout)

end GameLogicSystem

/-! ### The limits, one after the other -/

/-- In every run on events of `Receive`, each call of `QueueMessage` passes its
    guard and the guard of `send`, the frame built for it is not empty and fits
    a block, and the peer reads its header and finds the buffer behind it. So
    each call leads to one message and each message to one posted frame. -/
theorem limits_never_reached (codec : Codec) (hcompact : codec.Compact) (packets : List Packet) :
    let g := GameLogicSystem.update codec.toEnv .initial (receive codec packets)
    (∀ call ∈ g.queueCalls,
      let data := codec.buildMessage call.message
      codec.fits call.message = true ∧
      (data ≠ [] ∧ data.length ≤ 2048) ∧
      (∀ pool,
        let frame := (BufferPool.buildDataFrame pool data).1.data
        frame ≠ [] ∧ frame.length ≤ blockSize ∧
        decodeHeader (frame.take headerSize)
          = .ok ⟨magic, version, 0, UInt32.ofNat data.length⟩ ∧
        frame.drop headerSize = data) ∧
      ∀ s : Server, s.queue.shuttingDown = false → s.send call.sessionId data
        = { s with strand := s.strand ++ [.send call.sessionId (buildDataFrame data)] }) ∧
    g.outgoingMessages = g.queueCalls.map QueueCall.outgoing := by
  intro g
  have hsmall : ∀ out ∈ g.built, out.payload.Small :=
    GameLogicSystem.small_update (brief_receive codec packets) RoomSystem.wellFormed_init
      (fun out hout => absurd hout List.not_mem_nil)
  have hfits : ∀ call ∈ g.queueCalls, codec.fits call.message = true := fun call hcall =>
    hcompact.fits (hsmall call.outgoing (List.mem_map_of_mem hcall))
  refine ⟨fun call hcall => ?_, ?_⟩
  · have hsendable := (codec.fits_iff call.message).mp (hfits call hcall)
    refine ⟨hfits call hcall, hsendable, BufferPool.frame_passes hsendable,
      fun s hup => ?_⟩
    rw [Server.send_strand hup, if_pos hsendable]
  · exact GameLogicSystem.outgoingMessages_update codec.toEnv _ hfits

/-- A connection and a packet that is no message. -/
theorem limits_never_reached_invalid :
    let g := GameLogicSystem.update plainCodec.toEnv .initial
      (receive plainCodec [⟨.connect, 1, []⟩, ⟨.data, 1, [7]⟩])
    g.queueCalls.length = 1 ∧ g.outgoingMessages = g.queueCalls.map QueueCall.outgoing := by
  refine ⟨?_, (limits_never_reached plainCodec compact_plainCodec _).2⟩
  decide

end ProjectNight
