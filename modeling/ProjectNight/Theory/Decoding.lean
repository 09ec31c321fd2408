import ProjectNight.Lib.Machine
import ProjectNight.Theory.Buffers

/-!
# Decoding Packets

`DecodeProtocolPacket` over every payload a peer can send. A payload that
fails verification, or whose type the server does not handle, becomes an
`InvalidPacketEvent`, and a request becomes the event of its type. Three
request types are read through a table that may be absent: the type byte of
the union is set, its value is not, and verification accepts that. For those
the decoder leaves the switch without an event, so the packet is gone, and
nothing is said to its sender. The other null check of the same function, the
one on the root, reports an invalid packet.

`receive` is what the loop of `Receive` makes of the packets it polls, in the
order it polls them. The game logic is never given anything else
(`GameServer.received_run`). Its events correspond one to one to the packets as
long as no such packet is among them.

## Main definitions

* `MessagePayload.isHandled`, `Message.request`: The requests of the server.
* `AccountedFor`: A payload leads to the one event it should lead to.
* `TableMissing`: A request that is read through an absent table.
* `receive`, `EventPerPacket`: A sequence of packets, and one event for each.
* `GameServer.Received`: What the loop holds and has handled.

## Theorems

* `decodeProtocolPacket_eq_nil`: The payloads that lead to no event.
* `accounted_iff`: The others are accounted for.
* `decodeProtocolPacket_request`: A request is decoded as it was built.
* `GameServer.received_run`: The loop, in every run.
* `packets_accounted`: One payload, and a sequence of packets.
-/

namespace ProjectNight

/-- The payload types that `DecodeProtocolPacket` has a case for. -/
def MessagePayload.isHandled : MessagePayload → Bool
  | .loginRequest _ | .roomListRequest _ | .joinRoomRequest _ | .chatSendRequest _
  | .leaveRoomRequest _ | .disconnectRequest _ => true
  | _ => false

/-- The event that the request in a message asks for: its type, the request id
    and the fields of its table. -/
def Message.request (sessionId : UInt32) (m : Message) : Option ServerEvent :=
  match m.payload with
  | .loginRequest (some table) =>
    some (.loginRequest sessionId m.requestId (toUtf8 table.displayName))
  | .roomListRequest (some _) => some (.roomListRequest sessionId m.requestId)
  | .joinRoomRequest (some table) => some (.joinRoomRequest sessionId m.requestId table.roomId)
  | .chatSendRequest (some table) =>
    some (.chatSendRequest sessionId m.requestId (toUtf8 table.content))
  | .leaveRoomRequest (some _) => some (.leaveRoomRequest sessionId m.requestId)
  | .disconnectRequest (some _) => some (.disconnectRequest sessionId m.requestId)
  | _ => none

def ServerEvent.isInvalidPacket : ServerEvent → Bool
  | .invalidPacket _ _ => true
  | _ => false

/-- The event is the request event of a payload type. -/
def ServerEvent.isRequestOf : MessagePayload → ServerEvent → Bool
  | .loginRequest _, .loginRequest _ _ _ | .roomListRequest _, .roomListRequest _ _
  | .joinRoomRequest _, .joinRoomRequest _ _ _ | .chatSendRequest _, .chatSendRequest _ _ _
  | .leaveRoomRequest _, .leaveRoomRequest _ _
  | .disconnectRequest _, .disconnectRequest _ _ => true
  | _, _ => false

/-- The events a payload may lead to: an invalid packet when it fails
    verification or has a type that is not handled, the request when there is
    one with its table, and one of the two kinds otherwise. -/
def ServerEvent.Answers (codec : Codec) (sessionId : UInt32) (data : Bytes)
    (event : ServerEvent) : Prop :=
  match codec.verifiedMessage data with
  | none => event.isInvalidPacket = true
  | some m =>
    (m.payload.isHandled = false → event.isInvalidPacket = true) ∧
    (∀ request, m.request sessionId = some request → event = request) ∧
    (event.isInvalidPacket = true ∨ event.isRequestOf m.payload = true)

/-- A payload of a session leads to one event, of that session, and the right
    one. -/
def AccountedFor (codec : Codec) (sessionId : UInt32) (data : Bytes) : Prop :=
  ∃ event, decodeProtocolPacket codec sessionId data = [event] ∧
    event.sessionId = sessionId ∧ event.Answers codec sessionId data

/-- A union whose type is one of the three that are read through their table,
    and whose value is absent. -/
def MessagePayload.isTableMissing : MessagePayload → Bool
  | .loginRequest none | .joinRoomRequest none | .chatSendRequest none => true
  | _ => false

/-- The payload passes verification, and its request has no table. -/
def TableMissing (codec : Codec) (data : Bytes) : Prop :=
  ∃ m, codec.verifiedMessage data = some m ∧ m.payload.isTableMissing = true

section Decoding

variable (codec : Codec)

theorem decodeProtocolPacket_eq_nil (sessionId : UInt32) (data : Bytes) :
    decodeProtocolPacket codec sessionId data = [] ↔ TableMissing codec data := by
  unfold decodeProtocolPacket TableMissing
  cases hm : codec.verifiedMessage data with
  | none => simp
  | some m =>
      rcases m with ⟨requestId, payload⟩
      simp only [Option.some.injEq, exists_eq_left']
      cases payload with
      | loginRequest table => cases table <;> simp [MessagePayload.isTableMissing]
      | joinRoomRequest table => cases table <;> simp [MessagePayload.isTableMissing]
      | chatSendRequest table => cases table <;> simp [MessagePayload.isTableMissing]
      | _ => simp [MessagePayload.isTableMissing]

/-- Whatever else the payload is, it leads to its event. -/
theorem accounted_of_table (sessionId : UInt32) {data : Bytes} (h : ¬ TableMissing codec data) :
    AccountedFor codec sessionId data := by
  unfold AccountedFor ServerEvent.Answers
  unfold TableMissing at h
  unfold decodeProtocolPacket
  cases hm : codec.verifiedMessage data with
  | none => exact ⟨_, rfl, rfl, rfl⟩
  | some m =>
      rcases m with ⟨requestId, payload⟩
      simp only [hm, Option.some.injEq, exists_eq_left'] at h
      -- A request that is handled is not one of the others.
      have hrequest : ∀ {event : ServerEvent},
          (∀ request, Message.request sessionId ⟨requestId, payload⟩ = some request →
            event = request) → event.isRequestOf payload = true → payload.isHandled = true →
          (payload.isHandled = false → event.isInvalidPacket = true) ∧
          (∀ request, Message.request sessionId ⟨requestId, payload⟩ = some request →
            event = request) ∧
          (event.isInvalidPacket = true ∨ event.isRequestOf payload = true) := by
        intro event hsame hkind hhandled
        refine ⟨fun hnot => ?_, hsame, Or.inr hkind⟩
        rw [hhandled] at hnot
        cases hnot
      cases payload with
      | loginRequest table =>
          cases table with
          | none => exact absurd rfl h
          | some table =>
              exact ⟨_, rfl, rfl, hrequest (fun _ hr => Option.some.inj hr) rfl rfl⟩
      | joinRoomRequest table =>
          cases table with
          | none => exact absurd rfl h
          | some table =>
              exact ⟨_, rfl, rfl, hrequest (fun _ hr => Option.some.inj hr) rfl rfl⟩
      | chatSendRequest table =>
          cases table with
          | none => exact absurd rfl h
          | some table =>
              exact ⟨_, rfl, rfl, hrequest (fun _ hr => Option.some.inj hr) rfl rfl⟩
      -- The other three are not read through their table.
      | roomListRequest table =>
          refine ⟨_, rfl, rfl, hrequest (fun request hr => ?_) rfl rfl⟩
          cases table with
          | none => cases hr
          | some table => exact Option.some.inj hr
      | leaveRoomRequest table =>
          refine ⟨_, rfl, rfl, hrequest (fun request hr => ?_) rfl rfl⟩
          cases table with
          | none => cases hr
          | some table => exact Option.some.inj hr
      | disconnectRequest table =>
          refine ⟨_, rfl, rfl, hrequest (fun request hr => ?_) rfl rfl⟩
          cases table with
          | none => cases hr
          | some table => exact Option.some.inj hr
      | _ =>
          refine ⟨_, rfl, rfl, fun _ => rfl, fun request hr => ?_, Or.inl rfl⟩
          cases hr

theorem accounted_iff (sessionId : UInt32) (data : Bytes) :
    AccountedFor codec sessionId data ↔ ¬ TableMissing codec data := by
  refine ⟨?_, accounted_of_table codec sessionId⟩
  rintro ⟨event, hevent, _⟩ hmissing
  rw [(decodeProtocolPacket_eq_nil codec sessionId data).mpr hmissing] at hevent
  cases hevent

theorem request_of_isTableMissing {m : Message} (h : m.payload.isTableMissing = true)
    (sessionId : UInt32) : m.request sessionId = none := by
  rcases m with ⟨requestId, payload⟩
  unfold MessagePayload.isTableMissing at h
  split at h
  · rename_i heq
    rw [Message.request, heq]
  · rename_i heq
    rw [Message.request, heq]
  · rename_i heq
    rw [Message.request, heq]
  · exact absurd h Bool.false_ne_true

/-- A request that was built by a peer is decoded to its event. -/
theorem decodeProtocolPacket_request {codec : Codec} (hfaithful : codec.Faithful) {m : Message}
    (hfits : codec.fits m = true) {sessionId : UInt32} {event : ServerEvent}
    (hrequest : m.request sessionId = some event) :
    decodeProtocolPacket codec sessionId (codec.buildMessage m) = [event] := by
  have hverified := hfaithful m hfits
  have htable : ¬ TableMissing codec (codec.buildMessage m) := by
    rintro ⟨m', hm', hmissing⟩
    rw [hverified, Option.some.injEq] at hm'
    rw [← hm'] at hmissing
    rw [request_of_isTableMissing hmissing sessionId] at hrequest
    exact absurd hrequest.symm (Option.some_ne_none event)
  rcases accounted_of_table codec sessionId htable with ⟨decoded, hdecoded, _, hanswers⟩
  unfold ServerEvent.Answers at hanswers
  rw [hverified] at hanswers
  rw [hdecoded, hanswers.2.1 event hrequest]

/-! ### The loop of `Receive` -/

/-- The events `Receive` returns, when it polls these packets. -/
def receive (packets : List Packet) : List ServerEvent := packets.flatMap (receivePacket codec)

theorem receive_append (packets packets' : List Packet) :
    receive codec (packets ++ packets') = receive codec packets ++ receive codec packets' :=
  List.flatMap_append

theorem receive_singleton (packet : Packet) :
    receive codec [packet] = receivePacket codec packet :=
  List.flatMap_singleton _ _

/-- The events the loop holds. -/
def Phase.events : Phase → List ServerEvent
  | .receive events | .update events => events
  | .flush _ _ => []

/-- What the loop has handled and what it holds are the events of packets. -/
structure GameServer.Received (g : GameServer) : Prop where
  handled : ∃ polled, g.handled = receive codec polled
  held : ∃ polled, g.phase.events = receive codec polled

theorem GameServer.received_gameStep {g : GameServer} (h : g.Received codec) :
    (g.gameStep codec).Received codec := by
  rcases h.held with ⟨polled, hpolled⟩
  unfold gameStep
  cases hphase : g.phase with
  | receive events =>
      rw [hphase] at hpolled
      cases hpoll : g.server.queue.pollPacket with
      | none => exact ⟨h.handled, polled, hpolled⟩
      | some result =>
          refine ⟨h.handled, polled ++ [result.1], ?_⟩
          rw [receive_append, receive_singleton, ← hpolled]
          rfl
  | update events =>
      rw [hphase] at hpolled
      rcases h.handled with ⟨before, hbefore⟩
      refine ⟨⟨before ++ polled, ?_⟩, [], rfl⟩
      rw [receive_append, ← hbefore, ← hpolled]
      rfl
  | flush messages disconnects =>
      rcases messages with _ | ⟨message, messages⟩
      · rcases disconnects with _ | ⟨sessionId, disconnects⟩
        · exact ⟨h.handled, [], rfl⟩
        · exact ⟨h.handled, [], rfl⟩
      · exact ⟨h.handled, [], rfl⟩

/-- In every run, with handlers of the transport between any two polls, the game
    logic is given events of `receive` and nothing else. -/
theorem GameServer.received_run {actions : List Action} {g : GameServer}
    (hrun : Machine.run (step codec) {} actions = some g) : g.Received codec := by
  refine Machine.invariant (fun g action g' h hstep => ?_) hrun ⟨⟨[], rfl⟩, [], rfl⟩
  cases action with
  | io action =>
      rcases Option.map_eq_some_iff.mp hstep with ⟨server, _, rfl⟩
      exact ⟨h.handled, h.held⟩
  | game => exact Option.some.inj hstep ▸ received_gameStep codec h

/-- Every packet has one event, which it leads to, in the same order. -/
def EventPerPacket (packets : List Packet) : Prop :=
  List.Forall₂ (fun packet event => receivePacket codec packet = [event] ∧
    event.sessionId = packet.sessionId) packets (receive codec packets)

/-- The packet is a payload whose request has no table. -/
def Packet.Swallowed (packet : Packet) : Prop :=
  packet.type = .data ∧ TableMissing codec packet.data

theorem receivePacket_of_not_swallowed {packet : Packet} (h : ¬ packet.Swallowed codec) :
    ∃ event, receivePacket codec packet = [event] ∧ event.sessionId = packet.sessionId := by
  unfold receivePacket
  cases htype : packet.type with
  | connect => exact ⟨_, rfl, rfl⟩
  | disconnect => exact ⟨_, rfl, rfl⟩
  | data =>
      rcases accounted_of_table codec packet.sessionId (fun hm => h ⟨htype, hm⟩) with
        ⟨event, hevent, hsession, _⟩
      exact ⟨event, hevent, hsession⟩

theorem eventPerPacket_iff (packets : List Packet) :
    EventPerPacket codec packets ↔ ∀ packet ∈ packets, ¬ packet.Swallowed codec := by
  unfold EventPerPacket receive
  constructor
  · intro hall packet hmem hswallowed
    have hnone : receivePacket codec packet = [] := by
      unfold receivePacket
      rw [hswallowed.1]
      exact (decodeProtocolPacket_eq_nil codec _ _).mpr hswallowed.2
    generalize packets.flatMap (receivePacket codec) = events at hall
    induction hall with
    | nil => cases hmem
    | cons hhead _ ih =>
        rcases List.mem_cons.mp hmem with rfl | htail
        · rw [hnone] at hhead
          cases hhead.1
        · exact ih htail
  · intro hnone
    induction packets with
    | nil => exact List.Forall₂.nil
    | cons packet packets ih =>
        rcases receivePacket_of_not_swallowed codec (hnone packet List.mem_cons_self) with
          ⟨event, hevent, hsession⟩
        rw [List.flatMap_cons, hevent, List.singleton_append]
        exact .cons ⟨hevent, hsession⟩
          (ih fun packet hmem => hnone packet (List.mem_cons_of_mem _ hmem))

/-- A payload is accounted for exactly when it is no request without its table,
    and the events of a sequence of packets correspond one to one to the
    packets exactly when no such payload is among them. -/
theorem packets_accounted :
    (∀ sessionId data, AccountedFor codec sessionId data ↔ ¬ TableMissing codec data) ∧
    ∀ packets, EventPerPacket codec packets ↔
      ∀ packet ∈ packets, ¬ packet.Swallowed codec :=
  ⟨accounted_iff codec, eventPerPacket_iff codec⟩

end Decoding

/-- A login request without its table: the buffer passes verification, and no
    event comes of it. -/
theorem not_accounted_loginWithoutTable :
    plainCodec.buildMessage ⟨7, .loginRequest none⟩ ≠ [] ∧
      plainCodec.verifiedMessage (plainCodec.buildMessage ⟨7, .loginRequest none⟩)
        = some ⟨7, .loginRequest none⟩ ∧
      ¬ AccountedFor plainCodec 1 (plainCodec.buildMessage ⟨7, .loginRequest none⟩) := by
  have hverified : plainCodec.verifiedMessage (plainCodec.buildMessage ⟨7, .loginRequest none⟩)
      = some ⟨7, .loginRequest none⟩ := by decide +kernel
  refine ⟨by decide +kernel, hverified, ?_⟩
  rw [accounted_iff, not_not]
  exact ⟨_, hverified, rfl⟩

end ProjectNight
