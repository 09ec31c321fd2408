import ProjectNight.Theory.Network
import ProjectNight.Theory.Screen

/-!
# From Window to Window

What the layers amount to when they are put on top of each other: the events
the game handles for a client are the decoding of what the client was given to
send, and the events a client is shown are those of the messages that a single
`Update` of everything handled queues for its session. Both are in order, and
nothing is made up, repeated or taken from somebody else's connection.

Something may be missing at the end, because it is still on its way or because
a connection was lost. Something may be missing in between only when a receive
queue was full, and then `dropped_packets` says so: on each side the counter is
compared with the log of what was read (`Tallied`).

## Main definitions

* `ServerEvent.isMessage`: Events that come from a payload.
* `countedIn`: What a log counts as dropped.
* `Network.Tallied`: The counters and the logs agree.

## Theorems

* `receive_payloads`: The events of a session and the payloads they come from.
* `Delivers.sublist`, `Delivers.isPrefix`: In order, and without gaps when
  nothing was counted as dropped.
* `Network.tallied_step`: Every step keeps the tally.
* `Network.end_to_end`: Both ways, in every run.
-/

namespace ProjectNight

open Wire

/-! ### From packets to events -/

/-- Events that come from a payload; the other two announce a session or its
    end. -/
def ServerEvent.isMessage : ServerEvent → Bool
  | .sessionConnected _ | .sessionDisconnected _ => false
  | _ => true

theorem isMessage_of_mem_decode {codec : Codec} {id : UInt32} {data : Bytes}
    {event : ServerEvent} (h : event ∈ decodeProtocolPacket codec id data) :
    event.isMessage = true ∧ event.sessionId = id := by
  have hpacket : event ∈ receivePacket codec ⟨.data, id, data⟩ := h
  refine ⟨?_, sessionId_of_mem_receivePacket hpacket⟩
  unfold decodeProtocolPacket at h
  split at h
  · rw [List.mem_singleton.mp h]
    rfl
  · split at h
    all_goals first
      | exact absurd h List.not_mem_nil
      | (rw [List.mem_singleton.mp h]; rfl)

/-- The messages of a session among the events of some packets are the decoding
    of its payloads among the packets. -/
theorem receive_payloads (codec : Codec) (id : UInt32) (packets : List Packet) :
    (receive codec packets).filter (fun e => e.isMessage && e.sessionId = id)
      = ((packets.filter (Connection.isPayload id)).map Packet.data).flatMap
        (decodeProtocolPacket codec id) := by
  induction packets with
  | nil => rfl
  | cons packet packets ih =>
      have hhead : (receivePacket codec packet).filter
          (fun e => e.isMessage && e.sessionId = id)
          = if Connection.isPayload id packet then decodeProtocolPacket codec id packet.data
            else [] := by
        by_cases hpayload : Connection.isPayload id packet = true
        · rcases of_decide_eq_true hpayload with ⟨htype, hid⟩
          rw [if_pos hpayload]
          unfold receivePacket
          rw [htype, hid]
          refine List.filter_eq_self.mpr (fun e he => ?_)
          rw [(isMessage_of_mem_decode he).1, (isMessage_of_mem_decode he).2]
          exact decide_eq_true rfl
        · rw [if_neg hpayload, List.filter_eq_nil_iff]
          intro e he hboth
          rw [Bool.and_eq_true, decide_eq_true_eq] at hboth
          refine hpayload (decide_eq_true ⟨?_, ?_⟩)
          · -- Only a payload leads to a message.
            cases htype : packet.type with
            | data => rfl
            | connect =>
                simp only [receivePacket, htype, List.mem_singleton] at he
                rw [he] at hboth
                exact absurd hboth.1 Bool.false_ne_true
            | disconnect =>
                simp only [receivePacket, htype, List.mem_singleton] at he
                rw [he] at hboth
                exact absurd hboth.1 Bool.false_ne_true
          · exact (sessionId_of_mem_receivePacket he).symm.trans hboth.2
      have hsplit : receive codec (packet :: packets)
          = receivePacket codec packet ++ receive codec packets := List.flatMap_cons
      rw [hsplit, List.filter_append, hhead, ih, List.filter_cons]
      by_cases hpayload : Connection.isPayload id packet = true
      · rw [if_pos hpayload, if_pos hpayload, List.map_cons, List.flatMap_cons]
      · rw [if_neg hpayload, if_neg hpayload, List.nil_append]

/-! ### What a direction delivers, once more -/

/-- What came through came in order. -/
theorem Delivers.sublist {sent polled inQueue : List Bytes} {log : List Reading}
    (h : Delivers sent log polled inQueue) : (polled ++ inQueue).Sublist sent := by
  rw [← h.queued]
  exact (List.filter_sublist.map _).trans h.read.sublist

/-- And without gaps, when nothing was counted as dropped. -/
theorem Delivers.isPrefix {sent polled inQueue : List Bytes} {log : List Reading}
    (h : Delivers sent log polled inQueue) (hnone : ∀ e ∈ log, e.counted = 0) :
    polled ++ inQueue <+: sent := by
  have hsame : log.filter Reading.queued = log.filter Reading.accounted := by
    refine List.filter_congr (fun e he => ?_)
    unfold Reading.accounted
    rw [hnone e he]
    exact (Bool.or_false _).symm
  rw [← h.queued, hsame]
  exact h.delivered

/-! ### The counters -/

def countedIn (log : List Reading) : Nat := (log.map Reading.counted).sum

theorem countedIn_append (log new : List Reading) :
    countedIn (log ++ new) = countedIn log + countedIn new := by
  unfold countedIn
  rw [List.map_append, List.sum_append]

theorem counted_of_countedIn {log : List Reading} (h : countedIn log = 0) :
    ∀ e ∈ log, e.counted = 0 := by
  intro e he
  unfold countedIn at h
  exact List.sum_eq_zero_iff.mp h _ (List.mem_map_of_mem he)

/-- A push that is refused is counted, and nothing else is. -/
theorem PacketQueue.droppedPackets_push (q : PacketQueue) (packet : Packet) :
    q.droppedPackets ≤ (q.pushPacket packet).2.droppedPackets := by
  unfold pushPacket
  split_ifs
  · exact le_rfl
  · exact le_rfl
  · exact Nat.le_succ _

theorem Server.droppedPackets_accept (s : Server) :
    s.queue.droppedPackets ≤ s.onAccept.queue.droppedPackets := by
  unfold onAccept
  have hpush := s.queue.droppedPackets_push ⟨.connect, s.nextId, []⟩
  simp only
  split_ifs
  · exact le_rfl
  · exact hpush
  · exact hpush

/-- A handler of a session raises the counter by what its log says, and by one
    more when the `Disconnect` found no room. -/
theorem Server.droppedPackets_session (s : Server) (index : Nat) {session session' : Session}
    {action : SessionAction} {effects : List SessionEffect}
    (hstep : session.step action = some (session', effects)) :
    s.queue.droppedPackets + countedIn (Network.serverReadings s
        (s.onSession index session (session', effects)) session action)
      ≤ (s.onSession index session (session', effects)).queue.droppedPackets := by
  have hread := (Session.step_change hstep).readPayloads_eq
  have hreadings : Network.serverReadings s (s.onSession index session (session', effects))
      session action = (session.readPayloads action).map
        (Connection.serverReading s (s.onSession index session (session', effects))) := by
    cases action with
    | read => rfl
    | _ => rfl
  rw [hreadings, hread]
  unfold onSession
  cases (Session.step_outcome hstep).2 with
  | silent => exact le_rfl
  | receives size data =>
      have hpush := s.queue.droppedPackets_push ⟨.data, session.id, data⟩
      simp only [List.filterMap_cons, SessionEffect.payload?, List.filterMap_nil, List.map_cons,
        List.map_nil, countedIn, List.sum_cons, List.sum_nil, Connection.serverReading,
        List.foldl_cons, List.foldl_nil, applyEffect]
      omega
  | closes => exact s.queue.droppedPackets_push ⟨.disconnect, session.id, []⟩

/-- What the log says of a payload is how far the counter rose. -/
theorem Connection.counted_of_mem_clientReadings {before after : Client} {action : ClientAction}
    {e : Reading} (he : e ∈ clientReadings before after action) :
    e.counted = after.droppedPackets - before.droppedPackets := by
  unfold clientReadings at he
  split at he
  · split_ifs at he
    · rcases List.mem_map.mp he with ⟨payload, _, rfl⟩
      rfl
    · exact absurd he List.not_mem_nil
  · rcases List.mem_map.mp he with ⟨payload, _, rfl⟩
    rfl
  · exact absurd he List.not_mem_nil

/-- The counter of the client is raised by what its log says. -/
theorem Client.droppedPackets_step {c client : Client} {action : ClientAction}
    (hstep : c.step action = some client) :
    c.droppedPackets + countedIn (Connection.clientReadings c client action)
      = client.droppedPackets := by
  by_cases hcopy : action = .copied
  · rw [hcopy] at hstep ⊢
    rcases Option.map_eq_some_iff.mp hstep with ⟨bytes, hcopied, rfl⟩
    have hmono : c.droppedPackets ≤ (c.onCopied bytes).droppedPackets := by
      unfold onCopied
      by_cases hdown : c.shuttingDown = true
      · rw [if_pos hdown]
      · rw [if_neg hdown]
        by_cases hroom : c.receiveQueue.length < receiveQueueCapacity
        · rw [if_pos hroom]
        · rw [if_neg hroom]
          exact Nat.le_succ _
    simp only [Connection.clientReadings, hcopied, Option.toList_some, List.map_cons,
      List.map_nil, countedIn, List.sum_cons, List.sum_nil, Connection.clientReading]
    omega
  · have hsame := (Client.step_change hstep).droppedPackets_same hcopy
    -- What the first half logs is a rise of nothing.
    have hnone : countedIn (Connection.clientReadings c client action) = 0 := by
      unfold countedIn
      refine List.sum_eq_zero_iff.mpr (fun k hk => ?_)
      rcases List.mem_map.mp hk with ⟨e, he, rfl⟩
      rw [Connection.counted_of_mem_clientReadings he, hsame, Nat.sub_self]
    rw [hnone, hsame, Nat.add_zero]

namespace Network

variable {codec : Codec} {n : Network}

/-- The counter of every client is what its log adds up to, and the counter of
    the server is at least what the log of any one link does. -/
def Tallied (n : Network) : Prop :=
  ∀ (k : Nat) (link : Link), n.links[k]? = some link →
    countedIn link.clientLog = link.client.droppedPackets ∧
    countedIn link.serverLog ≤ n.host.server.queue.droppedPackets

theorem droppedPackets_ioStep {s t : Server} {action : IoAction} (h : s.ioStep action = some t) :
    s.queue.droppedPackets ≤ t.queue.droppedPackets := by
  rcases Server.ioStep_cases h with ⟨_, ht⟩ | ⟨index, session, session', sessionAction, effects,
    _, _, hstep, ht⟩ | ⟨_, hqueue, _⟩
  · rw [ht]
    exact s.droppedPackets_accept
  · rw [ht]
    exact le_trans (Nat.le_add_right _ _) (s.droppedPackets_session index hstep)
  · rw [hqueue]

theorem droppedPackets_gameStep (g : GameServer) :
    (g.gameStep codec).server.queue.droppedPackets = g.server.queue.droppedPackets := by
  unfold GameServer.gameStep
  split
  · split
    · next packet queue hpoll =>
        unfold PacketQueue.pollPacket at hpoll
        split at hpoll
        · exact absurd hpoll (by simp only [reduceCtorEq, not_false_eq_true])
        · rw [Option.some.injEq, Prod.mk.injEq] at hpoll
          rw [← hpoll.2]
    · rfl
  · rfl
  · next message messages disconnects _ =>
      rcases g.server.send_eq message.sessionId (codec.buildMessage message.payload) with
        ⟨strand, hsend⟩
      simp only [hsend]
  · next sessionId disconnects _ =>
      rcases g.server.disconnect_eq sessionId with ⟨strand, hdisconnect⟩
      simp only [hdisconnect]
  · rfl

/-- Replacing one link, when the server's counter does not fall. -/
theorem Tallied.setLink (h : Tallied n) {t : Server} {k : Nat} {link link' : Link}
    (hlink : n.links[k]? = some link)
    (hserver : n.host.server.queue.droppedPackets ≤ t.queue.droppedPackets)
    (hnew : countedIn link'.clientLog = link'.client.droppedPackets ∧
      countedIn link'.serverLog ≤ t.queue.droppedPackets) :
    Tallied { n.setServer t with links := n.links.set k link' } := by
  intro j other hj
  by_cases heq : j = k
  · have hlt := (List.getElem?_eq_some_iff.mp hlink).1
    simp only at hj
    rw [heq, List.getElem?_set_self hlt, Option.some.injEq] at hj
    rw [← hj]
    exact hnew
  · simp only at hj
    rw [List.getElem?_set_ne (fun hk => heq hk.symm)] at hj
    exact ⟨(h j other hj).1, le_trans (h j other hj).2 hserver⟩

theorem tallied_session (h : Tallied n) {t : Server} {k index : Nat} {link link' : Link}
    {side : SessionSide} (hlink : n.links[k]? = some link)
    (hside : sessionStep n.host.server link index side = some (t, link')) :
    Tallied { n.setServer t with links := n.links.set k link' } := by
  have hold := h k link hlink
  cases side with
  | handler action =>
      rw [sessionStep] at hside
      cases hobject : n.host.server.objects[index]? with
      | none => simp only [hobject, reduceCtorEq] at hside
      | some session =>
          simp only [hobject] at hside
          split_ifs at hside
          rcases Option.map_eq_some_iff.mp hside with ⟨server, hio, heq⟩
          simp only [Server.ioStep, hobject, Option.map_eq_some_iff] at hio
          rcases hio with ⟨⟨session', effects⟩, hhandler, hserver⟩
          rw [Prod.mk.injEq] at heq
          rcases heq with ⟨rfl, rfl⟩
          -- What the server counts and what the log of the link counts grow together.
          have hcount := n.host.server.droppedPackets_session index hhandler
          rw [hserver] at hcount
          refine h.setLink hlink (le_trans (Nat.le_add_right _ _) hcount) ⟨hold.1, ?_⟩
          simp only
          rw [countedIn_append]
          have := hold.2
          omega
  | arrive =>
      rw [sessionStep] at hside
      split at hside
      · split_ifs at hside
        rcases Option.map_eq_some_iff.mp hside with ⟨server, hio, heq⟩
        rw [Prod.mk.injEq] at heq
        rcases heq with ⟨rfl, rfl⟩
        have hcount := droppedPackets_ioStep hio
        exact h.setLink hlink hcount ⟨hold.1, le_trans hold.2 hcount⟩
      · exact absurd hside (by simp only [reduceCtorEq, not_false_eq_true])
  | transmit count =>
      rw [sessionStep] at hside
      split at hside
      · split_ifs at hside
        rw [Option.some.injEq, Prod.mk.injEq] at hside
        rcases hside with ⟨rfl, rfl⟩
        exact h.setLink hlink le_rfl hold
      · exact absurd hside (by simp only [reduceCtorEq, not_false_eq_true])

theorem tallied_client (h : Tallied n) {k : Nat} {link link' : Link} {action : Link.Action}
    (hlink : n.links[k]? = some link) (hstep : link.step action = some link') :
    Tallied { n with links := n.links.set k link' } := by
  have hold := h k link hlink
  refine h.setLink hlink le_rfl ⟨?_, by rw [(linkStep_frame hstep).1.2.2]; exact hold.2⟩
  cases action with
  | handler action =>
      rw [Link.step] at hstep
      split_ifs at hstep
      rcases Option.map_eq_some_iff.mp hstep with ⟨client, hclient, rfl⟩
      -- The client has one link, so here the two counts are equal.
      simp only
      rw [countedIn_append, hold.1, Client.droppedPackets_step hclient]
  | arrive =>
      rw [Link.step] at hstep
      split at hstep
      · split_ifs at hstep
        rcases Option.map_eq_some_iff.mp hstep with ⟨client, hclient, rfl⟩
        rw [(Client.step_change hclient).droppedPackets_same
          (by simp only [ne_eq, reduceCtorEq, not_false_eq_true])]
        exact hold.1
      · exact absurd hstep (by simp only [reduceCtorEq, not_false_eq_true])
  | transmit count =>
      rw [Link.step] at hstep
      split_ifs at hstep
      rw [← Option.some.inj hstep]
      exact hold.1
  | poll =>
      rcases Option.map_eq_some_iff.mp hstep with ⟨⟨data, client⟩, hpoll, rfl⟩
      unfold Client.pollPacket at hpoll
      split at hpoll
      · exact absurd hpoll (by simp only [reduceCtorEq, not_false_eq_true])
      · rw [Option.some.injEq, Prod.mk.injEq] at hpoll
        rw [← hpoll.2]
        exact hold.1
  | send data =>
      rw [← Option.some.inj hstep]
      have hsame : (link.client.send data).droppedPackets = link.client.droppedPackets := by
        unfold Client.send
        simp only
        split_ifs
        all_goals rfl
      simp only
      rw [hsame]
      exact hold.1
  | shutdown =>
      rw [← Option.some.inj hstep]
      have hsame : link.client.shutdown.droppedPackets = link.client.droppedPackets := by
        unfold Client.shutdown
        split_ifs <;> rfl
      simp only
      rw [hsame]
      exact hold.1

/-- Every step keeps the tally. -/
theorem tallied_step (n : Network) (action : Action) (n' : Network) (h : Tallied n)
    (hstep : n.step codec action = some n') : Tallied n' := by
  -- A handler of the server that belongs to no link.
  have hserver : ∀ {t : Server}, n.host.server.queue.droppedPackets ≤ t.queue.droppedPackets →
      Tallied (n.setServer t) :=
    fun hle k link hk => ⟨(h k link hk).1, le_trans (h k link hk).2 hle⟩
  cases action with
  | connect =>
      rw [← Option.some.inj hstep]
      intro k link hk
      simp only at hk
      rcases Nat.lt_or_ge k n.links.length with hlt | hge
      · rw [List.getElem?_append_left hlt] at hk
        exact h k link hk
      · rw [List.getElem?_append_right hge] at hk
        rw [List.mem_singleton.mp (List.mem_of_getElem? hk)]
        exact ⟨rfl, Nat.zero_le _⟩
  | accept k =>
      rw [step] at hstep
      split at hstep
      · exact absurd hstep (by simp only [reduceCtorEq, not_false_eq_true])
      · next link hlink =>
          split_ifs at hstep
          rw [← Option.some.inj hstep]
          have hmono := n.host.server.droppedPackets_accept
          exact h.setLink hlink hmono ⟨(h k link hlink).1, le_trans (h k link hlink).2 hmono⟩
  | task =>
      rcases Option.map_eq_some_iff.mp hstep with ⟨server, hio, rfl⟩
      exact hserver (droppedPackets_ioStep hio)
  | session k side =>
      rw [step] at hstep
      split at hstep
      · exact absurd hstep (by simp only [reduceCtorEq, not_false_eq_true])
      · next link hlink =>
          split at hstep
          · exact absurd hstep (by simp only [reduceCtorEq, not_false_eq_true])
          · rcases Option.map_eq_some_iff.mp hstep with ⟨⟨server, link'⟩, hside, rfl⟩
            exact tallied_session h hlink hside
  | stranger a =>
      rw [step] at hstep
      split_ifs at hstep
      rcases Option.map_eq_some_iff.mp hstep with ⟨server, hio, rfl⟩
      exact hserver (droppedPackets_ioStep hio)
  | game =>
      rw [← Option.some.inj hstep]
      intro k link hk
      simp only
      rw [droppedPackets_gameStep]
      exact h k link hk
  | client k a =>
      rw [step] at hstep
      split at hstep
      · exact absurd hstep (by simp only [reduceCtorEq, not_false_eq_true])
      · next link hlink =>
          rcases Option.map_eq_some_iff.mp hstep with ⟨link', hclient, rfl⟩
          exact tallied_client h hlink hclient

/-- What was sent to a session is the beginning of what was queued for it. -/
theorem sentTo_le {past : List LoopOutput} (h : Wired codec past n) (id : UInt32) :
    sentTo codec id past <+: ((GameLogicSystem.initial.update codec.toEnv
      n.host.handled).outgoingMessages.filter (fun out => out.sessionId = id)).map
        (fun out => codec.buildMessage out.payload) := by
  unfold sentTo
  rw [← h.caught.messages, List.filter_append, List.map_append]
  exact List.prefix_append _ _

/-- What was handled of a session is the beginning of what was polled from it. -/
theorem handled_prefix {past : List LoopOutput} (h : Wired codec past n) (id : UInt32) :
    n.host.handled.filter (fun e => e.isMessage && e.sessionId = id)
      <+: (polledFrom id past).flatMap (decodeProtocolPacket codec id) := by
  unfold polledFrom
  rw [← receive_payloads, ← h.caught.events, List.filter_append]
  exact List.prefix_append _ _

/-- The events of queued messages, read by a client. -/
theorem decode_queued (hcodec : codec.Faithful) (events : List ServerEvent) (id : UInt32) :
    (((GameLogicSystem.initial.update codec.toEnv events).outgoingMessages.filter
      (fun out => out.sessionId = id)).map (fun out => codec.buildMessage out.payload)).flatMap
        (decodePacket codec)
      = ((GameLogicSystem.initial.update codec.toEnv events).outgoingMessages.filter
        (fun out => out.sessionId = id)).flatMap (fun out => out.payload.events) := by
  rw [List.flatMap_map]
  refine List.flatMap_congr (fun out hout => ?_)
  refine decodePacket_buildMessage hcodec ?_
  exact GameLogicSystem.fits_of_mem_outgoingMessages codec.toEnv events
    (List.mem_filter.mp hout).1

theorem tallied_run {actions : List Action} (hrun : Machine.run (step codec) {} actions = some n) :
    Tallied n := by
  refine Machine.invariant tallied_step hrun (fun k link hk => ?_)
  rw [List.getElem?_nil] at hk
  exact absurd hk.symm (Option.some_ne_none link)

section OneLink

variable {past : List LoopOutput} {k index : Nat} {link : Link} {session : Session}

theorem delivers_of_wired (h : Wired codec past n) (hlink : n.links[k]? = some link)
    (hindex : link.object = some index)
    (hobject : n.host.server.objects[index]? = some session) :
    Delivers link.sentToServer link.serverLog (polledFrom session.id past)
      (queuedPayloads session.id n.host.server.queue) ∧
    Delivers (sentTo codec session.id past) link.clientLog link.clientPolled
      link.client.receiveQueue := by
  rcases (h.links k link hlink).served index hindex with ⟨session', hobject', hconnected⟩
  rw [hobject, Option.some.injEq] at hobject'
  rw [← hobject'] at hconnected
  exact hconnected.delivers (view_session hobject)

/-- What the game handles of a session, its client was given to send. -/
theorem heard_of_wired (h : Wired codec past n) (htally : Tallied n)
    (hlink : n.links[k]? = some link) (hindex : link.object = some index)
    (hobject : n.host.server.objects[index]? = some session) :
    let asked := link.sentToServer.flatMap (decodeProtocolPacket codec session.id)
    let heard := n.host.handled.filter (fun e => e.isMessage && e.sessionId = session.id)
    heard.Sublist asked ∧ (n.host.server.queue.droppedPackets = 0 → heard <+: asked) := by
  have hup := (delivers_of_wired h hlink hindex hobject).1
  have hheard := handled_prefix h session.id
  refine ⟨?_, fun hnone => ?_⟩
  · refine hheard.sublist.trans (List.Sublist.flatMap ?_ _)
    exact (List.sublist_append_left _ _).trans hup.sublist
  · refine hheard.trans (List.IsPrefix.flatMap ?_ _)
    have hcounted := counted_of_countedIn (Nat.le_zero.mp (hnone ▸ (htally k link hlink).2))
    exact (List.prefix_append _ _).trans (hup.isPrefix hcounted)

/-- What a client is shown, the game has queued for its session. -/
theorem shown_of_wired (hcodec : codec.Faithful) (h : Wired codec past n) (htally : Tallied n)
    (hlink : n.links[k]? = some link) (hindex : link.object = some index)
    (hobject : n.host.server.objects[index]? = some session) :
    let meant := ((GameLogicSystem.initial.update codec.toEnv
      n.host.handled).outgoingMessages.filter (fun out => out.sessionId = session.id)).flatMap
        (fun out => out.payload.events)
    let shown := link.clientPolled.flatMap (decodePacket codec)
    shown.Sublist meant ∧ (link.client.droppedPackets = 0 → shown <+: meant) := by
  have hdown := (delivers_of_wired h hlink hindex hobject).2
  have hsent := (sentTo_le h session.id).flatMap (decodePacket codec)
  rw [decode_queued hcodec] at hsent
  refine ⟨?_, fun hnone => ?_⟩
  · refine List.Sublist.trans (List.Sublist.flatMap ?_ _) hsent.sublist
    exact (List.sublist_append_left _ _).trans hdown.sublist
  · refine List.IsPrefix.trans (List.IsPrefix.flatMap ?_ _) hsent
    have hcounted := counted_of_countedIn ((htally k link hlink).1.trans hnone)
    exact (List.prefix_append _ _).trans (hdown.isPrefix hcounted)

end OneLink

/-- From window to window. In every run with fewer than 2^32 accepted
    connections, for every accepted link and its session: the messages of the
    session that the game handled are, in order, among the decodings of what the
    client was given to send, and the first of them when the server counts no
    dropped packet; and the events the client makes of what it has polled are,
    in order, among those of the messages which a single `Update` of everything
    handled queues for the session, and the first of them when the client counts
    no dropped packet. -/
theorem end_to_end (codec : Codec) (hcodec : codec.Faithful) (actions : List Action)
    (n : Network) (hrun : Machine.run (step codec) {} actions = some n)
    (hfew : n.host.server.accepts < 2 ^ 32) (k index : Nat) (link : Link) (session : Session)
    (hlink : n.links[k]? = some link) (hindex : link.object = some index)
    (hobject : n.host.server.objects[index]? = some session) :
    let asked := link.sentToServer.flatMap (decodeProtocolPacket codec session.id)
    let heard := n.host.handled.filter (fun e => e.isMessage && e.sessionId = session.id)
    let meant := ((GameLogicSystem.initial.update codec.toEnv
      n.host.handled).outgoingMessages.filter (fun out => out.sessionId = session.id)).flatMap
        (fun out => out.payload.events)
    let shown := link.clientPolled.flatMap (decodePacket codec)
    (heard.Sublist asked ∧ (n.host.server.queue.droppedPackets = 0 → heard <+: asked)) ∧
    (shown.Sublist meant ∧ (link.client.droppedPackets = 0 → shown <+: meant)) := by
  have h := wired_run hrun hfew
  have htally := tallied_run hrun
  exact ⟨heard_of_wired h htally hlink hindex hobject,
    shown_of_wired hcodec h htally hlink hindex hobject⟩

/-- The steps that take a message from the strand of the server to the owner of a
    client. -/
def download (k : Nat) : List Action :=
  [.task, .session k (.handler .task), .session k (.transmit 4096),
    .session k (.handler (.write true)), .client k .arrive, .client k (.handler .read),
    .client k .arrive, .client k (.handler .read), .client k (.handler .copied), .client k .poll]

/-- A client logs in and is told so. -/
def loginRoundTrip : List Action :=
  [.connect, .accept 0] ++
    upload 0 (plainCodec.buildMessage ⟨7, .loginRequest (some { displayName := some [65] })⟩) ++
    List.replicate 5 .game ++ download 0

theorem end_to_end_loginRoundTrip :
    ∃ n link session, Machine.run (step plainCodec) {} loginRoundTrip = some n ∧
      n.links[0]? = some link ∧ link.object = some 0 ∧
      n.host.server.objects[0]? = some session ∧
      link.clientPolled.flatMap (decodePacket plainCodec) = [.loginSucceeded [65]] ∧
      link.clientPolled.flatMap (decodePacket plainCodec)
        <+: ((GameLogicSystem.initial.update plainCodec.toEnv
          n.host.handled).outgoingMessages.filter (fun out => out.sessionId = session.id)).flatMap
            (fun out => out.payload.events) := by
  have hend : (Machine.run (step plainCodec) {} loginRoundTrip).map (fun n =>
      (n.links[0]?.map (fun link => (link.object, link.client.droppedPackets,
          link.clientPolled.flatMap (decodePacket plainCodec))),
        n.host.server.objects[0]?.map Session.id, n.host.server.accepts))
      = some (some (some 0, 0, [.loginSucceeded [65]]), some 1, 1) := by decide +kernel
  rcases Option.map_eq_some_iff.mp hend with ⟨n, hrun, hn⟩
  simp only [Prod.mk.injEq, Option.map_eq_some_iff] at hn
  rcases hn with ⟨⟨link, hlink, hobject, hdropped, hshown⟩, ⟨session, hsession, _⟩, haccepts⟩
  refine ⟨n, link, session, hrun, hlink, hobject, hsession, hshown, ?_⟩
  exact (end_to_end plainCodec faithful_plainCodec loginRoundTrip n hrun
    (by rw [haccepts]; decide) 0 0 link session hlink hobject hsession).2.2 hdropped

end Network

end ProjectNight
