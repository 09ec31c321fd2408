import ProjectNight.Core.NetworkSystem
import ProjectNight.Theory.Effects
import ProjectNight.Theory.PacketWords

/-!
# No Ghost Users

The transport knows which connections are open, the game knows which sessions
it has, and all that ties the two together is a bounded queue. A session the
game keeps after its connection is gone would hold its name and its place in a
room forever.

The invariant looks ahead: whatever is still on its way to the game, in the
queue or among the events already polled, decides whether a session will be
listed once it has arrived (`listedAfter`). Every session that will be listed
has an open connection. A `Connect` announces a session that has just been
started; a close pushes the `Disconnect` behind everything pushed before; and
nothing else makes the game list a session.

The second part fails when the queue is full. `push_packet` reports that it
dropped the `Disconnect`, and the close callback does not look, where the
accept handler does look for its `Connect`. So the invariant holds in runs in
which the queue has room whenever a session closes (`closesFit`), and a run
that fills the queue first leaves a ghost.

## Main definitions

* `ServerEvent.listed`: What an event means for who is in the session table.
* `listedAfter`: Who will be listed once everything has arrived.
* `closesFit`: The queue has room when a session closes.
* `Quiescent`: Nothing is on its way.

## Theorems

* `isSome_findSession_update`: The session table follows the events.
* `tracked_step`: Whoever will be listed has an open connection.
* `no_ghosts`: A quiescent server lists only open connections.
* `ghost_floodThenClose`: A `Disconnect` that finds the queue full leaves a
  session behind.
-/

namespace ProjectNight

/-! ### Who is in the session table -/

/-- Whether `id` is in the session table after an event, given whether it was
    before. -/
def ServerEvent.listed (id : UInt32) (before : Bool) : ServerEvent → Bool
  | .sessionConnected s => if s = id then true else before
  | .sessionDisconnected s | .disconnectRequest s _ => if s = id then false else before
  | .invalidPacket _ _ | .loginRequest _ _ _ | .roomListRequest _ _ | .joinRoomRequest _ _ _
  | .chatSendRequest _ _ _ | .leaveRoomRequest _ _ => before

/-- An entry is kept by every change that does not add or remove it. -/
theorem Change.isSome_entry (s : UInt32) (entry : Option SessionState) {c : Change}
    (hadd : c ≠ .add) (hremove : c ≠ .remove) : (c.entry s entry).isSome = entry.isSome := by
  cases c with
  | keep => rfl
  | add => exact absurd rfl hadd
  | login name => exact Option.isSome_map
  | place r => exact Option.isSome_map
  | remove => exact absurd rfl hremove

/-- Connections are added and the ways out of the table removed; nothing else
    adds or removes. -/
theorem effect_keeps_entries (env : Env) (reads : Nat) (rs : RoomSystem) {event : ServerEvent}
    (hconnected : ∀ s, event ≠ .sessionConnected s) (hremoval : ¬ event.IsRemoval) :
    (effect env reads rs event).change ≠ .add ∧ (effect env reads rs event).change ≠ .remove := by
  rcases effect_change_cases env reads rs event with hkeep | ⟨s, hevent, _⟩ |
    ⟨_, _, name, _, _, hlogin⟩ | ⟨_, _, r, _, _, hplace⟩ | ⟨_, _, _, _, hplace⟩ | ⟨hout, _⟩
  · rw [hkeep]
    exact ⟨Change.noConfusion, Change.noConfusion⟩
  · exact absurd hevent (hconnected s)
  · rw [hlogin]
    exact ⟨Change.noConfusion, Change.noConfusion⟩
  · rw [hplace]
    exact ⟨Change.noConfusion, Change.noConfusion⟩
  · rw [hplace]
    exact ⟨Change.noConfusion, Change.noConfusion⟩
  · exact absurd hout hremoval

namespace GameLogicSystem

variable (env : Env)

/-- The session table after one event. -/
theorem isSome_findSession_handleEvent {g : GameLogicSystem} (hw : g.roomSystem.WellFormed)
    (event : ServerEvent) (id : UInt32) :
    ((handleEvent env g event).roomSystem.findSession id).isSome
      = event.listed id (g.roomSystem.findSession id).isSome := by
  rw [(handleEvent_performs env hw event).roomSystem, RoomSystem.findSession_change]
  have hkept : (∀ s, event ≠ .sessionConnected s) → ¬ event.IsRemoval →
      (if event.sessionId = id then (effect env g.clockReads g.roomSystem event).change.entry
          event.sessionId (g.roomSystem.findSession id)
        else g.roomSystem.findSession id).isSome = (g.roomSystem.findSession id).isSome := by
    intro hconnected hremoval
    rcases effect_keeps_entries env g.clockReads g.roomSystem hconnected hremoval with
      ⟨hadd, hremove⟩
    split_ifs
    · exact Change.isSome_entry _ _ hadd hremove
    · rfl
  cases event with
  | sessionConnected s =>
      rw [ServerEvent.listed, apply_ite Option.isSome]
      rfl
  | sessionDisconnected s =>
      rw [ServerEvent.listed, apply_ite Option.isSome]
      rfl
  | disconnectRequest s requestId =>
      rw [ServerEvent.listed, apply_ite Option.isSome]
      rfl
  | _ => exact hkept (fun _ => ServerEvent.noConfusion) (fun hremoval => hremoval)

/-- The session table after a list of events. -/
theorem isSome_findSession_update (events : List ServerEvent) {g : GameLogicSystem}
    (hw : g.roomSystem.WellFormed) (id : UInt32) :
    ((update env g events).roomSystem.findSession id).isSome
      = events.foldl (ServerEvent.listed id) (g.roomSystem.findSession id).isSome := by
  induction events generalizing g with
  | nil => rfl
  | cons event events ih =>
      have hemits : Emits env (fun _ _ _ => True) g (handleEvent env g event) :=
        handleEvent_emits hw event (fun _ _ _ _ _ => trivial)
      rw [List.foldl_cons, ← isSome_findSession_handleEvent env hw event id]
      exact ih (hemits.wellFormed hw)

end GameLogicSystem

/-! ### Who will be listed -/

namespace GameServer

variable (codec : Codec)

/-- The events on their way to the game, polled or still in the queue. -/
def pending (g : GameServer) : List ServerEvent :=
  (match g.phase with
    | .receive events | .update events => events
    | .flush _ _ => []) ++ g.server.queue.packets.flatMap (receivePacket codec)

/-- Whether `id` will be listed once everything on its way has arrived. -/
def listedAfter (g : GameServer) (id : UInt32) : Bool :=
  (g.pending codec).foldl (ServerEvent.listed id) (g.game.roomSystem.findSession id).isSome

/-- The invariant: whoever will be listed has an open connection, and the
    close of every other one is among the events handled or on their way. -/
structure Tracked (g : GameServer) : Prop where
  running : g.server.queue.shuttingDown = false
  wellFormed : g.game.roomSystem.WellFormed
  accounted : g.handled ++ g.pending codec
    = g.server.queue.pushed.flatMap (receivePacket codec)
  tracked : ∀ id, g.listedAfter codec id = true → (id, false) ∈ g.server.profile
  announced : ∀ id, (id, true) ∈ g.server.profile →
    ⟨.disconnect, id, []⟩ ∈ g.server.queue.pushed

variable {codec}

theorem pending_push {g : GameServer} {server : Server} {new : List Packet}
    (hpackets : server.queue.packets = g.server.queue.packets ++ new) :
    ({ g with server } : GameServer).pending codec
      = g.pending codec ++ new.flatMap (receivePacket codec) := by
  unfold pending
  simp only
  rw [hpackets, List.flatMap_append, List.append_assoc]

/-- A handler of the transport that pushes `new`. -/
theorem Tracked.push {g : GameServer} (h : Tracked codec g) {server : Server}
    {new : List Packet} (hdown : server.queue.shuttingDown = false)
    (hpackets : server.queue.packets = g.server.queue.packets ++ new)
    (hpushed : server.queue.pushed = g.server.queue.pushed ++ new)
    (hopen : ∀ id, (new.flatMap (receivePacket codec)).foldl (ServerEvent.listed id)
      (g.listedAfter codec id) = true → (id, false) ∈ server.profile)
    (hclosed : ∀ id, (id, true) ∈ server.profile →
      (id, true) ∈ g.server.profile ∨ ⟨.disconnect, id, []⟩ ∈ new) :
    Tracked codec { g with server } where
  running := hdown
  wellFormed := h.wellFormed
  accounted := by
    rw [pending_push hpackets]
    simp only
    rw [hpushed, List.flatMap_append, ← h.accounted, List.append_assoc]
  tracked := fun id hid => by
    refine hopen id ?_
    unfold listedAfter at hid ⊢
    rw [pending_push hpackets, List.foldl_append] at hid
    exact hid
  announced := fun id hid => by
    simp only
    rw [hpushed]
    rcases hclosed id hid with hold | hnew
    · exact List.mem_append_left new (h.announced id hold)
    · exact List.mem_append_right _ hnew

/-- A handler that pushes nothing and keeps the profile. -/
theorem Tracked.congr {g : GameServer} (h : Tracked codec g) {server : Server}
    (hdown : server.queue.shuttingDown = false)
    (hpackets : server.queue.packets = g.server.queue.packets)
    (hpushed : server.queue.pushed = g.server.queue.pushed)
    (hprofile : server.profile = g.server.profile) : Tracked codec { g with server } := by
  refine h.push (by rw [hdown]) (by rw [hpackets, List.append_nil])
    (by rw [hpushed, List.append_nil]) (fun id hid => ?_) (fun id hid => ?_)
  · rw [hprofile]
    exact h.tracked id hid
  · rw [hprofile] at hid
    exact Or.inl hid

/-- What a client sends never makes the game list a session. -/
theorem listed_of_data {sessionId id : UInt32} {data : Bytes} {before : Bool}
    (h : (decodeProtocolPacket codec sessionId data).foldl (ServerEvent.listed id) before
      = true) : before = true := by
  unfold decodeProtocolPacket at h
  split at h
  · exact h
  · split at h
    all_goals try exact h
    -- A disconnect request can only take the session off the list.
    simp only [List.foldl_cons, List.foldl_nil, ServerEvent.listed] at h
    split_ifs at h
    exact h

theorem tracked_accept {g : GameServer} (h : Tracked codec g) :
    Tracked codec { g with server := g.server.onAccept } := by
  have hdown := h.running
  unfold Server.onAccept
  rw [if_neg (by rw [hdown]; exact Bool.false_ne_true)]
  by_cases hroom : g.server.queue.packets.length < packetQueueCapacity
  · simp only [PacketQueue.pushPacket_of_room hdown hroom, if_true]
    have hprofile := g.server.profile_start g.server.nextId
    refine h.push hdown rfl rfl (fun id hid => ?_) (fun id hid => ?_)
    · refine (congrArg (_ ∈ ·) hprofile).mpr ?_
      simp only [List.flatMap_cons, List.flatMap_nil, List.append_nil, receivePacket,
        List.foldl_cons, List.foldl_nil, ServerEvent.listed] at hid
      by_cases hnew : g.server.nextId = id
      · rw [hnew]
        exact List.mem_append_right _ (List.mem_singleton.mpr rfl)
      · rw [if_neg hnew] at hid
        exact List.mem_append_left _ (h.tracked id hid)
    · have hmem := (congrArg (_ ∈ ·) hprofile).mp hid
      rcases List.mem_append.mp hmem with hold | hnew
      · exact Or.inl hold
      · rw [List.mem_singleton, Prod.mk.injEq] at hnew
        exact absurd hnew.2 (by decide)
  · simp only [PacketQueue.pushPacket_of_full hdown hroom, Bool.false_eq_true, if_false]
    exact h.congr hdown rfl rfl rfl

/-- When the action is a handler that closes its session, the queue has room
    for the `Disconnect`. -/
def closesFit (g : GameServer) : Action → Bool
  | .io (.session index action) =>
    match g.server.objects[index]? with
    | none => true
    | some session =>
      match session.step action with
      | none => true
      | some (_, effects) =>
        !effects.contains .close || g.server.queue.packets.length < packetQueueCapacity
  | _ => true

theorem tracked_session {g : GameServer} (h : Tracked codec g) {index : Nat}
    {session session' : Session} {action : SessionAction} {effects : List SessionEffect}
    (hobject : g.server.objects[index]? = some session)
    (hstep : session.step action = some (session', effects))
    (hcond : closesFit g (.io (.session index action)) = true) :
    Tracked codec { g with
      server := g.server.onSession index session (session', effects) } := by
  have hdown := h.running
  rcases Session.step_outcome hstep with ⟨hid, hout⟩
  have hprofile := g.server.profile_set index hid
  have hentry := Server.getElem?_profile hobject
  -- A handler that keeps `closed_` keeps the profile.
  have hsame : session'.closed = session.closed →
      (g.server.objects.set index session').map (fun session => (session.id, session.closed))
        = g.server.profile := by
    intro hclosed
    rw [hprofile, hclosed]
    refine List.ext_getElem? (fun i => ?_)
    rw [List.getElem?_set]
    by_cases hi : index = i
    · rw [if_pos hi, if_pos (List.getElem?_eq_some_iff.mp hentry).1, ← hi, hentry]
    · rw [if_neg hi]
  cases hout with
  | silent hclosed => exact h.congr hdown rfl rfl (hsame hclosed)
  | receives size data haction hreader hclosed =>
      -- The payload is pushed or dropped; neither lists anybody.
      unfold Server.onSession
      simp only [List.foldl_cons, List.foldl_nil, Server.applyEffect]
      by_cases hroom : g.server.queue.packets.length < packetQueueCapacity
      · rw [PacketQueue.pushPacket_of_room hdown hroom]
        refine h.push hdown rfl rfl (fun id hlisted => ?_) (fun id hmem => ?_)
        · simp only [List.flatMap_cons, List.flatMap_nil, List.append_nil, receivePacket]
            at hlisted
          exact (congrArg (_ ∈ ·) (hsame hclosed)).mpr (h.tracked id (listed_of_data hlisted))
        · exact Or.inl ((congrArg (_ ∈ ·) (hsame hclosed)).mp hmem)
      · rw [PacketQueue.pushPacket_of_full hdown hroom]
        exact h.congr hdown rfl rfl (hsame hclosed)
  | closes hopen hclosed =>
      -- The condition: there is room for the `Disconnect`.
      have hroom : g.server.queue.packets.length < packetQueueCapacity := by
        simp only [closesFit, hobject, hstep, List.contains_cons, beq_self_eq_true,
          Bool.true_or, Bool.not_true, Bool.false_or, decide_eq_true_eq] at hcond
        exact hcond
      unfold Server.onSession
      simp only [List.foldl_cons, List.foldl_nil, Server.applyEffect]
      rw [PacketQueue.pushPacket_of_room hdown hroom]
      refine h.push hdown rfl rfl (fun id hlisted => ?_) (fun id hmem => ?_)
      · simp only [List.flatMap_cons, List.flatMap_nil, List.append_nil, receivePacket,
          List.foldl_cons, List.foldl_nil, ServerEvent.listed] at hlisted
        -- The `Disconnect` is last in the queue and takes the session off the list.
        by_cases hself : session.id = id
        · rw [if_pos hself] at hlisted
          exact absurd hlisted Bool.false_ne_true
        · rw [if_neg hself] at hlisted
          -- The entry of another id is not the one that changed.
          refine (congrArg (_ ∈ ·) hprofile).mpr ?_
          rcases List.getElem?_of_mem (h.tracked id hlisted) with ⟨i, hi⟩
          have hne : index ≠ i := by
            intro heq
            rw [heq, hi, Option.some.injEq, Prod.mk.injEq] at hentry
            exact hself hentry.1.symm
          refine List.mem_of_getElem? (i := i) ?_
          rw [List.getElem?_set_ne hne]
          exact hi
      · rcases List.mem_or_eq_of_mem_set ((congrArg (_ ∈ ·) hprofile).mp hmem) with hold | hnew
        · exact Or.inl hold
        · rw [Prod.mk.injEq] at hnew
          rw [hnew.1]
          exact Or.inr (List.mem_singleton.mpr rfl)

theorem tracked_game {g : GameServer} (h : Tracked codec g) :
    Tracked codec (g.gameStep codec) := by
  rcases g with ⟨server, game, phase, handled⟩
  cases phase with
  | receive events =>
      unfold gameStep PacketQueue.pollPacket
      cases hpackets : server.queue.packets with
      | nil =>
          simp only
          exact ⟨h.running, h.wellFormed, h.accounted, h.tracked, h.announced⟩
      | cons packet rest =>
          -- The events of the packet move from the queue to the events polled.
          have hpending : pending codec ⟨{ server with queue := { server.queue with
                packets := rest } }, game, .receive (events ++ receivePacket codec packet),
                handled⟩
              = pending codec ⟨server, game, .receive events, handled⟩ := by
            unfold pending
            simp only [hpackets, List.flatMap_cons, List.append_assoc]
          refine ⟨h.running, h.wellFormed, ?_, fun id hid => h.tracked id ?_, h.announced⟩
          · rw [hpending]
            exact h.accounted
          · unfold listedAfter at hid ⊢
            rw [hpending] at hid
            exact hid
  | update events =>
      have hwellFormed := h.wellFormed
      have hemits : Emits codec.toEnv (fun _ _ _ => True) game
          (game.update codec.toEnv events) :=
        GameLogicSystem.update_emits events game hwellFormed
          (GameLogicSystem.loginsAllowed_true codec.toEnv game events)
      refine ⟨h.running, hemits.wellFormed hwellFormed, ?_, fun id hid => h.tracked id ?_,
        h.announced⟩
      · have haccounted := h.accounted
        unfold pending at haccounted ⊢
        simp only [gameStep, List.nil_append] at haccounted ⊢
        rw [List.append_assoc]
        exact haccounted
      · -- Who is listed after the update is what the events said.
        have hupdate :=
          GameLogicSystem.isSome_findSession_update codec.toEnv events hwellFormed id
        unfold listedAfter pending at hid ⊢
        simp only [List.foldl_append] at hid ⊢
        rw [← hupdate]
        exact hid
  | flush messages disconnects =>
      -- The calls of a flush only post to `server_strand`.
      cases messages with
      | cons message messages =>
          rcases server.send_eq message.sessionId (codec.buildMessage message.payload) with
            ⟨strand, hsend⟩
          simp only [gameStep, hsend]
          exact ⟨h.running, h.wellFormed, h.accounted, h.tracked, h.announced⟩
      | nil =>
          cases disconnects with
          | nil => exact ⟨h.running, h.wellFormed, h.accounted, h.tracked, h.announced⟩
          | cons sessionId disconnects =>
              rcases server.disconnect_eq sessionId with ⟨strand, hdisconnect⟩
              simp only [gameStep, hdisconnect]
              exact ⟨h.running, h.wellFormed, h.accounted, h.tracked, h.announced⟩

theorem tracked_step (g : GameServer) (action : Action) (g' : GameServer)
    (h : Tracked codec g) (hcond : closesFit g action = true)
    (hstep : g.step codec action = some g') : Tracked codec g' := by
  cases action with
  | game =>
      rw [step, Option.some.injEq] at hstep
      rw [← hstep]
      exact tracked_game h
  | io action =>
      rw [step, Option.map_eq_some_iff] at hstep
      rcases hstep with ⟨server, hio, hg'⟩
      rw [← hg']
      rcases Server.ioStep_cases hio with ⟨_, ht⟩ | ⟨index, session, session', sessionAction,
        effects, haction, hobject, hsession, ht⟩ | ⟨hprofile, hqueue, _⟩
      · rw [ht]
        exact tracked_accept h
      · rw [ht]
        exact tracked_session h hobject hsession (haction ▸ hcond)
      · exact h.congr (hqueue ▸ h.running) (congrArg PacketQueue.packets hqueue)
          (congrArg PacketQueue.pushed hqueue) hprofile

theorem tracked_init : Tracked codec {} where
  running := rfl
  wellFormed := RoomSystem.wellFormed_init
  accounted := rfl
  tracked := fun id hid => by
    have hnone : (RoomSystem.init.findSession id).isSome = false := by
      rw [RoomSystem.findSession_init, Option.isSome_none]
    exact absurd (hid.symm.trans hnone) (by decide)
  announced := fun _ hid => absurd hid List.not_mem_nil

/-! ### Quiescent states -/

/-- The queue is drained, the tick is over, and every posted handler and every
    handler of a completed read has run. -/
structure Quiescent (g : GameServer) : Prop where
  phase : g.phase = .receive []
  packets : g.server.queue.packets = []
  strand : g.server.strand = []
  sessions : ∀ session ∈ g.server.objects, session.strand = [] ∧
    ∀ target bytes, session.reader ≠ .completed target bytes

theorem Quiescent.pending_eq {g : GameServer} (h : Quiescent g) : g.pending codec = [] := by
  unfold pending
  rw [h.phase, h.packets]
  rfl

/-- In every run in which the queue has room whenever a session closes: when
    the server is quiescent, every session of the game has an open connection;
    and every close has reached `HandleSessionDisconnected`, so that a session
    whose connections are all closed has no entry and is in no room. -/
theorem no_ghosts (codec : Codec) (actions : List Action) (g : GameServer)
    (hrun : Machine.run (step codec) {} actions = some g)
    (hcond : Machine.Respects (step codec) closesFit {} actions = true) (hquiet : Quiescent g) :
    (∀ id session, g.game.roomSystem.findSession id = some session →
      ∃ transport ∈ g.server.objects, transport.id = id ∧ transport.closed = false) ∧
    (∀ transport ∈ g.server.objects, transport.closed = true →
      .sessionDisconnected transport.id ∈ g.handled) ∧
    (∀ id, (∀ transport ∈ g.server.objects, transport.id = id → transport.closed = true) →
      g.game.roomSystem.findSession id = none ∧
      ∀ r, ¬ g.game.roomSystem.IsMember id r) := by
  have h : Tracked codec g := Machine.invariant_of_respects tracked_step hrun hcond tracked_init
  have hopen : ∀ id session, g.game.roomSystem.findSession id = some session →
      ∃ transport ∈ g.server.objects, transport.id = id ∧ transport.closed = false := by
    intro id session hfind
    -- Nothing is on its way, so who will be listed is listed.
    have hlisted : g.listedAfter codec id = true := by
      rw [listedAfter, hquiet.pending_eq, List.foldl_nil, hfind, Option.isSome_some]
    rcases List.mem_map.mp (h.tracked id hlisted) with ⟨transport, htransport, heq⟩
    rw [Prod.mk.injEq] at heq
    exact ⟨transport, htransport, heq⟩
  refine ⟨hopen, fun transport htransport hclosed => ?_, fun id hid => ?_⟩
  · have hpushed := h.announced transport.id
      (List.mem_map.mpr ⟨transport, htransport, by rw [hclosed]⟩)
    have hhandled := h.accounted
    rw [hquiet.pending_eq, List.append_nil] at hhandled
    rw [hhandled]
    exact List.mem_flatMap.mpr ⟨_, hpushed, List.mem_singleton.mpr rfl⟩
  · have hnone : g.game.roomSystem.findSession id = none := by
      refine Option.eq_none_iff_forall_ne_some.mpr (fun session hfind => ?_)
      rcases hopen id session hfind with ⟨transport, htransport, heq, hclosed⟩
      rw [hid transport htransport heq] at hclosed
      exact absurd hclosed (by decide)
    refine ⟨hnone, fun r hmember => ?_⟩
    rcases (h.wellFormed.member_iff id r).mp hmember with ⟨_, session, hfind, _⟩
    rw [hnone] at hfind
    exact absurd hfind (by simp only [reduceCtorEq, not_false_eq_true])

/-- A codec for runs in which no client sends anything: the verifier is never
    called. -/
def sampleCodec : Codec where
  toEnv := sampleEnv
  verifiedMessage _ := none

/-- A client connects, the game lists it, the client goes away, and the game
    takes it off the list. -/
def connectThenLeave : List Action :=
  [.io .accept, .game, .game, .game, .game, .io (.session 0 .readError), .io .task,
    .game, .game, .game, .game]

theorem no_ghosts_connectThenLeave :
    ∃ g, Machine.run (step sampleCodec) {} connectThenLeave = some g ∧
      g.server.profile = [(1, true)] ∧ .sessionDisconnected 1 ∈ g.handled ∧
      g.game.roomSystem.findSession 1 = none := by
  have hend : (Machine.run (step sampleCodec) {} connectThenLeave).map (fun g =>
      (g.phase, g.server.queue.packets, g.server.strand, g.server.objects))
        = some (.receive [], [], [], [{ id := 1, closed := true }]) := by decide +kernel
  rcases Option.map_eq_some_iff.mp hend with ⟨g, hrun, hg⟩
  simp only [Prod.mk.injEq] at hg
  rcases hg with ⟨hphase, hpackets, hstrand, hobjects⟩
  have hquiet : Quiescent g := by
    refine ⟨hphase, hpackets, hstrand, fun session hsession => ?_⟩
    rw [hobjects, List.mem_singleton] at hsession
    rw [hsession]
    exact ⟨rfl, fun target bytes => by simp only [ne_eq, reduceCtorEq, not_false_eq_true]⟩
  rcases no_ghosts sampleCodec connectThenLeave g hrun (by decide +kernel) hquiet with
    ⟨_, hreach, hfree⟩
  have hmem : ({ id := 1, closed := true } : Session) ∈ g.server.objects := by
    rw [hobjects]
    exact List.mem_singleton.mpr rfl
  refine ⟨g, hrun, by rw [Server.profile, hobjects]; rfl, hreach _ hmem rfl, ?_⟩
  refine (hfree 1 (fun transport htransport _ => ?_)).1
  rw [hobjects, List.mem_singleton] at htransport
  rw [htransport]

/-! ### A ghost -/

/-- The ids of the first `k` sessions. -/
def firstIds (k : Nat) : List UInt32 := (List.range k).map (fun i => UInt32.ofNat (i + 1))

theorem firstIds_succ (k : Nat) : firstIds (k + 1) = firstIds k ++ [UInt32.ofNat (k + 1)] := by
  unfold firstIds
  rw [List.range_succ, List.map_append]
  rfl

theorem length_firstIds (k : Nat) : (firstIds k).length = k := by
  rw [firstIds, List.length_map, List.length_range]

/-- The first id is handed out once, until the counter wraps around. -/
theorem firstIds_cons {k : Nat} (hk : k < 2 ^ 32 - 1) :
    ∃ rest, firstIds (k + 1) = 1 :: rest ∧ 1 ∉ rest := by
  refine ⟨(List.range k).map (fun i => UInt32.ofNat (i + 2)), ?_, fun hmem => ?_⟩
  · rw [firstIds, List.range_succ_eq_map, List.map_cons, List.map_map]
    rfl
  · rcases List.mem_map.mp hmem with ⟨i, hi, heq⟩
    -- Two equal ids would be 2^32 apart.
    have hvalue := congrArg UInt32.toNat heq
    rw [List.mem_range] at hi
    rw [UInt32.toNat_ofNat', UInt32.toNat_one] at hvalue
    omega

/-- After `k` accepts, with the game thread asleep. -/
structure Flooded (k : Nat) (g : GameServer) : Prop where
  objects : g.server.objects = (firstIds k).map (fun id => Session.start { id })
  packets : g.server.queue.packets = (firstIds k).map (fun id => ⟨.connect, id, []⟩)
  running : g.server.queue.shuttingDown = false
  nextId : g.server.nextId = UInt32.ofNat (k + 1)
  strand : g.server.strand = []
  game : g.game = .initial
  phase : g.phase = .receive []

theorem flooded_accept {k : Nat} {g : GameServer} (h : Flooded k g)
    (hk : k < packetQueueCapacity) : Flooded (k + 1) { g with server := g.server.onAccept } := by
  have hroom : g.server.queue.packets.length < packetQueueCapacity := by
    rw [h.packets, List.length_map, length_firstIds]
    exact hk
  unfold Server.onAccept
  rw [if_neg (by rw [h.running]; exact Bool.false_ne_true)]
  simp only [PacketQueue.pushPacket_of_room h.running hroom, if_true]
  refine ⟨?_, ?_, h.running, ?_, h.strand, h.game, h.phase⟩
  · rw [h.objects, h.nextId, firstIds_succ, List.map_append]
    rfl
  · rw [h.packets, h.nextId, firstIds_succ, List.map_append]
    rfl
  · rw [h.nextId, ← UInt32.ofNat_one, ← UInt32.ofNat_add]

theorem run_accepts (k : Nat) (hk : k ≤ packetQueueCapacity) :
    ∃ g, Machine.run (step sampleCodec) {} (List.replicate k (.io .accept)) = some g ∧
      Flooded k g := by
  induction k with
  | zero => exact ⟨{}, rfl, rfl, rfl, rfl, rfl, rfl, rfl, rfl⟩
  | succ k ih =>
      rcases ih (Nat.le_of_succ_le hk) with ⟨g, hrun, hg⟩
      refine ⟨_, ?_, flooded_accept hg hk⟩
      rw [List.replicate_succ']
      exact Machine.run_trans hrun rfl

/-- Polling until the queue is empty. -/
theorem run_polls (packets : List Packet) (g : GameServer) (events : List ServerEvent)
    (hphase : g.phase = .receive events) (hpackets : g.server.queue.packets = packets) :
    Machine.run (step sampleCodec) g (List.replicate packets.length .game) = some
      { g with
        server := { g.server with queue := { g.server.queue with packets := [] } }
        phase := .receive (events ++ packets.flatMap (receivePacket sampleCodec)) } := by
  induction packets generalizing g events with
  | nil =>
      rw [List.length_nil, List.replicate_zero, Machine.run, List.flatMap_nil, List.append_nil,
        ← hphase, ← hpackets]
  | cons packet packets ih =>
      have hstep : g.step sampleCodec .game = some
          { g with
            server := { g.server with queue := { g.server.queue with packets } }
            phase := .receive (events ++ receivePacket sampleCodec packet) } := by
        unfold step gameStep PacketQueue.pollPacket
        simp only [hphase, hpackets]
      rw [List.length_cons, List.replicate_succ, Machine.run, hstep, Option.bind_some,
        ih _ _ rfl rfl, List.flatMap_cons, List.append_assoc]

theorem flatMap_connects (ids : List UInt32) :
    (ids.map (fun id => (⟨.connect, id, []⟩ : Packet))).flatMap (receivePacket sampleCodec)
      = ids.map .sessionConnected := by
  induction ids with
  | nil => rfl
  | cons id ids ih =>
      rw [List.map_cons, List.flatMap_cons, ih, List.map_cons]
      rfl

theorem listed_connects (ids : List UInt32) (id : UInt32) :
    (ids.map .sessionConnected).foldl (ServerEvent.listed id) true = true := by
  induction ids with
  | nil => rfl
  | cons other ids ih =>
      rw [List.map_cons, List.foldl_cons, ServerEvent.listed, ite_self]
      exact ih

/-- Connections alone send nothing. -/
theorem update_connected (ids : List UInt32) (game : GameLogicSystem) :
    let game' := game.update sampleEnv (ids.map .sessionConnected)
    game'.outgoingMessages = game.outgoingMessages ∧
      game'.pendingDisconnects = game.pendingDisconnects := by
  induction ids generalizing game with
  | nil => exact ⟨rfl, rfl⟩
  | cons id ids ih => exact ih (game.handleSessionConnected id)

/-- The rest of a tick that has nothing to send. -/
theorem run_silent_tick {g : GameServer} {events : List ServerEvent}
    (hphase : g.phase = .receive events) (hpackets : g.server.queue.packets = [])
    (hmessages : (g.game.update sampleEnv events).outgoingMessages = [])
    (hdisconnects : (g.game.update sampleEnv events).pendingDisconnects = []) :
    Machine.run (step sampleCodec) g [.game, .game, .game] = some
      { g with
        game := g.game.update sampleEnv events
        phase := .receive []
        handled := g.handled ++ events } := by
  have hpolled : g.gameStep sampleCodec = { g with phase := .update events } := by
    unfold gameStep PacketQueue.pollPacket
    simp only [hphase, hpackets]
  have hupdated : gameStep sampleCodec { g with phase := .update events }
      = { g with
          game := g.game.update sampleEnv events
          phase := .flush [] []
          handled := g.handled ++ events } := by
    unfold gameStep GameLogicSystem.takeOutgoingMessages GameLogicSystem.takePendingDisconnects
    simp only [sampleCodec, hmessages, hdisconnects]
    rw [← hmessages, ← hdisconnects]
  simp only [Machine.run, step, Option.bind_some, hpolled, hupdated]
  rfl

/-- As many clients connect as the queue has room for, and the first of them
    goes away before the game thread wakes up. -/
def floodThenClose : List Action :=
  List.replicate packetQueueCapacity (.io .accept) ++
    ([.io (.session 0 .readError), .io .task] ++
      (List.replicate packetQueueCapacity .game ++ [.game, .game, .game]))

/-- The close of the first session finds the queue full, and the entry is
    erased. -/
theorem run_close {g : GameServer} (h : Flooded packetQueueCapacity g) {rest : List UInt32}
    (hids : firstIds packetQueueCapacity = 1 :: rest) :
    ∃ g', Machine.run (step sampleCodec) g [.io (.session 0 .readError), .io .task] = some g' ∧
      g'.server.objects = g.server.objects.set 0 { id := 1, closed := true } ∧
      g'.server.queue.packets = g.server.queue.packets ∧ g'.server.strand = [] ∧
      g'.game = .initial ∧ g'.phase = .receive [] := by
  have hfirst : g.server.objects[0]? = some (Session.start { id := 1 }) := by
    rw [h.objects, hids, List.map_cons, List.getElem?_cons_zero]
  have hfull : ¬ g.server.queue.packets.length < packetQueueCapacity := by
    rw [h.packets, List.length_map, length_firstIds]
    exact lt_irrefl _
  -- The read fails, the push finds no room, and its result is not looked at.
  have hclose : g.step sampleCodec (.io (.session 0 .readError)) = some
      { g with
        server := { g.server with
          objects := g.server.objects.set 0 { id := 1, closed := true }
          queue := { g.server.queue with droppedPackets := g.server.queue.droppedPackets + 1 }
          strand := [.erase 1] } } := by
    unfold step Server.ioStep
    simp only [hfirst, Session.step, Session.start, Session.doReadHeader, Session.onReadError,
      Session.handleClose, Bool.false_eq_true, if_false, Option.map_some, Server.onSession,
      List.foldl_cons, List.foldl_nil, Server.applyEffect,
      PacketQueue.pushPacket_of_full h.running hfull, h.strand, List.nil_append]
  simp only [Machine.run, hclose, Option.bind_some]
  exact ⟨_, rfl, rfl, rfl, rfl, h.game, h.phase⟩

/-- The first client stays listed after everything has settled. -/
theorem ghost_floodThenClose :
    ∃ g, Machine.run (step sampleCodec) {} floodThenClose = some g ∧ Quiescent g ∧
      (∃ session, g.game.roomSystem.findSession 1 = some session) ∧
      ∀ transport ∈ g.server.objects, transport.id = 1 → transport.closed = true := by
  rcases run_accepts packetQueueCapacity le_rfl with ⟨g, hflood, hg⟩
  rcases firstIds_cons (k := packetQueueCapacity - 1) (by decide) with ⟨rest, hids, hfresh⟩
  rw [show packetQueueCapacity - 1 + 1 = packetQueueCapacity from rfl] at hids
  rcases run_close hg hids with ⟨g', hclose, hobjects, hpackets, hstrand, hgame, hphase⟩
  have hlength : g'.server.queue.packets.length = packetQueueCapacity := by
    rw [hpackets, hg.packets, List.length_map, length_firstIds]
  have hpolls := run_polls g'.server.queue.packets g' [] hphase rfl
  rw [hlength, List.nil_append, hpackets, hg.packets, flatMap_connects] at hpolls
  have hsilent := update_connected (firstIds packetQueueCapacity) g'.game
  have hlisted := GameLogicSystem.isSome_findSession_update sampleEnv
    ((firstIds packetQueueCapacity).map .sessionConnected)
    (hgame ▸ RoomSystem.wellFormed_init : g'.game.roomSystem.WellFormed) 1
  -- The first `Connect` lists the session, and none of the others takes it off.
  have hconnected : (((firstIds packetQueueCapacity).map ServerEvent.sessionConnected).foldl
      (ServerEvent.listed 1) (g'.game.roomSystem.findSession 1).isSome) = true := by
    rw [hids, List.map_cons, List.foldl_cons, ServerEvent.listed, if_pos rfl]
    exact listed_connects rest 1
  rw [hconnected] at hlisted
  have htick := run_silent_tick (g := { g' with
      server := { g'.server with queue := { g'.server.queue with packets := [] } }
      phase := .receive ((firstIds packetQueueCapacity).map .sessionConnected) })
    rfl rfl (by rw [hsilent.1, hgame]; rfl) (by rw [hsilent.2, hgame]; rfl)
  have hfinal : g'.server.objects = { id := 1, closed := true } ::
      rest.map (fun id => Session.start { id }) := by
    rw [hobjects, hg.objects, hids, List.map_cons, List.set_cons_zero]
  refine ⟨_, Machine.run_trans hflood (Machine.run_trans hclose
    (Machine.run_trans hpolls htick)), ⟨rfl, rfl, hstrand, ?_⟩,
    Option.isSome_iff_exists.mp hlisted, ?_⟩
  · intro session hsession
    simp only [hfinal, List.mem_cons, List.mem_map] at hsession
    rcases hsession with rfl | ⟨id, _, rfl⟩
    · exact ⟨rfl, fun target bytes => by simp only [ne_eq, reduceCtorEq, not_false_eq_true]⟩
    · exact ⟨rfl, fun target bytes => by
        simp only [Session.start, Session.doReadHeader, ne_eq, reduceCtorEq, not_false_eq_true]⟩
  · intro transport htransport hid
    simp only [hfinal, List.mem_cons, List.mem_map] at htransport
    rcases htransport with rfl | ⟨id, hmem, rfl⟩
    · rfl
    · exact absurd (show (1 : UInt32) ∈ rest from hid ▸ hmem) hfresh

end GameServer

end ProjectNight
