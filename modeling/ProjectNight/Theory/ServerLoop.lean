import ProjectNight.Theory.Decoding
import ProjectNight.Theory.PacketWords

/-!
# The Server Loop

The loop of `NightServer.cpp` cuts the events of the server into ticks: what
happened to be in the queue is polled, handled and flushed, and the queues of
the game logic are emptied. Where a tick ends is decided by the threads that
push. This module shows that nobody can tell: in every run, with handlers of
the transport between any two steps of the loop, what has been sent is what one
call of `Update` on everything handled would have queued, in that order, less
what the current flush has still to send.

No handler reads the two queues it appends to, so a state with something still
in front of them behaves like the state without (`update_behind`). That makes
an emptied queue as good as one that was never emptied.

## Main definitions

* `GameLogicSystem.behind`: A state with more in front of its two queues.
* `LoopOutput`, `GameServer.output`: The calls of the loop.
* `GameServer.transportSteps`: What a step does to the transport.
* `GameServer.Caught`: The loop agrees with a single `Update`.
* `GameServer.workLeft`: The steps to the end of a tick.

## Theorems

* `GameLogicSystem.update_behind`: The queues are not read.
* `GameServer.transport_step`: The loop touches the transport by its calls only.
* `GameServer.caught_step`: Every step keeps the agreement.
* `GameServer.loop_refines_update`: The loop is one long `Update`.
* `GameServer.tick_completes`: A loop that is left alone catches up.
-/

namespace ProjectNight

/-! ### The queues are not read -/

namespace GameLogicSystem

/-- The state with `sent` and `gone` in front of its two queues. -/
def behind (sent : List OutgoingMessage) (gone : List UInt32) (g : GameLogicSystem) :
    GameLogicSystem :=
  { g with
    outgoingMessages := sent ++ g.outgoingMessages
    pendingDisconnects := gone ++ g.pendingDisconnects }

section Behind

variable (env : Env) (sent : List OutgoingMessage) (gone : List UInt32) (g : GameLogicSystem)

theorem behind_nil : g.behind [] [] = g := rfl

theorem behind_queueMessage (s : UInt32) (m : Message) :
    (g.behind sent gone).queueMessage env s m = (g.queueMessage env s m).behind sent gone := by
  unfold queueMessage
  by_cases hfits : env.fits m = true
  · simp only [hfits, if_true, behind, List.append_assoc]
  · simp only [hfits, Bool.false_eq_true, if_false, behind]

/-- A loop whose body does not read the queues does not read them. -/
theorem behind_foldl {α : Type} (body : GameLogicSystem → α → GameLogicSystem)
    (hbody : ∀ g a, body (behind sent gone g) a = behind sent gone (body g a)) (l : List α) :
    l.foldl body (g.behind sent gone) = (l.foldl body g).behind sent gone := by
  induction l generalizing g with
  | nil => rfl
  | cons a l ih => rw [List.foldl_cons, List.foldl_cons, hbody, ih]

theorem behind_notifyRoomLeave (session : SessionState) :
    (g.behind sent gone).notifyRoomLeave env session
      = (g.notifyRoomLeave env session).behind sent gone := by
  unfold notifyRoomLeave
  split_ifs
  · rfl
  · exact behind_foldl sent gone g _ (fun g _ => behind_queueMessage env sent gone g _ _) _

theorem behind_notifyRoomJoin (s : UInt32) (session : SessionState) (room : RoomState)
    (members : List SessionState) :
    (g.behind sent gone).notifyRoomJoin env s session room members
      = (g.notifyRoomJoin env s session room members).behind sent gone := by
  refine behind_foldl sent gone g _ (fun g other => ?_) members
  split_ifs
  · rfl
  · simp only [queueUserJoinedEvent, behind_queueMessage]

theorem behind_leaveIfPresent (found : Option SessionState) :
    (match found with
      | some session => (g.behind sent gone).notifyRoomLeave env session
      | none => g.behind sent gone)
    = (match found with
      | some session => g.notifyRoomLeave env session
      | none => g).behind sent gone := by
  cases found with
  | none => rfl
  | some session => exact behind_notifyRoomLeave env sent gone g session

theorem behind_handleLoginRequest (s requestId : UInt32) (name : Bytes) :
    (g.behind sent gone).handleLoginRequest env s requestId name
      = (g.handleLoginRequest env s requestId name).behind sent gone := by
  unfold handleLoginRequest
  rw [show (g.behind sent gone).roomSystem = g.roomSystem from rfl]
  cases g.roomSystem.findSession s with
  | none => rfl
  | some session =>
      simp only
      split_ifs
      · exact behind_queueMessage env sent gone g s _
      · exact behind_queueMessage env sent gone g s _
      · exact behind_queueMessage env sent gone g s _
      · exact behind_queueMessage env sent gone
          { g with roomSystem := g.roomSystem.setLoggedIn s name } s _

/-- The part of a join after the old room has been left. -/
theorem behind_enterRoom (s requestId : UInt32) (members : List SessionState)
    (found : Option SessionState) (room : Option RoomState) :
    (match found, room with
      | some session, some room =>
        notifyRoomJoin env (queueSystemMessage env (queueJoinRoomResponse env
          (g.behind sent gone) s requestId true .none (some room)) s room.roomId
          (room.roomName ++ utf8 " 방에 입장했습니다.")) s session room members
      | _, _ => g.behind sent gone)
    = (match found, room with
      | some session, some room =>
        notifyRoomJoin env (queueSystemMessage env (queueJoinRoomResponse env g s requestId
          true .none (some room)) s room.roomId
          (room.roomName ++ utf8 " 방에 입장했습니다.")) s session room members
      | _, _ => g).behind sent gone := by
  cases found with
  | none => rfl
  | some session =>
      cases room with
      | none => rfl
      | some room =>
          simp only [queueJoinRoomResponse, queueSystemMessage, behind_queueMessage,
            behind_notifyRoomJoin]

theorem behind_handleJoinRoomRequest (s requestId r : UInt32) :
    (g.behind sent gone).handleJoinRoomRequest env s requestId r
      = (g.handleJoinRoomRequest env s requestId r).behind sent gone := by
  unfold handleJoinRoomRequest
  rw [show (g.behind sent gone).roomSystem = g.roomSystem from rfl]
  cases g.roomSystem.findSession s with
  | none => rfl
  | some session =>
      cases g.roomSystem.findRoom r with
      | none =>
          simp only
          split_ifs
          · exact behind_queueMessage env sent gone g s _
          · exact behind_queueMessage env sent gone g s _
      | some room =>
          simp only
          split_ifs
          · exact behind_queueMessage env sent gone g s _
          · exact behind_queueMessage env sent gone g s _
          · rw [behind_notifyRoomLeave]
            exact behind_enterRoom env sent gone { g.notifyRoomLeave env session with
              roomSystem := ((g.notifyRoomLeave env
                session).roomSystem.removeSessionFromCurrentRoom s).moveSessionToRoom s r }
              s requestId _ _ _
          · exact behind_enterRoom env sent gone
              { g with roomSystem := g.roomSystem.moveSessionToRoom s r } s requestId _ _ _

theorem behind_handleChatSendRequest (s : UInt32) (content : Bytes) :
    (g.behind sent gone).handleChatSendRequest env s content
      = (g.handleChatSendRequest env s content).behind sent gone := by
  unfold handleChatSendRequest
  rw [show (g.behind sent gone).roomSystem = g.roomSystem from rfl]
  cases g.roomSystem.findSession s with
  | none => rfl
  | some session =>
      simp only
      split_ifs
      · rfl
      · exact behind_queueMessage env sent gone g s _
      · exact behind_queueMessage env sent gone g s _
      · exact behind_queueMessage env sent gone g s _
      · exact behind_foldl sent gone g _ (fun g member => behind_queueMessage env sent gone
          { g with clockReads := g.clockReads + 1 } _ _) _

theorem behind_handleLeaveRoomRequest (s requestId : UInt32) :
    (g.behind sent gone).handleLeaveRoomRequest env s requestId
      = (g.handleLeaveRoomRequest env s requestId).behind sent gone := by
  unfold handleLeaveRoomRequest
  rw [show (g.behind sent gone).roomSystem = g.roomSystem from rfl]
  cases g.roomSystem.findSession s with
  | none => rfl
  | some session =>
      simp only
      split_ifs
      · exact behind_queueMessage env sent gone g s _
      · have hleft : ({ (g.behind sent gone).notifyRoomLeave env session with
              roomSystem := ((g.behind sent gone).notifyRoomLeave env
                session).roomSystem.removeSessionFromCurrentRoom s } : GameLogicSystem)
            = behind sent gone { g.notifyRoomLeave env session with
              roomSystem := (g.notifyRoomLeave env
                session).roomSystem.removeSessionFromCurrentRoom s } := by
          rw [behind_notifyRoomLeave]
          rfl
        rw [hleft]
        simp only [queueSystemMessage, queueLeaveRoomResponse, behind_queueMessage]

/-- The removal of a session that asked for it. -/
theorem behind_removal (s : UInt32) :
    ({ g.behind sent gone with
        roomSystem := (g.behind sent gone).roomSystem.removeSession s
        pendingDisconnects := (g.behind sent gone).pendingDisconnects ++ [s] } : GameLogicSystem)
      = behind sent gone { g with
        roomSystem := g.roomSystem.removeSession s
        pendingDisconnects := g.pendingDisconnects ++ [s] } := by
  unfold behind
  simp only [List.append_assoc]

theorem behind_handleDisconnectRequest (s requestId : UInt32) :
    (g.behind sent gone).handleDisconnectRequest env s requestId
      = (g.handleDisconnectRequest env s requestId).behind sent gone := by
  unfold handleDisconnectRequest queueDisconnectResponse
  simp only [behind_queueMessage]
  generalize g.queueMessage env s _ = answered
  have hnotices := behind_leaveIfPresent env sent gone answered
    (answered.roomSystem.findSession s)
  exact (congrArg (fun g : GameLogicSystem => { g with
    roomSystem := g.roomSystem.removeSession s
    pendingDisconnects := g.pendingDisconnects ++ [s] }) hnotices).trans
      (behind_removal sent gone _ s)

/-- No handler reads the queues. -/
theorem behind_handleEvent (event : ServerEvent) :
    handleEvent env (g.behind sent gone) event
      = (handleEvent env g event).behind sent gone := by
  cases event with
  | sessionConnected s => rfl
  | sessionDisconnected s =>
      have hnotices := behind_leaveIfPresent env sent gone g (g.roomSystem.findSession s)
      exact congrArg (fun g => { g with roomSystem := g.roomSystem.removeSession s }) hnotices
  | invalidPacket s message => exact behind_queueMessage env sent gone g s _
  | loginRequest s requestId name =>
      exact behind_handleLoginRequest env sent gone g s requestId name
  | roomListRequest s requestId => exact behind_queueMessage env sent gone g s _
  | joinRoomRequest s requestId r =>
      exact behind_handleJoinRoomRequest env sent gone g s requestId r
  | chatSendRequest s requestId content =>
      exact behind_handleChatSendRequest env sent gone g s content
  | leaveRoomRequest s requestId =>
      exact behind_handleLeaveRoomRequest env sent gone g s requestId
  | disconnectRequest s requestId =>
      exact behind_handleDisconnectRequest env sent gone g s requestId

theorem update_behind (events : List ServerEvent) :
    (g.behind sent gone).update env events = (g.update env events).behind sent gone :=
  behind_foldl sent gone g _ (fun g event => behind_handleEvent env sent gone g event) events

end Behind

/-- The state with both queues emptied. -/
def emptied (g : GameLogicSystem) : GameLogicSystem :=
  { g with outgoingMessages := [], pendingDisconnects := [] }

/-- What was in the queues can be put back in front of the emptied state. -/
theorem behind_emptied (g : GameLogicSystem) :
    g.emptied.behind g.outgoingMessages g.pendingDisconnects = g := by
  unfold behind emptied
  simp only [List.append_nil]

end GameLogicSystem

/-! ### What the loop does to the transport -/

/-- A packet taken from the queue, a message sent, a session disconnected. -/
inductive LoopOutput where
  | polled (packet : Packet)
  | sent (message : OutgoingMessage)
  | disconnected (sessionId : UInt32)
  deriving DecidableEq, Repr

namespace LoopOutput

def polled? : LoopOutput → Option Packet
  | .polled packet => some packet
  | _ => none

def sent? : LoopOutput → Option OutgoingMessage
  | .sent message => some message
  | _ => none

def disconnected? : LoopOutput → Option UInt32
  | .disconnected sessionId => some sessionId
  | _ => none

/-- The call of the transport. -/
def call (codec : Codec) : LoopOutput → Server.Action
  | .polled _ => .poll
  | .sent message => .send message.sessionId (codec.buildMessage message.payload)
  | .disconnected sessionId => .disconnect sessionId

end LoopOutput

/-- What the loop has still to send. -/
def Phase.messages : Phase → List OutgoingMessage
  | .flush messages _ => messages
  | _ => []

/-- Whom the loop has still to disconnect. -/
def Phase.disconnects : Phase → List UInt32
  | .flush _ disconnects => disconnects
  | _ => []

namespace GameServer

/-- The call of the transport that a step makes. -/
def output (g : GameServer) : Action → List LoopOutput
  | .io _ => []
  | .game =>
    match g.phase with
    | .receive _ => (g.server.queue.pollPacket.map (fun (packet, _) => .polled packet)).toList
    | .update _ => []
    | .flush (message :: _) _ => [.sent message]
    | .flush [] (sessionId :: _) => [.disconnected sessionId]
    | .flush [] [] => []

/-- Every call the loop makes in a run from the start of the server. -/
def outputs (codec : Codec) (actions : List Action) : List LoopOutput :=
  Machine.emitted (step codec) output {} actions

/-- What a step does to the transport: a handler of its own, or the call the loop
    makes. -/
def transportSteps (codec : Codec) (g : GameServer) : Action → List Server.Action
  | .io action => [.io action]
  | .game => (g.output .game).map (LoopOutput.call codec)

/-- The loop agrees with a single `Update` of everything handled: the packets
    polled and the packets in the queue are those pushed, the events handled and
    the events held are those of the packets polled, what was sent and what is
    left to send is what was queued, and the rest of the state is the same. -/
structure Caught (codec : Codec) (past : List LoopOutput) (g : GameServer) : Prop where
  packets : past.filterMap LoopOutput.polled? ++ g.server.queue.packets = g.server.queue.pushed
  events : g.handled ++ g.phase.events
    = receive codec (past.filterMap LoopOutput.polled?)
  messages : past.filterMap LoopOutput.sent? ++ g.phase.messages
    = (GameLogicSystem.initial.update codec.toEnv g.handled).outgoingMessages
  disconnects : past.filterMap LoopOutput.disconnected? ++ g.phase.disconnects
    = (GameLogicSystem.initial.update codec.toEnv g.handled).pendingDisconnects
  game : g.game = (GameLogicSystem.initial.update codec.toEnv g.handled).emptied

variable {codec : Codec}

theorem caught_init : Caught codec [] {} where
  packets := rfl
  events := rfl
  messages := rfl
  disconnects := rfl
  game := rfl

end GameServer

/-- A push appends to the queue what it appends to the record. -/
theorem PacketQueue.pushPacket_appends (q : PacketQueue) (packet : Packet) :
    ∃ new, (q.pushPacket packet).2.packets = q.packets ++ new ∧
      (q.pushPacket packet).2.pushed = q.pushed ++ new := by
  unfold pushPacket
  split_ifs
  · exact ⟨[], (List.append_nil _).symm, (List.append_nil _).symm⟩
  · exact ⟨[packet], rfl, rfl⟩
  · exact ⟨[], (List.append_nil _).symm, (List.append_nil _).symm⟩

/-- So does every handler of the transport. -/
theorem Server.ioStep_appends {s t : Server} {action : IoAction} (h : s.ioStep action = some t) :
    ∃ new, t.queue.packets = s.queue.packets ++ new ∧
      t.queue.pushed = s.queue.pushed ++ new := by
  have hnone : ∀ {q : PacketQueue}, q = s.queue → ∃ new, q.packets = s.queue.packets ++ new ∧
      q.pushed = s.queue.pushed ++ new := by
    intro q hq
    rw [hq]
    exact ⟨[], (List.append_nil _).symm, (List.append_nil _).symm⟩
  rcases ioStep_cases h with ⟨_, ht⟩ | ⟨index, session, session', sessionAction, effects, _,
    _, hstep, ht⟩ | ⟨_, hqueue, _⟩
  · rw [ht]
    unfold onAccept
    by_cases hdown : s.queue.shuttingDown = true
    · rw [if_pos hdown]
      exact hnone rfl
    · rw [if_neg hdown]
      have hpush := s.queue.pushPacket_appends ⟨.connect, s.nextId, []⟩
      simp only
      split_ifs
      · exact hpush
      · exact hpush
  · rw [ht]
    unfold onSession
    cases (Session.step_outcome hstep).2 with
    | silent => exact hnone rfl
    | receives size data => exact s.queue.pushPacket_appends ⟨.data, session.id, data⟩
    | closes => exact s.queue.pushPacket_appends ⟨.disconnect, session.id, []⟩
  · exact hnone hqueue

namespace GameServer

variable {codec : Codec} {past : List LoopOutput} {g : GameServer}

/-- A handler of the transport between two steps of the loop. -/
theorem caught_io (h : Caught codec past g) {action : IoAction} {server : Server}
    (hio : g.server.ioStep action = some server) : Caught codec past { g with server } := by
  rcases Server.ioStep_appends hio with ⟨new, hpackets, hpushed⟩
  refine ⟨?_, h.events, h.messages, h.disconnects, h.game⟩
  simp only
  rw [hpackets, hpushed, ← h.packets, List.append_assoc]

/-- The update moves the events held to the events handled, and what they queued
    to the flush. -/
theorem caught_update (h : Caught codec past g) {events : List ServerEvent}
    (hphase : g.phase = .update events) : Caught codec past (g.gameStep codec) := by
  have hevents := h.events
  have hmessages := h.messages
  have hdisconnects := h.disconnects
  rw [hphase] at hevents hmessages hdisconnects
  simp only [Phase.messages, Phase.disconnects, List.append_nil] at hmessages hdisconnects
  -- The long update goes on from the state before the queues were emptied.
  have hlong : GameLogicSystem.initial.update codec.toEnv (g.handled ++ events)
      = (g.game.update codec.toEnv events).behind (past.filterMap LoopOutput.sent?)
        (past.filterMap LoopOutput.disconnected?) := by
    rw [← GameLogicSystem.update_behind, h.game, hmessages, hdisconnects,
      GameLogicSystem.behind_emptied]
    exact List.foldl_append
  unfold gameStep
  rw [hphase]
  refine ⟨h.packets, ?_, ?_, ?_, ?_⟩
  · simp only [Phase.events, List.append_nil]
    exact hevents
  · simp only [Phase.messages]
    rw [hlong]
    rfl
  · simp only [Phase.disconnects]
    rw [hlong]
    rfl
  · simp only
    rw [hlong]
    rfl

theorem caught_game (h : Caught codec past g) :
    Caught codec (past ++ g.output .game) (g.gameStep codec) := by
  have hsame : ∀ {g' : GameServer}, Caught codec past g' → Caught codec (past ++ []) g' := by
    intro g' hg'
    rw [List.append_nil]
    exact hg'
  have hpackets := h.packets
  have hevents := h.events
  have hmessages := h.messages
  have hdisconnects := h.disconnects
  cases hphase : g.phase with
  | receive events =>
      rw [hphase] at hevents hmessages hdisconnects
      unfold output gameStep PacketQueue.pollPacket
      simp only [hphase]
      cases hqueue : g.server.queue.packets with
      | nil =>
          rw [hqueue] at hpackets
          -- The queue is empty: the loop goes on to `Update`, and nothing is put out.
          exact hsame ⟨by rw [← hpackets, hqueue], hevents, hmessages, hdisconnects, h.game⟩
      | cons packet rest =>
          rw [hqueue] at hpackets
          -- A packet is polled. It moves from the queue to the past, and so do its events.
          simp only [Option.map_some, Option.toList_some]
          refine ⟨?_, ?_, ?_, ?_, h.game⟩
          · rw [List.filterMap_append, List.append_assoc]
            exact hpackets
          · rw [List.filterMap_append, receive_append, ← hevents, List.append_assoc]
            exact congrArg _ (congrArg _ (receive_singleton codec packet).symm)
          · rw [List.filterMap_append, List.append_assoc]
            exact hmessages
          · rw [List.filterMap_append, List.append_assoc]
            exact hdisconnects
  | update events =>
      have houtput : g.output .game = [] := by
        unfold output
        simp only [hphase]
      rw [houtput]
      exact hsame (caught_update h hphase)
  | flush messages disconnects =>
      rw [hphase] at hevents hmessages hdisconnects
      unfold output gameStep
      simp only [hphase]
      cases messages with
      | cons message messages =>
          rcases g.server.send_eq message.sessionId (codec.buildMessage message.payload) with
            ⟨strand, hsend⟩
          -- A message moves from what is left of the flush to what was put out.
          simp only [hsend]
          refine ⟨?_, ?_, ?_, ?_, h.game⟩
          · rw [List.filterMap_append, List.append_assoc]
            exact hpackets
          · rw [List.filterMap_append]
            simp only [LoopOutput.polled?, List.filterMap_cons, List.filterMap_nil,
              List.append_nil]
            exact hevents
          · rw [List.filterMap_append, List.append_assoc]
            exact hmessages
          · rw [List.filterMap_append, List.append_assoc]
            exact hdisconnects
      | nil =>
          cases disconnects with
          -- The flush is over, and the next tick begins with no events.
          | nil => exact hsame ⟨hpackets, hevents, hmessages, hdisconnects, h.game⟩
          | cons sessionId disconnects =>
              rcases g.server.disconnect_eq sessionId with ⟨strand, hdisconnect⟩
              simp only [hdisconnect]
              refine ⟨?_, ?_, ?_, ?_, h.game⟩
              · rw [List.filterMap_append, List.append_assoc]
                exact hpackets
              · rw [List.filterMap_append]
                simp only [LoopOutput.polled?, List.filterMap_cons, List.filterMap_nil,
                  List.append_nil]
                exact hevents
              · rw [List.filterMap_append, List.append_assoc]
                exact hmessages
              · rw [List.filterMap_append, List.append_assoc]
                exact hdisconnects

theorem caught_step (past : List LoopOutput) (g : GameServer) (action : Action)
    (g' : GameServer) (h : Caught codec past g) (hstep : g.step codec action = some g') :
    Caught codec (past ++ g.output action) g' := by
  cases action with
  | io action =>
      rcases Option.map_eq_some_iff.mp hstep with ⟨server, hio, hg'⟩
      rw [← hg']
      unfold output
      rw [List.append_nil]
      exact caught_io h hio
  | game =>
      rw [step, Option.some.injEq] at hstep
      rw [← hstep]
      exact caught_game h

/-- Of the transport, a step of the loop touches what its call does. -/
theorem transport_gameStep (codec : Codec) (g : GameServer) :
    Machine.run Server.step g.server (g.transportSteps codec .game)
      = some (g.gameStep codec).server := by
  cases hphase : g.phase with
  | receive events =>
      -- A poll that finds nothing ends the phase and is no call worth a label.
      cases hpoll : g.server.queue.pollPacket with
      | none =>
          simp only [transportSteps, output, gameStep, hphase, hpoll, Option.map_none,
            Option.toList_none, List.map_nil, Machine.run]
      | some polled =>
          simp only [transportSteps, output, gameStep, hphase, hpoll, Option.map_some,
            Option.toList_some, List.map_cons, List.map_nil, LoopOutput.call, Machine.run,
            Server.step, Option.bind_some]
  | update events =>
      simp only [transportSteps, output, gameStep, hphase, List.map_nil, Machine.run]
  | flush messages disconnects =>
      -- Messages first, then the disconnects, one call a step.
      cases messages with
      | cons message messages =>
          simp only [transportSteps, output, gameStep, hphase, List.map_cons, List.map_nil,
            LoopOutput.call, Machine.run, Server.step, Option.bind_some]
      | nil =>
          cases disconnects with
          | nil => simp only [transportSteps, output, gameStep, hphase, List.map_nil, Machine.run]
          | cons sessionId disconnects =>
              simp only [transportSteps, output, gameStep, hphase, List.map_cons, List.map_nil,
                LoopOutput.call, Machine.run, Server.step, Option.bind_some]

theorem transport_step (g : GameServer) (action : Action) (g' : GameServer)
    (hstep : g.step codec action = some g') :
    Machine.run Server.step g.server (g.transportSteps codec action) = some g'.server := by
  cases action with
  | io action =>
      rcases Option.map_eq_some_iff.mp hstep with ⟨server, hio, hg'⟩
      rw [← hg', transportSteps, Machine.run, Server.step, hio]
      rfl
  | game =>
      rw [step, Option.some.injEq] at hstep
      rw [← hstep]
      exact transport_gameStep codec g

theorem caught_run {actions : List Action} {g : GameServer}
    (hrun : Machine.run (step codec) {} actions = some g) :
    Caught codec (outputs codec actions) g := by
  have h : Caught codec ([] ++ outputs codec actions) g :=
    Machine.history caught_step hrun [] caught_init
  rw [List.nil_append] at h
  exact h

/-- The loop is one long `Update`. In every run, with handlers of the transport
    between any two of its steps: the packets polled are the first of those
    pushed, each exactly once; the events handled are those of the packets
    polled, less the ones still held; the messages passed to `send` are, in
    order, the ones a single `Update` of the events handled queues, less those
    the flush has still to send, and so for the sessions disconnected; the rest
    of the game state is what that `Update` leaves; and the transport is where
    its own handlers and these calls, each in its place, take it. -/
theorem loop_refines_update (codec : Codec) (actions : List Action) (g : GameServer)
    (hrun : Machine.run (step codec) {} actions = some g) :
    let past := outputs codec actions
    let whole := GameLogicSystem.initial.update codec.toEnv g.handled
    past.filterMap LoopOutput.polled? ++ g.server.queue.packets = g.server.queue.pushed ∧
    g.handled ++ g.phase.events = receive codec (past.filterMap LoopOutput.polled?) ∧
    past.filterMap LoopOutput.sent? ++ g.phase.messages = whole.outgoingMessages ∧
    past.filterMap LoopOutput.disconnected? ++ g.phase.disconnects = whole.pendingDisconnects ∧
    g.game = whole.emptied ∧
    Machine.run Server.step {} (Machine.emitted (step codec) (transportSteps codec) {} actions)
      = some g.server :=
  have h := caught_run hrun
  ⟨h.packets, h.events, h.messages, h.disconnects, h.game,
    Machine.run_emitted transport_step hrun⟩

/-- A client connects, its login is read, and the loop goes round twice, up to the
    call that sends the response. -/
def loginTick : List Action :=
  let payload := plainCodec.buildMessage ⟨7, .loginRequest (some { displayName := some [65] })⟩
  [.io .accept, .game, .game, .game, .game,
    .io (.session 0 (.arrive ((Wire.buildDataFrame payload).take Wire.headerSize))),
    .io (.session 0 .read), .io (.session 0 (.arrive payload)), .io (.session 0 .read),
    .game, .game, .game, .game]

theorem loop_refines_update_loginTick :
    ∃ g, Machine.run (step plainCodec) {} loginTick = some g ∧
      g.handled = [.sessionConnected 1, .loginRequest 1 7 [65]] ∧
      g.phase = .flush [] [] ∧
      (outputs plainCodec loginTick).filterMap LoopOutput.sent?
        = (GameLogicSystem.initial.update plainCodec.toEnv g.handled).outgoingMessages := by
  have hend : (Machine.run (step plainCodec) {} loginTick).map (fun g => (g.handled, g.phase))
      = some ([.sessionConnected 1, .loginRequest 1 7 [65]], .flush [] []) := by decide +kernel
  rcases Option.map_eq_some_iff.mp hend with ⟨g, hrun, hg⟩
  rw [Prod.mk.injEq] at hg
  have hloop := (loop_refines_update plainCodec loginTick g hrun).2.2.1
  rw [hg.2, Phase.messages, List.append_nil] at hloop
  exact ⟨g, hrun, hg.1, hg.2, hloop⟩

/-! ### A loop that is left alone -/

/-- The flush ends, and the next tick begins. -/
theorem run_flush (codec : Codec) (messages : List OutgoingMessage) (disconnects : List UInt32)
    (g : GameServer) (hphase : g.phase = .flush messages disconnects) :
    ∃ n g', Machine.run (step codec) g (List.replicate n .game) = some g' ∧
      g'.phase = .receive [] ∧ g'.server.queue = g.server.queue := by
  induction messages generalizing g with
  | cons message messages ih =>
      rcases g.server.send_eq message.sessionId (codec.buildMessage message.payload) with
        ⟨strand, hsend⟩
      have hstep : g.step codec .game = some
          { g with server := { g.server with strand }, phase := .flush messages disconnects } := by
        unfold step gameStep
        simp only [hphase, hsend]
      rcases ih { g with
        server := { g.server with strand }, phase := .flush messages disconnects } rfl with
        ⟨n, g', hrun, hend, hqueue⟩
      refine ⟨n + 1, g', ?_, hend, hqueue⟩
      rw [List.replicate_succ, Machine.run, hstep]
      exact hrun
  | nil =>
      induction disconnects generalizing g with
      | cons sessionId disconnects ih =>
          rcases g.server.disconnect_eq sessionId with ⟨strand, hdisconnect⟩
          have hstep : g.step codec .game = some
              { g with server := { g.server with strand }, phase := .flush [] disconnects } := by
            unfold step gameStep
            simp only [hphase, hdisconnect]
          rcases ih { g with
            server := { g.server with strand }, phase := .flush [] disconnects } rfl with
            ⟨n, g', hrun, hend, hqueue⟩
          refine ⟨n + 1, g', ?_, hend, hqueue⟩
          rw [List.replicate_succ, Machine.run, hstep]
          exact hrun
      | nil =>
          refine ⟨1, { g with phase := .receive [] }, ?_, rfl, rfl⟩
          simp only [List.replicate_succ, List.replicate_zero, Machine.run, step, gameStep,
            hphase, Option.bind_some]

/-- The rest of a tick, from its polls on. -/
theorem run_receive (codec : Codec) (packets : List Packet) (events : List ServerEvent)
    (g : GameServer) (hphase : g.phase = .receive events)
    (hpackets : g.server.queue.packets = packets) :
    ∃ n g', Machine.run (step codec) g (List.replicate n .game) = some g' ∧
      g'.phase = .receive [] ∧ g'.server.queue = { g.server.queue with packets := [] } := by
  induction packets generalizing g events with
  | cons packet packets ih =>
      have hstep : g.step codec .game = some
          { g with
            server := { g.server with queue := { g.server.queue with packets } }
            phase := .receive (events ++ receivePacket codec packet) } := by
        unfold step gameStep PacketQueue.pollPacket
        simp only [hphase, hpackets]
      rcases ih _ { g with
        server := { g.server with queue := { g.server.queue with packets } }
        phase := .receive (events ++ receivePacket codec packet) } rfl rfl with
        ⟨n, g', hrun, hend, hqueue⟩
      refine ⟨n + 1, g', ?_, hend, hqueue⟩
      rw [List.replicate_succ, Machine.run, hstep]
      exact hrun
  | nil =>
      -- The queue is empty: the update runs, and what it queued is flushed.
      have hpoll : g.step codec .game = some { g with phase := .update events } := by
        unfold step gameStep PacketQueue.pollPacket
        simp only [hphase, hpackets]
      rcases run_flush codec _ _ (gameStep codec { g with phase := .update events }) rfl with
        ⟨n, g', hrun, hend, hqueue⟩
      refine ⟨n + 2, g', ?_, hend, ?_⟩
      · rw [List.replicate_succ, List.replicate_succ, Machine.run, hpoll]
        exact hrun
      · rw [hqueue, ← hpackets]
        rfl

/-- Whatever the loop is doing, left alone it comes to the end of a tick with
    the queue empty. -/
theorem run_to_end (codec : Codec) (g : GameServer) :
    ∃ n g', Machine.run (step codec) g (List.replicate n .game) = some g' ∧
      g'.phase = .receive [] ∧ g'.server.queue = { g.server.queue with packets := [] } := by
  cases hphase : g.phase with
  | receive events => exact run_receive codec _ events g hphase rfl
  | update events =>
      rcases run_flush codec _ _ (g.gameStep codec) (by rw [gameStep, hphase]) with
        ⟨n, u, hrun, hend, hqueue⟩
      rcases run_receive codec _ [] u hend rfl with ⟨k, g', hrun', hend', hqueue'⟩
      refine ⟨n + 1 + k, g', ?_, hend', ?_⟩
      · rw [List.replicate_add, List.replicate_succ]
        exact Machine.run_trans (t := u) hrun hrun'
      · rw [hqueue', hqueue, gameStep, hphase]
  | flush messages disconnects =>
      rcases run_flush codec messages disconnects g hphase with ⟨n, u, hrun, hend, hqueue⟩
      rcases run_receive codec _ [] u hend rfl with ⟨k, g', hrun', hend', hqueue'⟩
      refine ⟨n + k, g', ?_, hend', ?_⟩
      · rw [List.replicate_add]
        exact Machine.run_trans hrun hrun'
      · rw [hqueue', hqueue]

/-- From every state of every run, finitely many steps of the loop alone lead to
    the end of a tick at which everything that was ever pushed has been
    handled, and everything it gave rise to has been sent. -/
theorem tick_completes (codec : Codec) (actions : List Action) (g : GameServer)
    (hrun : Machine.run (step codec) {} actions = some g) :
    ∃ n g', Machine.run (step codec) {} (actions ++ List.replicate n .game) = some g' ∧
      g'.phase = .receive [] ∧ g'.server.queue.packets = [] ∧
      g'.handled = receive codec g.server.queue.pushed ∧
      (outputs codec (actions ++ List.replicate n .game)).filterMap LoopOutput.sent?
        = (GameLogicSystem.initial.update codec.toEnv g'.handled).outgoingMessages ∧
      (outputs codec (actions ++ List.replicate n .game)).filterMap LoopOutput.disconnected?
        = (GameLogicSystem.initial.update codec.toEnv g'.handled).pendingDisconnects := by
  rcases run_to_end codec g with ⟨n, g', hrest, hphase, hqueue⟩
  have hwhole := Machine.run_trans hrun hrest
  have h := caught_run hwhole
  have hpackets := h.packets
  have hevents := h.events
  have hmessages := h.messages
  have hdisconnects := h.disconnects
  rw [hphase] at hevents hmessages hdisconnects
  rw [hqueue] at hpackets
  simp only [List.append_nil] at hpackets
  simp only [Phase.events, List.append_nil] at hevents
  simp only [Phase.messages, List.append_nil] at hmessages
  simp only [Phase.disconnects, List.append_nil] at hdisconnects
  rw [hpackets] at hevents
  exact ⟨n, g', hwhole, hphase, by rw [hqueue], hevents, hmessages, hdisconnects⟩

theorem tick_completes_loginTick :
    ∃ n g', Machine.run (step plainCodec) {} (loginTick ++ List.replicate n .game) = some g' ∧
      g'.phase = .receive [] ∧
      g'.handled = [.sessionConnected 1, .loginRequest 1 7 [65]] := by
  have hend : (Machine.run (step plainCodec) {} loginTick).map
      (fun g => receive plainCodec g.server.queue.pushed)
      = some [.sessionConnected 1, .loginRequest 1 7 [65]] := by decide +kernel
  rcases Option.map_eq_some_iff.mp hend with ⟨g, hrun, hg⟩
  rcases tick_completes plainCodec loginTick g hrun with ⟨n, g', hwhole, hphase, _, hhandled, _⟩
  exact ⟨n, g', hwhole, hphase, hhandled.trans hg⟩

end GameServer

end ProjectNight
