import ProjectNight.Core.Network
import ProjectNight.Theory.Responses
import ProjectNight.Theory.ServerLoop
import ProjectNight.Theory.ServerView

/-!
# What the Network Delivers

The server program, its clients and strangers, in every interleaving: what a
client reads is a prefix of what the loop has sent to its session, what the
server reads from it is a prefix of what it was given to send, and neither
depends on what anybody else does. So the two results about the parts, the one
about a connection with a server to itself and the one about the loop with a
transport left open, are put together.

The link of a client is a `Connection` whose server is what its session takes
part in (`view`); the histories of the game thread's side are those of the
loop. Before the accept handler has run, the connection could still get any
id (`waitingView`). The one thing the parts do not say by themselves is that
the game never addresses a session before the server has made it: a message
goes to a session that had an event, an event comes from a packet, and packets
are pushed for sessions that were started (`recipient_known`).

## Main definitions

* `Network.output`, `Network.outputs`: The calls of the loop.
* `polledFrom`, `sentTo`: What the loop polled from a session and sent to it.
* `Network.view`, `Network.waitingView`: A link as a connection.
* `Network.Wired`: The invariant.

## Theorems

* `GameLogicSystem.recipient_known`: Messages go to sessions that had an event.
* `Network.wired_step`: Every step keeps the invariant.
* `Network.network_delivers`: What every link delivers, in every run.
-/

namespace ProjectNight

open Wire

/-! ### Whom the game addresses -/

theorem sessionId_of_mem_receivePacket {codec : Codec} {packet : Packet} {event : ServerEvent}
    (h : event ∈ receivePacket codec packet) : event.sessionId = packet.sessionId := by
  by_cases hswallowed : packet.Swallowed codec
  · have hnone : receivePacket codec packet = [] := by
      unfold receivePacket
      rw [hswallowed.1]
      exact (decodeProtocolPacket_eq_nil codec _ _).mpr hswallowed.2
    rw [hnone] at h
    exact absurd h List.not_mem_nil
  · rcases receivePacket_of_not_swallowed codec hswallowed with ⟨e, he, hsession⟩
    rw [he, List.mem_singleton] at h
    rw [h]
    exact hsession

/-- An event comes from a packet of its session. -/
theorem packet_of_mem_receive {codec : Codec} {packets : List Packet} {event : ServerEvent}
    (h : event ∈ receive codec packets) :
    ∃ packet ∈ packets, packet.sessionId = event.sessionId := by
  rcases List.mem_flatMap.mp h with ⟨packet, hpacket, hevent⟩
  exact ⟨packet, hpacket, (sessionId_of_mem_receivePacket hevent).symm⟩

namespace GameLogicSystem

variable (env : Env)

theorem update_concat (g : GameLogicSystem) (events : List ServerEvent) (event : ServerEvent) :
    g.update env (events ++ [event]) = handleEvent env (g.update env events) event :=
  List.foldl_append

/-- A session with an entry has had an event. -/
theorem known_of_findSession (events : List ServerEvent) {id : UInt32} {session : SessionState}
    (h : (update env initial events).roomSystem.findSession id = some session) :
    ∃ event ∈ events, event.sessionId = id := by
  induction events using List.reverseRecOn generalizing session with
  | nil =>
      rw [show update env initial [] = initial from rfl, show initial.roomSystem
        = RoomSystem.init from rfl, RoomSystem.findSession_init] at h
      exact absurd h.symm (Option.some_ne_none session)
  | append_singleton events event ih =>
      rw [update_concat, (handleEvent_performs env (update_wellFormed env events)
        event).roomSystem, RoomSystem.findSession_change] at h
      split_ifs at h with hself
      · exact ⟨event, List.mem_append_right _ (List.mem_singleton.mpr rfl), hself⟩
      · rcases ih h with ⟨e, he, hid⟩
        exact ⟨e, List.mem_append_left _ he, hid⟩

/-- A message goes to a session that has had an event. -/
theorem recipient_known (events : List ServerEvent) {out : OutgoingMessage}
    (h : out ∈ (update env initial events).outgoingMessages) :
    ∃ event ∈ events, event.sessionId = out.sessionId := by
  induction events using List.reverseRecOn with
  | nil => exact absurd h List.not_mem_nil
  | append_singleton events event ih =>
      rw [update_concat, outgoingMessages_step, List.mem_append] at h
      have hw := update_wellFormed env events
      have hearlier : ∀ {id : UInt32}, (∃ e ∈ events, e.sessionId = id) →
          ∃ e ∈ events ++ [event], e.sessionId = id :=
        fun ⟨e, he, hid⟩ => ⟨e, List.mem_append_left _ he, hid⟩
      rcases h with hold | hnew
      · exact hearlier (ih hold)
      · rcases recipient_of_mem hw.toConsistent (List.mem_filter.mp hnew).1 with
          hself | ⟨r, _, hmember⟩
        · exact ⟨event, List.mem_append_right _ (List.mem_singleton.mpr rfl), hself.symm⟩
        · rcases hw.toConsistent.session_of_isMember hmember with ⟨session, hs, _⟩
          exact hearlier (known_of_findSession env events hs)

/-- So does a disconnect. -/
theorem disconnect_known (events : List ServerEvent) {id : UInt32}
    (h : id ∈ (update env initial events).pendingDisconnects) :
    ∃ event ∈ events, event.sessionId = id := by
  induction events using List.reverseRecOn with
  | nil => exact absurd h List.not_mem_nil
  | append_singleton events event ih =>
      rw [update_concat, (handleEvent_performs env (update_wellFormed env events)
        event).pendingDisconnects, List.mem_append] at h
      rcases h with hold | hnew
      · rcases ih hold with ⟨e, he, hid⟩
        exact ⟨e, List.mem_append_left _ he, hid⟩
      · exact ⟨event, List.mem_append_right _ (List.mem_singleton.mpr rfl),
          (eq_of_mem_disconnects hnew).symm⟩

/-- What is queued has passed the size guard. -/
theorem fits_of_mem_outgoingMessages (events : List ServerEvent) {out : OutgoingMessage}
    (h : out ∈ (update env initial events).outgoingMessages) : env.fits out.payload = true := by
  have hsync : Synced env (update env initial events) :=
    synced_update (synced_initial env) events
  rw [hsync, List.mem_map] at h
  rcases h with ⟨call, hcall, rfl⟩
  exact (List.mem_filter.mp hcall).2

end GameLogicSystem

/-! ### A link as a connection -/

/-- The payloads the loop has polled from a session. -/
def polledFrom (id : UInt32) (past : List LoopOutput) : List Bytes :=
  ((past.filterMap LoopOutput.polled?).filter (Connection.isPayload id)).map Packet.data

/-- The buffers the loop has sent to a session. -/
def sentTo (codec : Codec) (id : UInt32) (past : List LoopOutput) : List Bytes :=
  ((past.filterMap LoopOutput.sent?).filter (fun out => out.sessionId = id)).map
    (fun out => codec.buildMessage out.payload)

namespace Network

/-- The calls the loop makes in a step of the network. -/
def output (n : Network) : Action → List LoopOutput
  | .game => n.host.output .game
  | _ => []

/-- Every call the loop makes in a run. -/
def outputs (codec : Codec) (actions : List Action) : List LoopOutput :=
  Machine.emitted (step codec) output {} actions

variable (codec : Codec)

/-- A link that is served by the object at `index`. -/
def view (past : List LoopOutput) (server : Server) (index : Nat) (id : UInt32) (link : Link) :
    Connection where
  server := server.only index id
  client := link.client
  toServer := link.toServer
  toClient := link.toClient
  connectPolled := true
  sentToServer := link.sentToServer
  sentToClient := sentTo codec id past
  serverLog := link.serverLog
  clientLog := link.clientLog
  serverPolled := polledFrom id past
  clientPolled := link.clientPolled

/-- A link that has not been accepted, if `id` will be its id. -/
def waitingView (id : UInt32) (link : Link) : Connection where
  server := { nextId := id }
  client := link.client
  toServer := link.toServer
  toClient := link.toClient
  sentToServer := link.sentToServer
  serverLog := link.serverLog
  clientLog := link.clientLog
  clientPolled := link.clientPolled

/-- What the invariant says of a link. -/
structure LinkFit (past : List LoopOutput) (server : Server) (link : Link) : Prop where
  waiting : link.taken = false →
    link.object = none ∧ ∀ id, Connection.Connected id (waitingView id link)
  served : ∀ index, link.object = some index → ∃ session,
    server.objects[index]? = some session ∧
    Connection.Connected session.id (view codec past server index session.id link)

/-- The invariant: the loop agrees with a single `Update`, the server keeps its
    sessions apart, every link is a connection, and no two have one object. -/
structure Wired (past : List LoopOutput) (n : Network) : Prop where
  caught : GameServer.Caught codec past n.host
  hosted : n.host.server.Hosted
  links : ∀ (k : Nat) (link : Link), n.links[k]? = some link →
    LinkFit codec past n.host.server link
  apart : ∀ (j k index : Nat) (link link' : Link), n.links[j]? = some link →
    n.links[k]? = some link' → link.object = some index → link'.object = some index → j = k

theorem wired_init : Wired codec [] {} where
  caught := GameServer.caught_init
  hosted := Server.hosted_init
  links := fun k link h => by
    rw [List.getElem?_nil] at h
    exact absurd h.symm (Option.some_ne_none link)
  apart := fun j k index link link' h => by
    rw [List.getElem?_nil] at h
    exact absurd h.symm (Option.some_ne_none link)

variable {codec}
variable {past : List LoopOutput} {n : Network} {s t : Server} {link : Link}

/-- The server changed, and to the session of the link that was a step of its
    connection. -/
theorem LinkFit.server (h : LinkFit codec past s link)
    (hstep : ∀ index session, link.object = some index → s.objects[index]? = some session →
      ∃ session', t.objects[index]? = some session' ∧ session'.id = session.id ∧
        ∀ c : Connection, Connection.Connected session.id c →
          c.server = s.only index session.id →
          Connection.Connected session.id { c with server := t.only index session.id }) :
    LinkFit codec past t link where
  waiting := h.waiting
  served := fun index hindex => by
    rcases h.served index hindex with ⟨session, hobject, hconnected⟩
    rcases hstep index session hindex hobject with ⟨session', hobject', hid, hview⟩
    refine ⟨session', hobject', ?_⟩
    rw [hid]
    exact hview _ hconnected rfl

/-- The next handler of `server_strand`. -/
theorem linkFit_task (h : LinkFit codec past s link) (hhosted : s.Hosted)
    (hstep : s.ioStep .task = some t) : LinkFit codec past t link := by
  refine h.server (fun index session _ hobject => ?_)
  have hids : t.ids = s.ids := by
    rcases Server.ioStep_cases hstep with ⟨ha, _⟩ | ⟨_, _, _, _, _, ha, _⟩ | ⟨hprofile, _⟩
    · cases ha
    · cases ha
    · rw [Server.ids_eq_profile, hprofile, Server.ids_eq_profile]
  have hid : t.ids[index]? = some session.id := hids ▸ Server.getElem?_ids hobject
  unfold Server.ids at hid
  rw [List.getElem?_map, Option.map_eq_some_iff] at hid
  rcases hid with ⟨session', hobject', hid⟩
  exact ⟨session', hobject', hid, fun c hc hserver =>
    Connection.connected_hostTask hhosted hobject rfl hc hserver hstep⟩

/-- The objects after a handler of one of them. -/
theorem onSession_objects {j : Nat} {other other' : Session} {action : SessionAction}
    {effects : List SessionEffect} (hstep : other.step action = some (other', effects)) :
    (s.onSession j other (other', effects)).objects = s.objects.set j other' := by
  unfold Server.onSession
  cases (Session.step_outcome hstep).2 with
  | silent => rfl
  | receives => rfl
  | closes => rfl

theorem onSession_object {j : Nat} {other other' : Session} {action : SessionAction}
    {effects : List SessionEffect} (hobject : s.objects[j]? = some other)
    (hstep : other.step action = some (other', effects)) :
    (s.onSession j other (other', effects)).objects[j]? = some other' := by
  rw [onSession_objects hstep]
  exact List.getElem?_set_self (List.getElem?_eq_some_iff.mp hobject).1

/-- A handler of the object at `j`, which is not the one of the link. -/
theorem linkFit_session (h : LinkFit codec past s link) (hhosted : s.Hosted) {j : Nat}
    {other other' : Session} {action : SessionAction} {effects : List SessionEffect}
    (hobject : s.objects[j]? = some other) (hstep : other.step action = some (other', effects))
    (hlink : link.object ≠ some j) :
    LinkFit codec past (s.onSession j other (other', effects)) link := by
  refine h.server (fun index session hindex hsession => ?_)
  have hj : j ≠ index := fun heq => hlink (heq ▸ hindex)
  have hid : other.id ≠ session.id := by
    intro heq
    refine hj (hhosted.index_unique (Server.getElem?_ids hobject) ?_)
    rw [heq]
    exact Server.getElem?_ids hsession
  refine ⟨session, ?_, rfl, fun c hc hserver => Connection.connected_stranger hc hserver
    (Server.only_onSession_other hj hid hstep)⟩
  rw [onSession_objects hstep, List.getElem?_set_ne hj]
  exact hsession

/-- The accept handler, for somebody else. -/
theorem linkFit_accept (h : LinkFit codec past s link) (hhosted : s.Hosted)
    (hfew : s.onAccept.accepts < 2 ^ 32) : LinkFit codec past s.onAccept link := by
  refine h.server (fun index session _ hobject => ?_)
  have hview := Server.only_onAccept_other hhosted hobject rfl hfew
  have hlt := (List.getElem?_eq_some_iff.mp hobject).1
  refine ⟨session, ?_, rfl, fun c hc hserver => Connection.connected_stranger hc hserver
    (Or.inr ⟨_, hview.2, hview.1⟩)⟩
  unfold Server.onAccept
  simp only
  split_ifs
  · exact hobject
  · rw [List.getElem?_append_left hlt]
    exact hobject
  · exact hobject

/-! ### The steps of a link -/

/-- The client's side of a link moves. That does not touch what the server keeps,
    and it is a step of the connection, whatever the server's side of that is. -/
theorem linkStep_frame {link link' : Link} {action : Link.Action}
    (hstep : link.step action = some link') :
    (link'.taken = link.taken ∧ link'.object = link.object ∧
      link'.serverLog = link.serverLog) ∧
    ∀ (id : UInt32) (c : Connection), Connection.Connected id { c with
        client := link.client, toServer := link.toServer, toClient := link.toClient
        sentToServer := link.sentToServer, clientLog := link.clientLog
        clientPolled := link.clientPolled } →
      Connection.Connected id { c with
        client := link'.client, toServer := link'.toServer, toClient := link'.toClient
        sentToServer := link'.sentToServer, clientLog := link'.clientLog
        clientPolled := link'.clientPolled } := by
  cases action with
  | handler action =>
      rw [Link.step] at hstep
      split_ifs at hstep with hmay
      rcases Option.map_eq_some_iff.mp hstep with ⟨client, hclient, rfl⟩
      exact ⟨⟨rfl, rfl, rfl⟩, fun id c hc => Connection.connected_client hc hmay hclient⟩
  | arrive =>
      rw [Link.step] at hstep
      split at hstep
      · next target hreader =>
          split_ifs at hstep with hsize
          rcases Option.map_eq_some_iff.mp hstep with ⟨client, hclient, rfl⟩
          exact ⟨⟨rfl, rfl, rfl⟩,
            fun id c hc => Connection.connected_clientArrive hc hreader hsize hclient⟩
      · exact absurd hstep (by simp only [reduceCtorEq, not_false_eq_true])
  | transmit count =>
      rw [Link.step] at hstep
      split_ifs at hstep
      rw [← Option.some.inj hstep]
      exact ⟨⟨rfl, rfl, rfl⟩, fun id c hc => Connection.connected_clientTransmit hc count⟩
  | poll =>
      rcases Option.map_eq_some_iff.mp hstep with ⟨⟨data, client⟩, hpoll, rfl⟩
      exact ⟨⟨rfl, rfl, rfl⟩, fun id c hc => Connection.connected_clientPoll hc hpoll⟩
  | send data =>
      rw [← Option.some.inj hstep]
      exact ⟨⟨rfl, rfl, rfl⟩, fun id c hc => Connection.connected_clientSend hc data⟩
  | shutdown =>
      rw [← Option.some.inj hstep]
      exact ⟨⟨rfl, rfl, rfl⟩, fun id c hc => Connection.connected_clientShutdown hc⟩

theorem linkFit_client (h : LinkFit codec past s link) {action : Link.Action} {link' : Link}
    (hstep : link.step action = some link') : LinkFit codec past s link' := by
  rcases linkStep_frame hstep with ⟨⟨htaken, hobject, hlog⟩, hconnection⟩
  refine ⟨fun hfree => ?_, fun index hindex => ?_⟩
  · rcases h.waiting (htaken ▸ hfree) with ⟨hnone, hwaiting⟩
    refine ⟨hobject.trans hnone, fun id => ?_⟩
    have hnew := hconnection id (waitingView id link) (hwaiting id)
    unfold waitingView at hnew ⊢
    rw [hlog]
    exact hnew
  · rcases h.served index (hobject ▸ hindex) with ⟨session, hsession, hconnected⟩
    refine ⟨session, hsession, ?_⟩
    have hnew := hconnection session.id (view codec past s index session.id link) hconnected
    unfold view at hnew ⊢
    rw [hlog]
    exact hnew

/-- What a step on the server's side of a link can be: a handler of the object,
    or a change of what its socket still has to take. -/
theorem sessionStep_cases {index : Nat} {side : SessionSide} {link' : Link}
    (h : sessionStep s link index side = some (t, link')) :
    ∃ session, s.objects[index]? = some session ∧
      ((∃ action session' effects, session.step action = some (session', effects) ∧
        t = s.onSession index session (session', effects)) ∨
      (∃ writer, t = { s with objects := s.objects.set index { session with writer } })) := by
  cases side with
  | handler action =>
      rw [sessionStep] at h
      cases hobject : s.objects[index]? with
      | none => simp only [hobject, reduceCtorEq] at h
      | some session =>
          simp only [hobject] at h
          split_ifs at h
          rcases Option.map_eq_some_iff.mp h with ⟨server, hio, heq⟩
          simp only [Server.ioStep, hobject, Option.map_eq_some_iff] at hio
          rcases hio with ⟨⟨session', effects⟩, hstep, hserver⟩
          rw [Prod.mk.injEq] at heq
          exact ⟨session, rfl, Or.inl ⟨action, session', effects, hstep,
            heq.1.symm.trans hserver.symm⟩⟩
  | arrive =>
      rw [sessionStep] at h
      cases hobject : s.objects[index]? with
      | none => simp only [hobject, Option.map_none, reduceCtorEq] at h
      | some session =>
          simp only [hobject, Option.map_some] at h
          split at h
          · split_ifs at h
            rcases Option.map_eq_some_iff.mp h with ⟨server, hio, heq⟩
            simp only [Server.ioStep, hobject, Option.map_eq_some_iff] at hio
            rcases hio with ⟨⟨session', effects⟩, hstep, hserver⟩
            rw [Prod.mk.injEq] at heq
            exact ⟨session, rfl, Or.inl ⟨_, session', effects, hstep,
              heq.1.symm.trans hserver.symm⟩⟩
          · exact absurd h (by simp only [reduceCtorEq, not_false_eq_true])
  | transmit count =>
      rw [sessionStep] at h
      cases hobject : s.objects[index]? with
      | none => simp only [hobject, reduceCtorEq] at h
      | some session =>
          simp only [hobject] at h
          -- The socket takes bytes of the write in flight; no handler runs.
          split_ifs at h
          rw [Option.some.injEq, Prod.mk.injEq] at h
          exact ⟨session, rfl, Or.inr ⟨_, h.1.symm⟩⟩

/-- The server's side of the link moves. -/
theorem linkFit_own (h : LinkFit codec past s link) {index : Nat} {side : SessionSide}
    {link' : Link} (hindex : link.object = some index)
    (hstep : sessionStep s link index side = some (t, link')) :
    LinkFit codec past t link' ∧ link'.object = link.object := by
  rcases h.served index hindex with ⟨session, hobject, hconnected⟩
  have hsession : (view codec past s index session.id link).session = some session := by
    unfold Connection.session view
    rw [Server.only_objects hobject, List.getElem?_cons_zero]
  -- It is enough to have the new connection: the link is not a waiting one.
  have hserved : ∀ {session' : Session}, t.objects[index]? = some session' →
      session'.id = session.id → link'.taken = link.taken → link'.object = link.object →
      Connection.Connected session.id (view codec past t index session.id link') →
      LinkFit codec past t link' ∧ link'.object = link.object := by
    intro session' hsession' hid htaken hobject' hnew
    refine ⟨⟨fun hfree => ?_, fun j hj => ?_⟩, hobject'⟩
    · have hnone := (h.waiting (htaken ▸ hfree)).1
      rw [hindex] at hnone
      exact absurd hnone (Option.some_ne_none index)
    · rw [hobject', hindex, Option.some.injEq] at hj
      rw [← hj]
      exact ⟨session', hsession', hid.symm ▸ hnew⟩
  cases side with
  | handler action =>
      simp only [sessionStep, hobject] at hstep
      split_ifs at hstep with hmay
      rcases Option.map_eq_some_iff.mp hstep with ⟨server, hio, heq⟩
      simp only [Server.ioStep, hobject, Option.map_eq_some_iff] at hio
      rcases hio with ⟨⟨session', effects⟩, hhandler, hserver⟩
      rw [Prod.mk.injEq] at heq
      rcases heq with ⟨rfl, rfl⟩
      have hnew := Connection.connected_session hconnected hsession hmay hhandler
      have hobjects := onSession_object hobject hhandler
      rw [hserver] at hobjects
      refine hserved hobjects (Session.step_outcome hhandler).1 rfl rfl ?_
      have honly : (view codec past s index session.id link).server.onSession 0 session
          (session', effects) = server.only index session.id := by
        rw [← hserver]
        exact (Server.only_onSession_self hobject rfl _).symm
      rw [honly] at hnew
      have hreadings : (view codec past s index session.id link).serverReadings
          (server.only index session.id) action = serverReadings s server session action := by
        cases action with
        | read =>
            rw [Connection.serverReadings, hsession, Option.bind_some]
            rfl
        | _ => rfl
      rw [hreadings] at hnew
      unfold view at hnew ⊢
      exact hnew
  | arrive =>
      simp only [sessionStep, hobject, Option.map_some] at hstep
      split at hstep
      · next target hreader =>
          rw [Option.some.injEq] at hreader
          split_ifs at hstep with hsize
          rcases Option.map_eq_some_iff.mp hstep with ⟨server, hio, heq⟩
          simp only [Server.ioStep, hobject, Option.map_eq_some_iff] at hio
          rcases hio with ⟨⟨session', effects⟩, hhandler, hserver⟩
          rw [Prod.mk.injEq] at heq
          rcases heq with ⟨rfl, rfl⟩
          have hnew := Connection.connected_sessionArrive hconnected hsession hreader hsize
            hhandler
          have hobjects := onSession_object hobject hhandler
          rw [hserver] at hobjects
          refine hserved hobjects (Session.step_outcome hhandler).1 rfl rfl ?_
          unfold view at hnew ⊢
          rw [← hserver, Server.only_onSession_self hobject rfl]
          exact hnew
      · exact absurd hstep (by simp only [reduceCtorEq, not_false_eq_true])
  | transmit count =>
      simp only [sessionStep, hobject] at hstep
      split_ifs at hstep
      rw [Option.some.injEq, Prod.mk.injEq] at hstep
      rcases hstep with ⟨rfl, rfl⟩
      have hnew := Connection.connected_sessionTransmit hconnected hsession count
      refine hserved (List.getElem?_set_self (List.getElem?_eq_some_iff.mp hobject).1) rfl rfl
        rfl ?_
      unfold view at hnew ⊢
      rw [Server.only_set_self hobject]
      exact hnew

/-! ### The steps of the game thread -/

theorem polledFrom_append (id : UInt32) (past : List LoopOutput) (packet : Packet) :
    polledFrom id (past ++ [.polled packet]) = if Connection.isPayload id packet
      then polledFrom id past ++ [packet.data] else polledFrom id past := by
  unfold polledFrom
  rw [List.filterMap_append, List.filter_append, List.map_append]
  cases hpayload : Connection.isPayload id packet with
  | true =>
      rw [if_pos rfl]
      refine congrArg _ ?_
      simp only [List.filterMap_cons, LoopOutput.polled?, List.filterMap_nil, List.filter_cons,
        hpayload, if_true, List.filter_nil, List.map_cons, List.map_nil]
  | false =>
      rw [if_neg Bool.false_ne_true]
      simp only [List.filterMap_cons, LoopOutput.polled?, List.filterMap_nil, List.filter_cons,
        hpayload, Bool.false_eq_true, if_false, List.filter_nil, List.map_nil, List.append_nil]

theorem sentTo_append (codec : Codec) (id : UInt32) (past : List LoopOutput)
    (message : OutgoingMessage) :
    sentTo codec id (past ++ [.sent message]) = if message.sessionId = id
      then sentTo codec id past ++ [codec.buildMessage message.payload]
      else sentTo codec id past := by
  unfold sentTo
  rw [List.filterMap_append, List.filter_append, List.map_append]
  by_cases hid : message.sessionId = id
  · rw [if_pos hid]
    refine congrArg _ ?_
    simp only [List.filterMap_cons, LoopOutput.sent?, List.filterMap_nil, List.filter_cons, hid,
      decide_true, if_true, List.filter_nil, List.map_cons, List.map_nil]
  · rw [if_neg hid]
    simp only [List.filterMap_cons, LoopOutput.sent?, List.filterMap_nil, List.filter_cons, hid,
      decide_false, Bool.false_eq_true, if_false, List.filter_nil, List.map_nil, List.append_nil]

/-- Outputs of the other kinds change neither. -/
theorem polledFrom_other (id : UInt32) (past : List LoopOutput) {o : LoopOutput}
    (h : o.polled? = none) : polledFrom id (past ++ [o]) = polledFrom id past := by
  unfold polledFrom
  rw [List.filterMap_append, List.filterMap_cons, h, List.filterMap_nil, List.append_nil]

theorem sentTo_other (codec : Codec) (id : UInt32) (past : List LoopOutput) {o : LoopOutput}
    (h : o.sent? = none) : sentTo codec id (past ++ [o]) = sentTo codec id past := by
  unfold sentTo
  rw [List.filterMap_append, List.filterMap_cons, h, List.filterMap_nil, List.append_nil]

/-- A call of the game thread, as every link sees it. -/
theorem LinkFit.call (h : LinkFit codec past s link) {o : LoopOutput}
    (hobjects : t.objects = s.objects)
    (hcall : ∀ index session, s.objects[index]? = some session →
      Connection.Connected session.id (view codec past s index session.id link) →
      Connection.Connected session.id (view codec (past ++ [o]) t index session.id link)) :
    LinkFit codec (past ++ [o]) t link where
  waiting := h.waiting
  served := fun index hindex => by
    rcases h.served index hindex with ⟨session, hobject, hconnected⟩
    exact ⟨session, by rw [hobjects]; exact hobject, hcall index session hobject hconnected⟩

theorem linkFit_poll (h : LinkFit codec past s link) {packet : Packet} {queue : PacketQueue}
    (hpoll : s.queue.pollPacket = some (packet, queue)) :
    LinkFit codec (past ++ [.polled packet]) { s with queue } link := by
  refine h.call rfl (fun index session hobject hconnected => ?_)
  have hnew := Connection.connected_serverPoll hconnected hpoll
  unfold view at hnew ⊢
  rw [polledFrom_append, sentTo_other codec _ past rfl]
  exact hnew

theorem linkFit_send (h : LinkFit codec past s link) (hhosted : s.Hosted)
    {message : OutgoingMessage} (hfits : codec.fits message.payload = true) :
    LinkFit codec (past ++ [.sent message])
      (s.send message.sessionId (codec.buildMessage message.payload)) link := by
  rcases s.send_eq message.sessionId (codec.buildMessage message.payload) with ⟨strand, hsend⟩
  refine h.call (by rw [hsend]) (fun index session hobject hconnected => ?_)
  unfold view at hconnected ⊢
  rw [Server.only_send hhosted, sentTo_append, polledFrom_other _ past rfl]
  by_cases hid : message.sessionId = session.id
  · -- What passed the guard of the game is not refused by the transport.
    have hrecord : Connection.recordSent (sentTo codec session.id past)
        (codec.buildMessage message.payload)
        = sentTo codec session.id past ++ [codec.buildMessage message.payload] :=
      if_pos ((codec.fits_iff message.payload).mp hfits)
    rw [if_pos hid, if_pos hid, ← hrecord]
    exact Connection.connected_step _ (.serverSend (codec.buildMessage message.payload)) _
      hconnected rfl
  · rw [if_neg hid, if_neg hid]
    exact hconnected

theorem linkFit_disconnect (h : LinkFit codec past s link) (hhosted : s.Hosted)
    (sessionId : UInt32) :
    LinkFit codec (past ++ [.disconnected sessionId]) (s.disconnect sessionId) link := by
  rcases s.disconnect_eq sessionId with ⟨strand, hdisconnect⟩
  refine h.call (by rw [hdisconnect]) (fun index session hobject hconnected => ?_)
  unfold view at hconnected ⊢
  rw [Server.only_disconnect hhosted, sentTo_other codec _ past rfl, polledFrom_other _ past rfl]
  by_cases hid : sessionId = session.id
  · rw [if_pos hid]
    exact Connection.connected_step _ .serverDisconnect _ hconnected rfl
  · rw [if_neg hid]
    exact hconnected

/-- What the loop has handled came from sessions of the server. -/
theorem known_of_handled (h : Wired codec past n) {event : ServerEvent}
    (hevent : event ∈ n.host.handled) : event.sessionId ∈ n.host.server.ids := by
  have hreceived : event ∈ receive codec (past.filterMap LoopOutput.polled?) := by
    rw [← h.caught.events]
    exact List.mem_append_left _ hevent
  rcases packet_of_mem_receive hreceived with ⟨packet, hpacket, hsession⟩
  rw [← hsession]
  refine h.hosted.packets packet ?_
  rw [← h.caught.packets]
  exact List.mem_append_left _ hpacket

/-- Whomever the game has addressed, or has still to address, has a session. -/
theorem known_of_message (h : Wired codec past n) {message : OutgoingMessage}
    (hmessage : message ∈ past.filterMap LoopOutput.sent? ++ n.host.phase.messages) :
    message.sessionId ∈ n.host.server.ids := by
  rw [h.caught.messages] at hmessage
  rcases GameLogicSystem.recipient_known codec.toEnv n.host.handled hmessage with
    ⟨event, hevent, hsession⟩
  exact hsession ▸ known_of_handled h hevent

theorem known_of_disconnect (h : Wired codec past n) {id : UInt32}
    (hid : id ∈ n.host.phase.disconnects) : id ∈ n.host.server.ids := by
  have hmem := List.mem_append_right (past.filterMap LoopOutput.disconnected?) hid
  rw [h.caught.disconnects] at hmem
  rcases GameLogicSystem.disconnect_known codec.toEnv n.host.handled hmem with
    ⟨event, hevent, hsession⟩
  exact hsession ▸ known_of_handled h hevent

theorem wired_game (h : Wired codec past n) :
    Wired codec (past ++ n.host.output .game) { n with host := n.host.gameStep codec } := by
  have hcaught := GameServer.caught_game h.caught
  have hmessages := h.caught.messages
  -- A step that neither calls the transport nor changes it.
  have hsilent : n.host.output .game = [] → (n.host.gameStep codec).server = n.host.server →
      Wired codec (past ++ n.host.output .game) { n with host := n.host.gameStep codec } := by
    intro hnone hserver
    refine ⟨hcaught, hserver ▸ h.hosted, ?_, h.apart⟩
    rw [hnone, List.append_nil]
    simp only [hserver]
    exact h.links
  cases hphase : n.host.phase with
  | receive events =>
      cases hpoll : n.host.server.queue.pollPacket with
      | none =>
          refine hsilent ?_ ?_
          · simp only [GameServer.output, hphase, hpoll, Option.map_none, Option.toList_none]
          · simp only [GameServer.gameStep, hphase, hpoll]
      | some result =>
          rcases result with ⟨packet, queue⟩
          have houtput : n.host.output .game = [.polled packet] := by
            simp only [GameServer.output, hphase, hpoll, Option.map_some, Option.toList_some]
          have hserver : (n.host.gameStep codec).server = { n.host.server with queue } := by
            simp only [GameServer.gameStep, hphase, hpoll]
          have hqueue : queue.pushed = n.host.server.queue.pushed ∧
              queue.shuttingDown = n.host.server.queue.shuttingDown := by
            unfold PacketQueue.pollPacket at hpoll
            split at hpoll
            · exact absurd hpoll (by simp only [reduceCtorEq, not_false_eq_true])
            · rw [Option.some.injEq, Prod.mk.injEq] at hpoll
              rw [← hpoll.2]
              exact ⟨rfl, rfl⟩
          refine ⟨hcaught, ?_, fun k link hk => ?_, h.apart⟩
          · rw [hserver]
            refine h.hosted.update rfl ⟨rfl, rfl⟩ hqueue.2 (fun _ _ h => h)
              (fun _ h => Or.inl h) (fun packet hp => Or.inl ?_)
            rw [← hqueue.1]
            exact hp
          · simp only [hserver]
            rw [houtput]
            exact linkFit_poll (h.links k link hk) hpoll
  | update events =>
      refine hsilent ?_ ?_
      · simp only [GameServer.output, hphase]
      · simp only [GameServer.gameStep, hphase]
  | flush messages disconnects =>
      rw [hphase] at hmessages
      cases messages with
      | cons message messages =>
          have houtput : n.host.output .game = [.sent message] := by
            simp only [GameServer.output, hphase]
          have hserver : (n.host.gameStep codec).server = n.host.server.send message.sessionId
              (codec.buildMessage message.payload) := by
            simp only [GameServer.gameStep, hphase]
          have hfits : codec.fits message.payload = true := by
            refine GameLogicSystem.fits_of_mem_outgoingMessages codec.toEnv n.host.handled ?_
            rw [← hmessages]
            exact List.mem_append_right _ List.mem_cons_self
          refine ⟨hcaught, ?_, fun k link hk => ?_, h.apart⟩
          · simp only [hserver]
            rw [Server.send_strand h.hosted.running]
            refine h.hosted.update rfl ⟨rfl, rfl⟩ rfl (fun _ _ h => h) (fun task htask => ?_)
              (fun _ h => Or.inl h)
            rcases List.mem_append.mp htask with hold | hnew
            · exact Or.inl hold
            · split_ifs at hnew
              · rw [List.mem_singleton.mp hnew]
                refine Or.inr ⟨message.sessionId, known_of_message h ?_, rfl⟩
                rw [hphase]
                exact List.mem_append_right _ List.mem_cons_self
              · exact absurd hnew List.not_mem_nil
          · simp only [hserver]
            rw [houtput]
            exact linkFit_send (h.links k link hk) h.hosted hfits
      | nil =>
          cases disconnects with
          | nil =>
              refine hsilent ?_ ?_
              · simp only [GameServer.output, hphase]
              · simp only [GameServer.gameStep, hphase]
          | cons sessionId disconnects =>
              have houtput : n.host.output .game = [.disconnected sessionId] := by
                simp only [GameServer.output, hphase]
              have hserver : (n.host.gameStep codec).server
                  = n.host.server.disconnect sessionId := by
                simp only [GameServer.gameStep, hphase]
              refine ⟨hcaught, ?_, fun k link hk => ?_, h.apart⟩
              · simp only [hserver]
                unfold Server.disconnect
                rw [if_neg (by rw [h.hosted.running]; exact Bool.false_ne_true)]
                refine h.hosted.update rfl ⟨rfl, rfl⟩ rfl (fun _ _ h => h)
                  (fun task htask => ?_) (fun _ h => Or.inl h)
                rcases List.mem_append.mp htask with hold | hnew
                · exact Or.inl hold
                · rw [List.mem_singleton.mp hnew]
                  refine Or.inr ⟨sessionId, known_of_disconnect h ?_, rfl⟩
                  rw [hphase]
                  exact List.mem_cons_self
              · simp only [hserver]
                rw [houtput]
                exact linkFit_disconnect (h.links k link hk) h.hosted sessionId

/-! ### The steps of the network -/

/-- A step of the server, as all links but one see it; that one is replaced. -/
theorem Wired.setLink (h : Wired codec past n) {k : Nat} {link' : Link}
    (hlink : n.links[k]? = some link)
    (hcaught : GameServer.Caught codec past { n.host with server := t }) (hhosted : t.Hosted)
    (hnew : LinkFit codec past t link')
    (hobject : link'.object = link.object ∨ ∀ index, link'.object = some index →
      ∀ (j : Nat) (other : Link), n.links[j]? = some other → other.object ≠ some index)
    (hothers : ∀ (j : Nat) (other : Link), j ≠ k → n.links[j]? = some other →
      LinkFit codec past t other) :
    Wired codec past { n.setServer t with links := n.links.set k link' } := by
  have hlt := (List.getElem?_eq_some_iff.mp hlink).1
  -- Who is at which place afterwards.
  have hplace : ∀ {j : Nat} {other : Link}, (n.links.set k link')[j]? = some other →
      (j = k ∧ other = link') ∨ (j ≠ k ∧ n.links[j]? = some other) := by
    intro j other hj
    by_cases heq : j = k
    · rw [heq, List.getElem?_set_self hlt, Option.some.injEq] at hj
      exact Or.inl ⟨heq, hj.symm⟩
    · rw [List.getElem?_set_ne (fun hk => heq hk.symm)] at hj
      exact Or.inr ⟨heq, hj⟩
  -- The new link shares its object with nobody.
  have halone : ∀ {j index : Nat} {other : Link}, j ≠ k → n.links[j]? = some other →
      link'.object = some index → other.object ≠ some index := by
    intro j index other hj hother hindex hsame
    rcases hobject with hold | hfresh
    · exact hj (h.apart j k index other link hother hlink hsame (hold ▸ hindex))
    · exact hfresh index hindex j other hother hsame
  refine ⟨hcaught, hhosted, fun j other hj => ?_, fun i j index l l' hi hj hl hl' => ?_⟩
  · rcases hplace hj with ⟨_, rfl⟩ | ⟨hne, hold⟩
    · exact hnew
    · exact hothers j other hne hold
  · rcases hplace hi with ⟨hik, heq⟩ | ⟨hik, hi'⟩
    · rcases hplace hj with ⟨hjk, _⟩ | ⟨hjk, hj'⟩
      · rw [hik, hjk]
      · exact absurd hl' (halone hjk hj' (heq ▸ hl))
    · rcases hplace hj with ⟨hjk, heq⟩ | ⟨hjk, hj'⟩
      · exact absurd hl (halone hik hi' (heq ▸ hl'))
      · exact h.apart i j index l l' hi' hj' hl hl'

/-- A step of the server in which no link takes part. -/
theorem Wired.setServer (h : Wired codec past n)
    (hcaught : GameServer.Caught codec past { n.host with server := t }) (hhosted : t.Hosted)
    (hlinks : ∀ (k : Nat) (link : Link), n.links[k]? = some link → LinkFit codec past t link) :
    Wired codec past (n.setServer t) :=
  ⟨hcaught, hhosted, hlinks, h.apart⟩

/-- A handler of an object that no other link has. -/
theorem linkFit_ioSession (h : Wired codec past n) {index : Nat} {action : SessionAction}
    (hio : n.host.server.ioStep (.session index action) = some t) :
    t.Hosted ∧ ∀ (j : Nat) (other : Link), n.links[j]? = some other →
      other.object ≠ some index → LinkFit codec past t other := by
  unfold Server.ioStep at hio
  cases hobject : n.host.server.objects[index]? with
  | none => simp only [hobject, reduceCtorEq] at hio
  | some session =>
      simp only [hobject, Option.map_eq_some_iff] at hio
      rcases hio with ⟨⟨session', effects⟩, hstep, rfl⟩
      exact ⟨Server.hosted_session h.hosted hobject hstep, fun j other hj hne =>
        linkFit_session (h.links j other hj) h.hosted hobject hstep hne⟩

/-- The accept handler runs for a link that was waiting. -/
theorem linkFit_accepted (h : Wired codec past n) (hlink : LinkFit codec past n.host.server link)
    (hfree : link.taken = false) (hfew : n.host.server.onAccept.accepts < 2 ^ 32) :
    LinkFit codec past n.host.server.onAccept (acceptLink n.host.server link) := by
  refine ⟨fun htaken => ?_, fun index hindex => ?_⟩
  · exact absurd htaken.symm Bool.false_ne_true
  unfold acceptLink at hindex
  simp only at hindex
  split_ifs at hindex with hgrow
  rw [Option.some.injEq] at hindex
  rcases Server.only_onAccept_self h.hosted hfew hgrow with ⟨honly, hfresh, hobject⟩
  rw [← hindex]
  refine ⟨_, hobject, ?_⟩
  have hid : (Session.start { id := n.host.server.nextId }).id = n.host.server.nextId := rfl
  rw [hid]
  -- Nothing in the history of the loop is about the new id.
  have hpackets : ∀ packet ∈ n.host.server.queue.pushed,
      packet.sessionId ≠ n.host.server.nextId :=
    fun packet hpacket heq => hfresh (heq ▸ h.hosted.packets packet hpacket)
  have hpolled : polledFrom n.host.server.nextId past = [] := by
    unfold polledFrom
    rw [List.map_eq_nil_iff, List.filter_eq_nil_iff]
    intro packet hpacket hpayload
    refine hpackets packet ?_ (of_decide_eq_true hpayload).2
    rw [← h.caught.packets]
    exact List.mem_append_left _ hpacket
  have hsent : sentTo codec n.host.server.nextId past = [] := by
    unfold sentTo
    rw [List.map_eq_nil_iff, List.filter_eq_nil_iff]
    intro message hmessage hto
    refine hfresh ?_
    rw [← of_decide_eq_true hto]
    exact known_of_message h (List.mem_append_left _ hmessage)
  have hwaiting := ((hlink.waiting hfree).2 n.host.server.nextId).waiting
    (c := waitingView n.host.server.nextId link) rfl rfl n.host.server.queue h.hosted.running
    (fun packet hpacket => hpackets packet (by
      rw [← h.caught.packets]
      exact List.mem_append_right _ hpacket))
  have haccepted := Connection.connected_accept hwaiting rfl
  have hsession : (({ waitingView n.host.server.nextId link with
      server := Server.onAccept { queue := n.host.server.queue
                                  nextId := n.host.server.nextId } } : Connection).session)
      = some (Session.start { id := n.host.server.nextId }) := by
    unfold Connection.session
    simp only
    rw [← honly, Server.only_objects hobject, List.getElem?_cons_zero]
  have hnew := haccepted.polled hsession
  unfold view
  rw [honly, hpolled, hsent]
  exact hnew

theorem accepts_mono {action : Action} {n' : Network} (h : n.step codec action = some n') :
    n.host.server.accepts ≤ n'.host.server.accepts := by
  have hio : ∀ {a : IoAction} {server : Server}, n.host.server.ioStep a = some server →
      n.host.server.accepts ≤ server.accepts :=
    fun {a} {server} hstep =>
      Server.accepts_mono (show n.host.server.step (.io a) = some server from hstep)
  cases action with
  | connect =>
      rw [← Option.some.inj h]
  -- Only an accept raises the count; everything else leaves it alone.
  | accept k =>
      rw [step] at h
      split at h
      · exact absurd h (by simp only [reduceCtorEq, not_false_eq_true])
      · split_ifs at h
        rw [← Option.some.inj h]
        exact hio (a := .accept) rfl
  | task =>
      rcases Option.map_eq_some_iff.mp h with ⟨server, hstep, rfl⟩
      exact hio hstep
  | session k side =>
      rw [step] at h
      split at h
      · exact absurd h (by simp only [reduceCtorEq, not_false_eq_true])
      · split at h
        · exact absurd h (by simp only [reduceCtorEq, not_false_eq_true])
        · rcases Option.map_eq_some_iff.mp h with ⟨⟨server, link'⟩, hstep, rfl⟩
          rcases sessionStep_cases hstep with ⟨session, _, ⟨_, _, _, _, heq⟩ | ⟨_, heq⟩⟩
          · simp only [setServer, heq, Server.accepts_onSession, le_refl]
          · simp only [setServer, heq, le_refl]
  | stranger a =>
      rw [step] at h
      split_ifs at h
      rcases Option.map_eq_some_iff.mp h with ⟨server, hstep, rfl⟩
      exact hio hstep
  | game =>
      rw [← Option.some.inj h]
      simp only
      unfold GameServer.gameStep
      split
      · split <;> exact le_rfl
      · exact le_rfl
      · next message messages disconnects _ =>
          rcases n.host.server.send_eq message.sessionId (codec.buildMessage message.payload) with
            ⟨strand, hsend⟩
          simp only [hsend, le_refl]
      · next sessionId disconnects _ =>
          rcases n.host.server.disconnect_eq sessionId with ⟨strand, hdisconnect⟩
          simp only [hdisconnect, le_refl]
      · exact le_rfl
  | client k a =>
      rw [step] at h
      split at h
      · exact absurd h (by simp only [reduceCtorEq, not_false_eq_true])
      · rcases Option.map_eq_some_iff.mp h with ⟨link', _, rfl⟩
        exact le_rfl

theorem wired_connect (h : Wired codec past n) :
    Wired codec past { n with links := n.links ++ [({} : Link)] } := by
  -- The new link is at the end, and has no object.
  have hplace : ∀ {j : Nat} {other : Link}, (n.links ++ [({} : Link)])[j]? = some other →
      n.links[j]? = some other ∨ other = {} := by
    intro j other hj
    rcases Nat.lt_or_ge j n.links.length with hlt | hge
    · rw [List.getElem?_append_left hlt] at hj
      exact Or.inl hj
    · rw [List.getElem?_append_right hge] at hj
      exact Or.inr (List.mem_singleton.mp (List.mem_of_getElem? hj))
  have hnone : ∀ {other : Link} {index : Nat}, other = {} → other.object ≠ some index := by
    intro other index heq hindex
    rw [heq] at hindex
    exact absurd hindex.symm (Option.some_ne_none index)
  refine ⟨h.caught, h.hosted, fun j other hj => ?_, fun i j index l l' hi hj hl hl' => ?_⟩
  · rcases hplace hj with hold | hnew
    · exact h.links j other hold
    · refine ⟨fun _ => ?_, fun index hindex => absurd hindex (hnone hnew)⟩
      rw [hnew]
      exact ⟨rfl, Connection.connected_init⟩
  · rcases hplace hi with hi' | hi'
    · rcases hplace hj with hj' | hj'
      · exact h.apart i j index l l' hi' hj' hl hl'
      · exact absurd hl' (hnone hj')
    · exact absurd hl (hnone hi')

theorem wired_accept (h : Wired codec past n) {k : Nat} (hlink : n.links[k]? = some link)
    (htaken : link.taken = false) (hfew : n.host.server.onAccept.accepts < 2 ^ 32) :
    Wired codec past { n.setServer n.host.server.onAccept with
      links := n.links.set k (acceptLink n.host.server link) } := by
  refine h.setLink hlink
    (GameServer.caught_io h.caught (show n.host.server.ioStep .accept = _ from rfl))
    (Server.hosted_accept h.hosted hfew)
    (linkFit_accepted h (h.links k link hlink) htaken hfew)
    (Or.inr fun index hindex j other hj hsame => ?_)
    (fun j other _ hj => linkFit_accept (h.links j other hj) h.hosted hfew)
  -- The new object is behind all that the links have.
  rcases (h.links j other hj).served index hsame with ⟨session, hsession, _⟩
  have hlt := (List.getElem?_eq_some_iff.mp hsession).1
  unfold acceptLink at hindex
  simp only at hindex
  split_ifs at hindex
  rw [Option.some.injEq] at hindex
  omega

theorem wired_session (h : Wired codec past n) {k index : Nat} {side : SessionSide}
    {link' : Link} (hlink : n.links[k]? = some link) (hindex : link.object = some index)
    (hside : sessionStep n.host.server link index side = some (t, link')) :
    Wired codec past { n.setServer t with links := n.links.set k link' } := by
  rcases linkFit_own (h.links k link hlink) hindex hside with ⟨hfit, hobject⟩
  have hne : ∀ {j : Nat} {other : Link}, j ≠ k → n.links[j]? = some other →
      other.object ≠ some index :=
    fun hj hother hsame => hj (h.apart _ k index _ link hother hlink hsame hindex)
  rcases sessionStep_cases hside with ⟨session, hsession, ⟨action, session', effects, hhandler,
    heq⟩ | ⟨writer, heq⟩⟩
  · have hio : n.host.server.ioStep (.session index action) = some t := by
      simp only [Server.ioStep, hsession, hhandler, Option.map_some, heq]
    rcases linkFit_ioSession h hio with ⟨hhosted, hlinks⟩
    exact h.setLink hlink (GameServer.caught_io h.caught hio) hhosted hfit (Or.inl hobject)
      (fun j other hj hother => hlinks j other hother (hne hj hother))
  · -- The socket takes bytes: no handler runs, and nobody else notices.
    rw [heq] at hfit ⊢
    refine h.setLink hlink ⟨h.caught.packets, h.caught.events, h.caught.messages,
      h.caught.disconnects, h.caught.game⟩ ?_ hfit (Or.inl hobject) (fun j other hj hother => ?_)
    · exact h.hosted.update (Server.ids_set hsession rfl) ⟨rfl, rfl⟩ rfl (fun _ _ h => h)
        (fun _ h => Or.inl h) (fun _ h => Or.inl h)
    · refine (h.links j other hother).server (fun i other' hi hother' => ?_)
      have hi' : index ≠ i := fun heq => hne hj hother (heq ▸ hi)
      refine ⟨other', ?_, rfl, fun c hc hserver => ?_⟩
      · simp only
        rw [List.getElem?_set_ne hi']
        exact hother'
      · rw [Server.only_set_other hi', ← hserver]
        exact hc

theorem wired_stranger (h : Wired codec past n) {action : IoAction}
    (hstranger : n.isStranger action = true) (hio : n.host.server.ioStep action = some t)
    (hfew : t.accepts < 2 ^ 32) : Wired codec past (n.setServer t) := by
  cases action with
  | accept =>
      have haccept : n.host.server.onAccept = t := Option.some.inj hio
      rw [← haccept] at hfew ⊢
      exact h.setServer
        (GameServer.caught_io h.caught (show n.host.server.ioStep .accept = _ from rfl))
        (Server.hosted_accept h.hosted hfew)
        (fun k link hk => linkFit_accept (h.links k link hk) h.hosted hfew)
  | task => exact absurd hstranger Bool.false_ne_true
  | session index action =>
      rcases linkFit_ioSession h hio with ⟨hhosted, hlinks⟩
      refine h.setServer (GameServer.caught_io h.caught hio) hhosted
        (fun k link hk => hlinks k link hk ?_)
      exact of_decide_eq_true (List.all_eq_true.mp hstranger link (List.mem_of_getElem? hk))

/-- Every step of the network keeps the invariant, as long as ids do not
    repeat. -/
theorem wired_step (past : List LoopOutput) (n : Network) (action : Action) (n' : Network)
    (h : n.host.server.accepts < 2 ^ 32 → Wired codec past n)
    (hstep : n.step codec action = some n') :
    n'.host.server.accepts < 2 ^ 32 → Wired codec (past ++ n.output action) n' := by
  intro hfew
  have hw := h (lt_of_le_of_lt (accepts_mono hstep) hfew)
  -- Only the game thread adds to the history of the loop.
  have hquiet : n.output action = [] → Wired codec past n' →
      Wired codec (past ++ n.output action) n' := by
    intro hnone hnew
    rw [hnone, List.append_nil]
    exact hnew
  cases action with
  | connect =>
      refine hquiet rfl ?_
      rw [← Option.some.inj hstep]
      exact wired_connect hw
  | accept k =>
      refine hquiet rfl ?_
      rw [step] at hstep
      split at hstep
      · exact absurd hstep (by simp only [reduceCtorEq, not_false_eq_true])
      · next link hlink =>
          split_ifs at hstep with htaken
          rw [Bool.not_eq_true] at htaken
          rw [← Option.some.inj hstep] at hfew ⊢
          exact wired_accept hw hlink htaken hfew
  | task =>
      refine hquiet rfl ?_
      rcases Option.map_eq_some_iff.mp hstep with ⟨server, hio, rfl⟩
      exact hw.setServer (GameServer.caught_io hw.caught hio) (Server.hosted_task hw.hosted hio)
        (fun k link hk => linkFit_task (hw.links k link hk) hw.hosted hio)
  | session k side =>
      refine hquiet rfl ?_
      rw [step] at hstep
      split at hstep
      · exact absurd hstep (by simp only [reduceCtorEq, not_false_eq_true])
      · next link hlink =>
          split at hstep
          · exact absurd hstep (by simp only [reduceCtorEq, not_false_eq_true])
          · next index hindex =>
              rcases Option.map_eq_some_iff.mp hstep with ⟨⟨server, link'⟩, hside, rfl⟩
              exact wired_session hw hlink hindex hside
  | stranger action =>
      refine hquiet rfl ?_
      rw [step] at hstep
      split_ifs at hstep with hstranger
      rcases Option.map_eq_some_iff.mp hstep with ⟨server, hio, rfl⟩
      exact wired_stranger hw hstranger hio hfew
  | game =>
      rw [← Option.some.inj hstep]
      exact wired_game hw
  | client k action =>
      refine hquiet rfl ?_
      rw [step] at hstep
      split at hstep
      · exact absurd hstep (by simp only [reduceCtorEq, not_false_eq_true])
      · next link hlink =>
          rcases Option.map_eq_some_iff.mp hstep with ⟨link', hclient, rfl⟩
          exact hw.setLink hlink hw.caught hw.hosted
            (linkFit_client (hw.links k link hlink) hclient)
            (Or.inl (linkStep_frame hclient).1.2.1) (fun j other _ hj => hw.links j other hj)

theorem wired_run {actions : List Action} {n : Network}
    (hrun : Machine.run (step codec) {} actions = some n)
    (hfew : n.host.server.accepts < 2 ^ 32) : Wired codec (outputs codec actions) n := by
  have h : n.host.server.accepts < 2 ^ 32 → Wired codec ([] ++ outputs codec actions) n :=
    Machine.history wired_step hrun [] (fun _ => wired_init codec)
  rw [List.nil_append] at h
  exact h hfew

theorem view_session {index : Nat} {session : Session}
    (hobject : s.objects[index]? = some session) :
    (view codec past s index session.id link).session = some session := by
  unfold Connection.session view
  rw [Server.only_objects hobject, List.getElem?_cons_zero]

/-- In every run with fewer than 2^32 accepted connections, whatever the other
    clients and the strangers do: both directions of every accepted link deliver
    a prefix of what was sent, from its client to its session and from the loop
    to its client, and no two links have the same session id. -/
theorem network_delivers (codec : Codec) (actions : List Action) (n : Network)
    (hrun : Machine.run (step codec) {} actions = some n)
    (hfew : n.host.server.accepts < 2 ^ 32) :
    (∀ (k index : Nat) (link : Link), n.links[k]? = some link → link.object = some index →
      ∃ session, n.host.server.objects[index]? = some session ∧
        Delivers link.sentToServer link.serverLog (polledFrom session.id (outputs codec actions))
          (queuedPayloads session.id n.host.server.queue) ∧
        Delivers (sentTo codec session.id (outputs codec actions)) link.clientLog
          link.clientPolled link.client.receiveQueue) ∧
    ∀ (j k index index' : Nat) (link link' : Link) (session session' : Session),
      n.links[j]? = some link → n.links[k]? = some link' →
      link.object = some index → link'.object = some index' →
      n.host.server.objects[index]? = some session →
      n.host.server.objects[index']? = some session' → session.id = session'.id → j = k := by
  have h := wired_run hrun hfew
  refine ⟨fun k index link hlink hindex => ?_,
    fun j k index index' link link' session session' hj hk hindex hindex' hs hs' heq => ?_⟩
  · rcases (h.links k link hlink).served index hindex with ⟨session, hobject, hconnected⟩
    exact ⟨session, hobject, hconnected.delivers (view_session hobject)⟩
  · have hsame : index = index' := by
      refine h.hosted.index_unique (Server.getElem?_ids hs) ?_
      rw [heq]
      exact Server.getElem?_ids hs'
    exact h.apart j k index link link' hj hk hindex (hsame ▸ hindex')

/-- The steps that take a payload of one frame from a client to the queue of the
    server. -/
def upload (k : Nat) (data : Bytes) : List Action :=
  [.client k (.send data), .client k (.handler .task), .client k (.transmit 4096),
    .client k (.handler (.write true)), .session k .arrive, .session k (.handler .read),
    .session k .arrive, .session k (.handler .read)]

/-- A client and a stranger connect; the client logs in, and the stranger sends
    something that is no frame. -/
def loginBesideStranger : List Action :=
  [.connect, .stranger .accept, .accept 0] ++
    upload 0 (plainCodec.buildMessage ⟨7, .loginRequest (some { displayName := some [65] })⟩) ++
    [.stranger (.session 0 (.arrive [0, 1, 2, 3, 4, 5, 6, 7])), .stranger (.session 0 .read)] ++
    List.replicate 7 .game

theorem network_delivers_loginBesideStranger :
    ∃ n link session, Machine.run (step plainCodec) {} loginBesideStranger = some n ∧
      n.links[0]? = some link ∧ link.object = some 1 ∧
      n.host.server.objects[1]? = some session ∧ session.id = 2 ∧
      n.host.handled = [.sessionConnected 1, .sessionConnected 2, .loginRequest 2 7 [65],
        .sessionDisconnected 1] ∧
      Delivers link.sentToServer link.serverLog
        (polledFrom session.id (outputs plainCodec loginBesideStranger))
        (queuedPayloads session.id n.host.server.queue) := by
  have hend : (Machine.run (step plainCodec) {} loginBesideStranger).map (fun n =>
      (n.links[0]?.map Link.object, n.host.server.objects[1]?.map Session.id, n.host.handled,
        n.host.server.accepts))
      = some (some (some 1), some 2, [.sessionConnected 1, .sessionConnected 2,
        .loginRequest 2 7 [65], .sessionDisconnected 1], 2) := by decide +kernel
  rcases Option.map_eq_some_iff.mp hend with ⟨n, hrun, hn⟩
  simp only [Prod.mk.injEq, Option.map_eq_some_iff] at hn
  rcases hn with ⟨⟨link, hlink, hobject⟩, ⟨session, hsession, hid⟩, hhandled, haccepts⟩
  have hnet := (network_delivers plainCodec loginBesideStranger n hrun
    (by rw [haccepts]; decide)).1 0 1 link hlink hobject
  rcases hnet with ⟨session', hsession', hserver, _⟩
  rw [hsession, Option.some.injEq] at hsession'
  rw [← hsession'] at hserver
  exact ⟨n, link, session, hrun, hlink, hobject, hsession, hid, hhandled, hserver⟩

end Network

end ProjectNight
