import ProjectNight.Core.Connection
import ProjectNight.Lib.TreeMap
import ProjectNight.Theory.PacketWords
import ProjectNight.Theory.Transitions

/-!
# From `send` to the Write Queue

A payload passed to `send` becomes a frame in a posted handler, and the handler
puts it into a write queue. A client has one such hop. A server has two: a
handler of `server_strand` looks the session up and posts the frame to the
session's strand. Posted handlers run in order, so as long as the end is not
lost, what has been sent is what the write queue has accepted, followed by what
waits at each hop.

A frame can be thrown away at every hop: because the end is shutting down,
because the session has left the table, because it is closed, or because its
write queue is full. Each of these is for good, so the frames that do get
through are the first ones.

Before the connection is accepted there is no session, and nobody sends: `send`
is called with the id from a `Connect` packet, which the accept handler pushes
when it creates the session.

## Main definitions

* `IsData`: A data frame of a payload `send` accepts.
* `ClientSends`: The invariant of a client.
* `Unaccepted`, `Established`, `ServerSends`: The invariant of a server, before
  and after it has accepted the connection.

## Theorems

* `clientSends_change`, `clientSends_send`: Every step keeps the client's.
* `Established.session`, `Established.task`, `established_send`: Every step
  keeps the server's.
-/

namespace ProjectNight

open Wire

/-! ### Clients -/

open Connection

/-- A data frame of a payload `send` accepts. -/
def IsData (frame : Bytes) : Prop := ∃ payload, Sendable payload ∧ frame = buildDataFrame payload

theorem IsData.isFrame {frame : Bytes} (h : IsData frame) : IsFrame frame := by
  rcases h with ⟨payload, hpayload, rfl⟩
  exact .data hpayload

theorem prefix_recordSent (sent : List Bytes) (data : Bytes) : sent <+: recordSent sent data := by
  unfold recordSent
  split_ifs
  · exact List.prefix_append _ _
  · exact List.prefix_refl _

/-- The client's way from `send` to the write queue: while the client is live,
    what it was given is what it has accepted and what waits. -/
structure ClientSends (c : Client) (sent : List Bytes) : Prop where
  posted : ∀ frame ∈ Client.postedFrames c.io, IsData frame
  accepted : c.payloadsAccepted <+: sent
  live : c.live = true → c.payloadsAccepted ++ c.payloadsPosted = sent

theorem clientSends_change {c c' : Client} {action : ClientAction} {sent : List Bytes}
    (h : ClientSends c sent) (hchange : Client.Change c action c') : ClientSends c' sent := by
  rcases hchange.sends with ⟨hlive, hlost⟩
  -- A live client was live before; a lost one accepts nothing any more.
  refine ⟨fun frame hframe => h.posted frame (hchange.postedFrames_subset hframe), ?_, ?_⟩
  · cases hl : c'.live with
    | true =>
        rcases hlive hl with ⟨hc, heq⟩
        rw [← h.live hc, ← heq]
        exact List.prefix_append _ _
    | false =>
        rw [hlost hl]
        exact h.accepted
  · intro hl
    rcases hlive hl with ⟨hc, heq⟩
    rw [heq, h.live hc]

/-- Steps of the client that touch neither its frames nor its flags. -/
theorem ClientSends.congr {c c' : Client} {sent : List Bytes} (h : ClientSends c sent)
    (hio : c'.io = c.io) (haccepted : c'.writer.accepted = c.writer.accepted)
    (hlive : c'.live = c.live) : ClientSends c' sent := by
  refine ⟨?_, ?_, fun hl => ?_⟩
  · rw [hio]
    exact h.posted
  · rw [Client.payloadsAccepted, haccepted]
    exact h.accepted
  · rw [Client.payloadsAccepted, Client.payloadsPosted, haccepted, hio]
    exact h.live (hlive ▸ hl)

theorem clientSends_send {c : Client} {sent : List Bytes} (h : ClientSends c sent)
    (data : Bytes) : ClientSends (c.send data) (recordSent sent data) := by
  have hprefix := prefix_recordSent sent data
  unfold Client.send
  by_cases hsendable : Sendable data
  · rw [if_neg ((refused_iff data).not.mpr (not_not.mpr hsendable))]
    have hsent : recordSent sent data = sent ++ [data] := if_pos hsendable
    -- A client that is not live leaves the payload alone.
    have hdead : c.live = false → ClientSends c (recordSent sent data) := by
      intro hlost
      refine ⟨h.posted, h.accepted.trans hprefix, fun hlive => ?_⟩
      exact absurd (hlost.symm.trans hlive) Bool.false_ne_true
    by_cases hconnected : c.connected = true
    · rw [if_neg (by rw [hconnected]; decide)]
      by_cases hdown : c.shuttingDown = true
      · rw [if_pos hdown]
        exact hdead (by rw [Client.live, hdown, Bool.not_true, Bool.and_false])
      · rw [if_neg hdown]
        simp only
        rw [if_neg (by rw [List.isEmpty_iff]; exact buildDataFrame_ne_nil hsendable)]
        have hposted : Client.postedFrames (c.io ++ [.enqueueFrame (buildDataFrame data)])
            = Client.postedFrames c.io ++ [buildDataFrame data] := by
          rw [Client.postedFrames, List.filterMap_append]
          rfl
        refine ⟨fun frame hframe => ?_, h.accepted.trans hprefix, fun hlive => ?_⟩
        · simp only at hframe
          rw [hposted, List.mem_append, List.mem_singleton] at hframe
          rcases hframe with hold | rfl
          · exact h.posted frame hold
          · exact ⟨data, hsendable, rfl⟩
        · rw [Client.payloadsPosted, hposted, payloads_append, payloads_data hsendable,
            ← List.append_assoc, hsent]
          exact congrArg (· ++ [data]) (h.live hlive)
    · rw [Bool.not_eq_true] at hconnected
      rw [if_pos (by rw [hconnected]; rfl)]
      exact hdead (by rw [Client.live, hconnected, Bool.false_and])
  · rw [if_pos ((refused_iff data).mpr hsendable)]
    have hsent : recordSent sent data = sent := if_neg hsendable
    rw [hsent]
    exact h

theorem clientSends_shutdown {c : Client} {sent : List Bytes} (h : ClientSends c sent) :
    ClientSends c.shutdown sent := by
  unfold Client.shutdown
  split_ifs
  · exact h
  · refine ⟨?_, h.accepted, fun hlive => ?_⟩
    · simp only [Client.postedFrames, List.filterMap_append]
      rw [show List.filterMap _ [ClientTask.shutdown] = ([] : List Bytes) from rfl,
        List.append_nil]
      exact h.posted
    · rw [Client.live, Bool.not_true, Bool.and_false] at hlive
      exact absurd hlive Bool.false_ne_true

/-! ### Servers -/

/-- The frames in handlers posted to `server_strand`. -/
def Server.postedFrames (strand : List ServerTask) : List Bytes :=
  strand.filterMap fun
    | .send _ frame => some frame
    | _ => none

theorem PacketQueue.shuttingDown_pushPacket (q : PacketQueue) (packet : Packet) :
    (q.pushPacket packet).2.shuttingDown = q.shuttingDown := by
  unfold pushPacket
  split_ifs <;> rfl

/-- The server before it has accepted the connection. Only closes can be
    posted. -/
structure Unaccepted (id : UInt32) (server : Server) (connectPolled : Bool)
    (sent : List Bytes) : Prop where
  objects : server.objects = []
  sessions : server.sessions = ∅
  nextId : server.accepts = 0 → server.nextId = id
  packets : ∀ packet ∈ server.queue.packets, ¬ (packet.type = .connect ∧ packet.sessionId = id)
  tasks : ∀ task ∈ server.strand, task = .disconnect id ∨ task = .shutdown
  polled : connectPolled = false
  silent : sent = []

/-- The server with the session of the connection. While the session is open
    and the server is running, what was sent is what the session has accepted
    and what waits at the two hops. -/
structure Established (id : UInt32) (server : Server) (sent : List Bytes) (s : Session) :
    Prop where
  objects : server.objects = [s]
  owner : s.id = id
  accepts : server.accepts ≠ 0
  tasks : ∀ sessionId frame, .send sessionId frame ∈ server.strand → sessionId = id ∧ IsData frame
  posted : ∀ frame ∈ Session.postedFrames s.strand, IsData frame
  listed : s.closed = false →
    server.sessions[id]? = some 0 ∧ ∀ sessionId, .erase sessionId ∉ server.strand
  accepted : s.payloadsAccepted <+: sent
  handed : s.closed = false → s.payloadsAccepted ++ s.payloadsPosted <+: sent
  running : s.closed = false → server.queue.shuttingDown = false →
    s.payloadsAccepted ++ s.payloadsPosted ++ payloads (Server.postedFrames server.strand) = sent

/-- Either of the two. -/
def ServerSends (id : UInt32) (server : Server) (connectPolled : Bool) (sent : List Bytes) :
    Prop :=
  Unaccepted id server connectPolled sent ∨ ∃ s, Established id server sent s

variable {id : UInt32} {server : Server} {sent : List Bytes} {s : Session}

/-- A handler of the session. -/
theorem Established.session (h : Established id server sent s) {action : SessionAction}
    {s' : Session} {effects : List SessionEffect} (hstep : s.step action = some (s', effects)) :
    Established id (server.onSession 0 s (s', effects)) sent s' := by
  rcases Session.step_outcome hstep with ⟨hid, hout⟩
  have hchange := Session.step_change hstep
  rcases hchange.sends with ⟨hopen, hclosed⟩
  have hobjects : server.objects.set 0 s' = [s'] := by rw [h.objects, List.set_cons_zero]
  have hposted : ∀ frame ∈ Session.postedFrames s'.strand, IsData frame :=
    fun frame hframe => h.posted frame (hchange.postedFrames_subset hframe)
  -- Once the session is closed its write queue takes nothing more.
  have haccepted : s'.payloadsAccepted <+: sent := by
    cases hc : s'.closed with
    | true =>
        rw [hclosed hc]
        exact h.accepted
    | false =>
        rcases hopen hc with ⟨hs, heq⟩
        refine List.IsPrefix.trans (List.prefix_append _ s'.payloadsPosted) ?_
        rw [heq]
        exact h.handed hs
  have hhanded : s'.closed = false → s'.payloadsAccepted ++ s'.payloadsPosted <+: sent := by
    intro hc
    rcases hopen hc with ⟨hs, heq⟩
    rw [heq]
    exact h.handed hs
  -- While the session stays open, only the queue of the server may change.
  have hstays : ∀ queue : PacketQueue, queue.shuttingDown = server.queue.shuttingDown →
      Established id { server with objects := server.objects.set 0 s', queue } sent s' := by
    intro queue hqueue
    refine ⟨hobjects, hid.trans h.owner, h.accepts, h.tasks, hposted, fun hc => ?_, haccepted,
      hhanded, fun hc hdown => ?_⟩
    · exact h.listed (hopen hc).1
    · rw [(hopen hc).2]
      exact h.running (hopen hc).1 (hqueue ▸ hdown)
  cases hout with
  | silent => exact hstays server.queue rfl
  | receives size data => exact hstays _ (PacketQueue.shuttingDown_pushPacket _ _)
  | closes _ hc =>
      have hnot : s'.closed ≠ false := by
        rw [hc]
        decide
      refine ⟨hobjects, hid.trans h.owner, h.accepts, fun sessionId frame hmem => ?_, hposted,
        fun hfalse => absurd hfalse hnot, haccepted, hhanded,
        fun hfalse => absurd hfalse hnot⟩
      rcases List.mem_append.mp hmem with hold | hnew
      · exact h.tasks sessionId frame hold
      · exact absurd (List.mem_singleton.mp hnew)
          (by simp only [reduceCtorEq, not_false_eq_true])

/-- A call on a session finds the one there is, or none. -/
theorem withSession_single (server : Server) (hobjects : server.objects = [s])
    (sessionId : UInt32) (f : Session → Session) :
    ∃ s', (s' = s ∨ s' = f s) ∧ (server.sessions[sessionId]? = some 0 → s' = f s) ∧
      server.withSession sessionId f = { server with objects := [s'] } := by
  unfold Server.withSession
  cases hfind : server.sessions[sessionId]? with
  | none =>
      refine ⟨s, Or.inl rfl, fun h => absurd h.symm (Option.some_ne_none 0), ?_⟩
      rw [← hobjects]
  | some index =>
      cases index with
      | zero =>
          refine ⟨f s, Or.inr rfl, fun _ => rfl, ?_⟩
          simp only [hobjects, List.modify_zero_cons]
      | succ index =>
          -- No object stands there, and `modify` does nothing.
          refine ⟨s, Or.inl rfl, fun h => absurd (Option.some.inj h) (Nat.succ_ne_zero index), ?_⟩
          simp only [hobjects, List.modify_succ_cons, List.modify_nil]

/-- The session with more handlers posted to it. -/
def Session.post (s : Session) (tasks : List SessionTask) : Session :=
  { s with strand := s.strand ++ tasks }

theorem Session.postedFrames_append (strand tasks : List SessionTask) :
    Session.postedFrames (strand ++ tasks)
      = Session.postedFrames strand ++ Session.postedFrames tasks :=
  List.filterMap_append

/-- Closing every session in the table posts closes to the one there is. -/
theorem foldl_close_single (server : Server) (hobjects : server.objects = [s])
    (keys : List UInt32) :
    ∃ count, keys.foldl (fun server key => server.withSession key Session.close) server
      = { server with objects := [s.post (List.replicate count .close)] } := by
  induction keys generalizing server s with
  | nil =>
      refine ⟨0, ?_⟩
      rw [List.foldl_nil, List.replicate_zero, Session.post, List.append_nil, ← hobjects]
  | cons key keys ih =>
      rw [List.foldl_cons]
      rcases withSession_single server hobjects key Session.close with ⟨s', hs', _, heq⟩
      rw [heq]
      rcases ih { server with objects := [s'] } rfl with ⟨count, hcount⟩
      rw [hcount]
      -- The key found the session or not: one close more, or none.
      rcases hs' with rfl | rfl
      · exact ⟨count, rfl⟩
      · refine ⟨count + 1, ?_⟩
        rw [Session.post, Session.post, Session.close, List.append_assoc,
          List.singleton_append, ← List.replicate_succ]

theorem postedFrames_replicate_close (count : Nat) :
    Session.postedFrames (List.replicate count .close) = [] := by
  induction count with
  | zero => rfl
  | succ count ih =>
      rw [List.replicate_succ]
      exact ih

/-- A handler of `server_strand` that posts no frame to the session. -/
theorem Established.closes (h : Established id server sent s) {task : ServerTask}
    {strand : List ServerTask} (hstrand : server.strand = task :: strand)
    (hframes : server.queue.shuttingDown = false →
      Server.postedFrames strand = Server.postedFrames server.strand)
    (tasks : List SessionTask) (hposts : Session.postedFrames tasks = []) :
    Established id { server with strand, objects := [s.post tasks] } sent (s.post tasks) := by
  have hsub : ∀ t ∈ strand, t ∈ server.strand := by
    intro t ht
    rw [hstrand]
    exact List.mem_cons_of_mem _ ht
  have hsame : (s.post tasks).payloadsPosted = s.payloadsPosted := by
    rw [Session.payloadsPosted, Session.post, Session.postedFrames_append, hposts,
      List.append_nil]
    rfl
  refine ⟨rfl, h.owner, h.accepts, fun sessionId frame hmem => ?_, fun frame hframe => ?_,
    fun hopen => ?_, h.accepted, fun hopen => ?_, fun hopen hdown => ?_⟩
  · exact h.tasks sessionId frame (hsub _ hmem)
  · rw [Session.post, Session.postedFrames_append, hposts, List.append_nil] at hframe
    exact h.posted frame hframe
  · exact ⟨(h.listed hopen).1, fun sessionId hmem => (h.listed hopen).2 sessionId (hsub _ hmem)⟩
  · rw [hsame]
    exact h.handed hopen
  · rw [hsame]
    simp only
    rw [hframes hdown]
    exact h.running hopen hdown

/-- Whatever a handler of `server_strand` does to a closed session is too
    late. -/
theorem Established.lost (h : Established id server sent s) (hclosed : s.closed = true)
    {strand : List ServerTask} (hsub : ∀ task ∈ strand, task ∈ server.strand)
    (sessions : Std.ExtTreeMap UInt32 Nat) (tasks : List SessionTask)
    (hposts : ∀ frame ∈ Session.postedFrames tasks, IsData frame) :
    Established id { server with strand, sessions, objects := [s.post tasks] } sent
      (s.post tasks) := by
  have hnot : (s.post tasks).closed ≠ false := by
    rw [Session.post, hclosed]
    decide
  refine ⟨rfl, h.owner, h.accepts, fun sessionId frame hmem => ?_, fun frame hframe => ?_,
    fun hopen => absurd hopen hnot, h.accepted, fun hopen => absurd hopen hnot,
    fun hopen => absurd hopen hnot⟩
  · exact h.tasks sessionId frame (hsub _ hmem)
  · rw [Session.post, Session.postedFrames_append, List.mem_append] at hframe
    rcases hframe with hold | hnew
    · exact h.posted frame hold
    · exact hposts frame hnew

theorem Session.post_nil (s : Session) : s.post [] = s := by
  rw [Session.post, List.append_nil]

/-- The frame moves on from `server_strand` to the session's strand. -/
theorem Established.hands (h : Established id server sent s) (hopen : s.closed = false)
    (hrunning : server.queue.shuttingDown = false) {frame : Bytes} {strand : List ServerTask}
    (hstrand : server.strand = .send id frame :: strand) :
    Established id { server with strand, objects := [s.post [.enqueueWrite frame]] } sent
      (s.post [.enqueueWrite frame]) := by
  have hsub : ∀ task ∈ strand, task ∈ server.strand := by
    intro task htask
    rw [hstrand]
    exact List.mem_cons_of_mem _ htask
  have hdata : IsData frame := by
    refine (h.tasks id frame ?_).2
    rw [hstrand]
    exact List.mem_cons_self
  have hposted : (s.post [.enqueueWrite frame]).payloadsPosted
      = s.payloadsPosted ++ payloads [frame] := by
    rw [Session.payloadsPosted, Session.post, Session.postedFrames_append, payloads_append]
    rfl
  -- The frame leaves the front of one queue and joins the end of the next.
  have hall : s.payloadsAccepted ++ (s.payloadsPosted ++ payloads [frame])
      ++ payloads (Server.postedFrames strand) = sent := by
    rw [← h.running hopen hrunning, hstrand, ← List.append_assoc, List.append_assoc _ _
      (payloads _), ← payloads_append]
    rfl
  refine ⟨rfl, h.owner, h.accepts, fun sessionId frame' hmem => ?_, fun frame' hframe => ?_,
    fun _ => ?_, h.accepted, fun _ => ?_, fun _ _ => ?_⟩
  · exact h.tasks sessionId frame' (hsub _ hmem)
  · rw [Session.post, Session.postedFrames_append, List.mem_append] at hframe
    rcases hframe with hold | hnew
    · exact h.posted frame' hold
    · rw [List.mem_singleton.mp hnew]
      exact hdata
  · exact ⟨(h.listed hopen).1, fun sessionId hmem => (h.listed hopen).2 sessionId (hsub _ hmem)⟩
  · rw [hposted, ← hall]
    exact List.prefix_append _ _
  · rw [hposted]
    exact hall

/-- A handler of `server_strand` only ever posts to the session. -/
theorem Established.task (h : Established id server sent s) {task : ServerTask}
    {strand : List ServerTask} (hstrand : server.strand = task :: strand) :
    ∃ tasks, Established id (Server.onTask { server with strand } task) sent (s.post tasks) := by
  have hsub : ∀ t ∈ strand, t ∈ server.strand := by
    intro t ht
    rw [hstrand]
    exact List.mem_cons_of_mem _ ht
  have hself : ({ server with strand } : Server)
      = { server with strand, objects := [s.post []] } := by
    rw [Session.post_nil, ← h.objects]
  cases task with
  | send sessionId frame =>
      -- Thrown away by the shutdown, handed on, or too late for a closed session.
      have htask := h.tasks sessionId frame (by rw [hstrand]; exact List.mem_cons_self)
      rw [htask.1] at hstrand ⊢
      rw [Server.onTask]
      by_cases hdown : server.queue.shuttingDown = true
      · rw [if_pos hdown, hself]
        refine ⟨[], h.closes hstrand (fun hfalse => ?_) _ rfl⟩
        exact absurd (hfalse.symm.trans hdown) Bool.false_ne_true
      · rw [if_neg hdown]
        rw [Bool.not_eq_true] at hdown
        rcases withSession_single { server with strand } h.objects id
          (fun session => session.enqueueRawFrame frame) with ⟨s', hs', hfound, heq⟩
        rw [heq]
        cases hclosed : s.closed with
        | false =>
            rw [hfound (h.listed hclosed).1]
            exact ⟨_, h.hands hclosed hdown hstrand⟩
        | true =>
            rcases hs' with rfl | rfl
            · refine ⟨[], ?_⟩
              have hlost := h.lost hclosed hsub server.sessions []
                (fun _ hf => absurd hf List.not_mem_nil)
              rw [Session.post_nil] at hlost ⊢
              exact hlost
            · refine ⟨[.enqueueWrite frame], h.lost hclosed hsub server.sessions _ ?_⟩
              intro frame' hframe
              rw [List.mem_singleton.mp hframe]
              exact htask.2
  | disconnect sessionId =>
      have hframes : Server.postedFrames strand = Server.postedFrames server.strand := by
        rw [hstrand]
        rfl
      rw [Server.onTask]
      by_cases hdown : server.queue.shuttingDown = true
      · rw [if_pos hdown, hself]
        exact ⟨[], h.closes hstrand (fun _ => hframes) _ rfl⟩
      · rw [if_neg hdown]
        rcases withSession_single { server with strand } h.objects sessionId
          Session.close with ⟨s', hs', _, heq⟩
        rw [heq]
        rcases hs' with rfl | rfl
        · refine ⟨[], ?_⟩
          have hclose := h.closes hstrand (fun _ => hframes) [] rfl
          rw [Session.post_nil] at hclose ⊢
          exact hclose
        · exact ⟨[.close], h.closes hstrand (fun _ => hframes) _ rfl⟩
  | erase sessionId =>
      -- Only the close callback posts an erase.
      have hclosed : s.closed = true := by
        cases hc : s.closed with
        | true => rfl
        | false =>
            refine absurd ?_ ((h.listed hc).2 sessionId)
            rw [hstrand]
            exact List.mem_cons_self
      refine ⟨[], ?_⟩
      have hlost := h.lost hclosed hsub (server.sessions.erase sessionId) []
        (fun _ hf => absurd hf List.not_mem_nil)
      rw [Session.post_nil, ← h.objects] at hlost
      rw [Session.post_nil]
      exact hlost
  | shutdown =>
      have hframes : Server.postedFrames strand = Server.postedFrames server.strand := by
        rw [hstrand]
        rfl
      rcases foldl_close_single { server with strand } h.objects
        server.sessions.keys with ⟨count, hcount⟩
      rw [Server.onTask, hcount]
      exact ⟨_, h.closes hstrand (fun _ => hframes) _ (postedFrames_replicate_close count)⟩

/-- The bytes of a write are taken; the frames are the same. -/
theorem Established.transmit (h : Established id server sent s) {writer : Writer}
    (haccepted : writer.accepted = s.writer.accepted) :
    Established id { server with objects := server.objects.set 0 { s with writer } } sent
      { s with writer } := by
  have hsame : ({ s with writer } : Session).payloadsAccepted = s.payloadsAccepted := by
    rw [Session.payloadsAccepted, haccepted]
    rfl
  refine ⟨by rw [h.objects, List.set_cons_zero], h.owner, h.accepts, h.tasks, h.posted,
    h.listed, ?_, fun hopen => ?_, fun hopen hdown => ?_⟩
  · rw [hsame]
    exact h.accepted
  · rw [hsame]
    exact h.handed hopen
  · rw [hsame]
    exact h.running hopen hdown

/-! ### Calls of the game thread -/

variable {polled : Bool}

/-- Steps that change only the queue, and do not end or begin a shutdown. -/
theorem ServerSends.queue (h : ServerSends id server polled sent) (queue : PacketQueue)
    (hdown : queue.shuttingDown = server.queue.shuttingDown) {polled' : Bool}
    (hconnect : (∀ packet ∈ server.queue.packets,
        ¬ (packet.type = .connect ∧ packet.sessionId = id)) → polled = false →
      (∀ packet ∈ queue.packets, ¬ (packet.type = .connect ∧ packet.sessionId = id)) ∧
        polled' = false) :
    ServerSends id { server with queue } polled' sent := by
  rcases h with h | ⟨s, h⟩
  · have hnew := hconnect h.packets h.polled
    exact Or.inl ⟨h.objects, h.sessions, h.nextId, hnew.1, h.tasks, hnew.2, h.silent⟩
  · exact Or.inr ⟨s, h.objects, h.owner, h.accepts, h.tasks, h.posted, h.listed, h.accepted,
      h.handed, fun hopen hrunning => h.running hopen (hdown ▸ hrunning)⟩

/-- A close is posted to `server_strand`. -/
theorem ServerSends.post (h : ServerSends id server polled sent) {task : ServerTask}
    (htask : task = .disconnect id ∨ task = .shutdown) {down : Bool}
    (hdown : down = false → server.queue.shuttingDown = false) :
    ServerSends id { server with
      strand := server.strand ++ [task]
      queue := { server.queue with shuttingDown := down } } polled sent := by
  -- Neither task is one the invariant speaks of.
  have hne : ∀ sessionId frame, task ≠ .send sessionId frame ∧ task ≠ .erase sessionId := by
    intro sessionId frame
    rcases htask with rfl | rfl
    all_goals exact ⟨by simp only [ne_eq, reduceCtorEq, not_false_eq_true],
      by simp only [ne_eq, reduceCtorEq, not_false_eq_true]⟩
  have hframes : Server.postedFrames (server.strand ++ [task])
      = Server.postedFrames server.strand := by
    rw [Server.postedFrames, List.filterMap_append]
    rcases htask with rfl | rfl <;> exact List.append_nil _
  rcases h with h | ⟨s, h⟩
  · refine Or.inl ⟨h.objects, h.sessions, h.nextId, h.packets, fun t ht => ?_, h.polled,
      h.silent⟩
    rcases List.mem_append.mp ht with hold | hnew
    · exact h.tasks t hold
    · rw [List.mem_singleton.mp hnew]
      exact htask
  · refine Or.inr ⟨s, h.objects, h.owner, h.accepts, fun sessionId frame hmem => ?_, h.posted,
      fun hopen => ⟨(h.listed hopen).1, fun sessionId hmem => ?_⟩, h.accepted, h.handed,
      fun hopen hrunning => ?_⟩
    · rcases List.mem_append.mp hmem with hold | hnew
      · exact h.tasks sessionId frame hold
      · exact absurd (List.mem_singleton.mp hnew).symm (hne sessionId frame).1
    · rcases List.mem_append.mp hmem with hold | hnew
      · exact (h.listed hopen).2 sessionId hold
      · exact absurd (List.mem_singleton.mp hnew).symm (hne sessionId []).2
    · simp only
      rw [hframes]
      exact h.running hopen (hdown hrunning)

theorem serverSends_disconnect (h : ServerSends id server polled sent) :
    ServerSends id (server.disconnect id) polled sent := by
  unfold Server.disconnect
  split_ifs
  · exact h
  · exact h.post (Or.inl rfl) (fun hdown => hdown)

theorem serverSends_shutdown (h : ServerSends id server polled sent) :
    ServerSends id server.shutdown polled sent := by
  unfold Server.shutdown
  split_ifs
  · exact h
  · exact h.post (Or.inr rfl) (fun hdown => absurd hdown.symm Bool.false_ne_true)

/-- `send` posts the frame, or the server is shutting down. -/
theorem established_send (h : Established id server sent s) (data : Bytes) :
    Established id (server.send id data) (recordSent sent data) s := by
  have hprefix := prefix_recordSent sent data
  unfold Server.send
  by_cases hsendable : Sendable data
  · rw [if_neg ((refused_iff data).not.mpr (not_not.mpr hsendable))]
    have hsent : recordSent sent data = sent ++ [data] := if_pos hsendable
    by_cases hdown : server.queue.shuttingDown = true
    · rw [if_pos hdown]
      exact ⟨h.objects, h.owner, h.accepts, h.tasks, h.posted, h.listed,
        h.accepted.trans hprefix, fun hopen => (h.handed hopen).trans hprefix,
        fun _ hfalse => absurd (hfalse.symm.trans hdown) Bool.false_ne_true⟩
    · rw [if_neg hdown]
      simp only
      rw [if_neg (by rw [List.isEmpty_iff]; exact buildDataFrame_ne_nil hsendable)]
      -- The frame goes behind everything that waits on `server_strand`.
      have hframes : Server.postedFrames (server.strand ++ [.send id (buildDataFrame data)])
          = Server.postedFrames server.strand ++ [buildDataFrame data] := by
        rw [Server.postedFrames, List.filterMap_append]
        rfl
      refine ⟨h.objects, h.owner, h.accepts, fun sessionId frame hmem => ?_, h.posted,
        fun hopen => ⟨(h.listed hopen).1, fun sessionId hmem => ?_⟩, h.accepted.trans hprefix,
        fun hopen => (h.handed hopen).trans hprefix, fun hopen hrunning => ?_⟩
      · rcases List.mem_append.mp hmem with hold | hnew
        · exact h.tasks sessionId frame hold
        · rw [List.mem_singleton, ServerTask.send.injEq] at hnew
          exact ⟨hnew.1, data, hsendable, hnew.2⟩
      · rcases List.mem_append.mp hmem with hold | hnew
        · exact (h.listed hopen).2 sessionId hold
        · exact absurd (List.mem_singleton.mp hnew)
            (by simp only [reduceCtorEq, not_false_eq_true])
      · simp only
        rw [hframes, payloads_append, payloads_data hsendable, ← List.append_assoc,
          h.running hopen hrunning, hsent]
  · rw [if_pos ((refused_iff data).mpr hsendable)]
    have hsent : recordSent sent data = sent := if_neg hsendable
    rw [hsent]
    exact h

/-- Only a game thread that has polled the `Connect` sends. -/
theorem serverSends_send (h : ServerSends id server polled sent) (hpolled : polled = true)
    (data : Bytes) : ServerSends id (server.send id data) polled (recordSent sent data) := by
  rcases h with h | ⟨s, h⟩
  · exact absurd (h.polled.symm.trans hpolled) Bool.false_ne_true
  · exact Or.inr ⟨s, established_send h data⟩

/-! ### Accepting -/

/-- Before the connection is accepted, the handlers of `server_strand` find
    nothing to do. -/
theorem unaccepted_task (h : Unaccepted id server polled sent) {task : ServerTask}
    {strand : List ServerTask} (hstrand : server.strand = task :: strand) :
    Unaccepted id (Server.onTask { server with strand } task) polled sent := by
  have hrest : Unaccepted id { server with strand } polled sent := by
    refine ⟨h.objects, h.sessions, h.nextId, h.packets, fun t ht => h.tasks t ?_, h.polled,
      h.silent⟩
    rw [hstrand]
    exact List.mem_cons_of_mem _ ht
  have hsame : Server.onTask { server with strand } task = { server with strand } := by
    rcases h.tasks task (by rw [hstrand]; exact List.mem_cons_self) with rfl | rfl
    · rw [Server.onTask, Server.withSession]
      simp only [h.sessions, Std.ExtTreeMap.getElem?_empty, ite_self]
    · rw [Server.onTask]
      simp only [h.sessions]
      rfl
  rw [hsame]
  exact hrest

theorem serverSends_accept (h : ServerSends id server polled sent)
    (hfirst : server.accepts = 0) : ServerSends id server.onAccept polled sent := by
  rcases h with h | ⟨s, h⟩
  · unfold Server.onAccept PacketQueue.pushPacket
    by_cases hdown : server.queue.shuttingDown = true
    · rw [if_pos hdown]
      exact Or.inl h
    · rw [if_neg hdown]
      simp only [if_neg hdown]
      by_cases hroom : server.queue.packets.length < packetQueueCapacity
      · simp only [if_pos hroom, if_true]
        refine Or.inr ⟨Session.start { id := server.nextId }, ?_, h.nextId hfirst,
          Nat.succ_ne_zero _, fun sessionId frame hmem => ?_,
          fun _ hf => absurd hf List.not_mem_nil, fun _ => ⟨?_, fun sessionId hmem => ?_⟩,
          List.nil_prefix, fun _ => List.nil_prefix, fun _ _ => ?_⟩
        · rw [h.objects, List.nil_append]
        · rcases h.tasks _ hmem with heq | heq
          all_goals exact absurd heq (by simp only [reduceCtorEq, not_false_eq_true])
        · rw [h.sessions, h.nextId hfirst, h.objects, TreeMap.getElem?_insertIfNew_ite,
            if_pos rfl, Std.ExtTreeMap.getElem?_empty, Option.getD_none, List.length_nil]
        · rcases h.tasks _ hmem with heq | heq
          all_goals exact absurd heq (by simp only [reduceCtorEq, not_false_eq_true])
        · have hframes : Server.postedFrames server.strand = [] := by
            refine List.filterMap_eq_nil_iff.mpr (fun task htask => ?_)
            rcases h.tasks task htask with rfl | rfl <;> rfl
          simp only [hframes]
          exact h.silent.symm
      · -- No room for the `Connect`: the connection is dropped, and its id is used up.
        simp only [if_neg hroom, Bool.false_eq_true, if_false]
        refine Or.inl ⟨h.objects, h.sessions, fun hzero => ?_, h.packets, h.tasks, h.polled,
          h.silent⟩
        exact absurd hzero (Nat.succ_ne_zero _)
  · exact absurd hfirst h.accepts

end ProjectNight
