import ProjectNight.Theory.SessionTable

/-!
# The Last Messages of a Session

`NetworkSystem::Flush` sends the messages of an update and then disconnects the
sessions that asked for it, so that a client gets its `DisconnectResponse`
before the connection goes down. The sends and the disconnect travel through
`server_strand` and the session's strand in order, and the close handler runs
when every one of the frames is in the write queue. Being in the queue is not
being written: `handle_close` shuts the socket down at once, whatever is still
queued.

So the messages arrive if the write queue happens to be empty when the close
handler runs. That is the condition here (`drainedClose`), next to one that has
nothing to do with the flush: a header that is not one closes the session as
well. Under it, for every interleaving, the frames written to the socket before
the close are the ones that were pending when the flush began, and then the
flushed ones, all of them and in order.

The path of a flush is cut by its close: `Underway` says where the close is,
and that the frames ahead of it, with what was written, are the whole flush.

## Main definitions

* `Farewell`: A run of the server, with the record of one session's flush.
* `undisturbed`: No socket error, timeout or overflow on the session.
* `drainedClose`: The close handler finds the write queue empty.
* `Underway`: Where the close of the flush is.

## Theorems

* `Session.calm_step`: What a session does when nothing disturbs it.
* `underway_step`: The frames ahead of the close are never lost.
* `farewell_delivered`: All flushed frames are written before the close.
* `not_delivered_pendingWrite`: A close that overtakes the writes.
-/

namespace ProjectNight

open Wire TreeMap

/-! ### The flush of one session -/

/-- A run of the server, and what has happened since the flush of a session
    began. -/
structure Farewell where
  acceptor : Acceptor
  /-- The payloads flushed to the session, up to its disconnect. -/
  sent : List Bytes := []
  /-- The disconnect has been called. -/
  left : Bool := false
  /-- The frames that were completely written to the session's socket. -/
  written : List Bytes := []

namespace Farewell

/-- `send` refuses payloads that are empty or longer than 2048 bytes. -/
def sentBy (id : UInt32) : Acceptor.Action → List Bytes
  | .send sessionId data => if sessionId = id ∧ Sendable data then [data] else []
  | _ => []

/-- A write that completes without error has written the front of the queue. -/
def writtenBy (index : Nat) (a : Acceptor) : Acceptor.Action → List Bytes
  | .session i (.write true) =>
    if i = index then
      (a.server.objects[index]?.bind fun session => session.writer.queue.head?).toList
    else []
  | _ => []

def step (id : UInt32) (index : Nat) (f : Farewell) (action : Acceptor.Action) :
    Option Farewell :=
  (f.acceptor.step action).map fun acceptor =>
    { acceptor
      sent := if f.left then f.sent else f.sent ++ sentBy id action
      left := f.left || action = .disconnect id
      written := f.written ++ writtenBy index f.acceptor action }

end Farewell

/-! ### The conditions -/

/-- No socket error, no heartbeat timeout and no overflow of the write queue. -/
def Session.undisturbed (s : Session) : SessionAction → Bool
  | .readError => false
  | .write ok => ok
  | .heartbeat timeout => !timeout && s.writer.queue.length < maxPendingWriteFrames
  | .task =>
    match s.strand with
    | .enqueueWrite _ :: _ => s.writer.queue.length < maxPendingWriteFrames
    | _ => true
  | _ => true

/-- The close handler finds the write queue empty, and no header is one that
    `decode_header` refuses. -/
def Session.drainedClose (s : Session) : SessionAction → Bool
  | .task =>
    match s.strand with
    | .close :: _ => s.writer.queue.isEmpty
    | _ => true
  | .read =>
    match s.reader with
    | .completed .header bytes => (Reader.afterHeader bytes).isSome
    | _ => true
  | _ => true

/-- A condition on the handlers of one session, while it is open. -/
def Farewell.onSession (index : Nat) (cond : Session → SessionAction → Bool) (f : Farewell) :
    Acceptor.Action → Bool
  | .session i action =>
    if i = index then
      f.acceptor.server.objects[index]?.all fun session => session.closed || cond session action
    else true
  | _ => true

/-! ### What an undisturbed session does -/

namespace Session

/-- An operation is outstanding only while the queue has its frame. -/
def FlightQueued (s : Session) : Prop := s.writer.queue = [] → s.writer.inFlight = none

/-- What an open session does when nothing disturbs it. -/
inductive Calm (s : Session) (action : SessionAction) (s' : Session) : Prop where
  | accept (frame : Bytes) (rest : List SessionTask) (haction : action = .task)
      (hstrand : s.strand = .enqueueWrite frame :: rest) (hrest : s'.strand = rest)
      (hqueue : s'.writer.queue = s.writer.queue ++ [frame]) (hclosed : s'.closed = false)
  | close (rest : List SessionTask) (haction : action = .task)
      (hstrand : s.strand = .close :: rest) (hempty : s.writer.queue = [])
      (hwriter : s'.writer = s.writer) (hclosed : s'.closed = true)
  | written (front : Bytes) (tail : List Bytes) (haction : action = .write true)
      (hfront : s.writer.queue = front :: tail) (hqueue : s'.writer.queue = tail)
      (hstrand : s'.strand = s.strand) (hclosed : s'.closed = false)
  | keepalive (haction : action ≠ .write true)
      (hqueue : s'.writer.queue = s.writer.queue ++ [buildKeepaliveFrame])
      (hstrand : s'.strand = s.strand) (hclosed : s'.closed = false)
  | other (haction : action ≠ .write true) (hqueue : s'.writer.queue = s.writer.queue)
      (hstrand : s'.strand = s.strand) (hclosed : s'.closed = false)

end Session

/-- A frame that is accepted is appended, and is being written if nothing else
    is. -/
theorem Writer.queue_enqueueFrame {w w' : Writer} {frame : Bytes}
    (h : w.enqueueFrame frame = some w') : w'.queue = w.queue ++ [frame] := by
  unfold enqueueFrame at h
  split_ifs at h
  rw [← Option.some.inj h]
  split_ifs
  · rfl
  · unfold doWrite
    split <;> rfl

theorem Writer.enqueueFrame_eq_none {w : Writer} {frame : Bytes} :
    w.enqueueFrame frame = none ↔ maxPendingWriteFrames ≤ w.queue.length := by
  have hpos : maxPendingWriteFrames ≠ 0 := by unfold maxPendingWriteFrames; omega
  unfold enqueueFrame
  split_ifs with hfull
  · simp [hfull.2]
  · simp only [false_iff]
    omega

theorem Writer.queue_doWrite (w : Writer) : w.doWrite.queue = w.queue := by
  unfold doWrite
  split <;> rfl

namespace Session

theorem flightQueued_step {s s' : Session} {action : SessionAction}
    {effects : List SessionEffect} (h : s.step action = some (s', effects))
    (hs : s.FlightQueued) : s'.FlightQueued := by
  have henqueue : ∀ {frame : Bytes} {writer : Writer},
      s.writer.enqueueFrame frame = some writer → writer.queue = [] → writer.inFlight = none := by
    intro frame writer henqueue hempty
    rw [Writer.queue_enqueueFrame henqueue] at hempty
    simp at hempty
  cases step_change h with
  | taskAccepted _ _ hwriter => exact henqueue hwriter
  | keepalive _ hwriter => exact henqueue hwriter
  | written =>
      intro hempty
      simp only [Writer.queue_doWrite] at hempty
      unfold Writer.doWrite
      rw [hempty]
      rfl
  | writeError => exact fun _ => rfl
  | _ => exact hs

/-- What an open session does when nothing disturbs it. -/
theorem calm_step {s s' : Session} {action : SessionAction} {effects : List SessionEffect}
    (h : s.step action = some (s', effects)) (hopen : s.closed = false) (hs : s.FlightQueued)
    (hundisturbed : s.undisturbed action = true) (hdrained : s.drainedClose action = true) :
    Calm s action s' := by
  have hroom : s.writer.queue.length < maxPendingWriteFrames → ∀ frame,
      ∃ writer, s.writer.enqueueFrame frame = some writer := by
    intro hlt frame
    rw [← Option.isSome_iff_exists, Option.isSome_iff_ne_none, ne_eq,
      Writer.enqueueFrame_eq_none]
    omega
  cases action with
  | task =>
      unfold step at h
      unfold undisturbed at hundisturbed
      unfold drainedClose at hdrained
      cases hstrand : s.strand with
      | nil => simp [hstrand] at h
      | cons task rest =>
          simp only [hstrand, Option.some.injEq] at h hundisturbed hdrained
          cases task with
          | enqueueWrite frame =>
              rcases hroom (by simpa using hundisturbed) frame with ⟨writer, hwriter⟩
              simp only [onTask, enqueueWrite, hopen, hwriter, Bool.false_eq_true, if_false,
                Prod.mk.injEq] at h
              rw [← h.1]
              exact .accept frame rest rfl hstrand rfl (Writer.queue_enqueueFrame hwriter) rfl
          | close =>
              simp only [onTask, handleClose, hopen, Bool.false_eq_true, if_false,
                Prod.mk.injEq] at h
              rw [← h.1]
              exact .close rest rfl hstrand (by simpa using hdrained) rfl rfl
  | arrive bytes =>
      cases step_change h
      exact .other (by simp) rfl rfl hopen
  | read =>
      unfold drainedClose at hdrained
      unfold step at h
      cases hreader : s.reader with
      | idle => simp [hreader] at h
      | waiting target => simp [hreader] at h
      | completed target bytes =>
          simp only [hreader, Option.some.injEq] at h hdrained
          cases target with
          | body size =>
              simp only [onRead, onBody, Prod.mk.injEq] at h
              rw [← h.1]
              exact .other (by simp) rfl rfl hopen
          | header =>
              rcases Option.isSome_iff_exists.mp hdrained with ⟨reader, hafter⟩
              simp only [onRead, onHeader, hafter, Prod.mk.injEq] at h
              rw [← h.1]
              exact .other (by simp) rfl rfl hopen
  | readError => simp [undisturbed] at hundisturbed
  | write ok =>
      simp only [undisturbed] at hundisturbed
      subst hundisturbed
      cases step_change h with
      | written hflight =>
          cases hqueue : s.writer.queue with
          | nil =>
              rw [hs hqueue] at hflight
              simp at hflight
          | cons front tail =>
              refine .written front tail rfl hqueue ?_ rfl hopen
              simp [Writer.queue_doWrite, Writer.pop, hqueue]
  | heartbeat timeout =>
      simp only [undisturbed, Bool.and_eq_true, Bool.not_eq_true', decide_eq_true_eq]
        at hundisturbed
      rcases hundisturbed with ⟨rfl, hlt⟩
      rcases hroom hlt buildKeepaliveFrame with ⟨writer, hwriter⟩
      simp only [step, onHeartbeat, enqueueWrite, hopen, hwriter, Bool.false_eq_true, if_false,
        Option.some.injEq, Prod.mk.injEq] at h
      rw [← h.1]
      exact .keepalive (by simp) (Writer.queue_enqueueFrame hwriter) rfl rfl

end Session

/-! ### One session in a step of the server -/

/-- What a handler of the server strand does to a session, which is in the
    table or not. -/
def Session.afterTask (s : Session) (listed : Bool) : ServerTask → Session
  | .send id frame => if id = s.id ∧ listed then s.enqueueRawFrame frame else s
  | .disconnect id => if id = s.id ∧ listed then s.close else s
  | _ => s

namespace Acceptor

/-- What a step does to one session and to the server strand. -/
inductive Lane (a : Acceptor) (index : Nat) (session : Session) (action : Action)
    (a' : Acceptor) (session' : Session) : Prop where
  | idle (haction : ∀ sessionAction, action ≠ .session index sessionAction)
      (hcall : action.target = none) (hsession : session' = session)
      (hstrand : ∃ erases : List UInt32,
        a'.server.strand = a.server.strand ++ erases.map .erase)
  | call (hsession : session' = session) (id : UInt32) (tasks : List ServerTask)
      (hstrand : a'.server.strand = a.server.strand ++ tasks)
      (hcall : (∃ data, action = .send id data ∧
          tasks = if Sendable data then [.send id (buildDataFrame data)] else []) ∨
        action = .disconnect id ∧ tasks = [.disconnect id])
  | task (task : ServerTask) (rest : List ServerTask) (haction : action = .task)
      (hstrand : a.server.strand = task :: rest) (hrest : a'.server.strand = rest)
      (hsession : session' =
        session.afterTask (a.server.sessions[session.id]? = some index) task)
  | handler (sessionAction : SessionAction) (effects : List SessionEffect)
      (haction : action = .session index sessionAction)
      (hstep : session.step sessionAction = some (session', effects))
      (hstrand : ∃ erases : List UInt32,
        a'.server.strand = a.server.strand ++ erases.map .erase)

/-- No shutdown is posted, and operations are outstanding only for queued
    frames. -/
structure Lively (a : Acceptor) : Prop where
  noShutdown : ServerTask.shutdown ∉ a.server.strand
  flight : ∀ session ∈ a.server.objects, session.FlightQueued

end Acceptor

namespace Server

theorem objects_withSession (s : Server) (id : UInt32) (f : Session → Session) (index : Nat) :
    (s.withSession id f).objects[index]?
      = if s.sessions[id]? = some index then s.objects[index]?.map f else s.objects[index]? := by
  unfold withSession
  cases hlookup : s.sessions[id]? with
  | none => simp
  | some i =>
      simp only [List.getElem?_modify, Option.some.injEq]
      split_ifs <;> simp

/-- The callbacks of a session post erases. -/
theorem strand_onSession (s : Server) (index : Nat) (session : Session)
    (result : Session × List SessionEffect) :
    ∃ erases : List UInt32,
      (s.onSession index session result).strand = s.strand ++ erases.map .erase := by
  have hfold : ∀ (effects : List SessionEffect) (u : Server),
      ∃ erases : List UInt32, (effects.foldl (applyEffect session.id) u).strand
        = u.strand ++ erases.map .erase := by
    intro effects
    induction effects with
    | nil => exact fun u => ⟨[], by simp⟩
    | cons effect effects ih =>
        intro u
        rcases ih (applyEffect session.id u effect) with ⟨erases, herases⟩
        rw [List.foldl_cons, herases]
        cases effect with
        | receive data => exact ⟨erases, rfl⟩
        | close => exact ⟨session.id :: erases, by simp [applyEffect]⟩
  exact hfold result.2 _

theorem objects_onSession (s : Server) (index : Nat) (session : Session)
    (result : Session × List SessionEffect) :
    (s.onSession index session result).objects = s.objects.set index result.1 := by
  have hfold : ∀ (effects : List SessionEffect) (u : Server),
      (effects.foldl (applyEffect session.id) u).objects = u.objects := by
    intro effects
    induction effects with
    | nil => exact fun u => rfl
    | cons effect effects ih =>
        intro u
        rw [List.foldl_cons, ih]
        cases effect <;> rfl
  exact hfold result.2 _

end Server

namespace Acceptor

/-- A step of the server, seen from one session. -/
theorem step_lane {a a' : Acceptor} {action : Action} (h : a.step action = some a')
    (hfit : TableFit a) (hlively : Lively a) {index : Nat} {session : Session}
    (hobject : a.server.objects[index]? = some session) :
    ∃ session', a'.server.objects[index]? = some session' ∧
      Lane a index session action a' session' := by
  cases action with
  | publish =>
      simp only [step] at h
      split_ifs at h
      rw [← Option.some.inj h, publish_eq hfit.running]
      exact ⟨session, hobject, .idle (by simp) rfl rfl ⟨[], by simp⟩⟩
  | enter =>
      rcases Option.map_eq_some_iff.mp h with ⟨id, _, rfl⟩
      refine ⟨session, ?_, .idle (by simp) rfl rfl ⟨[], by simp [enter]⟩⟩
      unfold enter
      simp only
      rw [List.getElem?_append_left (List.getElem?_eq_some_iff.mp hobject).1]
      exact hobject
  | poll =>
      rcases Option.map_eq_some_iff.mp h with ⟨_, _, rfl⟩
      exact ⟨session, hobject, .idle (by simp) rfl rfl ⟨[], by simp⟩⟩
  | send id data =>
      rw [← Option.some.inj h, Server.send_strand hfit.running]
      exact ⟨session, hobject, .call rfl id _ rfl (Or.inl ⟨data, rfl, rfl⟩)⟩
  | disconnect id =>
      rw [← Option.some.inj h]
      unfold Server.disconnect
      rw [if_neg (by simp [hfit.running])]
      exact ⟨session, hobject, .call rfl id _ rfl (Or.inr ⟨rfl, rfl⟩)⟩
  | session i sessionAction =>
      rcases Option.map_eq_some_iff.mp h with ⟨server, hserver, rfl⟩
      unfold Server.ioStep at hserver
      cases hother : a.server.objects[i]? with
      | none => simp [hother] at hserver
      | some other =>
          simp only [hother, Option.map_eq_some_iff] at hserver
          rcases hserver with ⟨⟨other', effects⟩, hstep, rfl⟩
          have hstrand := a.server.strand_onSession i other (other', effects)
          by_cases hi : i = index
          · subst hi
            rw [hobject, Option.some.injEq] at hother
            subst hother
            refine ⟨other', ?_, .handler sessionAction effects rfl hstep hstrand⟩
            simp only [Server.objects_onSession]
            rw [List.getElem?_set_self (List.getElem?_eq_some_iff.mp hobject).1]
          · refine ⟨session, ?_, .idle ?_ rfl rfl hstrand⟩
            · simp only [Server.objects_onSession]
              rw [List.getElem?_set_ne hi]
              exact hobject
            · intro sa hsa
              rw [Action.session.injEq] at hsa
              exact hi hsa.1
  | task =>
      simp only [step] at h
      split_ifs at h
      rcases Option.map_eq_some_iff.mp h with ⟨server, hserver, rfl⟩
      unfold Server.ioStep at hserver
      cases hstrand : a.server.strand with
      | nil => simp [hstrand] at hserver
      | cons task rest =>
          simp only [hstrand, Option.some.injEq] at hserver
          subst hserver
          have hnot : ¬ ({ a.server with strand := rest } : Server).queue.shuttingDown = true := by
            simp [hfit.running]
          -- A call under an id reaches this session if the table has it there.
          have hlookup : ∀ id, a.server.sessions[id]? = some index ↔
              id = session.id ∧ a.server.sessions[session.id]? = some index := by
            intro id
            constructor
            · intro hid
              rcases hfit.listed id index hid with ⟨closed, hentry⟩
              rw [Server.getElem?_profile hobject, Option.some.injEq, Prod.mk.injEq] at hentry
              rw [hentry.1]
              exact ⟨rfl, hid⟩
            · rintro ⟨rfl, hid⟩
              exact hid
          cases task with
          | send id frame =>
              refine ⟨_, ?_, .task _ rest rfl hstrand (Server.table_onTask _ _).1 rfl⟩
              simp only [Server.onTask]
              rw [if_neg hnot, Server.objects_withSession]
              simp only [hlookup id, hobject, Session.afterTask, decide_eq_true_eq]
              split_ifs <;> rfl
          | disconnect id =>
              refine ⟨_, ?_, .task _ rest rfl hstrand (Server.table_onTask _ _).1 rfl⟩
              simp only [Server.onTask]
              rw [if_neg hnot, Server.objects_withSession]
              simp only [hlookup id, hobject, Session.afterTask, decide_eq_true_eq]
              split_ifs <;> rfl
          | erase id => exact ⟨session, hobject, .task _ rest rfl hstrand rfl rfl⟩
          | shutdown =>
              refine absurd ?_ hlively.noShutdown
              rw [hstrand]
              exact List.mem_cons_self ..

theorem lively_init : Lively {} := ⟨by simp, by simp⟩

/-- Only an accept adds a session, and it has just been started. -/
theorem new_object {a a' : Acceptor} {action : Action} (h : a.step action = some a')
    {index : Nat} {session' : Session} (hnone : a.server.objects[index]? = none)
    (hobject : a'.server.objects[index]? = some session') :
    ∃ id, session' = Session.start { id } := by
  have hprofile : a.server.profile[index]? = none := by simp [Server.profile, hnone]
  have hentry := Server.getElem?_profile hobject
  cases step_table h with
  | quiet _ hsame =>
      rw [hsame, hprofile] at hentry
      simp at hentry
  | publish _ ha' =>
      have hsame : a'.server.profile = a.server.profile := by
        rw [ha']
        unfold publish
        split_ifs <;> rfl
      rw [hsame, hprofile] at hentry
      simp at hentry
  | enter id _ ha' =>
      subst ha'
      unfold enter at hobject
      simp only at hobject
      rw [List.getElem?_append] at hobject
      split_ifs at hobject
      · rw [hnone] at hobject
        simp at hobject
      · rw [List.getElem?_singleton] at hobject
        split_ifs at hobject
        exact ⟨id, (Option.some.inj hobject).symm⟩
  | close i id _ hopen _ hset =>
      rw [hset, List.getElem?_set] at hentry
      split_ifs at hentry with hi
      · rw [← hi, hopen] at hprofile
        simp at hprofile
      · rw [hprofile] at hentry
        simp at hentry
  | erase id _ _ _ hsame =>
      rw [hsame, hprofile] at hentry
      simp at hentry

theorem strand_step {a a' : Acceptor} {action : Action} (h : a.step action = some a')
    (hfit : TableFit a) (hno : ServerTask.shutdown ∉ a.server.strand) :
    ServerTask.shutdown ∉ a'.server.strand := by
  cases action with
  | publish =>
      simp only [step] at h
      split_ifs at h
      rw [← Option.some.inj h, publish_eq hfit.running]
      exact hno
  | enter | poll =>
      rcases Option.map_eq_some_iff.mp h with ⟨_, _, rfl⟩
      exact hno
  | send id data =>
      rw [← Option.some.inj h, Server.send_strand hfit.running]
      simp only [List.mem_append, not_or]
      refine ⟨hno, ?_⟩
      split_ifs <;> simp
  | disconnect id =>
      rw [← Option.some.inj h]
      unfold Server.disconnect
      rw [if_neg (by simp [hfit.running])]
      simp [hno]
  | session i sessionAction =>
      rcases Option.map_eq_some_iff.mp h with ⟨server, hserver, rfl⟩
      unfold Server.ioStep at hserver
      cases hother : a.server.objects[i]? with
      | none => simp [hother] at hserver
      | some other =>
          simp only [hother, Option.map_eq_some_iff] at hserver
          rcases hserver with ⟨result, _, rfl⟩
          rcases a.server.strand_onSession i other result with ⟨erases, hstrand⟩
          simp [hstrand, hno]
  | task =>
      simp only [step] at h
      split_ifs at h
      rcases Option.map_eq_some_iff.mp h with ⟨server, hserver, rfl⟩
      unfold Server.ioStep at hserver
      cases hstrand : a.server.strand with
      | nil => simp [hstrand] at hserver
      | cons task rest =>
          simp only [hstrand, Option.some.injEq] at hserver
          subst hserver
          rw [hstrand, List.mem_cons, not_or] at hno
          rw [(Server.table_onTask { a.server with strand := rest } task).1]
          exact hno.2

theorem lively_step {a a' : Acceptor} {action : Action} (h : a.step action = some a')
    (hfit : TableFit a) (hlively : Lively a) : Lively a' := by
  refine ⟨strand_step h hfit hlively.noShutdown, ?_⟩
  intro session' hmem
  rcases List.mem_iff_getElem?.mp hmem with ⟨index, hobject'⟩
  cases hobject : a.server.objects[index]? with
  | none =>
      rcases new_object h hobject hobject' with ⟨id, rfl⟩
      exact fun _ => rfl
  | some session =>
      have hflight := hlively.flight session (List.mem_of_getElem? hobject)
      rcases step_lane h hfit hlively hobject with ⟨session'', hobject'', hlane⟩
      rw [hobject', Option.some.injEq] at hobject''
      subst hobject''
      cases hlane with
      | idle _ _ hsession => exact hsession ▸ hflight
      | call hsession => exact hsession ▸ hflight
      | task task _ _ _ _ hsession =>
          rw [hsession]
          unfold Session.afterTask
          split
          · split_ifs <;> exact hflight
          · split_ifs <;> exact hflight
          · exact hflight
      | handler _ _ _ hstep => exact Session.flightQueued_step hstep hflight

theorem run_lively {actions : List Action} {a : Acceptor}
    (hrun : Machine.run step {} actions = some a) (hfew : a.server.accepts < 2 ^ 32) :
    TableFit a ∧ Lively a := by
  refine Machine.invariant
    (P := fun a : Acceptor => a.server.accepts < 2 ^ 32 → TableFit a ∧ Lively a) ?_ hrun
    (fun _ => ⟨tableFit_init, lively_init⟩) hfew
  intro a action a' h hstep hfew
  rcases h (lt_of_le_of_lt (accepts_mono hstep) hfew) with ⟨hfit, hlively⟩
  exact ⟨tableFit_step (fun _ => hfit) hstep hfew, lively_step hstep hfit hlively⟩

end Acceptor

/-! ### Where the close of a flush is -/

/-- The frames for one session in handlers posted to the server strand. -/
def Server.framesFor (id : UInt32) (strand : List ServerTask) : List Bytes :=
  strand.filterMap fun
    | .send sessionId frame => if sessionId = id then some frame else none
    | _ => none

@[simp] theorem Server.framesFor_append (id : UInt32) (s t : List ServerTask) :
    framesFor id (s ++ t) = framesFor id s ++ framesFor id t :=
  List.filterMap_append

theorem Server.framesFor_cons (id : UInt32) (task : ServerTask) (rest : List ServerTask) :
    framesFor id (task :: rest) = framesFor id [task] ++ framesFor id rest :=
  framesFor_append id [task] rest

/-- The close of a flush has not been called, is in the server strand, is in the
    session's strand, or has run. The payloads ahead of it are the pending ones
    and the flushed ones. -/
inductive Underway (session : Session) (strand : List ServerTask) (left : Bool)
    (written total : List Bytes) : Prop where
  | coming (hleft : left = false) (hopen : session.closed = false)
      (hclose : SessionTask.close ∉ session.strand)
      (hdisconnect : ServerTask.disconnect session.id ∉ strand)
      (htotal : payloads (written ++ session.writer.queue ++ Session.postedFrames session.strand
        ++ Server.framesFor session.id strand) = total)
  | called (ahead behind : List ServerTask) (hleft : left = true)
      (hopen : session.closed = false) (hclose : SessionTask.close ∉ session.strand)
      (hstrand : strand = ahead ++ .disconnect session.id :: behind)
      (hahead : ServerTask.disconnect session.id ∉ ahead)
      (htotal : payloads (written ++ session.writer.queue ++ Session.postedFrames session.strand
        ++ Server.framesFor session.id ahead) = total)
  | posted (ahead behind : List SessionTask) (hleft : left = true)
      (hopen : session.closed = false)
      (hstrand : session.strand = ahead ++ .close :: behind)
      (hahead : SessionTask.close ∉ ahead)
      (htotal : payloads (written ++ session.writer.queue ++ Session.postedFrames ahead) = total)
  | done (hleft : left = true) (hclosed : session.closed = true)
      (hempty : session.writer.queue = []) (htotal : payloads written = total)

variable {session : Session} {strand : List ServerTask} {left : Bool}
  {written total : List Bytes}

theorem Session.id_afterTask (s : Session) (listed : Bool) (task : ServerTask) :
    (s.afterTask listed task).id = s.id := by
  unfold Session.afterTask
  split
  · split_ifs <;> rfl
  · split_ifs <;> rfl
  · rfl

/-- Handlers for others are posted behind everything. -/
theorem Underway.post {tasks : List ServerTask} (h : Underway session strand left written total)
    (hdisconnect : ServerTask.disconnect session.id ∉ tasks)
    (hframes : Server.framesFor session.id tasks = []) :
    Underway session (strand ++ tasks) left written total := by
  cases h with
  | coming hleft hopen hclose hnot htotal =>
      refine .coming hleft hopen hclose ?_ ?_
      · simp [hnot, hdisconnect]
      · rw [Server.framesFor_append, hframes, List.append_nil]
        exact htotal
  | called ahead behind hleft hopen hclose hstrand hahead htotal =>
      refine .called ahead (behind ++ tasks) hleft hopen hclose ?_ hahead htotal
      rw [hstrand, List.append_assoc, List.cons_append]
  | posted ahead behind hleft hopen hstrand hahead htotal =>
      exact .posted ahead behind hleft hopen hstrand hahead htotal
  | done hleft hclosed hempty htotal => exact .done hleft hclosed hempty htotal

/-- A payload is flushed, or sent after the disconnect. -/
theorem Underway.send {data : Bytes} (h : Underway session strand left written total)
    (hdata : Sendable data) :
    Underway session (strand ++ [.send session.id (buildDataFrame data)]) left written
      (if left then total else total ++ [data]) := by
  cases h with
  | coming hleft hopen hclose hnot htotal =>
      rw [if_neg (by simp [hleft])]
      refine .coming hleft hopen hclose (by simp [hnot]) ?_
      have hframes : Server.framesFor session.id [.send session.id (buildDataFrame data)]
          = [buildDataFrame data] := by simp [Server.framesFor]
      rw [Server.framesFor_append, hframes, ← List.append_assoc, payloads_append, htotal,
        payloads_data hdata]
  | called ahead behind hleft hopen hclose hstrand hahead htotal =>
      rw [if_pos hleft]
      refine .called ahead (behind ++ [.send session.id (buildDataFrame data)]) hleft hopen
        hclose ?_ hahead htotal
      rw [hstrand, List.append_assoc, List.cons_append]
  | posted ahead behind hleft hopen hstrand hahead htotal =>
      rw [if_pos hleft]
      exact .posted ahead behind hleft hopen hstrand hahead htotal
  | done hleft hclosed hempty htotal =>
      rw [if_pos hleft]
      exact .done hleft hclosed hempty htotal

/-- The first disconnect ends the flush. -/
theorem Underway.disconnect (h : Underway session strand left written total) :
    Underway session (strand ++ [.disconnect session.id]) true written total := by
  cases h with
  | coming _ hopen hclose hnot htotal => exact .called strand [] rfl hopen hclose rfl hnot htotal
  | called ahead behind _ hopen hclose hstrand hahead htotal =>
      refine .called ahead (behind ++ [.disconnect session.id]) rfl hopen hclose ?_ hahead htotal
      rw [hstrand, List.append_assoc, List.cons_append]
  | posted ahead behind _ hopen hstrand hahead htotal =>
      exact .posted ahead behind rfl hopen hstrand hahead htotal
  | done _ hclosed hempty htotal => exact .done rfl hclosed hempty htotal

/-- A handler of the server strand that does not close the session hands its
    frame on, if it has one. -/
theorem afterTask_frames {task : ServerTask}
    (htask : task ≠ .disconnect session.id) :
    (session.afterTask true task).closed = session.closed ∧
      (session.afterTask true task).writer = session.writer ∧
      (SessionTask.close ∈ (session.afterTask true task).strand ↔
        SessionTask.close ∈ session.strand) ∧
      Session.postedFrames (session.afterTask true task).strand
        = Session.postedFrames session.strand ++ Server.framesFor session.id [task] := by
  cases task with
  | send id frame =>
      by_cases hid : id = session.id
      · simp [Session.afterTask, hid, Session.enqueueRawFrame, Session.postedFrames,
          Server.framesFor]
      · simp [Session.afterTask, hid, Server.framesFor]
  | disconnect id =>
      have hid : id ≠ session.id := by
        rintro rfl
        exact htask rfl
      simp [Session.afterTask, hid, Server.framesFor]
  | erase id => simp [Session.afterTask, Server.framesFor]
  | shutdown => simp [Session.afterTask, Server.framesFor]

/-- A handler of the server strand runs. An open session is in the table. -/
theorem Underway.task {task : ServerTask} {listed : Bool}
    (h : Underway session (task :: strand) left written total)
    (hlisted : session.closed = false → listed = true) :
    Underway (session.afterTask listed task) strand left written total := by
  have hid := session.id_afterTask listed task
  cases h with
  | coming hleft hopen hclose hnot htotal =>
      rw [List.mem_cons, not_or] at hnot
      rw [hlisted hopen] at hid ⊢
      rcases afterTask_frames (Ne.symm hnot.1) with ⟨hclosed, hwriter, hmem, hframes⟩
      refine .coming hleft (hclosed.trans hopen) (by rw [hmem]; exact hclose)
        (by rw [hid]; exact hnot.2) ?_
      rw [hid, hwriter, hframes, ← htotal, Server.framesFor_cons _ task strand]
      simp only [List.append_assoc]
  | called ahead behind hleft hopen hclose hstrand hahead htotal =>
      rw [hlisted hopen] at hid ⊢
      cases ahead with
      | nil =>
          -- The close goes from the server strand to the session's.
          rw [List.nil_append, List.cons.injEq] at hstrand
          rcases hstrand with ⟨rfl, rfl⟩
          refine .posted session.strand [] hleft ?_ ?_ hclose ?_
          · simp [Session.afterTask, Session.close, hopen]
          · simp [Session.afterTask, Session.close]
          · simpa [Session.afterTask, Session.close, Server.framesFor] using htotal
      | cons first ahead =>
          rw [List.cons_append, List.cons.injEq] at hstrand
          rcases hstrand with ⟨rfl, rfl⟩
          rw [List.mem_cons, not_or] at hahead
          rcases afterTask_frames (Ne.symm hahead.1) with ⟨hclosed, hwriter, hmem, hframes⟩
          refine .called ahead behind hleft (hclosed.trans hopen) (by rw [hmem]; exact hclose)
            (by rw [hid]) (by rw [hid]; exact hahead.2) ?_
          rw [hid, hwriter, hframes, ← htotal, Server.framesFor_cons _ task ahead]
          simp only [List.append_assoc]
  | posted ahead behind hleft hopen hstrand hahead htotal =>
      unfold Session.afterTask
      split
      · next id frame =>
          split_ifs
          · refine .posted ahead (behind ++ [.enqueueWrite frame]) hleft hopen ?_ hahead htotal
            simp [Session.enqueueRawFrame, hstrand]
          · exact .posted ahead behind hleft hopen hstrand hahead htotal
      · split_ifs
        · refine .posted ahead (behind ++ [.close]) hleft hopen ?_ hahead htotal
          simp [Session.close, hstrand]
        · exact .posted ahead behind hleft hopen hstrand hahead htotal
      · exact .posted ahead behind hleft hopen hstrand hahead htotal
  | done hleft hclosed hempty htotal =>
      unfold Session.afterTask
      split
      · split_ifs <;> exact .done hleft hclosed hempty htotal
      · split_ifs <;> exact .done hleft hclosed hempty htotal
      · exact .done hleft hclosed hempty htotal

/-- The frames a handler of the session writes to the socket. -/
def Session.writes (s : Session) (action : SessionAction) : List Bytes :=
  if action = .write true then s.writer.queue.head?.toList else []

/-- A frame moves from the strand to the queue or from the queue to the socket,
    and keepalives carry nothing. -/
theorem Session.Calm.moves {s s' : Session} {action : SessionAction} (h : Calm s action s')
    (hopen : s'.closed = false) (written : List Bytes) :
    (∃ frame, s.strand = .enqueueWrite frame :: s'.strand ∧
      payloads (written ++ s.writes action ++ s'.writer.queue)
        = payloads (written ++ s.writer.queue) ++ payloads [frame]) ∨
    s'.strand = s.strand ∧
      payloads (written ++ s.writes action ++ s'.writer.queue)
        = payloads (written ++ s.writer.queue) := by
  cases h with
  | accept frame rest haction hstrand hrest hqueue hclosed =>
      refine Or.inl ⟨frame, by rw [hrest, hstrand], ?_⟩
      rw [writes, if_neg (by simp [haction]), hqueue, List.append_nil, ← List.append_assoc,
        payloads_append]
  | close rest haction hstrand hempty hwriter hclosed =>
      rw [hclosed] at hopen
      simp at hopen
  | written front tail haction hfront hqueue hstrand hclosed =>
      refine Or.inr ⟨hstrand, ?_⟩
      rw [writes, if_pos haction, hfront, hqueue]
      simp
  | keepalive haction hqueue hstrand hclosed =>
      refine Or.inr ⟨hstrand, ?_⟩
      rw [writes, if_neg haction, hqueue, List.append_nil, ← List.append_assoc, payloads_append,
        payloads_keepalive, List.append_nil]
  | other haction hqueue hstrand hclosed =>
      refine Or.inr ⟨hstrand, ?_⟩
      rw [writes, if_neg haction, hqueue, List.append_nil]

/-- A closed session with nothing queued stays that way. -/
theorem Session.closed_step {s s' : Session} {action : SessionAction}
    {effects : List SessionEffect} (h : s.step action = some (s', effects))
    (hclosed : s.closed = true) (hflight : s.FlightQueued) (hempty : s.writer.queue = []) :
    s'.closed = true ∧ s'.writer.queue = [] := by
  have hnone := hflight hempty
  cases step_change h with
  | taskAccepted _ hopen => exact absurd (hopen.symm.trans hclosed) (by simp)
  | keepalive hopen => exact absurd (hopen.symm.trans hclosed) (by simp)
  | written hsome =>
      rw [hnone] at hsome
      simp at hsome
  | writeError hsome =>
      rw [hnone] at hsome
      simp at hsome
  | taskDropped | arrived | header | body | keepaliveDropped => exact ⟨hclosed, hempty⟩
  | _ => exact ⟨rfl, hempty⟩

/-- A handler of the session runs, and nothing disturbs it. -/
theorem Underway.handler {session' : Session} {action : SessionAction}
    {effects : List SessionEffect} (h : Underway session strand left written total)
    (hstep : session.step action = some (session', effects)) (hflight : session.FlightQueued)
    (hundisturbed : session.closed = false → session.undisturbed action = true)
    (hdrained : session.closed = false → session.drainedClose action = true) :
    Underway session' strand left (written ++ session.writes action) total := by
  have hid := (Session.step_outcome hstep).1
  have hcalm := fun hopen => Session.calm_step hstep hopen hflight (hundisturbed hopen)
    (hdrained hopen)
  -- Where no close is in the strand, the session stays open.
  have hstays : session.closed = false → SessionTask.close ∉ session.strand →
      session'.closed = false := by
    intro hopen hclose
    cases hcalm hopen with
    | accept _ _ _ _ _ _ hclosed => exact hclosed
    | close rest _ hstrand =>
        rw [hstrand] at hclose
        simp at hclose
    | written _ _ _ _ _ _ hclosed => exact hclosed
    | keepalive _ _ _ hclosed => exact hclosed
    | other _ _ _ hclosed => exact hclosed
  cases h with
  | coming hleft hopen hclose hnot htotal =>
      have hopen' := hstays hopen hclose
      rcases (hcalm hopen).moves hopen' written with ⟨frame, hstrand, hmoves⟩ | ⟨hstrand, hmoves⟩
      · rw [hstrand, List.mem_cons, not_or] at hclose
        refine .coming hleft hopen' hclose.2 (hid ▸ hnot) ?_
        rw [← htotal, hid, hstrand]
        simp only [payloads_append] at hmoves ⊢
        rw [hmoves]
        simp [Session.postedFrames, ← payloads_append]
      · refine .coming hleft hopen' (hstrand ▸ hclose) (hid ▸ hnot) ?_
        rw [← htotal, hid, hstrand]
        simp only [payloads_append] at hmoves ⊢
        rw [hmoves]
  | called ahead behind hleft hopen hclose hserver hahead htotal =>
      have hopen' := hstays hopen hclose
      rcases (hcalm hopen).moves hopen' written with ⟨frame, hstrand, hmoves⟩ | ⟨hstrand, hmoves⟩
      · rw [hstrand, List.mem_cons, not_or] at hclose
        refine .called ahead behind hleft hopen' hclose.2 (hid ▸ hserver) (hid ▸ hahead) ?_
        rw [← htotal, hid, hstrand]
        simp only [payloads_append] at hmoves ⊢
        rw [hmoves]
        simp [Session.postedFrames, ← payloads_append]
      · refine .called ahead behind hleft hopen' (hstrand ▸ hclose) (hid ▸ hserver)
          (hid ▸ hahead) ?_
        rw [← htotal, hid, hstrand]
        simp only [payloads_append] at hmoves ⊢
        rw [hmoves]
  | posted ahead behind hleft hopen hstrand hahead htotal =>
      by_cases hopen' : session'.closed = false
      · rcases (hcalm hopen).moves hopen' written with ⟨frame, hfirst, hmoves⟩ | ⟨hsame, hmoves⟩
        · cases ahead with
          | nil =>
              rw [hstrand, List.nil_append, List.cons.injEq] at hfirst
              simp at hfirst
          | cons first ahead =>
              rw [hstrand, List.cons_append, List.cons.injEq] at hfirst
              rcases hfirst with ⟨rfl, hrest⟩
              rw [List.mem_cons, not_or] at hahead
              refine .posted ahead behind hleft hopen' hrest.symm hahead.2 ?_
              rw [← htotal]
              simp only [payloads_append] at hmoves ⊢
              rw [hmoves]
              simp [Session.postedFrames, ← payloads_append]
        · refine .posted ahead behind hleft hopen' (hsame.trans hstrand) hahead ?_
          rw [← htotal]
          simp only [payloads_append] at hmoves ⊢
          rw [hmoves]
      · -- The close runs: it is the first handler in the strand.
        cases hcalm hopen with
        | accept _ _ _ _ _ _ hclosed => exact absurd hclosed hopen'
        | written _ _ _ _ _ _ hclosed => exact absurd hclosed hopen'
        | keepalive _ _ _ hclosed => exact absurd hclosed hopen'
        | other _ _ _ hclosed => exact absurd hclosed hopen'
        | close rest haction hfirst hempty hwriter hclosed =>
            cases ahead with
            | cons first ahead =>
                rw [hstrand, List.cons_append, List.cons.injEq] at hfirst
                rw [hfirst.1] at hahead
                simp at hahead
            | nil =>
                refine .done hleft hclosed (by rw [hwriter, hempty]) ?_
                rw [← htotal, hempty, Session.writes, if_neg (by simp [haction])]
                simp [Session.postedFrames]
  | done hleft hclosed hempty htotal =>
      rcases Session.closed_step hstep hclosed hflight hempty with ⟨hclosed', hempty'⟩
      refine .done hleft hclosed' hempty' ?_
      rw [← htotal, Session.writes, hempty]
      simp

/-! ### Every run of a flush -/

/-- The invariant of a flush: what was pending and what was flushed is ahead of
    the close or written. -/
structure FlushFit (id : UInt32) (index : Nat) (pending : List Bytes) (f : Farewell) : Prop where
  fit : f.acceptor.TableFit
  lively : f.acceptor.Lively
  lane : ∃ session, f.acceptor.server.objects[index]? = some session ∧ session.id = id ∧
    Underway session f.acceptor.server.strand f.left f.written (pending ++ f.sent)

theorem Underway.erases {erases : List UInt32}
    (h : Underway session strand left written total) :
    Underway session (strand ++ erases.map .erase) left written total := by
  refine h.post (by simp) ?_
  unfold Server.framesFor
  rw [List.filterMap_map, List.filterMap_eq_nil_iff]
  intro id _
  rfl

/-- A condition on the handlers of the session, read off. -/
theorem onSession_eq {f : Farewell} {index : Nat} {cond : Session → SessionAction → Bool}
    {session : Session} {action : SessionAction}
    (h : f.onSession index cond (.session index action) = true)
    (hobject : f.acceptor.server.objects[index]? = some session) :
    session.closed = false → cond session action = true := by
  intro hopen
  simpa [Farewell.onSession, hobject, hopen] using h

/-- A call of the game thread, for this session or for another one. -/
theorem Underway.call {pending sent : List Bytes} {action : Acceptor.Action} {id : UInt32}
    {tasks : List ServerTask} (h : Underway session strand left written (pending ++ sent))
    (hcall : (∃ data, action = .send id data ∧
        tasks = if Sendable data then [.send id (buildDataFrame data)] else []) ∨
      action = .disconnect id ∧ tasks = [.disconnect id]) :
    Underway session (strand ++ tasks) (left || action = .disconnect session.id) written
      (pending ++ if left then sent else sent ++ Farewell.sentBy session.id action) := by
  rcases hcall with ⟨data, rfl, rfl⟩ | ⟨rfl, rfl⟩
  · simp only [reduceCtorEq, decide_false, Bool.or_false, Farewell.sentBy]
    by_cases hsend : Sendable data
    · by_cases hid : id = session.id
      · subst hid
        have hgoal := h.send hsend
        cases left <;> simpa [hsend] using hgoal
      · have hgoal : Underway session (strand ++ [.send id (buildDataFrame data)]) left written
            (pending ++ sent) := h.post (by simp) (by simp [Server.framesFor, hid])
        simpa [hsend, hid] using hgoal
    · simpa [hsend] using h
  · by_cases hid : id = session.id
    · subst hid
      simpa [Farewell.sentBy] using h.disconnect
    · have hgoal : Underway session (strand ++ [.disconnect id]) left written
          (pending ++ sent) := h.post (by simp [Ne.symm hid]) (by simp [Server.framesFor])
      simpa [Farewell.sentBy, hid] using hgoal

theorem flushFit_step {id : UInt32} {index : Nat} {pending : List Bytes} {f f' : Farewell}
    {action : Acceptor.Action} (h : FlushFit id index pending f)
    (hundisturbed : f.onSession index Session.undisturbed action = true)
    (hdrained : f.onSession index Session.drainedClose action = true)
    (hstep : Farewell.step id index f action = some f')
    (hfew : f'.acceptor.server.accepts < 2 ^ 32) : FlushFit id index pending f' := by
  rcases Option.map_eq_some_iff.mp hstep with ⟨a', ha', rfl⟩
  rcases h.lane with ⟨session, hobject, rfl, hunderway⟩
  refine ⟨Acceptor.tableFit_step (fun _ => h.fit) ha' hfew,
    Acceptor.lively_step ha' h.fit h.lively, ?_⟩
  rcases Acceptor.step_lane ha' h.fit h.lively hobject with ⟨session', hobject', hlane⟩
  refine ⟨session', hobject', ?_⟩
  cases hlane with
  | idle haction hcall hsession hstrand =>
      rcases hstrand with ⟨erases, hstrand⟩
      have hsent : Farewell.sentBy session.id action = [] := by
        cases action <;> simp_all [Acceptor.Action.target, Farewell.sentBy]
      have hwritten : Farewell.writtenBy index f.acceptor action = [] := by
        unfold Farewell.writtenBy
        split
        · next i =>
            have hi : i ≠ index := by
              rintro rfl
              exact haction _ rfl
            rw [if_neg hi]
        · rfl
      have hleft : ¬ action = .disconnect session.id := by
        rintro rfl
        simp [Acceptor.Action.target] at hcall
      rw [hsession]
      refine ⟨rfl, ?_⟩
      simp only [hsent, hwritten, hleft, hstrand, List.append_nil, ite_self, decide_false,
        Bool.or_false]
      exact hunderway.erases
  | call hsession id tasks hstrand hcall =>
      have hwritten : Farewell.writtenBy index f.acceptor action = [] := by
        rcases hcall with ⟨data, rfl, _⟩ | ⟨rfl, _⟩ <;> rfl
      rw [hsession]
      refine ⟨rfl, ?_⟩
      simp only [hwritten, hstrand, List.append_nil]
      exact hunderway.call hcall
  | task task rest haction hserver hrest hsession =>
      subst haction
      rw [hserver] at hunderway
      have hlisted : session.closed = false →
          decide (f.acceptor.server.sessions[session.id]? = some index) = true := by
        intro hopen
        have hentry := Server.getElem?_profile hobject
        rw [decide_eq_true_eq, h.fit.entered index _ _ hentry]
        exact Or.inl hopen
      rw [hsession]
      refine ⟨session.id_afterTask _ _, ?_⟩
      simp only [hrest, Farewell.sentBy, Farewell.writtenBy, List.append_nil, ite_self,
        reduceCtorEq, decide_false, Bool.or_false]
      exact hunderway.task hlisted
  | handler sessionAction effects haction hsession hstrand =>
      rcases hstrand with ⟨erases, hstrand⟩
      subst haction
      have hflight := h.lively.flight session (List.mem_of_getElem? hobject)
      have hwritten : Farewell.writtenBy index f.acceptor (.session index sessionAction)
          = session.writes sessionAction := by
        unfold Session.writes
        split_ifs with hwrite
        · simp [Farewell.writtenBy, hwrite, hobject]
        · unfold Farewell.writtenBy
          split
          · next heq =>
              rw [Acceptor.Action.session.injEq] at heq
              exact absurd heq.2 hwrite
          · rfl
      refine ⟨(Session.step_outcome hsession).1, ?_⟩
      simp only [hwritten, hstrand, Farewell.sentBy, List.append_nil, ite_self, reduceCtorEq,
        decide_false, Bool.or_false]
      exact (hunderway.handler hsession hflight (onSession_eq hundisturbed hobject)
        (onSession_eq hdrained hobject)).erases

theorem Farewell.accepts_mono {id : UInt32} {index : Nat} {f f' : Farewell}
    {action : Acceptor.Action} (h : Farewell.step id index f action = some f') :
    f.acceptor.server.accepts ≤ f'.acceptor.server.accepts := by
  rcases Option.map_eq_some_iff.mp h with ⟨a', ha', rfl⟩
  exact Acceptor.accepts_mono ha'

/-- The session is open, and no close of it is under way: the state in which a
    flush begins. -/
structure FlushBegins (a : Acceptor) (index : Nat) (session : Session) : Prop where
  object : a.server.objects[index]? = some session
  isOpen : session.closed = false
  noClose : SessionTask.close ∉ session.strand
  noDisconnect : ServerTask.disconnect session.id ∉ a.server.strand

/-- The payloads that are still on their way to a session's socket. -/
def pendingPayloads (a : Acceptor) (session : Session) : List Bytes :=
  payloads (session.writer.queue ++ Session.postedFrames session.strand
    ++ Server.framesFor session.id a.server.strand)

/-- In every run in which a session's flush begins while no close of it is under
    way, nothing disturbs the session, and its close handler finds the write
    queue empty: once the session is closed, everything that was pending and
    everything that was flushed before the disconnect has been written to the
    socket, in order. -/
theorem farewell_delivered {before actions : List Acceptor.Action} {a : Acceptor} {index : Nat}
    {session session' : Session} {f : Farewell}
    (hbefore : Machine.run Acceptor.step {} before = some a)
    (hbegins : FlushBegins a index session)
    (hrun : Machine.run (Farewell.step session.id index) { acceptor := a } actions = some f)
    (hfew : f.acceptor.server.accepts < 2 ^ 32)
    (hundisturbed : Machine.Respects (Farewell.step session.id index)
      (Farewell.onSession index Session.undisturbed) { acceptor := a } actions = true)
    (hdrained : Machine.Respects (Farewell.step session.id index)
      (Farewell.onSession index Session.drainedClose) { acceptor := a } actions = true)
    (hobject : f.acceptor.server.objects[index]? = some session')
    (hclosed : session'.closed = true) :
    f.left = true ∧ payloads f.written = pendingPayloads a session ++ f.sent := by
  have hbegin : a.server.accepts ≤ f.acceptor.server.accepts :=
    Machine.invariant (P := fun g : Farewell => a.server.accepts ≤ g.acceptor.server.accepts)
      (fun _ _ _ hle hstep => hle.trans (Farewell.accepts_mono hstep)) hrun le_rfl
  rcases Acceptor.run_lively hbefore (lt_of_le_of_lt hbegin hfew) with ⟨hfit, hlively⟩
  have hinit : FlushFit session.id index (pendingPayloads a session) { acceptor := a } := by
    refine ⟨hfit, hlively, session, hbegins.object, rfl, ?_⟩
    refine .coming rfl hbegins.isOpen hbegins.noClose hbegins.noDisconnect ?_
    rw [List.nil_append, List.append_nil]
    rfl
  have hflush := Machine.invariant_of_respects
    (P := fun g : Farewell => g.acceptor.server.accepts < 2 ^ 32 →
      FlushFit session.id index (pendingPayloads a session) g)
    (fun g action g' h hcond hstep hfew => by
      rw [Bool.and_eq_true] at hcond
      exact flushFit_step (h (lt_of_le_of_lt (Farewell.accepts_mono hstep) hfew)) hcond.1
        hcond.2 hstep hfew)
    hrun (Machine.respects_and hundisturbed hdrained) (fun _ => hinit) hfew
  rcases hflush.lane with ⟨session'', hobject'', _, hunderway⟩
  rw [hobject, Option.some.injEq] at hobject''
  subst hobject''
  cases hunderway with
  | coming _ hopen => exact absurd (hopen.symm.trans hclosed) (by simp)
  | called _ _ _ hopen => exact absurd (hopen.symm.trans hclosed) (by simp)
  | posted _ _ _ hopen => exact absurd (hopen.symm.trans hclosed) (by simp)
  | done hleft _ _ htotal => exact ⟨hleft, htotal⟩

/-- One connection. -/
def oneAccepted : List Acceptor.Action := [.publish, .enter]

/-- One byte is flushed and the session disconnected; the write completes before
    the close handler runs. -/
def flushThenClose : List Acceptor.Action :=
  [.send 1 [7], .disconnect 1, .task, .task, .session 0 .task, .session 0 (.write true),
    .session 0 .task]

/-- Two bytes, a message each; the close handler runs before the first write has
    completed. -/
def closeDuringWrite : List Acceptor.Action :=
  [.send 1 [7], .send 1 [8], .disconnect 1, .task, .task, .task, .session 0 .task,
    .session 0 .task, .session 0 .task]

theorem oneAccepted_begins :
    ∃ a, Machine.run Acceptor.step {} oneAccepted = some a ∧
      FlushBegins a 0 (Session.start { id := 1 }) ∧
      pendingPayloads a (Session.start { id := 1 }) = [] := by
  have hend : (Machine.run Acceptor.step {} oneAccepted).map (fun a => (a.server.objects,
      a.server.strand)) = some ([Session.start { id := 1 }], []) := by decide +kernel
  rcases Option.map_eq_some_iff.mp hend with ⟨a, hrun, ha⟩
  rw [Prod.mk.injEq] at ha
  refine ⟨a, hrun, ⟨by simp [ha.1], rfl, by simp [Session.start, Session.doReadHeader], ?_⟩, ?_⟩
  · simp [ha.2]
  · rw [pendingPayloads, ha.2]
    rfl

theorem farewell_delivered_flushThenClose :
    ∃ a f session', Machine.run Acceptor.step {} oneAccepted = some a ∧
      Machine.run (Farewell.step 1 0) { acceptor := a } flushThenClose = some f ∧
      f.acceptor.server.objects[0]? = some session' ∧ session'.closed = true ∧
      f.sent = [[7]] ∧ payloads f.written = f.sent := by
  rcases oneAccepted_begins with ⟨a, hbefore, hbegins, hpending⟩
  have hend : (Machine.run Acceptor.step {} oneAccepted).map (fun a =>
      (Machine.run (Farewell.step 1 0) { acceptor := a } flushThenClose).map (fun f =>
        (f.acceptor.server.accepts, f.acceptor.server.objects.map Session.closed, f.sent)))
      = some (some (1, [true], [[7]])) := by decide +kernel
  have hcond : (Machine.run Acceptor.step {} oneAccepted).map (fun a =>
      Machine.Respects (Farewell.step 1 0) (Farewell.onSession 0 Session.undisturbed)
        { acceptor := a } flushThenClose &&
      Machine.Respects (Farewell.step 1 0) (Farewell.onSession 0 Session.drainedClose)
        { acceptor := a } flushThenClose) = some true := by decide +kernel
  rw [hbefore, Option.map_some, Option.some.injEq, Option.map_eq_some_iff] at hend
  rw [hbefore, Option.map_some, Option.some.injEq, Bool.and_eq_true] at hcond
  rcases hend with ⟨f, hrun, hf⟩
  simp only [Prod.mk.injEq] at hf
  have hclosed : (f.acceptor.server.objects.map Session.closed)[0]? = some true := by
    rw [hf.2.1]
    rfl
  rw [List.getElem?_map, Option.map_eq_some_iff] at hclosed
  rcases hclosed with ⟨session', hobject, hclosed⟩
  refine ⟨a, f, session', hbefore, hrun, hobject, hclosed, hf.2.2, ?_⟩
  have hdelivered := (farewell_delivered hbefore hbegins hrun (by rw [hf.1]; decide) hcond.1
    hcond.2 hobject hclosed).2
  rw [hpending] at hdelivered
  exact hdelivered

/-- The session is closed, and the second frame has not been begun. -/
def secondWaits (s : Session) : Bool :=
  s.closed = true ∧ s.writer.queue = [Wire.buildDataFrame [7], Wire.buildDataFrame [8]] ∧
    s.writer.inFlight = some (Wire.buildDataFrame [7])

/-- Nothing disturbs the session. When its socket is closed, the first of the two
    flushed frames is still being written, and the second waits behind it: the
    socket was never given a byte of that one. -/
theorem not_delivered_pendingWrite :
    ∃ a f session', Machine.run Acceptor.step {} oneAccepted = some a ∧
      FlushBegins a 0 (Session.start { id := 1 }) ∧
      Machine.run (Farewell.step 1 0) { acceptor := a } closeDuringWrite = some f ∧
      Machine.Respects (Farewell.step 1 0) (Farewell.onSession 0 Session.undisturbed)
        { acceptor := a } closeDuringWrite = true ∧
      f.acceptor.server.objects[0]? = some session' ∧ session'.closed = true ∧
      f.left = true ∧ f.sent = [[7], [8]] ∧ f.written = [] ∧
      session'.writer.queue = [Wire.buildDataFrame [7], Wire.buildDataFrame [8]] ∧
      session'.writer.inFlight = some (Wire.buildDataFrame [7]) := by
  rcases oneAccepted_begins with ⟨a, hbefore, hbegins, _⟩
  have hend : (Machine.run Acceptor.step {} oneAccepted).map (fun a =>
      (Machine.run (Farewell.step 1 0) { acceptor := a } closeDuringWrite).map (fun f =>
        (f.acceptor.server.objects.map secondWaits, f.left && f.written.isEmpty, f.sent)))
      = some (some ([true], true, [[7], [8]])) := by decide +kernel
  have hcond : (Machine.run Acceptor.step {} oneAccepted).map (fun a =>
      Machine.Respects (Farewell.step 1 0) (Farewell.onSession 0 Session.undisturbed)
        { acceptor := a } closeDuringWrite) = some true := by decide +kernel
  rw [hbefore, Option.map_some, Option.some.injEq, Option.map_eq_some_iff] at hend
  rw [hbefore, Option.map_some, Option.some.injEq] at hcond
  rcases hend with ⟨f, hrun, hf⟩
  simp only [Prod.mk.injEq, Bool.and_eq_true, List.isEmpty_iff] at hf
  have hwaits : (f.acceptor.server.objects.map secondWaits)[0]? = some true := by
    rw [hf.1]
    rfl
  rw [List.getElem?_map, Option.map_eq_some_iff] at hwaits
  rcases hwaits with ⟨session', hobject, hsession⟩
  rcases of_decide_eq_true hsession with ⟨hclosed, hqueue, hflight⟩
  exact ⟨a, f, session', hbefore, hbegins, hrun, hcond, hobject, hclosed, hf.2.1.1, hf.2.2,
    hf.2.1.2, hqueue, hflight⟩

end ProjectNight
