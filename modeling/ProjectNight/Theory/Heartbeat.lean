import ProjectNight.Core.Heartbeat
import ProjectNight.Theory.Progress

/-!
# Silence Is Noticed

What the heartbeats are for: an end that hears nothing for `HEARTBEAT_TIMEOUT`
gives the connection up. The test is made when the timer ticks, so the end may
notice an interval late, and later still by the time that a timer and its
handler take to be served. The delay is a parameter, and a run is prompt when
no timer waits longer than that.

The timer is set with every tick that finds no timeout, so its deadline is
never more than an interval past the moment at which the timeout would have
been found. This holds whether the end is still there or not: a heartbeat may
outlive its connection, for cancelling a timer that has run out comes too late
and an end that is lost over a keepalive sets its timer once more, but only for
as long as the timeout has not passed. And an end that is still there always
has its timer set.

With a clock, a connection does nothing it could not do without one.

## Main definitions

* `prompt`: No timer waits longer than the delay.
* `Heartbeat.Timely`: How far a heartbeat looks ahead.

## Theorems

* `untimed_run`: The connection is one that is reached without a clock.
* `session_cases`, `client_live`: What a step does to the two ends.
* `timely_step`: Every prompt step keeps both heartbeats timely.
* `TimedConnection.silence_noticed`: Both ends notice silence.
-/

namespace ProjectNight

open Wire

/-! ### The two ends in a step -/

namespace Connection

variable {id : UInt32} {c c' : Connection} {action : Action}

/-- The session has been accepted and is open. -/
def sessionOpen (c : Connection) : Bool := c.session.any (fun s => !s.closed)

/-- What a step does to the session: there is none, it is accepted, or it stays
    and does not open again. -/
inductive SessionCase (c : Connection) (action : Action) (c' : Connection) : Prop where
  | absent (before : c.session = none) (after : c'.session = none)
      (accepts : c'.server.accepts = 0 → c.server.accepts = 0)
      (down : c'.server.queue.shuttingDown = false → c.server.queue.shuttingDown = false)
  | accepted (isAccept : action = .accept) (before : c.session = none)
      (first : c.server.accepts = 0) (running : c.server.queue.shuttingDown = false)
      (after : c'.session = some (Session.start { id := c.server.nextId }))
  | kept (s s' : Session) (before : c.session = some s) (after : c'.session = some s')
      (opened : s'.closed = false → s.closed = false)

/-- A step that leaves the objects alone. -/
theorem SessionCase.same (hobjects : c'.server.objects = c.server.objects)
    (haccepts : c'.server.accepts = c.server.accepts)
    (hdown : c'.server.queue.shuttingDown = false → c.server.queue.shuttingDown = false) :
    SessionCase c action c' := by
  have hsession : c'.session = c.session := by rw [session, hobjects, session]
  cases hs : c.session with
  | none => exact .absent hs (hsession.trans hs) (fun h => haccepts ▸ h) hdown
  | some s => exact .kept s s hs (hsession.trans hs) (fun h => h)

theorem session_cases (h : Connected id c) (hstep : c.step id action = some c') :
    SessionCase c action c' := by
  -- A handler of the session: it is there before and after.
  have hhandler : ∀ {s s' : Session} {sessionAction : SessionAction}
      {effects : List SessionEffect} {server : Server}, c.session = some s →
      s.step sessionAction = some (s', effects) →
      server = c.server.onSession 0 s (s', effects) → server = c'.server →
      SessionCase c action c' := by
    intro s s' sessionAction effects server hs hsession hserver hc'
    have hobjects := ((h.established hs).session hsession).objects
    rw [← hserver, hc'] at hobjects
    refine .kept s s' hs (by rw [session, hobjects, List.getElem?_cons_zero]) fun hopen => ?_
    exact ((Session.step_change hsession).sends.1 hopen).1
  cases action with
  | accept =>
      rw [step] at hstep
      split_ifs at hstep with hfirst
      rw [← Option.some.inj hstep]
      rcases h.serverSends with habsent | ⟨s, hs⟩
      · have hnone : c.session = none := by rw [session, habsent.objects, List.getElem?_nil]
        unfold Server.onAccept
        by_cases hdown : c.server.queue.shuttingDown = true
        · rw [if_pos hdown]
          exact .same rfl rfl fun h => h
        · rw [if_neg hdown]
          rw [Bool.not_eq_true] at hdown
          simp only
          split_ifs
          · refine .accepted rfl hnone hfirst hdown ?_
            simp only [session, habsent.objects, List.nil_append, List.getElem?_cons_zero]
          · exact .absent hnone hnone (fun h => absurd h (Nat.succ_ne_zero _)) fun _ => hdown
      · exact absurd hfirst hs.accepts
  | serverTask =>
      rcases Option.map_eq_some_iff.mp hstep with ⟨server, hio, rfl⟩
      unfold Server.ioStep at hio
      cases hstrand : c.server.strand with
      | nil => simp only [hstrand, reduceCtorEq] at hio
      | cons task strand =>
          simp only [hstrand, Option.some.injEq] at hio
          rcases h.serverSends with habsent | ⟨s, hs⟩
          · have hstill := unaccepted_task habsent hstrand
            have hprofile := Server.profile_onTask { c.server with strand } task
            rw [hio] at hstill hprofile
            refine .same (hstill.objects.trans habsent.objects.symm) hprofile.2.2.2 ?_
            rw [hprofile.2.1]
            exact fun h => h
          · rcases hs.task hstrand with ⟨tasks, hstill⟩
            rw [hio] at hstill
            refine .kept s (s.post tasks) ?_ ?_ fun hopen => hopen
            · rw [session, hs.objects, List.getElem?_cons_zero]
            · rw [session, hstill.objects, List.getElem?_cons_zero]
  | session sessionAction =>
      rw [step] at hstep
      split_ifs at hstep
      rcases Option.map_eq_some_iff.mp hstep with ⟨server, hio, hc'⟩
      rcases ioStep_session hio with ⟨s, s', effects, hs, hsession, hserver⟩
      exact hhandler hs hsession hserver (by rw [← hc'])
  | sessionArrive =>
      rw [step] at hstep
      split at hstep
      · split_ifs at hstep
        rcases Option.map_eq_some_iff.mp hstep with ⟨server, hio, hc'⟩
        rcases ioStep_session hio with ⟨s, s', effects, hs, hsession, hserver⟩
        exact hhandler hs hsession hserver (by rw [← hc'])
      · exact absurd hstep (by simp only [reduceCtorEq, not_false_eq_true])
  | sessionTransmit count =>
      cases hs : c.session with
      | none => simp only [step, hs, reduceCtorEq] at hstep
      | some s =>
          simp only [step, hs, (h.established hs).objects, List.set_cons_zero] at hstep
          split_ifs at hstep
          rw [Option.some.injEq] at hstep
          rw [← hstep]
          exact .kept s _ hs rfl fun hopen => hopen
  | otherPush packet =>
      rw [step] at hstep
      split_ifs at hstep
      rw [← Option.some.inj hstep]
      refine .same rfl rfl ?_
      simp only [PacketQueue.shuttingDown_pushPacket]
      exact fun h => h
  | serverPoll =>
      rcases Option.map_eq_some_iff.mp hstep with ⟨⟨packet, queue⟩, hpoll, rfl⟩
      refine .same rfl rfl ?_
      unfold PacketQueue.pollPacket at hpoll
      split at hpoll
      · exact absurd hpoll (by simp only [reduceCtorEq, not_false_eq_true])
      · rw [Option.some.injEq, Prod.mk.injEq] at hpoll
        rw [← hpoll.2]
        exact fun h => h
  | serverSend data =>
      rw [step] at hstep
      split_ifs at hstep
      rcases c.server.send_eq id data with ⟨strand, hsend⟩
      rw [← Option.some.inj hstep, hsend]
      exact .same rfl rfl fun h => h
  | serverDisconnect =>
      rw [step, Option.some.injEq] at hstep
      rcases c.server.disconnect_eq id with ⟨strand, hdisconnect⟩
      rw [← hstep, hdisconnect]
      exact .same rfl rfl fun h => h
  | serverShutdown =>
      rw [step, Option.some.injEq] at hstep
      rw [← hstep]
      unfold Server.shutdown
      split_ifs
      · exact .same rfl rfl fun h => h
      · exact .same rfl rfl fun h => absurd h.symm Bool.false_ne_true
  | client =>
      rw [step] at hstep
      split_ifs at hstep
      rcases Option.map_eq_some_iff.mp hstep with ⟨client, _, rfl⟩
      exact .same rfl rfl fun h => h
  | clientArrive =>
      rw [step] at hstep
      split at hstep
      · split_ifs at hstep
        rcases Option.map_eq_some_iff.mp hstep with ⟨client, _, rfl⟩
        exact .same rfl rfl fun h => h
      · exact absurd hstep (by simp only [reduceCtorEq, not_false_eq_true])
  | clientTransmit count =>
      rw [step] at hstep
      split_ifs at hstep
      rw [← Option.some.inj hstep]
      exact .same rfl rfl fun h => h
  | clientPoll =>
      rcases Option.map_eq_some_iff.mp hstep with ⟨⟨data, client⟩, _, rfl⟩
      exact .same rfl rfl fun h => h
  | clientSend data =>
      rw [step, Option.some.injEq] at hstep
      rw [← hstep]
      exact .same rfl rfl fun h => h
  | clientShutdown =>
      rw [step, Option.some.injEq] at hstep
      rw [← hstep]
      exact .same rfl rfl fun h => h

theorem sessionOpen_eq {s : Session} (hs : c.session = some s) : c.sessionOpen = !s.closed := by
  rw [sessionOpen, hs, Option.any_some]

/-- A session that is open was open before, and nothing has cancelled its timer,
    or it has just been accepted. -/
theorem SessionCase.openBefore (h : SessionCase c action c') (hopen : c'.sessionOpen = true) :
    (c.session.isNone && c'.session.isSome) = true ∨
      (c.session.isNone && c'.session.isSome) = false ∧ c.sessionOpen = true ∧
        c.sessionCloses c' = false := by
  cases h with
  | absent _ after =>
      rw [sessionOpen, after] at hopen
      exact absurd hopen Bool.false_ne_true
  | accepted _ before _ _ after =>
      left
      rw [before, after]
      rfl
  | kept s s' before after opened =>
      right
      rw [sessionOpen_eq after, Bool.not_eq_true'] at hopen
      refine ⟨by rw [before]; rfl, by rw [sessionOpen_eq before, opened hopen]; rfl, ?_⟩
      rw [sessionCloses, after, Option.any_some, hopen, Bool.and_false]

/-- A tick that leaves the session open found no timeout, and a keepalive was put
    into the write queue. -/
theorem sessionTick_open (h : Connected id c) {timeout : Bool}
    (hstep : c.step id (.session (.heartbeat timeout)) = some c')
    (hopen : c'.sessionOpen = true) :
    timeout = false ∧ c.sessionFrames.length < c'.sessionFrames.length := by
  rw [step] at hstep
  split_ifs at hstep
  rcases Option.map_eq_some_iff.mp hstep with ⟨server, hio, rfl⟩
  rcases ioStep_session hio with ⟨s, s', effects, hs, hsession, rfl⟩
  have hafter : (c.server.onSession 0 s (s', effects)).objects[0]? = some s' := by
    rw [((h.established hs).session hsession).objects, List.getElem?_cons_zero]
  have hstill : s'.closed = false := by
    rw [sessionOpen, session, hafter, Option.any_some, Bool.not_eq_true'] at hopen
    exact hopen
  have hframes : ∀ writer : Writer, s'.writer = writer →
      s.writer.accepted.length < writer.accepted.length →
      c.sessionFrames.length < (((c.server.onSession 0 s (s', effects)).objects[0]?.map
        Session.writer).getD {}).accepted.length := by
    intro writer hwriter hgrows
    rw [sessionFrames, hs, hafter, Option.map_some, Option.map_some, Option.getD_some,
      Option.getD_some, hwriter]
    exact hgrows
  have hchange := Session.step_change hsession
  cases hchange with
  | timeout | keepaliveOverflow => exact absurd hstill.symm Bool.false_ne_true
  | keepaliveDropped hclosed => exact absurd (hstill.symm.trans hclosed) Bool.false_ne_true
  | keepalive _ henqueue =>
      refine ⟨rfl, hframes _ rfl ?_⟩
      rw [Writer.accepted_enqueueFrame henqueue, List.length_append]
      exact Nat.lt_succ_self _

/-- The same for the client. -/
theorem clientTick_live {timeout : Bool}
    (hstep : c.step id (.client (.heartbeat timeout)) = some c')
    (hlive : c'.client.live = true) :
    timeout = false ∧ c.client.writer.accepted.length < c'.client.writer.accepted.length := by
  rw [step] at hstep
  split_ifs at hstep
  rcases Option.map_eq_some_iff.mp hstep with ⟨client, hclient, rfl⟩
  rw [Client.step] at hclient
  split_ifs at hclient
  have heq := Option.some.inj hclient
  have hlive' : client.live = true := hlive
  rw [← heq, Client.onHeartbeat] at hlive'
  cases timeout with
  | true =>
      rw [if_pos rfl, Client.live_handleDisconnect] at hlive'
      exact absurd hlive' Bool.false_ne_true
  | false =>
      rw [if_neg Bool.false_ne_true] at hlive'
      rw [Client.onHeartbeat, if_neg Bool.false_ne_true] at heq
      refine ⟨rfl, ?_⟩
      simp only
      rw [← heq]
      rcases Client.enqueueFrame_cases c.client buildKeepaliveFrame with ⟨hlost, hsame⟩ |
        ⟨_, writer, henqueue, hsame⟩ | hsame
      · rw [hsame, hlost] at hlive'
        exact absurd hlive' Bool.false_ne_true
      · rw [hsame, Writer.accepted_enqueueFrame henqueue, List.length_append]
        exact Nat.lt_succ_self _
      · rw [hsame, Client.live_handleDisconnect] at hlive'
        exact absurd hlive' Bool.false_ne_true

/-- A client that is live was live before, and nothing has cancelled its
    timer. -/
theorem client_live (htended : c'.Tended) (hstep : c.step id action = some c')
    (hlive : c'.client.live = true) :
    c.client.live = true ∧ c.clientCloses action c' = false := by
  -- Most steps leave the client alone, or what makes it live.
  have hsame : ∀ client : Client, c'.client = client → client.live = c.client.live →
      c.clientCloses action c' = false → c.client.live = true ∧ c.clientCloses action c' = false :=
    fun client hc' heq hcloses => ⟨heq ▸ hc' ▸ hlive, hcloses⟩
  cases action with
  | client clientAction =>
      rw [step] at hstep
      split_ifs at hstep
      rcases Option.map_eq_some_iff.mp hstep with ⟨client, hclient, rfl⟩
      refine ⟨((Client.step_change hclient).sends.1 hlive).1, ?_⟩
      have hsocket : client.socketOpen = true := (htended.client hlive).2.2
      rw [clientCloses, Client.closes, hsocket, Bool.not_true, Bool.and_false, Bool.false_or]
      by_contra hcloses
      rw [Bool.not_eq_false, Bool.and_eq_true, decide_eq_true_eq, decide_eq_true_eq] at hcloses
      rcases hcloses with ⟨rfl, hhead⟩
      -- The handler of the shutdown has marked the client as lost.
      cases hio : c.client.io with
      | nil =>
          rw [hio] at hhead
          exact absurd hhead.symm (Option.some_ne_none _)
      | cons task io =>
          rw [hio, List.head?_cons, Option.some.injEq] at hhead
          cases hcopied : c.client.copied with
          | some bytes => simp only [Client.step, hcopied, reduceCtorEq] at hclient
          | none =>
              simp only [Client.step, hcopied, hio, hhead, Client.onTask,
                Option.some.injEq] at hclient
              have hlive' : client.live = true := hlive
              rw [← hclient] at hlive'
              exact absurd hlive' Bool.false_ne_true
  | clientArrive =>
      rw [step] at hstep
      split at hstep
      · split_ifs at hstep
        rcases Option.map_eq_some_iff.mp hstep with ⟨client, hclient, rfl⟩
        exact ⟨((Client.step_change hclient).sends.1 hlive).1, rfl⟩
      · exact absurd hstep (by simp only [reduceCtorEq, not_false_eq_true])
  | clientTransmit count =>
      rw [step] at hstep
      split_ifs at hstep
      rw [← Option.some.inj hstep] at hlive ⊢
      exact ⟨hlive, rfl⟩
  | clientPoll =>
      rcases Option.map_eq_some_iff.mp hstep with ⟨⟨data, client⟩, hpoll, rfl⟩
      unfold Client.pollPacket at hpoll
      split at hpoll
      · exact absurd hpoll (by simp only [reduceCtorEq, not_false_eq_true])
      · rw [Option.some.injEq, Prod.mk.injEq] at hpoll
        exact hsame client rfl (by rw [← hpoll.2]; rfl) rfl
  | clientSend data =>
      rw [step, Option.some.injEq] at hstep
      refine hsame (c.client.send data) (by rw [← hstep]) ?_ rfl
      unfold Client.send
      simp only
      split_ifs <;> rfl
  | clientShutdown =>
      rw [step, Option.some.injEq] at hstep
      rw [← hstep] at hlive ⊢
      simp only [Client.shutdown] at hlive
      split_ifs at hlive with hdown
      · exact ⟨hlive, rfl⟩
      · rw [Client.live, Bool.not_true, Bool.and_false] at hlive
        exact absurd hlive Bool.false_ne_true
  | accept =>
      rw [step] at hstep
      split_ifs at hstep
      exact hsame c.client (by rw [← Option.some.inj hstep]) rfl rfl
  | serverTask | serverPoll =>
      rcases Option.map_eq_some_iff.mp hstep with ⟨server, _, hc'⟩
      exact hsame c.client (by rw [← hc']) rfl rfl
  | session sessionAction =>
      rw [step] at hstep
      split_ifs at hstep
      rcases Option.map_eq_some_iff.mp hstep with ⟨server, _, hc'⟩
      exact hsame c.client (by rw [← hc']) rfl rfl
  | sessionArrive =>
      rw [step] at hstep
      split at hstep
      · split_ifs at hstep
        rcases Option.map_eq_some_iff.mp hstep with ⟨server, _, hc'⟩
        exact hsame c.client (by rw [← hc']) rfl rfl
      · exact absurd hstep (by simp only [reduceCtorEq, not_false_eq_true])
  | sessionTransmit count =>
      rw [step] at hstep
      split at hstep
      · split_ifs at hstep
        exact hsame c.client (by rw [← Option.some.inj hstep]) rfl rfl
      · exact absurd hstep (by simp only [reduceCtorEq, not_false_eq_true])
  | otherPush packet =>
      rw [step] at hstep
      split_ifs at hstep
      exact hsame c.client (by rw [← Option.some.inj hstep]) rfl rfl
  | serverSend data =>
      rw [step] at hstep
      split_ifs at hstep
      exact hsame c.client (by rw [← Option.some.inj hstep]) rfl rfl
  | serverDisconnect | serverShutdown =>
      rw [step, Option.some.injEq] at hstep
      exact hsame c.client (by rw [← hstep]) rfl rfl

end Connection

/-! ### One heartbeat -/

theorem Timer.deadline?_cancel {timer : Timer} {deadline : Nat}
    (h : timer.cancel.deadline? = some deadline) : timer.deadline? = some deadline := by
  cases timer with
  | armed => exact absurd h.symm (Option.some_ne_none deadline)
  | off | expired | aborted => exact h

namespace Heartbeat

variable {h h' : Heartbeat} {now delay floor : Nat} {alive alive' : Bool}

/-- The deadline of the timer is at most an interval past the moment at which a
    timeout would be found, or past the time at which the heartbeat started, and
    it was not missed by more than the delay. An end that is alive has its timer
    set. -/
structure Timely (h : Heartbeat) (now delay floor : Nat) (alive : Bool) : Prop where
  past : h.lastActivity ≤ now
  deadline : ∀ d, h.timer.deadline? = some d →
    d ≤ max (h.lastActivity + heartbeatTimeout) floor + heartbeatInterval ∧ now ≤ d + delay
  set : alive = true → h.timer.deadline?.isSome = true

/-- The timer is set anew. -/
theorem timely_start (hpast : h.lastActivity ≤ now)
    (hnow : now ≤ max (h.lastActivity + heartbeatTimeout) floor) :
    Timely (h.startHeartbeat now) now delay floor alive := by
  refine ⟨hpast, fun d hd => ?_, fun _ => rfl⟩
  rw [← Option.some.inj hd]
  simp only [startHeartbeat]
  omega

/-- A handler of the end. -/
theorem Timely.follow (htimely : h.Timely now delay floor alive) (hears : Bool) {closes : Bool}
    (hset : alive' = true → alive = true ∧ closes = false) :
    (h.follow now hears closes).Timely now delay floor alive' := by
  have hpast := htimely.past
  -- What was heard only moves the timeout on.
  have hlast : h.lastActivity ≤ (h.follow now hears closes).lastActivity ∧
      (h.follow now hears closes).lastActivity ≤ now := by
    simp only [Heartbeat.follow]
    split_ifs <;> omega
  refine ⟨hlast.2, fun d hd => ?_, fun halive => ?_⟩
  · have hbefore : h.timer.deadline? = some d := by
      simp only [Heartbeat.follow] at hd
      split_ifs at hd
      · exact Timer.deadline?_cancel hd
      · exact hd
    have hd := htimely.deadline d hbefore
    omega
  · rcases hset halive with ⟨hbefore, hopen⟩
    simp only [Heartbeat.follow, hopen, Bool.false_eq_true, if_false]
    exact htimely.set hbefore

/-- The handler of the timer. -/
theorem Timely.onTick (htimely : h.Timely now delay floor alive)
    (hset : alive' = true → h.isTimeout now = false) :
    (h.onTick now).Timely now delay floor alive' := by
  have hpast := htimely.past
  unfold Heartbeat.onTick
  by_cases htimeout : h.isTimeout now = true
  · rw [if_pos htimeout]
    refine ⟨hpast, fun d hd => absurd hd.symm (Option.some_ne_none d), fun halive => ?_⟩
    exact absurd ((hset halive).symm.trans htimeout) Bool.false_ne_true
  · rw [if_neg htimeout]
    rw [isTimeout, decide_eq_true_eq] at htimeout
    exact timely_start hpast (by omega)

theorem deadline?_expire (hexpire : h.expire now = some h') :
    h'.timer.deadline? = h.timer.deadline? ∧ h'.lastActivity = h.lastActivity := by
  unfold expire at hexpire
  cases htimer : h.timer with
  | armed d =>
      simp only [htimer] at hexpire
      split_ifs at hexpire
      rw [← Option.some.inj hexpire]
      exact ⟨rfl, rfl⟩
  | off | expired | aborted => simp only [htimer, reduceCtorEq] at hexpire

theorem deadline?_onAborted (haborted : h.onAborted = some h') :
    h'.timer.deadline? = h.timer.deadline? ∧ h'.lastActivity = h.lastActivity := by
  unfold onAborted at haborted
  cases htimer : h.timer with
  | aborted =>
      simp only [htimer] at haborted
      rw [← Option.some.inj haborted]
      exact ⟨rfl, rfl⟩
  | off | armed | expired => simp only [htimer, reduceCtorEq] at haborted

/-- The timer runs out, or is done with. -/
theorem Timely.congr (htimely : h.Timely now delay floor alive)
    (heq : h'.timer.deadline? = h.timer.deadline? ∧ h'.lastActivity = h.lastActivity) :
    h'.Timely now delay floor alive := by
  refine ⟨?_, ?_, ?_⟩
  · rw [heq.2]
    exact htimely.past
  · rw [heq.1, heq.2]
    exact htimely.deadline
  · rw [heq.1]
    exact htimely.set

/-- Time goes by. -/
theorem Timely.advance (htimely : h.Timely now delay floor alive) {duration : Nat}
    (hprompt : h.timer.deadline?.all (fun d => decide (now + duration ≤ d + delay)) = true) :
    h.Timely (now + duration) delay floor alive := by
  have hpast := htimely.past
  refine ⟨by omega, fun d hd => ?_, htimely.set⟩
  rw [hd, Option.all_some, decide_eq_true_eq] at hprompt
  exact ⟨(htimely.deadline d hd).1, hprompt⟩

/-- How far a heartbeat looks ahead. -/
theorem Timely.bound (htimely : h.Timely now delay floor alive)
    (hset : h.timer.deadline?.isSome = true) :
    now ≤ max (h.lastActivity + heartbeatTimeout) floor + heartbeatInterval + delay := by
  rcases Option.isSome_iff_exists.mp hset with ⟨d, hd⟩
  have hbounds := htimely.deadline d hd
  omega

end Heartbeat

/-! ### Both heartbeats -/

namespace TimedConnection

variable {id : UInt32} {t t' : TimedConnection} {action : Action} {delay connectTime : Nat}

/-- No timer is served later than the delay after it has run out. -/
def prompt (delay : Nat) (t : TimedConnection) : Action → Bool
  | .advance duration =>
    t.sessionBeat.timer.deadline?.all (fun d => decide (t.now + duration ≤ d + delay)) &&
      t.clientBeat.timer.deadline?.all (fun d => decide (t.now + duration ≤ d + delay))
  | _ => true

/-- With a clock, a step of the connection is one it can make without. -/
theorem step_connection (hstep : t.step id action = some t') :
    t'.connection = t.connection ∨
      ∃ untimed, t.connection.step id untimed = some t'.connection := by
  cases action with
  | advance duration =>
      rw [step, Option.some.injEq] at hstep
      rw [← hstep]
      exact Or.inl rfl
  | act untimed =>
      rw [step] at hstep
      split_ifs at hstep
      rcases Option.map_eq_some_iff.mp hstep with ⟨next, hnext, rfl⟩
      exact Or.inr ⟨untimed, hnext⟩
  | sessionExpire | sessionAborted | clientExpire | clientAborted =>
      rcases Option.map_eq_some_iff.mp hstep with ⟨beat, _, rfl⟩
      exact Or.inl rfl
  | sessionTick | clientTick =>
      rw [step] at hstep
      split at hstep
      · rcases Option.map_eq_some_iff.mp hstep with ⟨next, hnext, rfl⟩
        exact Or.inr ⟨_, hnext⟩
      · exact absurd hstep (by simp only [reduceCtorEq, not_false_eq_true])

/-- The connection is one that is reached without a clock. -/
theorem untimed_run {actions : List Action}
    (hrun : Machine.run (step id) (initial id connectTime) actions = some t) :
    ∃ untimed, Machine.run (Connection.step id) (.initial id) untimed = some t.connection := by
  refine Machine.invariant (P := fun t : TimedConnection => ∃ untimed,
    Machine.run (Connection.step id) (.initial id) untimed = some t.connection)
    (fun t action t' h hstep => ?_) hrun ⟨[], rfl⟩
  rcases h with ⟨untimed, hbefore⟩
  rcases step_connection hstep with heq | ⟨next, hnext⟩
  · exact ⟨untimed, heq ▸ hbefore⟩
  · refine ⟨untimed ++ [next], Machine.run_trans hbefore ?_⟩
    rw [Machine.run, hnext]
    rfl

/-- Both heartbeats are timely, and the connection keeps its invariants. -/
structure Timely (id : UInt32) (delay connectTime : Nat) (t : TimedConnection) : Prop where
  connected : Connection.Connected id t.connection
  tended : t.connection.Tended
  session : t.sessionBeat.Timely t.now delay 0 t.connection.sessionOpen
  client : t.clientBeat.Timely t.now delay connectTime t.connection.client.live

/-- A step of the connection that is not a tick. -/
theorem timely_follow (h : Timely id delay connectTime t) {untimed : Connection.Action}
    {next : Connection} (hstep : t.connection.step id untimed = some next) :
    Timely id delay connectTime (t.follow untimed next) := by
  have htended := Connection.tended_step h.connected h.tended hstep
  refine ⟨Connection.connected_step _ _ _ h.connected hstep, htended, ?_,
    h.client.follow _ fun hlive => Connection.client_live htended hstep hlive⟩
  have hcase := Connection.session_cases h.connected hstep
  simp only [follow]
  split_ifs with hnew
  · exact Heartbeat.timely_start (Nat.le_refl _) (by simp only; omega)
  · refine h.session.follow _ fun hopen => ?_
    rcases hcase.openBefore hopen with hstarted | ⟨_, hbefore, hkept⟩
    · exact absurd hstarted hnew
    · exact ⟨hbefore, hkept⟩

/-- Every prompt step keeps both heartbeats timely. -/
theorem timely_step (h : Timely id delay connectTime t) (hprompt : prompt delay t action = true)
    (hstep : t.step id action = some t') : Timely id delay connectTime t' := by
  cases action with
  | advance duration =>
      rw [step, Option.some.injEq] at hstep
      rw [prompt, Bool.and_eq_true] at hprompt
      rw [← hstep]
      -- Time does not pass further than the delay after a deadline.
      exact ⟨h.connected, h.tended, h.session.advance hprompt.1, h.client.advance hprompt.2⟩
  | act untimed =>
      rw [step] at hstep
      split_ifs at hstep
      rcases Option.map_eq_some_iff.mp hstep with ⟨next, hnext, rfl⟩
      exact timely_follow h hnext
  | sessionExpire =>
      rcases Option.map_eq_some_iff.mp hstep with ⟨beat, hbeat, rfl⟩
      exact ⟨h.connected, h.tended, h.session.congr (Heartbeat.deadline?_expire hbeat), h.client⟩
  | sessionAborted =>
      rcases Option.map_eq_some_iff.mp hstep with ⟨beat, hbeat, rfl⟩
      exact ⟨h.connected, h.tended, h.session.congr (Heartbeat.deadline?_onAborted hbeat),
        h.client⟩
  | clientExpire =>
      rcases Option.map_eq_some_iff.mp hstep with ⟨beat, hbeat, rfl⟩
      exact ⟨h.connected, h.tended, h.session, h.client.congr (Heartbeat.deadline?_expire hbeat)⟩
  | clientAborted =>
      rcases Option.map_eq_some_iff.mp hstep with ⟨beat, hbeat, rfl⟩
      exact ⟨h.connected, h.tended, h.session,
        h.client.congr (Heartbeat.deadline?_onAborted hbeat)⟩
  | sessionTick =>
      rw [step] at hstep
      split at hstep
      · rcases Option.map_eq_some_iff.mp hstep with ⟨next, hnext, rfl⟩
        have hfollow := timely_follow h hnext
        -- The handler sets the timer again exactly when the session is still open after it.
        refine ⟨hfollow.connected, hfollow.tended, h.session.onTick fun hopen => ?_,
          hfollow.client⟩
        exact (Connection.sessionTick_open h.connected hnext hopen).1
      · exact absurd hstep (by simp only [reduceCtorEq, not_false_eq_true])
  | clientTick =>
      rw [step] at hstep
      split at hstep
      · rcases Option.map_eq_some_iff.mp hstep with ⟨next, hnext, rfl⟩
        have hfollow := timely_follow h hnext
        refine ⟨hfollow.connected, hfollow.tended, hfollow.session,
          h.client.onTick fun hlive => ?_⟩
        exact (Connection.clientTick_live hnext hlive).1
      · exact absurd hstep (by simp only [reduceCtorEq, not_false_eq_true])

theorem timely_initial (id : UInt32) (delay connectTime : Nat) :
    Timely id delay connectTime (initial id connectTime) where
  connected := Connection.connected_init id
  tended := ⟨fun _ hs => absurd hs List.not_mem_nil, fun _ =>
    ⟨fun h => Reader.noConfusion h, fun h => absurd h Bool.false_ne_true, rfl⟩⟩
  session := ⟨Nat.zero_le _, fun d hd => absurd hd.symm (Option.some_ne_none d),
    fun h => absurd h Bool.false_ne_true⟩
  client := Heartbeat.timely_start (Nat.zero_le _) (Nat.le_max_right _ _)

theorem timely_run {actions : List Action}
    (hrun : Machine.run (step id) (initial id connectTime) actions = some t)
    (hprompt : Machine.Respects (step id) (prompt delay) (initial id connectTime) actions = true) :
    Timely id delay connectTime t :=
  Machine.invariant_of_respects (fun _ _ _ h hp hs => timely_step h hp hs) hrun hprompt
    (timely_initial id delay connectTime)

/-- In every prompt run: an end that is still there has read a header within the
    timeout, the interval and the delay, or, for the client, has not been
    connected longer than that; no timer is set or about to be handled for
    longer, whether the end is still there or not; and the connection is in a
    state it can reach without a clock. -/
theorem silence_noticed (id : UInt32) (delay connectTime : Nat) (actions : List Action)
    (t : TimedConnection)
    (hrun : Machine.run (step id) (initial id connectTime) actions = some t)
    (hprompt : Machine.Respects (step id) (prompt delay) (initial id connectTime) actions = true) :
    let sessionEnd := t.sessionBeat.lastActivity + heartbeatTimeout + heartbeatInterval + delay
    let clientEnd := max (t.clientBeat.lastActivity + heartbeatTimeout) connectTime
      + heartbeatInterval + delay
    (t.connection.sessionOpen = true ∨ t.sessionBeat.timer.deadline?.isSome = true →
      t.now ≤ sessionEnd) ∧
    (t.connection.client.live = true ∨ t.clientBeat.timer.deadline?.isSome = true →
      t.now ≤ clientEnd) ∧
    ∃ untimed, Machine.run (Connection.step id) (.initial id) untimed = some t.connection := by
  intro sessionEnd clientEnd
  have h := timely_run hrun hprompt
  refine ⟨fun hthere => ?_, fun hthere => ?_, untimed_run hrun⟩
  · have hset : t.sessionBeat.timer.deadline?.isSome = true := by
      rcases hthere with hopen | hset
      · exact h.session.set hopen
      · exact hset
    have hbound := h.session.bound hset
    rw [Nat.max_zero] at hbound
    exact hbound
  · rcases hthere with hlive | hset
    · exact h.client.bound (h.client.set hlive)
    · exact h.client.bound hset

/-- Both ends tick twice, but nothing gets through, and the session's third tick
    is about to come. -/
def nothingGetsThrough : List Action :=
  [.act .accept, .advance heartbeatInterval, .sessionExpire, .sessionTick, .clientExpire,
    .clientTick, .advance heartbeatInterval, .sessionExpire, .sessionTick, .clientExpire,
    .clientTick, .advance heartbeatInterval, .sessionExpire]

theorem silence_noticed_nothingGetsThrough :
    ∃ t, Machine.run (step 1) (initial 1 0) nothingGetsThrough = some t ∧
      t.connection.sessionOpen = true ∧ t.now = heartbeatTimeout ∧
      t.now ≤ t.sessionBeat.lastActivity + heartbeatTimeout + heartbeatInterval + 0 ∧
      (t.step 1 .sessionTick).map (fun t' => t'.connection.sessionOpen) = some false := by
  have hend : (Machine.run (step 1) (initial 1 0) nothingGetsThrough).map (fun t => decide
      (t.connection.sessionOpen = true ∧ t.now = heartbeatTimeout ∧
        (t.step 1 .sessionTick).map (fun t' => t'.connection.sessionOpen) = some false))
      = some true := by
    decide +kernel
  rcases Option.map_eq_some_iff.mp hend with ⟨t, hrun, ht⟩
  rcases of_decide_eq_true ht with ⟨hopen, hnow, hnext⟩
  have hprompt : Machine.Respects (step 1) (prompt 0) (initial 1 0) nothingGetsThrough = true := by
    decide +kernel
  exact ⟨t, hrun, hopen, hnow,
    (silence_noticed 1 0 0 nothingGetsThrough t hrun hprompt).1 (Or.inl hopen), hnext⟩

end TimedConnection

end ProjectNight
