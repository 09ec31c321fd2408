import ProjectNight.Lib.Watchdog
import ProjectNight.Theory.Heartbeat

/-!
# No False Alarm

`Heartbeat` shows that an end notices when it hears nothing. Here is the other
half: an end whose peer is there never finds a timeout. Both together say that
the heartbeats tell a lost peer from a silent one.

It takes a network and two machines that keep up. Every frame has to be heard
within a latency after it was put into the write queue, and the connection has
to be accepted within a latency after the client began to connect, for the
client counts the silence from then on. A run is swift when it keeps to this as
long as both ends are there. Then a timeout is never found if the interval, the
delay of the timers and twice the latency are less than the timeout together.
With the constants of `Protocol.h`, five and fifteen seconds, there is room for
a delay and two latencies of ten seconds together.

Each end watches the other, so there are two watches (`Watchdog`): one for the
frames on their way to the server, and one for those on their way to the
client.

## Main definitions

* `swift`: Frames are heard within the latency.
* `clientWatch`, `sessionWatch`: What the two ends put under way.
* `Watched`: The invariant.

## Theorems

* `watched_step`: Every prompt and swift step keeps the invariant.
* `TimedConnection.no_false_alarm`: While both ends are there, no tick finds a
  timeout.
-/

namespace ProjectNight

open Watchdog

namespace TimedConnection

/-! ### The watches -/

/-- The connection is accepted, and frames are heard, within the latency. -/
def swift (latency : Nat) (t : TimedConnection) : Action → Bool
  | .advance duration =>
    let c := t.connection
    let heard := fun times : List Nat =>
      times.head?.all (fun time => decide (t.now + duration ≤ time + latency))
    (c.server.accepts ≠ 0 || c.server.queue.shuttingDown || t.now + duration ≤ latency) &&
      (!(c.sessionOpen && c.client.live) || (heard t.toServerTimes && heard t.toClientTimes))
  | _ => true

/-- What the client puts under way, and the session hears. -/
def clientWatch (t : TimedConnection) : Watch where
  now := t.now
  deadline := t.clientBeat.timer.deadline?.getD 0
  underWay := t.toServerTimes
  heard := t.sessionBeat.lastActivity

/-- What the session puts under way, and the client hears. -/
def sessionWatch (t : TimedConnection) : Watch where
  now := t.now
  deadline := t.sessionBeat.timer.deadline?.getD 0
  underWay := t.toClientTimes
  heard := t.clientBeat.lastActivity

/-- Both watches are fresh while both ends are there. Before the session is
    accepted, the client's is. -/
structure Watched (delay latency : Nat) (t : TimedConnection) : Prop where
  silent : t.connection.session = none →
    t.toClientTimes = [] ∧ t.sessionBeat.lastActivity = 0
  waiting : t.connection.session = none → t.connection.server.accepts = 0 →
    t.connection.server.queue.shuttingDown = false → t.connection.client.live = true →
    t.now ≤ latency ∧ Fresh heartbeatInterval delay latency t.clientWatch 0
  watched : t.connection.sessionOpen = true → t.connection.client.live = true →
    (∃ base, Fresh heartbeatInterval delay latency t.clientWatch base) ∧
      ∃ base, Fresh heartbeatInterval delay latency t.sessionWatch base

variable {id : UInt32} {t t' : TimedConnection} {action : Action}
  {delay latency connectTime base : Nat}

theorem fresh_sent {interval : Nat} {w : Watch} (h : Fresh interval delay latency w base)
    (sent : Bool) :
    Fresh interval delay latency { w with underWay := track w.underWay w.now false sent } base := by
  cases sent with
  | false =>
      simp only [track, Bool.false_eq_true, if_false, List.append_nil]
      exact h
  | true => exact h.send

/-- A header is heard, and a frame is sent, or not. -/
theorem fresh_track {interval : Nat} {w : Watch} (h : Fresh interval delay latency w base)
    (heard sent : Bool) :
    ∃ base', Fresh interval delay latency
      { w with
        underWay := track w.underWay w.now heard sent
        heard := if heard then w.now else w.heard } base' := by
  cases heard with
  | false => exact ⟨base, fresh_sent h sent⟩
  | true =>
      rcases h.hear with ⟨base', hheard⟩
      exact ⟨base', fresh_sent hheard sent⟩

/-! ### A step of the connection -/

/-- The client's watch after a step that cancels no timer of the client and
    accepts no session. -/
theorem clientWatch_follow {untimed : Connection.Action} {next : Connection}
    (hkept : (t.connection.session.isNone && next.session.isSome) = false)
    (hcloses : t.connection.clientCloses untimed next = false) :
    (t.follow untimed next).clientWatch
      = { t.clientWatch with
          underWay := track t.toServerTimes t.now (t.connection.sessionHears untimed)
            (t.connection.client.writer.accepted.length < next.client.writer.accepted.length)
          heard := if t.connection.sessionHears untimed then t.now
            else t.sessionBeat.lastActivity } := by
  simp only [clientWatch, follow, hkept, Bool.false_eq_true, if_false, Heartbeat.follow, hcloses]

theorem sessionWatch_follow {untimed : Connection.Action} {next : Connection}
    (hkept : (t.connection.session.isNone && next.session.isSome) = false)
    (hcloses : t.connection.sessionCloses next = false) :
    (t.follow untimed next).sessionWatch
      = { t.sessionWatch with
          underWay := track t.toClientTimes t.now (t.connection.clientHears untimed)
            (t.connection.sessionFrames.length < next.sessionFrames.length)
          heard := if t.connection.clientHears untimed then t.now
            else t.clientBeat.lastActivity } := by
  simp only [sessionWatch, follow, hkept, Bool.false_eq_true, if_false, Heartbeat.follow, hcloses]

theorem sessionHears_none {c : Connection} (h : c.session = none) (untimed : Connection.Action) :
    c.sessionHears untimed = false := by
  cases untimed with
  | session sessionAction => rw [Connection.sessionHears, h, Option.any_none]
  | _ => rfl

theorem sessionFrames_none {c : Connection} (h : c.session = none) : c.sessionFrames = [] := by
  rw [Connection.sessionFrames, h]
  rfl

theorem track_nil (now : Nat) (heard : Bool) : track [] now heard false = [] := by
  cases heard <;> rfl

/-- The session is accepted: the client has not waited for long, and the first
    beat is due after an interval. -/
theorem fresh_accepted (htimely : Timely id delay connectTime t) (hswift : t.now ≤ latency) :
    Fresh heartbeatInterval delay latency
      ⟨t.now, t.now + heartbeatInterval, [], t.clientBeat.lastActivity⟩ 0 where
  caughtUp := Nat.zero_le _
  heard := htimely.client.past
  linked := trivial
  past := Nat.zero_le _
  due := by
    simp only [latest]
    omega
  served := by
    simp only
    omega
  swift := fun time htime => absurd htime.symm (Option.some_ne_none time)

theorem watched_follow (htimely : Timely id delay connectTime t) (h : Watched delay latency t)
    {untimed : Connection.Action} {next : Connection}
    (hstep : t.connection.step id untimed = some next) :
    Watched delay latency (t.follow untimed next) := by
  have htended := Connection.tended_step htimely.connected htimely.tended hstep
  have hcase := Connection.session_cases htimely.connected hstep
  have hlives := fun hlive => Connection.client_live htended hstep hlive
  cases hcase with
  -- There is no session yet, it is made in this step, or there was one before.
  | absent before after haccepts hdown =>
      have hkept : (t.connection.session.isNone && next.session.isSome) = false := by
        rw [after, Option.isSome_none, Bool.and_false]
      have hhears := sessionHears_none before untimed
      refine ⟨fun _ => ?_, fun _ hzero hrunning hlive => ?_, fun hopen => ?_⟩
      · rcases h.silent before with ⟨htimes, hlast⟩
        simp only [follow, hkept, Bool.false_eq_true, if_false, Heartbeat.follow, hhears, htimes,
          sessionFrames_none before, sessionFrames_none after, List.length_nil, Nat.lt_irrefl,
          decide_false, track_nil]
        exact ⟨trivial, hlast⟩
      · rcases hlives hlive with ⟨hbefore, hcloses⟩
        rcases h.waiting before (haccepts hzero) (hdown hrunning) hbefore with ⟨hnow, hfresh⟩
        rw [clientWatch_follow hkept hcloses, hhears]
        exact ⟨hnow, fresh_sent hfresh _⟩
      · have hnone : next.sessionOpen = false := by rw [Connection.sessionOpen, after]; rfl
        exact absurd (hnone.symm.trans hopen) Bool.false_ne_true
  | accepted isAccept before hfirst hrunning after =>
      have hnew : (t.connection.session.isNone && next.session.isSome) = true := by
        rw [before, after]
        rfl
      have hsome : next.session ≠ none := by
        rw [after]
        exact Option.some_ne_none _
      refine ⟨fun hnone => absurd hnone hsome, fun hnone => absurd hnone hsome,
        fun _ hlive => ?_⟩
      rcases hlives hlive with ⟨hbefore, hcloses⟩
      rcases h.waiting before hfirst hrunning hbefore with ⟨hnow, hfresh⟩
      have hframes : next.sessionFrames = [] := by
        rw [Connection.sessionFrames, after]
        rfl
      have hclientHears : t.connection.clientHears untimed = false := by
        rw [isAccept]
        rfl
      -- From here on both watches run. The session's begins with the accept; in the client's,
      -- the accept counts as heard.
      refine ⟨⟨0, ?_⟩, 0, ?_⟩
      · have hraised := (fresh_sent hfresh (decide (t.connection.client.writer.accepted.length
          < next.client.writer.accepted.length))).raise htimely.session.past (Nat.le_refl _)
        simp only [clientWatch, follow, hnew, if_true, Heartbeat.startHeartbeat, Heartbeat.follow,
          hcloses, Bool.false_eq_true, if_false, sessionHears_none before untimed]
        exact hraised
      · simp only [sessionWatch, follow, hnew, if_true, Heartbeat.startHeartbeat,
          Heartbeat.follow, hclientHears, Bool.false_eq_true, if_false, (h.silent before).1,
          sessionFrames_none before, hframes, Nat.lt_irrefl, decide_false, track_nil]
        exact fresh_accepted htimely hnow
  | kept s s' before after opened =>
      have hkept : (t.connection.session.isNone && next.session.isSome) = false := by
        rw [before]
        rfl
      have hsome : next.session ≠ none := by
        rw [after]
        exact Option.some_ne_none _
      refine ⟨fun hnone => absurd hnone hsome, fun hnone => absurd hnone hsome,
        fun hopen hlive => ?_⟩
      rcases hlives hlive with ⟨hbefore, hcloses⟩
      have hcase : Connection.SessionCase t.connection untimed next :=
        .kept s s' before after opened
      rcases hcase.openBefore hopen with hnew | ⟨_, hopenBefore, hstays⟩
      · exact absurd (hkept.symm.trans hnew) Bool.false_ne_true
      · rcases h.watched hopenBefore hbefore with ⟨⟨_, hclient⟩, _, hsession⟩
        rw [clientWatch_follow hkept hcloses, sessionWatch_follow hkept hstays]
        exact ⟨fresh_track hclient _ _, fresh_track hsession _ _⟩

/-! ### Time and timers -/

/-- The timer of an end that is there. -/
theorem deadline_of_timely {h : Heartbeat} {now floor : Nat} {alive : Bool}
    (htimely : h.Timely now delay floor alive) (halive : alive = true) {duration : Nat}
    (hprompt : h.timer.deadline?.all (fun d => decide (now + duration ≤ d + delay)) = true) :
    now + duration ≤ h.timer.deadline?.getD 0 + delay := by
  rcases Option.isSome_iff_exists.mp (htimely.set halive) with ⟨d, hd⟩
  rw [hd, Option.all_some, decide_eq_true_eq] at hprompt
  rw [hd, Option.getD_some]
  exact hprompt

theorem head_of_swift {times : List Nat} {now : Nat}
    (h : times.head?.all (fun time => decide (now ≤ time + latency)) = true) (time : Nat)
    (htime : times.head? = some time) : now ≤ time + latency := by
  rw [htime, Option.all_some, decide_eq_true_eq] at h
  exact h

theorem watched_advance (htimely : Timely id delay connectTime t) (h : Watched delay latency t)
    {duration : Nat} (hprompt : prompt delay t (.advance duration) = true)
    (hswift : swift latency t (.advance duration) = true) :
    Watched delay latency { t with now := t.now + duration } := by
  have hlater : t.now ≤ t.now + duration := Nat.le_add_right _ _
  rw [prompt, Bool.and_eq_true] at hprompt
  rw [swift, Bool.and_eq_true] at hswift
  refine ⟨h.silent, fun hnone hzero hrunning hlive => ?_, fun hopen hlive => ?_⟩
  · have hwait : t.now + duration ≤ latency := by
      have hfirst := hswift.1
      rw [hzero, hrunning] at hfirst
      exact of_decide_eq_true hfirst
    rcases h.waiting hnone hzero hrunning hlive with ⟨_, hfresh⟩
    refine ⟨hwait, hfresh.advance hlater (deadline_of_timely htimely.client hlive hprompt.2) ?_⟩
    exact fun first _ => Nat.le_trans hwait (Nat.le_add_left _ _)
  · have hheard := hswift.2
    simp only [show t.connection.sessionOpen = true from hopen,
      show t.connection.client.live = true from hlive, Bool.and_self, Bool.not_true,
      Bool.false_or, Bool.and_eq_true] at hheard
    rcases h.watched hopen hlive with ⟨⟨base, hclient⟩, base', hsession⟩
    exact ⟨⟨base, hclient.advance hlater (deadline_of_timely htimely.client hlive hprompt.2)
        (head_of_swift hheard.1)⟩,
      base', hsession.advance hlater (deadline_of_timely htimely.session hopen hprompt.1)
        (head_of_swift hheard.2)⟩

/-- A timer runs out, or is done with. -/
theorem Watched.congr (h : Watched delay latency t) {sessionBeat clientBeat : Heartbeat}
    (hsession : sessionBeat.timer.deadline? = t.sessionBeat.timer.deadline? ∧
      sessionBeat.lastActivity = t.sessionBeat.lastActivity)
    (hclient : clientBeat.timer.deadline? = t.clientBeat.timer.deadline? ∧
      clientBeat.lastActivity = t.clientBeat.lastActivity) :
    Watched delay latency { t with sessionBeat, clientBeat } := by
  have hclientWatch : clientWatch { t with sessionBeat, clientBeat } = t.clientWatch := by
    simp only [clientWatch, hclient.1, hsession.2]
  have hsessionWatch : sessionWatch { t with sessionBeat, clientBeat } = t.sessionWatch := by
    simp only [sessionWatch, hsession.1, hclient.2]
  refine ⟨fun hnone => ⟨(h.silent hnone).1, hsession.2.trans (h.silent hnone).2⟩, ?_, ?_⟩
  · rw [hclientWatch]
    exact h.waiting
  · rw [hclientWatch, hsessionWatch]
    exact h.watched

theorem watched_sessionTick (htimely : Timely id delay connectTime t)
    (h : Watched delay latency t) {next : Connection}
    (hstep : t.connection.step id (.session (.heartbeat (t.sessionBeat.isTimeout t.now)))
      = some next) :
    Watched delay latency
      { t.follow (.session (.heartbeat (t.sessionBeat.isTimeout t.now))) next with
        sessionBeat := t.sessionBeat.onTick t.now } := by
  have htended := Connection.tended_step htimely.connected htimely.tended hstep
  have hcase := Connection.session_cases htimely.connected hstep
  have hlast : (t.sessionBeat.onTick t.now).lastActivity = t.sessionBeat.lastActivity := by
    unfold Heartbeat.onTick
    split_ifs <;> rfl
  cases hcase with
  | absent before after =>
      -- There is no session to tick.
      rw [Connection.step] at hstep
      split_ifs at hstep
      rcases Option.map_eq_some_iff.mp hstep with ⟨server, hio, _⟩
      rcases Connection.ioStep_session hio with ⟨s, _, _, hs, _⟩
      exact absurd (before.symm.trans hs) (Option.some_ne_none s).symm
  | accepted isAccept => exact absurd isAccept (by simp only [reduceCtorEq, not_false_eq_true])
  | kept s s' before after opened =>
      have hsome : next.session ≠ none := by
        rw [after]
        exact Option.some_ne_none _
      have hcase : Connection.SessionCase t.connection
          (.session (.heartbeat (t.sessionBeat.isTimeout t.now))) next :=
        .kept s s' before after opened
      refine ⟨fun hnone => absurd hnone hsome, fun hnone => absurd hnone hsome,
        fun hopen hlive => ?_⟩
      rcases Connection.client_live htended hstep hlive with ⟨hbefore, _⟩
      rcases Connection.sessionTick_open htimely.connected hstep hopen with ⟨htimeout, hgrows⟩
      rcases hcase.openBefore hopen with hnew | ⟨_, hopenBefore, _⟩
      · rw [before] at hnew
        exact absurd hnew Bool.false_ne_true
      · rcases h.watched hopenBefore hbefore with ⟨⟨base, hclient⟩, base', hsession⟩
        refine ⟨⟨base, ?_⟩, base', ?_⟩
        · have hsent := fresh_sent hclient (decide (t.connection.client.writer.accepted.length
            < next.client.writer.accepted.length))
          have hhears : t.connection.sessionHears
              (.session (.heartbeat (t.sessionBeat.isTimeout t.now))) = false := by
            rw [Connection.sessionHears, before, Option.any_some]
            rfl
          simp only [clientWatch, follow, hhears, hlast]
          exact hsent
        · -- A keepalive was put under way, and the timer is set again.
          simp only [sessionWatch, follow, track, Heartbeat.onTick, htimeout, Bool.false_eq_true,
            if_false, hgrows, decide_true, if_true, Heartbeat.startHeartbeat]
          exact hsession.beat

theorem watched_clientTick (htimely : Timely id delay connectTime t) (h : Watched delay latency t)
    {next : Connection}
    (hstep : t.connection.step id (.client (.heartbeat (t.clientBeat.isTimeout t.now)))
      = some next) :
    Watched delay latency
      { t.follow (.client (.heartbeat (t.clientBeat.isTimeout t.now))) next with
        clientBeat := t.clientBeat.onTick t.now } := by
  have htended := Connection.tended_step htimely.connected htimely.tended hstep
  have hcase := Connection.session_cases htimely.connected hstep
  have hfollow := watched_follow htimely h hstep
  have hlast : (t.clientBeat.onTick t.now).lastActivity = t.clientBeat.lastActivity := by
    unfold Heartbeat.onTick
    split_ifs <;> rfl
  -- The keepalive was put under way, and the timer is set again.
  have hbeat : ∀ {base}, next.client.live = true →
      (t.connection.session.isNone && next.session.isSome) = false →
      Fresh heartbeatInterval delay latency t.clientWatch base →
      Fresh heartbeatInterval delay latency (clientWatch
        { t.follow (.client (.heartbeat (t.clientBeat.isTimeout t.now))) next with
          clientBeat := t.clientBeat.onTick t.now }) base := by
    intro base hlive hkept hfresh
    rcases Connection.clientTick_live hstep hlive with ⟨htimeout, hgrows⟩
    simp only [clientWatch, follow, hkept, Bool.false_eq_true, if_false, Heartbeat.follow, track,
      Connection.sessionHears, Heartbeat.onTick, htimeout, hgrows, decide_true, if_true,
      Heartbeat.startHeartbeat]
    exact hfresh.beat
  cases hcase with
  | absent before after haccepts hdown =>
      refine ⟨hfollow.silent, fun _ hzero hrunning hlive => ?_, fun hopen => ?_⟩
      · rcases Connection.client_live htended hstep hlive with ⟨hbefore, _⟩
        rcases h.waiting before (haccepts hzero) (hdown hrunning) hbefore with ⟨hnow, hfresh⟩
        exact ⟨hnow, hbeat hlive (by rw [after, Option.isSome_none, Bool.and_false]) hfresh⟩
      · have hnone : next.sessionOpen = false := by rw [Connection.sessionOpen, after]; rfl
        exact absurd (hnone.symm.trans hopen) Bool.false_ne_true
  | accepted isAccept => exact absurd isAccept (by simp only [reduceCtorEq, not_false_eq_true])
  | kept s s' before after opened =>
      have hsome : next.session ≠ none := by
        rw [after]
        exact Option.some_ne_none _
      refine ⟨fun hnone => absurd hnone hsome, fun hnone => absurd hnone hsome,
        fun hopen hlive => ?_⟩
      have hcase : Connection.SessionCase t.connection
          (.client (.heartbeat (t.clientBeat.isTimeout t.now))) next :=
        .kept s s' before after opened
      rcases Connection.client_live htended hstep hlive with ⟨hbefore, _⟩
      rcases hcase.openBefore hopen with hnew | ⟨hkept, hopenBefore, hstays⟩
      · rw [before] at hnew
        exact absurd hnew Bool.false_ne_true
      · rcases h.watched hopenBefore hbefore with ⟨⟨base, hclient⟩, base', hsession⟩
        refine ⟨⟨base, hbeat hlive hkept hclient⟩, base', ?_⟩
        have hsent := fresh_sent hsession (decide (t.connection.sessionFrames.length
          < next.sessionFrames.length))
        simp only [sessionWatch, follow, hkept, Bool.false_eq_true, if_false, Heartbeat.follow,
          hstays, Connection.clientHears, hlast]
        exact hsent

/-- Every prompt and swift step keeps the invariant. -/
theorem watched_step (htimely : Timely id delay connectTime t) (h : Watched delay latency t)
    (hprompt : prompt delay t action = true) (hswift : swift latency t action = true)
    (hstep : t.step id action = some t') : Watched delay latency t' := by
  cases action with
  | advance duration =>
      rw [step, Option.some.injEq] at hstep
      rw [← hstep]
      exact watched_advance htimely h hprompt hswift
  | act untimed =>
      rw [step] at hstep
      split_ifs at hstep
      rcases Option.map_eq_some_iff.mp hstep with ⟨next, hnext, rfl⟩
      exact watched_follow htimely h hnext
  | sessionExpire =>
      rcases Option.map_eq_some_iff.mp hstep with ⟨beat, hbeat, rfl⟩
      exact h.congr (Heartbeat.deadline?_expire hbeat) ⟨rfl, rfl⟩
  | sessionAborted =>
      rcases Option.map_eq_some_iff.mp hstep with ⟨beat, hbeat, rfl⟩
      exact h.congr (Heartbeat.deadline?_onAborted hbeat) ⟨rfl, rfl⟩
  | clientExpire =>
      rcases Option.map_eq_some_iff.mp hstep with ⟨beat, hbeat, rfl⟩
      exact h.congr ⟨rfl, rfl⟩ (Heartbeat.deadline?_expire hbeat)
  | clientAborted =>
      rcases Option.map_eq_some_iff.mp hstep with ⟨beat, hbeat, rfl⟩
      exact h.congr ⟨rfl, rfl⟩ (Heartbeat.deadline?_onAborted hbeat)
  | sessionTick =>
      rw [step] at hstep
      split at hstep
      · rcases Option.map_eq_some_iff.mp hstep with ⟨next, hnext, rfl⟩
        exact watched_sessionTick htimely h hnext
      · exact absurd hstep (by simp only [reduceCtorEq, not_false_eq_true])
  | clientTick =>
      rw [step] at hstep
      split at hstep
      · rcases Option.map_eq_some_iff.mp hstep with ⟨next, hnext, rfl⟩
        exact watched_clientTick htimely h hnext
      · exact absurd hstep (by simp only [reduceCtorEq, not_false_eq_true])

theorem watched_initial (id : UInt32) (delay : Nat) (h : connectTime ≤ latency) :
    Watched delay latency (initial id connectTime) := by
  refine ⟨fun _ => ⟨rfl, rfl⟩, fun _ _ _ _ => ⟨h, ?_⟩,
    fun hopen => absurd hopen Bool.false_ne_true⟩
  refine ⟨Nat.le_refl _, Nat.zero_le _, trivial, Nat.zero_le _, ?_, ?_,
    fun time htime => absurd htime.symm (Option.some_ne_none time)⟩
  · simp only [clientWatch, initial, Heartbeat.startHeartbeat, Timer.deadline?, Option.getD_some,
      latest]
    omega
  · simp only [clientWatch, initial, Heartbeat.startHeartbeat, Timer.deadline?, Option.getD_some]
    omega

/-- In every prompt and swift run, with an interval, a delay and two latencies
    that are less than the timeout together: while both ends are there, a tick of
    either of them would find no timeout. So when an end gives a connection up
    over its heartbeat, the other end is not there any more. -/
theorem no_false_alarm (id : UInt32) (delay latency connectTime : Nat) (actions : List Action)
    (t : TimedConnection)
    (hsmall : heartbeatInterval + delay + 2 * latency < heartbeatTimeout)
    (hconnect : connectTime ≤ latency)
    (hrun : Machine.run (step id) (initial id connectTime) actions = some t)
    (hcond : Machine.Respects (step id) (fun t a => prompt delay t a && swift latency t a)
      (initial id connectTime) actions = true)
    (hopen : t.connection.sessionOpen = true) (hlive : t.connection.client.live = true) :
    t.sessionBeat.isTimeout t.now = false ∧ t.clientBeat.isTimeout t.now = false := by
  have h : Timely id delay connectTime t ∧ Watched delay latency t := by
    refine Machine.invariant_of_respects (P := fun t => Timely id delay connectTime t ∧
      Watched delay latency t) (fun t action t' h hcond hstep => ?_) hrun hcond
      ⟨timely_initial id delay connectTime, watched_initial id delay hconnect⟩
    rw [Bool.and_eq_true] at hcond
    exact ⟨timely_step h.1 hcond.1 hstep, watched_step h.1 h.2 hcond.1 hcond.2 hstep⟩
  rcases h.2.watched hopen hlive with ⟨⟨base, hclient⟩, base', hsession⟩
  have hheard : t.now ≤ t.sessionBeat.lastActivity + (heartbeatInterval + delay + 2 * latency) :=
    hclient.recent
  have hheard' : t.now ≤ t.clientBeat.lastActivity + (heartbeatInterval + delay + 2 * latency) :=
    hsession.recent
  rw [Heartbeat.isTimeout, Heartbeat.isTimeout, decide_eq_false_iff_not, decide_eq_false_iff_not]
  omega

/-- Both ends send a keepalive after five seconds, and both are heard a second
    later. Nothing more happens until just before the next ticks. -/
def keepalivesGetThrough : List Action :=
  [.act .accept, .advance heartbeatInterval, .sessionExpire, .sessionTick, .clientExpire,
    .clientTick, .advance (10 ^ 9), .act (.sessionTransmit 8), .act (.clientTransmit 8),
    .act .clientArrive, .act .sessionArrive, .act (.client .read), .act (.session .read),
    .act (.client (.write true)), .act (.session (.write true)), .advance (4 * 10 ^ 9)]

theorem no_false_alarm_keepalivesGetThrough :
    heartbeatInterval + 10 ^ 9 + 2 * 10 ^ 9 < heartbeatTimeout ∧
    ∃ t, Machine.run (step 1) (initial 1 (10 ^ 9)) keepalivesGetThrough = some t ∧
      t.now = 11 * 10 ^ 9 ∧
      t.sessionBeat.isTimeout t.now = false ∧ t.clientBeat.isTimeout t.now = false := by
  have hend : (Machine.run (step 1) (initial 1 (10 ^ 9)) keepalivesGetThrough).map (fun t => decide
      (t.connection.sessionOpen = true ∧ t.connection.client.live = true ∧ t.now = 11 * 10 ^ 9))
      = some true := by
    decide +kernel
  rcases Option.map_eq_some_iff.mp hend with ⟨t, hrun, ht⟩
  rcases of_decide_eq_true ht with ⟨hopen, hlive, hnow⟩
  have hcond : Machine.Respects (step 1) (fun t a => prompt (10 ^ 9) t a && swift (10 ^ 9) t a)
      (initial 1 (10 ^ 9)) keepalivesGetThrough = true := by
    decide +kernel
  exact ⟨by decide, t, hrun, hnow, no_false_alarm 1 (10 ^ 9) (10 ^ 9) (10 ^ 9)
    keepalivesGetThrough t (by decide) (by decide) hrun hcond hopen hlive⟩

end TimedConnection

end ProjectNight
