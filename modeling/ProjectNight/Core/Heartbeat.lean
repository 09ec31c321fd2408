import ProjectNight.Core.Connection

/-!
# Heartbeats

The part of `Session.cpp` and `Client.cpp` that looks at the clock:
`start_heartbeat`, the handler of its timer, and `last_activity_`. In
`Session.lean` and `Client.lean` a tick may come at any time with any outcome;
here a connection gets a clock, and ticks come from the timers.

A timer is set for `HEARTBEAT_INTERVAL`. When it runs out, its handler is
queued, and cancelling the timer from then on comes too late: the handler will
run as if nothing had happened. Cancelling it earlier queues the handler with
an error, and the handler returns at once. Both ends cancel the timer when they
close the socket, and only then.

The handler of a timer compares the time since `last_activity_` with
`HEARTBEAT_TIMEOUT`. Below it, it sends a keepalive and sets the timer again,
also when the keepalive was one frame too many and the end has just been lost
over it, or was lost while the handler was queued.

`toServerTimes` and `toClientTimes` are history variables: for every frame that
was put into a write queue and whose header has not been handled on the other
side, the time at which it was put there.

Time is counted in nanoseconds. The client's clock starts with the construction
of `Impl`, which is when `last_activity` is set for the first time; connecting
takes until `connectTime`.

## Main definitions

* `Timer`: The state of a `steady_timer` and of its handler.
* `Heartbeat`: The timer and `last_activity_` of one end.
* `TimedConnection`: A connection with a clock.
* `TimedConnection.Action`, `TimedConnection.step`: Time, the timers, or a step
  of the connection.
-/

namespace ProjectNight

open Wire

/-- `HEARTBEAT_INTERVAL`. -/
def heartbeatInterval : Nat := 5000000000

/-- `HEARTBEAT_TIMEOUT`. -/
def heartbeatTimeout : Nat := 15000000000

inductive Timer where
  /-- No wait is outstanding. -/
  | off
  | armed (deadline : Nat)
  /-- The handler is queued, without an error. -/
  | expired (deadline : Nat)
  /-- The handler is queued, with `operation_aborted`. -/
  | aborted
  deriving DecidableEq, Repr

namespace Timer

def cancel : Timer → Timer
  | .armed _ => .aborted
  | timer => timer

/-- When the timer ran out or will run out, while its handler has a tick to
    do. -/
def deadline? : Timer → Option Nat
  | .armed deadline | .expired deadline => some deadline
  | _ => none

end Timer

structure Heartbeat where
  timer : Timer := .off
  lastActivity : Nat := 0
  deriving DecidableEq, Repr

namespace Heartbeat

def startHeartbeat (h : Heartbeat) (now : Nat) : Heartbeat :=
  { h with timer := .armed (now + heartbeatInterval) }

/-- The test of the timer's handler. -/
def isTimeout (h : Heartbeat) (now : Nat) : Bool := now - h.lastActivity ≥ heartbeatTimeout

/-- The timer after its handler, which runs when the timer is not set. -/
def onTick (h : Heartbeat) (now : Nat) : Heartbeat :=
  if h.isTimeout now then { h with timer := .off } else h.startHeartbeat now

/-- The timer runs out. -/
def expire (h : Heartbeat) (now : Nat) : Option Heartbeat :=
  match h.timer with
  | .armed deadline =>
    if deadline ≤ now then some { h with timer := .expired deadline } else none
  | _ => none

/-- The handler of a timer that was cancelled. -/
def onAborted (h : Heartbeat) : Option Heartbeat :=
  match h.timer with
  | .aborted => some { h with timer := .off }
  | _ => none

/-- What a handler of either end does to its heartbeat. -/
def follow (h : Heartbeat) (now : Nat) (hears closes : Bool) : Heartbeat where
  timer := if closes then h.timer.cancel else h.timer
  lastActivity := if hears then now else h.lastActivity

end Heartbeat

/-- The handler of a header read gets as far as `last_activity_`. -/
def Session.hears (s : Session) : SessionAction → Bool
  | .read =>
    match s.reader with
    | .completed .header bytes => (Reader.afterHeader bytes).isSome
    | _ => false
  | _ => false

def Client.hears (c : Client) : ClientAction → Bool
  | .read =>
    match c.reader with
    | .completed .header bytes => !c.shuttingDown && (Reader.afterHeader bytes).isSome
    | _ => false
  | _ => false

/-- The handler calls `close_socket`. -/
def Client.closes (c : Client) (action : ClientAction) (c' : Client) : Bool :=
  (c.socketOpen && !c'.socketOpen) || (action = .task && c.io.head? = some .shutdown)

/-- A tick of a heartbeat. -/
def Connection.Action.isHeartbeat : Connection.Action → Bool
  | .session (.heartbeat _) | .client (.heartbeat _) => true
  | _ => false

namespace Connection

/-- What the step does to the heartbeat of the session. -/
def sessionHears (c : Connection) : Action → Bool
  | .session action => c.session.any (fun s => s.hears action)
  | _ => false

/-- The step calls `handle_close` for the first time. -/
def sessionCloses (c c' : Connection) : Bool :=
  c.session.any (fun s => !s.closed) && c'.session.any Session.closed

def clientHears (c : Connection) : Action → Bool
  | .client action => c.client.hears action
  | _ => false

def clientCloses (c : Connection) (action : Action) (c' : Connection) : Bool :=
  match action with
  | .client action => c.client.closes action c'.client
  | _ => false

/-- The frames the session has put into its write queue. -/
def sessionFrames (c : Connection) : List Bytes :=
  ((c.session.map Session.writer).getD {}).accepted

end Connection

structure TimedConnection where
  connection : Connection
  now : Nat
  sessionBeat : Heartbeat := {}
  clientBeat : Heartbeat
  toServerTimes : List Nat := []
  toClientTimes : List Nat := []

namespace TimedConnection

/-- The client has connected. -/
def initial (id : UInt32) (connectTime : Nat) : TimedConnection where
  connection := .initial id
  now := connectTime
  clientBeat := Heartbeat.startHeartbeat {} connectTime

/-- The times of the frames under way, after a step in which a header was heard
    or a frame was put under way. -/
def track (times : List Nat) (now : Nat) (heard sent : Bool) : List Nat :=
  (if heard then times.tail else times) ++ (if sent then [now] else [])

/-- What a step of the connection does to the heartbeats. A session starts its
    own when it is accepted. -/
def follow (t : TimedConnection) (action : Connection.Action) (next : Connection) :
    TimedConnection :=
  let c := t.connection
  { t with
    connection := next
    sessionBeat :=
      if c.session.isNone && next.session.isSome then
        Heartbeat.startHeartbeat { lastActivity := t.now } t.now
      else t.sessionBeat.follow t.now (c.sessionHears action) (c.sessionCloses next)
    clientBeat := t.clientBeat.follow t.now (c.clientHears action) (c.clientCloses action next)
    toServerTimes := track t.toServerTimes t.now (c.sessionHears action)
      (c.client.writer.accepted.length < next.client.writer.accepted.length)
    toClientTimes := track t.toClientTimes t.now (c.clientHears action)
      (c.sessionFrames.length < next.sessionFrames.length) }

inductive Action where
  | advance (duration : Nat)
  /-- Anything but a heartbeat. -/
  | act (action : Connection.Action)
  | sessionExpire
  | sessionTick
  | sessionAborted
  | clientExpire
  | clientTick
  | clientAborted
  deriving DecidableEq, Repr

def step (id : UInt32) (t : TimedConnection) : Action → Option TimedConnection
  | .advance duration => some { t with now := t.now + duration }
  | .act action =>
    if action.isHeartbeat then none else (t.connection.step id action).map (t.follow action)
  | .sessionExpire => (t.sessionBeat.expire t.now).map (fun sessionBeat => { t with sessionBeat })
  | .sessionTick =>
    match t.sessionBeat.timer with
    | .expired _ =>
      let tick := .session (.heartbeat (t.sessionBeat.isTimeout t.now))
      (t.connection.step id tick).map (fun next =>
        { t.follow tick next with sessionBeat := t.sessionBeat.onTick t.now })
    | _ => none
  | .sessionAborted => t.sessionBeat.onAborted.map (fun sessionBeat => { t with sessionBeat })
  | .clientExpire => (t.clientBeat.expire t.now).map (fun clientBeat => { t with clientBeat })
  | .clientTick =>
    match t.clientBeat.timer with
    | .expired _ =>
      let tick := .client (.heartbeat (t.clientBeat.isTimeout t.now))
      (t.connection.step id tick).map (fun next =>
        { t.follow tick next with clientBeat := t.clientBeat.onTick t.now })
    | _ => none
  | .clientAborted => t.clientBeat.onAborted.map (fun clientBeat => { t with clientBeat })

end TimedConnection

end ProjectNight
