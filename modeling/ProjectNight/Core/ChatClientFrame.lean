import ProjectNight.Core.ChatProtocolClient

/-!
# Chat Client Frame

`ChatClientFrame.cpp`: the window of the client, as far as the connection is
concerned. The GUI thread runs one event handler at a time while the I/O
thread of the transport keeps working, and `OnPollTimer` looks at the
transport several times: it asks twice whether it is connected, and polls in
between. A call is therefore a sequence of steps with the I/O thread running
in between (`TimerCall`). Each of the other handlers is one step.

Input that `OnConnectClicked` rejects with a message box leaves everything as
it was, so only connections that are established are steps. The handlers of
the `Refresh`, `Join` and `Send` buttons differ in the request they send; which
one is up to the user. What the widgets display is not kept here: each event
given to `ProcessProtocolEvent` is recorded instead.

Two history variables: `processed`, the events given to
`ProcessProtocolEvent` since the last connect, and `late`, which is set while
the latest handler was a call of `OnPollTimer` that began with a transport
already disconnected, to the payloads that transport had received before it
went disconnected.

## Main definitions

* `Controls`, `setConnectionState`: The controls that follow the connection.
* `TimerCall`: Where a call of `OnPollTimer` stands.
* `ChatClientFrame` and its handlers.
* `ChatClientFrame.Action`, `ChatClientFrame.step`: A handler of the window,
  the next step of `OnPollTimer`, or a handler of the I/O thread.
-/

namespace ProjectNight

/-- Which of the controls are enabled. -/
structure Controls where
  host : Bool
  port : Bool
  connect : Bool
  refreshRooms : Bool
  joinRoom : Bool
  messageInput : Bool
  send : Bool
  deriving DecidableEq, Repr

/-- `SetConnectionState`. -/
def setConnectionState (connected : Bool) : Controls where
  host := !connected
  port := !connected
  connect := !connected
  refreshRooms := connected
  joinRoom := connected
  messageInput := connected
  send := connected

/-- Where a call of `OnPollTimer` stands: none is running, it has begun, it is
    in the loop of `PollEvents`, it is processing the events, or it is about to
    ask for the connection again. -/
inductive TimerCall where
  | idle
  | entered
  | polling (events : List ChatProtocolEvent)
  | processing (events : List ChatProtocolEvent)
  | checking
  deriving DecidableEq, Repr

structure ChatClientFrame where
  protocolClient : ChatProtocolClient := {}
  controls : Controls := setConnectionState false
  timerCall : TimerCall := .idle
  closed : Bool := false
  processed : List ChatProtocolEvent := []
  late : Option (List Bytes) := none
  deriving DecidableEq, Repr

namespace ChatClientFrame

variable (codec : Codec)

/-- `OnConnectClicked`, when the connection was established. -/
def onConnectClicked (f : ChatClientFrame) (displayName : Bytes) : ChatClientFrame :=
  let protocolClient := f.protocolClient.connect
  let protocolClient := protocolClient.sendLoginRequest codec displayName
  let protocolClient := protocolClient.sendRoomListRequest codec
  { f with
    protocolClient, controls := setConnectionState true
    processed := [], late := none }

/-- `OnRefreshRoomsClicked`, `OnJoinRoomClicked` and `OnSendClicked`. -/
def onRequestClicked (f : ChatClientFrame) (payload : MessagePayload) : ChatClientFrame :=
  if !f.protocolClient.isConnected then { f with late := none }
  else { f with protocolClient := f.protocolClient.sendRequest codec payload, late := none }

def onClose (f : ChatClientFrame) : ChatClientFrame :=
  { f with protocolClient := f.protocolClient.disconnect, closed := true, late := none }

/-- The timer fires. -/
def onPollTimer (f : ChatClientFrame) : ChatClientFrame :=
  { f with
    timerCall := .entered
    late := (f.protocolClient.client.filter (fun client => !client.connected)).map
      Client.received }

/-- The next step of a call of `OnPollTimer`, when one is running. -/
def timerStep (f : ChatClientFrame) : Option ChatClientFrame :=
  match f.timerCall with
  | .idle => none
  | .entered =>
    if !f.protocolClient.isConnected then some { f with timerCall := .idle }
    else some { f with timerCall := .polling [] }
  | .polling events =>
    match f.protocolClient.pollPacket with
    | some (data, protocolClient) =>
      some { f with protocolClient, timerCall := .polling (events ++ decodePacket codec data) }
    | none => some { f with timerCall := .processing events }
  | .processing (event :: events) =>
    some { f with timerCall := .processing events, processed := f.processed ++ [event] }
  | .processing [] => some { f with timerCall := .checking }
  | .checking =>
    if !f.protocolClient.isConnected then
      some { f with
        protocolClient := f.protocolClient.disconnect
        controls := setConnectionState false
        timerCall := .idle }
    else some { f with timerCall := .idle }

/-- A handler of the I/O thread. -/
def onIo (f : ChatClientFrame) (action : ClientAction) : Option ChatClientFrame :=
  match f.protocolClient.client with
  | none => none
  | some client => (client.step action).map (fun client =>
      { f with protocolClient := { f.protocolClient with client := some client } })

/-- A handler of the window, the next step of `OnPollTimer`, or a handler of
    the I/O thread. -/
inductive Action where
  | connectClicked (displayName : Bytes)
  | requestClicked (payload : MessagePayload)
  | close
  | timer
  | timerStep
  | io (action : ClientAction)
  deriving DecidableEq, Repr

/-- No handler starts while a call of `OnPollTimer` is running, a button works
    while it is enabled, and the timer stops when the window closes. -/
def step (f : ChatClientFrame) : Action → Option ChatClientFrame
  | .connectClicked displayName =>
    if f.timerCall = .idle ∧ f.closed = false ∧ f.controls.connect = true then
      some (f.onConnectClicked codec displayName)
    else none
  | .requestClicked payload =>
    if f.timerCall = .idle ∧ f.closed = false ∧ f.controls.send = true then
      some (f.onRequestClicked codec payload)
    else none
  | .close => if f.timerCall = .idle ∧ f.closed = false then some f.onClose else none
  | .timer => if f.timerCall = .idle ∧ f.closed = false then some f.onPollTimer else none
  | .timerStep => f.timerStep codec
  | .io action => f.onIo action

end ChatClientFrame

end ProjectNight
