import ProjectNight.Core.ChatClientFrame
import ProjectNight.Lib.Machine
import ProjectNight.Theory.Names
import ProjectNight.Theory.Transitions

/-!
# The Poll Timer and a Lost Connection

`OnPollTimer` notices a lost connection only when the connection is lost
during the call: it asks at its beginning whether the transport is connected
and returns if not, and the code that resets the transport and enables the
`Connect` button stands behind that. The I/O thread clears `connected`
whenever it likes, nearly always between two ticks. Every tick from then on
begins with a transport already disconnected, and returns at once.

So the property one would want of such ticks (`Settled`) holds of none of
them. The transport stays, whatever it had received stays in its queue, and
the controls stay as they were set on connecting, with the `Connect` button
disabled, until the window is closed.

## Main definitions

* `Settled`: What a tick after the disconnect should leave behind.
* `LostWhileIdle`: The invariant.

## Theorems

* `Client.connected_step`: A transport never becomes connected again.
* `lostWhileIdle_step`: A late tick goes no further than its first question.
* `not_settled_of_late`: No late tick settles anything.
-/

namespace ProjectNight

/-! ### The transport stays disconnected -/

/-- No handler of the I/O thread sets `connected` again. -/
theorem Client.connected_step {c c' : Client} {action : ClientAction} (h : c.connected = false)
    (hstep : c.step action = some c') : c'.connected = false := by
  cases step_change hstep with
  | taskShutdown => rfl
  | taskOverflow | headerStop | bodyDiscarded | readError | writeStop | timeout
  | keepaliveOverflow => rw [handleDisconnect_eq]
  | copied =>
      unfold onCopied
      split_ifs
      all_goals exact h
  | _ => exact h

/-! ### Late ticks -/

namespace ChatClientFrame

variable (codec : Codec)

/-- What a tick after the disconnect should leave behind: the events of every
    payload received before it are processed, the transport is gone, and the
    controls are those of a disconnected window. -/
structure Settled (received : List Bytes) (f : ChatClientFrame) : Prop where
  handed : received.flatMap (decodePacket codec) <+: f.processed
  reset : f.protocolClient.client = none
  disconnected : f.controls = setConnectionState false

variable {codec}

/-- A late tick has not got beyond its first question, and while there is a
    transport the controls are those of a connected window. -/
structure LostWhileIdle (f : ChatClientFrame) : Prop where
  controls : f.protocolClient.client.isSome → f.controls = setConnectionState true
  late : f.late.isSome → (f.timerCall = .idle ∨ f.timerCall = .entered) ∧
    ∃ client, f.protocolClient.client = some client ∧ client.connected = false

/-- Handlers of the window other than `OnPollTimer` forget about late ticks. -/
theorem lostWhileIdle_of_late {f : ChatClientFrame} (hlate : f.late = none)
    (hcontrols : f.protocolClient.client.isSome → f.controls = setConnectionState true) :
    LostWhileIdle f := by
  refine ⟨hcontrols, fun h => ?_⟩
  rw [hlate] at h
  exact absurd h Bool.false_ne_true

theorem isSome_sendRequest (p : ChatProtocolClient) (payload : MessagePayload) :
    (p.sendRequest codec payload).client.isSome = p.client.isSome := by
  unfold ChatProtocolClient.sendRequest
  cases h : p.client with
  | none =>
      simp only
      rw [h]
  | some client => rfl

theorem isSome_pollPacket {p p' : ChatProtocolClient} {data : Bytes}
    (h : p.pollPacket = some (data, p')) : p.client.isSome := by
  unfold ChatProtocolClient.pollPacket at h
  cases hclient : p.client with
  | none => simp only [hclient, reduceCtorEq] at h
  | some client => rfl

theorem lostWhileIdle_onPollTimer {f : ChatClientFrame} (h : LostWhileIdle f) :
    LostWhileIdle f.onPollTimer := by
  refine ⟨h.controls, fun hlate => ⟨Or.inr rfl, ?_⟩⟩
  rw [onPollTimer, Option.isSome_map] at hlate
  rcases Option.isSome_iff_exists.mp hlate with ⟨client, hclient⟩
  rw [Option.filter_eq_some_iff, Bool.not_eq_true'] at hclient
  exact ⟨client, hclient⟩

/-- The steps of a call. A late one ends at its first step, and the others are
    not late. -/
theorem lostWhileIdle_timerStep {f f' : ChatClientFrame} (h : LostWhileIdle f)
    (hstep : f.timerStep codec = some f') : LostWhileIdle f' := by
  unfold timerStep at hstep
  -- Beyond the first question, `late` is not set.
  have hnone : f.timerCall ≠ .idle → f.timerCall ≠ .entered → f.late = none := by
    intro hidle hentered
    refine Option.not_isSome_iff_eq_none.mp (fun hlate => ?_)
    rcases (h.late hlate).1 with h1 | h1
    · exact hidle h1
    · exact hentered h1
  cases hcall : f.timerCall with
  | idle => simp only [hcall, reduceCtorEq] at hstep
  | entered =>
      simp only [hcall] at hstep
      split_ifs at hstep with hconnected
      · rw [← Option.some.inj hstep]
        exact ⟨h.controls, fun hlate => ⟨Or.inl rfl, (h.late hlate).2⟩⟩
      · rw [← Option.some.inj hstep]
        refine ⟨h.controls, fun hlate => ?_⟩
        rcases (h.late hlate).2 with ⟨client, hclient, hlost⟩
        rw [ChatProtocolClient.isConnected, hclient, Option.any_some, hlost] at hconnected
        exact absurd rfl hconnected
  | polling events =>
      simp only [hcall] at hstep
      have hlate := hnone (by rw [hcall]; exact TimerCall.noConfusion)
        (by rw [hcall]; exact TimerCall.noConfusion)
      split at hstep
      · next data protocolClient hpoll =>
          rw [← Option.some.inj hstep]
          exact lostWhileIdle_of_late hlate (fun _ => h.controls (isSome_pollPacket hpoll))
      · rw [← Option.some.inj hstep]
        exact lostWhileIdle_of_late hlate h.controls
  | processing events =>
      have hlate := hnone (by rw [hcall]; exact TimerCall.noConfusion)
        (by rw [hcall]; exact TimerCall.noConfusion)
      cases events with
      | nil =>
          simp only [hcall] at hstep
          rw [← Option.some.inj hstep]
          exact lostWhileIdle_of_late hlate h.controls
      | cons event events =>
          simp only [hcall] at hstep
          rw [← Option.some.inj hstep]
          exact lostWhileIdle_of_late hlate h.controls
  | checking =>
      have hlate := hnone (by rw [hcall]; exact TimerCall.noConfusion)
        (by rw [hcall]; exact TimerCall.noConfusion)
      simp only [hcall] at hstep
      split_ifs at hstep
      · rw [← Option.some.inj hstep]
        exact lostWhileIdle_of_late hlate (fun hsome => absurd hsome Bool.false_ne_true)
      · rw [← Option.some.inj hstep]
        exact lostWhileIdle_of_late hlate h.controls

theorem lostWhileIdle_onIo {f f' : ChatClientFrame} (h : LostWhileIdle f)
    {action : ClientAction} (hstep : f.onIo action = some f') : LostWhileIdle f' := by
  unfold onIo at hstep
  cases hclient : f.protocolClient.client with
  | none => simp only [hclient, reduceCtorEq] at hstep
  | some client =>
      simp only [hclient, Option.map_eq_some_iff] at hstep
      rcases hstep with ⟨client', hio, hf'⟩
      rw [← hf']
      refine ⟨fun _ => h.controls (by rw [hclient, Option.isSome_some]), fun hlate => ?_⟩
      rcases h.late hlate with ⟨hcall, client'', hclient'', hlost⟩
      rw [hclient, Option.some.injEq] at hclient''
      rw [← hclient''] at hlost
      exact ⟨hcall, client', rfl, Client.connected_step hlost hio⟩

theorem lostWhileIdle_step (f : ChatClientFrame) (action : Action) (f' : ChatClientFrame)
    (h : LostWhileIdle f) (hstep : f.step codec action = some f') : LostWhileIdle f' := by
  cases action with
  | connectClicked displayName =>
      rw [step] at hstep
      split_ifs at hstep
      rw [← Option.some.inj hstep]
      exact lostWhileIdle_of_late rfl (fun _ => rfl)
  | requestClicked payload =>
      rw [step] at hstep
      split_ifs at hstep
      rw [← Option.some.inj hstep, onRequestClicked]
      split_ifs
      · exact lostWhileIdle_of_late rfl h.controls
      · refine lostWhileIdle_of_late rfl (fun hsome => h.controls ?_)
        rw [isSome_sendRequest] at hsome
        exact hsome
  | close =>
      rw [step] at hstep
      split_ifs at hstep
      rw [← Option.some.inj hstep]
      exact lostWhileIdle_of_late rfl (fun hsome => absurd hsome Bool.false_ne_true)
  | timer =>
      rw [step] at hstep
      split_ifs at hstep
      rw [← Option.some.inj hstep]
      exact lostWhileIdle_onPollTimer h
  | timerStep => exact lostWhileIdle_timerStep h hstep
  | io action => exact lostWhileIdle_onIo h hstep

/-- In every run, no call of `OnPollTimer` that begins with a transport already
    disconnected settles the frame, neither while it runs nor when it has
    ended: the transport is still there, and the `Connect` button is disabled. -/
theorem not_settled_of_late (codec : Codec) (actions : List Action) (f : ChatClientFrame)
    (hrun : Machine.run (step codec) {} actions = some f) (received : List Bytes)
    (hlate : f.late = some received) :
    ¬ Settled codec received f ∧ f.protocolClient.client.isSome ∧
      f.controls.connect = false := by
  have h : LostWhileIdle f := Machine.invariant lostWhileIdle_step hrun
    (lostWhileIdle_of_late rfl (fun hsome => absurd hsome Bool.false_ne_true))
  rcases (h.late (by rw [hlate, Option.isSome_some])).2 with ⟨client, hclient, _⟩
  have hsome : f.protocolClient.client.isSome := by rw [hclient, Option.isSome_some]
  refine ⟨fun hsettled => ?_, hsome, by rw [h.controls hsome]; rfl⟩
  rw [hsettled.reset] at hclient
  exact absurd hclient (by simp only [reduceCtorEq, not_false_eq_true])

/-- A codec for runs in which the one payload is too short for a table, so
    that no verifier accepts it. -/
def oneByteCodec : Codec where
  toEnv := sampleEnv
  verifiedMessage _ := none

/-- A client connects, receives one byte, and loses the connection before the
    next tick. -/
def lostBeforeTick : List Action :=
  [.connectClicked [97], .io (.arrive (Wire.writeHeader 0 1)), .io .read, .io (.arrive [7]),
    .io .read, .io .copied, .io .readError, .timer, .timerStep]

theorem not_settled_of_late_lostBeforeTick :
    ∃ f, Machine.run (step oneByteCodec) {} lostBeforeTick = some f ∧
      f.timerCall = .idle ∧ ¬ Settled oneByteCodec [[7]] f ∧ f.controls.connect = false := by
  have hend : (Machine.run (step oneByteCodec) {} lostBeforeTick).map (fun f =>
      (f.timerCall, f.late)) = some (.idle, some [[7]]) := by decide +kernel
  rcases Option.map_eq_some_iff.mp hend with ⟨f, hrun, hf⟩
  rw [Prod.mk.injEq] at hf
  have h := not_settled_of_late oneByteCodec lostBeforeTick f hrun [[7]] hf.2
  exact ⟨f, hrun, hf.1, h.1, h.2.2⟩

/-- After the tick, the byte has not been processed, the transport is there,
    and the window looks connected. -/
theorem unsettled_lostBeforeTick :
    ∃ f, Machine.run (step oneByteCodec) {} lostBeforeTick = some f ∧
      f.timerCall = .idle ∧ f.late = some [[7]] ∧ f.processed = [] ∧
      f.protocolClient.client.isSome ∧ f.controls = setConnectionState true ∧
      ¬ Settled oneByteCodec [[7]] f := by
  have hend : (Machine.run (step oneByteCodec) {} lostBeforeTick).map (fun f =>
      (f.timerCall, f.late, f.processed, f.protocolClient.client.isSome,
        decide (f.controls = setConnectionState true)))
          = some (.idle, some [[7]], [], true, true) := by decide +kernel
  rcases Option.map_eq_some_iff.mp hend with ⟨f, hrun, hf⟩
  simp only [Prod.mk.injEq, decide_eq_true_eq] at hf
  rcases hf with ⟨hcall, hlate, hprocessed, hsome, hcontrols⟩
  refine ⟨f, hrun, hcall, hlate, hprocessed, hsome, hcontrols, fun h => ?_⟩
  rw [h.reset] at hsome
  exact absurd hsome Bool.false_ne_true

end ChatClientFrame

end ProjectNight
