import ProjectNight.Theory.Kinds

/-!
# Transcripts

Two runs of the server are compared by what they send to whom. The wall clock
must not count: a broadcast carries the reading made while it was built, and
another run makes other readings. `timeless` clears it, and the transcript of
a run is everything it built with the timestamps cleared. An event adds to the
transcript what its effect says, whatever the clock shows
(`handleEvent_timeless`).

What is sent is what passes the size guard of `QueueMessage`. The guard looks
at the finished buffer, timestamp included, so to compare what two runs send
one needs that the clock does not decide whether a broadcast fits. `ChatsFit`
is that assumption about the builder: a broadcast of a short name and a short
line fits at any time. The login check keeps names short and the chat check
keeps lines short (`short_effect`), so under it the messages queued for a
session are those of its part of the transcript that fit
(`messagesFor_queued`).

## Main definitions

* `Message.timeless`, `OutgoingMessage.timeless`: The timestamp cleared.
* `transcript`: Everything built so far, timestamps aside.
* `queued`: Everything queued so far, timestamps aside.
* `Env.ChatsFit`: Short broadcasts fit at any time.

## Theorems

* `effect_clock`: The clock only fills in timestamps.
* `handleEvent_timeless`: What an event adds to the transcript.
* `short_effect`, `short_update`: Broadcasts are short.
* `queued_update`, `messagesFor_queued`: What is queued of a transcript.
-/

namespace ProjectNight

/-- The message with the timestamp of a broadcast cleared. -/
def Message.timeless (m : Message) : Message :=
  match m.payload with
  | .chatBroadcast (some table) =>
      { m with payload := .chatBroadcast (some { table with timestamp := 0 }) }
  | _ => m

def OutgoingMessage.timeless (out : OutgoingMessage) : OutgoingMessage :=
  { out with payload := out.payload.timeless }

/-- The effect of an event with the clock left out. -/
def timelessEffect (env : Env) (rs : RoomSystem) (event : ServerEvent) : Effect :=
  let e := effect env 0 rs event
  { e with messages := e.messages.map OutgoingMessage.timeless }

/-- A broadcast to everybody in a list, with the timestamps cleared. -/
theorem map_timeless_chat (session : SessionState) (content : Bytes) (clock : Nat → UInt64)
    (l : List SessionState) (reads : Nat) :
    ((l.zipIdx reads).map (fun p => (⟨p.1.sessionId,
      chatBroadcastMessage session content (clock p.2)⟩ : OutgoingMessage))).map
        OutgoingMessage.timeless
      = l.map (fun member => ⟨member.sessionId, chatBroadcastMessage session content 0⟩) := by
  induction l generalizing reads with
  | nil => rfl
  | cons member l ih =>
      rw [List.zipIdx_cons, List.map_cons, List.map_cons, List.map_cons, ih]
      rfl

/-- The clock only fills in timestamps. -/
theorem effect_clock (env : Env) (clock : Nat → UInt64) (reads : Nat) (rs : RoomSystem)
    (event : ServerEvent) :
    let e := effect { env with currentTimestampMs := clock } reads rs event
    e.change = (timelessEffect env rs event).change ∧
    e.messages.map OutgoingMessage.timeless = (timelessEffect env rs event).messages ∧
    e.disconnects = (timelessEffect env rs event).disconnects := by
  cases event with
  | chatSendRequest s requestId content =>
      refine ⟨rfl, ?_, rfl⟩
      simp only [timelessEffect, effect, chatMessages]
      cases rs.findSession s with
      | none => rfl
      | some session =>
          simp only
          split_ifs
          · rfl
          · rfl
          · rfl
          · rfl
          · rw [map_timeless_chat, map_timeless_chat]
  | sessionConnected s => exact ⟨rfl, rfl, rfl⟩
  | sessionDisconnected s => exact ⟨rfl, rfl, rfl⟩
  | invalidPacket s message => exact ⟨rfl, rfl, rfl⟩
  | loginRequest s requestId name => exact ⟨rfl, rfl, rfl⟩
  | roomListRequest s requestId => exact ⟨rfl, rfl, rfl⟩
  | joinRoomRequest s requestId r => exact ⟨rfl, rfl, rfl⟩
  | leaveRoomRequest s requestId => exact ⟨rfl, rfl, rfl⟩
  | disconnectRequest s requestId => exact ⟨rfl, rfl, rfl⟩

/-- Two states that look the same to an event give it the same effect. -/
theorem timelessEffect_congr {event : ServerEvent} {rs rs' : RoomSystem}
    (h : Agree event rs rs') (hc : rs.Consistent) (hc' : rs'.Consistent) (env : Env) :
    timelessEffect env rs event = timelessEffect env rs' event := by
  unfold timelessEffect
  rw [effect_congr h hc hc' env 0]

namespace GameLogicSystem

/-- Everything built so far, timestamps aside. -/
def transcript (g : GameLogicSystem) : List OutgoingMessage :=
  g.built.map OutgoingMessage.timeless

/-- Everything queued so far, timestamps aside. -/
def queued (g : GameLogicSystem) : List OutgoingMessage :=
  g.outgoingMessages.map OutgoingMessage.timeless

/-- What an event does, whatever the clock shows. -/
theorem handleEvent_timeless (env : Env) {g : GameLogicSystem} (hw : g.roomSystem.WellFormed)
    (clock : Nat → UInt64) (event : ServerEvent) :
    let g' := handleEvent { env with currentTimestampMs := clock } g event
    let e := timelessEffect env g.roomSystem event
    g'.roomSystem = g.roomSystem.change event.sessionId e.change ∧
    g'.transcript = g.transcript ++ e.messages ∧
    g'.pendingDisconnects = g.pendingDisconnects ++ e.disconnects := by
  intro g' e
  have hdoes := handleEvent_performs { env with currentTimestampMs := clock } hw event
  have hclock := effect_clock env clock g.clockReads g.roomSystem event
  refine ⟨?_, ?_, ?_⟩
  · rw [hdoes.roomSystem, hclock.1]
  · unfold transcript
    rw [hdoes.built, List.map_append, hclock.2.1]
  · rw [hdoes.pendingDisconnects, hclock.2.2]

end GameLogicSystem

theorem messagesFor_append (c : UInt32) (a b : List OutgoingMessage) :
    messagesFor c (a ++ b) = messagesFor c a ++ messagesFor c b := by
  unfold messagesFor
  rw [List.filter_append, List.map_append]

/-- Messages to others are not for `c`. -/
theorem messagesFor_eq_nil {c : UInt32} {l : List OutgoingMessage}
    (h : ∀ out ∈ l, out.sessionId ≠ c) : messagesFor c l = [] := by
  unfold messagesFor
  rw [List.map_eq_nil_iff, List.filter_eq_nil_iff]
  intro out hout
  simp only [h out hout, decide_false, Bool.false_eq_true, not_false_eq_true]

/-! ### Broadcasts are short -/

/-- If the message is a broadcast, its name and its line passed the checks. -/
def Message.ShortChat (m : Message) : Prop :=
  ∀ table, m.payload = .chatBroadcast (some table) →
    (toUtf8 table.senderName).length ≤ maxDisplayNameBytes ∧
      (toUtf8 table.content).length ≤ maxChatMessageBytes

/-- FlatBuffers adds far less than the remaining bytes of a payload to a short
    name and a short line, whatever the timestamp. -/
def Env.ChatsFit (env : Env) : Prop :=
  ∀ m : Message, (∃ table, m.payload = .chatBroadcast (some table)) → m.ShortChat →
    env.fits m = true

/-- The two strings of a broadcast are not those of its timestamp. -/
theorem Message.shortChat_timeless {m : Message} (h : m.ShortChat) : m.timeless.ShortChat := by
  intro table htable
  unfold timeless at htable
  split at htable
  · rename_i old hold
    rw [MessagePayload.chatBroadcast.injEq, Option.some.injEq] at htable
    rw [← htable]
    exact h old hold
  · exact h table htable

theorem Message.fits_timeless {env : Env} (henv : env.ChatsFit) {m : Message}
    (h : m.ShortChat) : env.fits m.timeless = env.fits m := by
  by_cases hchat : ∃ table, m.payload = .chatBroadcast (some table)
  · -- Both pass the guard.
    rw [henv m hchat h]
    refine henv m.timeless ?_ (Message.shortChat_timeless h)
    rcases hchat with ⟨table, htable⟩
    unfold timeless
    rw [htable]
    exact ⟨_, rfl⟩
  · have hsame : m.timeless = m := by
      unfold timeless
      split
      · exact absurd ⟨_, ‹_›⟩ hchat
      · rfl
    rw [hsame]

def Message.isChat (m : Message) : Bool :=
  match m.payload with
  | .chatBroadcast _ => true
  | _ => false

/-- A message of any other kind is no broadcast at all. -/
theorem Message.shortChat_of_not_isChat {m : Message} (h : m.isChat = false) : m.ShortChat := by
  intro table htable
  rw [Message.isChat, htable] at h
  exact absurd h.symm Bool.false_ne_true

/-- Every broadcast in a list of messages is short. -/
def ShortChats (l : List OutgoingMessage) : Prop := ∀ out ∈ l, out.payload.ShortChat

theorem shortChats_nil : ShortChats [] := fun _ hout => absurd hout List.not_mem_nil

theorem shortChats_append {a b : List OutgoingMessage} (ha : ShortChats a)
    (hb : ShortChats b) : ShortChats (a ++ b) := by
  intro out hout
  rcases List.mem_append.mp hout with hout | hout
  · exact ha out hout
  · exact hb out hout

/-- The name in a broadcast passed the login check, and the line its own. -/
theorem short_effect (env : Env) {rs : RoomSystem} (hw : rs.WellFormed) (reads : Nat)
    (event : ServerEvent) : ShortChats (effect env reads rs event).messages := by
  intro out hout
  have hbuilds := builds_of_mem hw hout
  generalize out.payload = m at hbuilds
  cases hbuilds with
  | chat s requestId content session timestamp hs hlogged hlen =>
      intro table htable
      simp only [chatBroadcastMessage, MessagePayload.chatBroadcast.injEq,
        Option.some.injEq] at htable
      have hname := (hw.name_bounds s session hs hlogged).2
      have hshown := length_cStr_le session.displayName
      have hline := length_cStr_le content
      rw [← htable]
      simp only [createChatBroadcastDirect, toUtf8, Option.getD_some]
      omega
  | _ => exact Message.shortChat_of_not_isChat rfl

namespace GameLogicSystem

theorem wellFormed_handleEvent (env : Env) {g : GameLogicSystem}
    (hw : g.roomSystem.WellFormed) (event : ServerEvent) :
    (handleEvent env g event).roomSystem.WellFormed := by
  have hemits : Emits env (fun _ _ _ => True) g (handleEvent env g event) :=
    handleEvent_emits hw event (fun _ _ _ _ _ => trivial)
  exact hemits.wellFormed hw

/-- Every broadcast of a run is short. -/
theorem short_update {env : Env} (events : List ServerEvent) {g : GameLogicSystem}
    (hw : g.roomSystem.WellFormed) (hg : ShortChats g.built) :
    ShortChats (update env g events).built := by
  induction events generalizing g with
  | nil => exact hg
  | cons event events ih =>
      refine ih (wellFormed_handleEvent env hw event) ?_
      rw [(handleEvent_performs env hw event).built]
      exact shortChats_append hg (short_effect env hw g.clockReads event)

/-- What was queued is what fits of the transcript. -/
theorem queued_eq {env : Env} (henv : env.ChatsFit) {g : GameLogicSystem}
    (hsync : Synced env g) (hshort : ShortChats g.built) :
    g.queued = g.transcript.filter (fun out => env.fits out.payload) := by
  unfold Synced at hsync
  unfold queued transcript built
  rw [hsync, List.map_map, List.map_map, List.filter_map]
  refine congrArg₂ List.map rfl (List.filter_congr (fun call hcall => ?_))
  exact (Message.fits_timeless henv (hshort call.outgoing (List.mem_map_of_mem hcall))).symm

theorem queued_update {env : Env} (henv : env.ChatsFit) (events : List ServerEvent) :
    (update env initial events).queued
      = (update env initial events).transcript.filter (fun out => env.fits out.payload) := by
  have hinit : Synced env initial := rfl
  exact queued_eq henv (synced_update hinit events)
    (short_update events RoomSystem.wellFormed_init shortChats_nil)

/-- The messages queued for one session, from its part of the transcript. -/
theorem messagesFor_queued (env : Env) (henv : env.ChatsFit) (events : List ServerEvent)
    (c : UInt32) : messagesFor c (update env initial events).queued
      = (messagesFor c (update env initial events).transcript).filter env.fits := by
  rw [queued_update henv]
  unfold messagesFor
  rw [List.filter_filter, List.filter_map, List.filter_filter]
  refine congrArg (List.map OutgoingMessage.payload) (List.filter_congr (fun out _ => ?_))
  exact Bool.and_comm _ _

end GameLogicSystem

end ProjectNight
