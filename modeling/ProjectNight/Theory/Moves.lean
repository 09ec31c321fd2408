import ProjectNight.Core.GameLogicSystem
import ProjectNight.Lib.Trace
import ProjectNight.Theory.RoomInvariant

/-!
# What an Event Can Do

The nine handlers branch over login state, current room and target, and some
of them change membership twice. `Move` says once what all of that amounts to:
a session appears, gets a name, leaves its room, enters one, disappears, talks
to its room, or is answered without anybody else noticing. Each constructor
carries the guards its handler has checked by then and the exact list of
`QueueMessage` calls that goes with it.

`handleEvent_emits` shows that every handler, in a well-formed state, is a run
of moves whose outputs are the calls it appends to the record. A room switch
is a leave followed by an enter, and a disconnect a leave followed by a
removal, so a property proved once per move holds for all nine handlers and,
by `update_emits`, for every list of events.

`WellFormed` is the invariant the handlers rely on: the two copies of
membership agree, logged-in sessions have distinct names of admissible length,
and a session that is not logged in has neither a name nor a room. The last
part is why the `logged_in` checks in front of the notifications never skip
anybody.

A move that logs a session in takes a parameter `allowed`, a condition on the
state and the request. With the trivial condition a run is any run; a result
that holds only when certain logins do not happen instantiates it.

## Main definitions

* `WellFormed`: The invariant of the game state.
* `LoginAccepted`: The checks of `HandleLoginRequest`.
* `Move`: One atomic change and the calls that go with it.
* `Emits`: A run of moves between two states of the game logic.
* `LoginsAllowed`: Every accepted login of a list of events is allowed.

## Theorems

* `wellFormed_init`, `wellFormed_move`: The invariant.
* `handleEvent_emits`: A handler is a run of moves.
* `update_emits`: So is a list of events.
* `update_wellFormed`: The invariant holds after every list of events.
* `synced_update`, `outgoingMessages_update`: The outgoing queue is what the
  size guard left of the recorded calls.
-/

namespace ProjectNight

/-- The invariant of the game state. -/
structure RoomSystem.WellFormed (rs : RoomSystem) : Prop extends rs.Consistent where
  name_bounds : ∀ s session, rs.findSession s = some session → session.loggedIn = true →
    session.displayName ≠ [] ∧ session.displayName.length ≤ maxDisplayNameBytes
  anonymous : ∀ s session, rs.findSession s = some session → session.loggedIn = false →
    session.displayName = [] ∧ session.roomId = noRoomId
  name_unique : ∀ s t a b, s ≠ t → rs.findSession s = some a → rs.findSession t = some b →
    a.loggedIn = true → b.loggedIn = true → a.displayName ≠ b.displayName

/-- The checks in front of `SetLoggedIn`. -/
def LoginAccepted (rs : RoomSystem) (s : UInt32) (name : Bytes) : Prop :=
  (∃ session, rs.findSession s = some session) ∧ name ≠ [] ∧
    name.length ≤ maxDisplayNameBytes ∧ rs.isDisplayNameTaken name s = false

/-! ### The messages of the builders -/

def loginResponseMessage (requestId : UInt32) (success : Bool) (errorCode : ErrorCode)
    (session : Option SessionState) : Message where
  requestId := requestId
  payload := .loginResponse (some {
    success, errorCode, user := if success then session.map buildUserInfo else none })

def joinRoomResponseMessage (requestId : UInt32) (success : Bool) (errorCode : ErrorCode)
    (room : Option RoomState) : Message where
  requestId := requestId
  payload := .joinRoomResponse (some {
    success, errorCode, room := if success then room.map buildRoomInfo else none })

def chatBroadcastMessage (session : SessionState) (content : Bytes) (timestamp : UInt64) :
    Message where
  requestId := 0
  payload := .chatBroadcast (some (createChatBroadcastDirect session.roomId session.userId
    session.displayName content timestamp))

def userJoinedMessage (roomId : UInt32) (session : SessionState) : Message where
  requestId := 0
  payload := .userJoinedEvent (some { roomId, user := some (buildUserInfo session) })

def userLeftMessage (roomId : UInt32) (session : SessionState) : Message where
  requestId := 0
  payload := .userLeftEvent (some { roomId, user := some (buildUserInfo session) })

def systemMessage (roomId : UInt32) (content : Bytes) : Message where
  requestId := 0
  payload := .systemMessageEvent (some (createSystemMessageEventDirect roomId content))

/-- A message that concerns nobody but its recipient: no chat, no notice of an
    arrival or a departure, and not the confirmation of a join. -/
def Message.IsReply (m : Message) : Prop :=
  match m.payload with
  | .chatBroadcast _ | .userJoinedEvent _ | .userLeftEvent _ => False
  | .joinRoomResponse (some table) => table.success = false
  | .joinRoomResponse none => False
  | _ => True

/-! ### Moves -/

section Moves

variable (env : Env) (allowed : RoomSystem → UInt32 → Bytes → Prop)

/-- The leave notice of `session` to the rest of its room. -/
def leaveCalls (rs : RoomSystem) (session : SessionState) : List QueueCall :=
  (rs.getRoomMembers env.toIteration session.roomId (some session.sessionId)).map
    fun member => ⟨rs, member.sessionId, userLeftMessage session.roomId session⟩

/-- The confirmation of a join, and the arrival announced both ways. The calls
    are made in `rs'`, the room system after the move. -/
def enterCalls (rs rs' : RoomSystem) (s requestId : UInt32) (session : SessionState)
    (room : RoomState) : List QueueCall :=
  ⟨rs', s, joinRoomResponseMessage requestId true .none (some room)⟩ ::
  ⟨rs', s, systemMessage room.roomId (room.roomName ++ utf8 " 방에 입장했습니다.")⟩ ::
  (rs.getRoomMembers env.toIteration room.roomId).flatMap fun other =>
    [⟨rs', other.sessionId, userJoinedMessage room.roomId session⟩,
      ⟨rs', s, userJoinedMessage room.roomId other⟩]

/-- A chat line to every member of the sender's room; `reads` is the number
    of clock readings made before. -/
def chatCalls (rs : RoomSystem) (session : SessionState) (content : Bytes) (reads : Nat) :
    List QueueCall :=
  ((rs.getRoomMembers env.toIteration session.roomId).zipIdx reads).map fun p =>
    ⟨rs, p.1.sessionId, chatBroadcastMessage session content (env.currentTimestampMs p.2)⟩

/-- One atomic change of the room system, with the calls that go with it. -/
inductive Move : RoomSystem → List QueueCall → RoomSystem → Prop where
  | connect (rs : RoomSystem) (s : UInt32) : Move rs [] (rs.addSession s)
  | login (rs : RoomSystem) (s requestId : UInt32) (name : Bytes)
      (haccepted : LoginAccepted rs s name) (hallowed : allowed rs s name) :
      Move rs [⟨rs.setLoggedIn s name, s, loginResponseMessage requestId true .none
        ((rs.setLoggedIn s name).findSession s)⟩] (rs.setLoggedIn s name)
  | leave (rs : RoomSystem) (s : UInt32) (session : SessionState)
      (hs : rs.findSession s = some session) (hroom : session.roomId ≠ noRoomId)
      (hlogged : session.loggedIn = true) :
      Move rs (leaveCalls env rs session) (rs.assign s noRoomId)
  | enter (rs : RoomSystem) (s requestId r : UInt32) (session : SessionState)
      (room : RoomState) (hs : rs.findSession s = some session)
      (hroom : session.roomId = noRoomId) (hlogged : session.loggedIn = true)
      (hr : rs.findRoom r = some room) :
      Move rs (enterCalls env rs (rs.assign s r) s requestId { session with roomId := r }
        { room with members := room.members.insert s }) (rs.assign s r)
  | remove (rs : RoomSystem) (s : UInt32)
      (hroom : ∀ session, rs.findSession s = some session → session.roomId = noRoomId) :
      Move rs [] (rs.removeSession s)
  | chat (rs : RoomSystem) (s : UInt32) (session : SessionState) (content : Bytes)
      (reads : Nat) (hs : rs.findSession s = some session)
      (hroom : session.roomId ≠ noRoomId) (hlogged : session.loggedIn = true) :
      Move rs (chatCalls env rs session content reads) rs
  | reply (rs : RoomSystem) (s : UInt32) (m : Message) (hm : m.IsReply) :
      Move rs [⟨rs, s, m⟩] rs

/-- A run of moves between two states of the game logic, whose outputs are the
    calls recorded on the way. -/
def Emits (g g' : GameLogicSystem) : Prop :=
  ∃ calls, Trace.Run (Move env allowed) g.roomSystem calls g'.roomSystem ∧
    g'.queueCalls = g.queueCalls ++ calls

end Moves

section EmitsRules

variable {env : Env} {allowed : RoomSystem → UInt32 → Bytes → Prop}

theorem Emits.refl (g : GameLogicSystem) : Emits env allowed g g :=
  ⟨[], Trace.Run.nil _, (List.append_nil _).symm⟩

theorem Emits.trans {g g' g'' : GameLogicSystem} (h1 : Emits env allowed g g')
    (h2 : Emits env allowed g' g'') : Emits env allowed g g'' := by
  rcases h1 with ⟨c1, hr1, hq1⟩
  rcases h2 with ⟨c2, hr2, hq2⟩
  exact ⟨c1 ++ c2, hr1.append hr2, by rw [hq2, hq1, List.append_assoc]⟩

/-- One move, given its effect on the two components a move speaks of. -/
theorem Emits.of_move {g g' : GameLogicSystem} (calls : List QueueCall)
    (hm : Move env allowed g.roomSystem calls g'.roomSystem)
    (hq : g'.queueCalls = g.queueCalls ++ calls) : Emits env allowed g g' :=
  ⟨calls, Trace.Run.single hm, hq⟩

end EmitsRules

/-! ### The invariant -/

namespace RoomSystem

theorem isDisplayNameTaken_eq_false {rs : RoomSystem} {name : Bytes} {s : UInt32}
    (h : rs.isDisplayNameTaken name s = false) {t : UInt32} {session : SessionState}
    (hst : s ≠ t) (ht : rs.findSession t = some session) (hl : session.loggedIn = true) :
    session.displayName ≠ name := by
  unfold isDisplayNameTaken at h
  rw [List.any_eq_false] at h
  have hmem : (t, session) ∈ rs.sessions.toList :=
    Std.ExtTreeMap.mem_toList_iff_getElem?_eq_some.mpr ht
  -- The scan skips the requester only, so it has seen `t`.
  have hscan := h (t, session) hmem
  have hts : t ≠ s := fun hc => hst hc.symm
  intro hname
  refine hscan ?_
  simp only [hl, hname, ne_eq, hts, not_false_eq_true, decide_true, beq_self_eq_true,
    Bool.and_self]

/-- The naming part of the invariant survives whatever leaves names and login
    flags alone and puts nobody in a room who is not logged in. -/
theorem wellFormed_of_names {rs rs' : RoomSystem} (h : rs.WellFormed) (hc : rs'.Consistent)
    (hnames : ∀ t session', rs'.findSession t = some session' →
      ∃ session, rs.findSession t = some session ∧
        session'.loggedIn = session.loggedIn ∧ session'.displayName = session.displayName ∧
        (session.loggedIn = false → session'.roomId = noRoomId)) : rs'.WellFormed where
  toConsistent := hc
  name_bounds := by
    intro t session' ht hl
    rcases hnames t session' ht with ⟨session, hs, hlog, hname, _⟩
    rw [hname]
    exact h.name_bounds t session hs (hlog ▸ hl)
  anonymous := by
    intro t session' ht hl
    rcases hnames t session' ht with ⟨session, hs, hlog, hname, hroom⟩
    have hl' : session.loggedIn = false := hlog ▸ hl
    exact ⟨hname.trans (h.anonymous t session hs hl').1, hroom hl'⟩
  name_unique := by
    intro s t a' b' hst ha' hb' hla hlb
    rcases hnames s a' ha' with ⟨a, ha, haLog, haName, _⟩
    rcases hnames t b' hb' with ⟨b, hb, hbLog, hbName, _⟩
    rw [haName, hbName]
    exact h.name_unique s t a b hst ha hb (haLog ▸ hla) (hbLog ▸ hlb)

theorem wellFormed_init : init.WellFormed where
  toConsistent := consistent_init
  name_bounds := by
    intro s session hs
    rw [findSession_init] at hs
    exact absurd hs (by simp only [reduceCtorEq, not_false_eq_true])
  anonymous := by
    intro s session hs
    rw [findSession_init] at hs
    exact absurd hs (by simp only [reduceCtorEq, not_false_eq_true])
  name_unique := by
    intro s t a b _ ha
    rw [findSession_init] at ha
    exact absurd ha (by simp only [reduceCtorEq, not_false_eq_true])

/-- A session that arrives is not logged in, has no name and no room. -/
theorem wellFormed_addSession {rs : RoomSystem} (h : rs.WellFormed) (s : UInt32) :
    (rs.addSession s).WellFormed := by
  -- Every logged-in session was there before, unchanged.
  have hold : ∀ t session, (rs.addSession s).findSession t = some session →
      session.loggedIn = true → rs.findSession t = some session := by
    intro t session ht hl
    rw [findSession_addSession] at ht
    by_cases hst : s = t
    · rw [if_pos hst] at ht
      cases hrs : rs.findSession t with
      | none =>
          rw [hrs, Option.getD_none, Option.some.injEq] at ht
          rw [← ht] at hl
          exact absurd hl Bool.false_ne_true
      | some old => rw [hrs, Option.getD_some] at ht; exact ht
    · rw [if_neg hst] at ht
      exact ht
  refine ⟨consistent_addSession h.toConsistent s, ?_, ?_, ?_⟩
  · intro t session ht hl
    exact h.name_bounds t session (hold t session ht hl) hl
  · intro t session ht hl
    rw [findSession_addSession] at ht
    by_cases hst : s = t
    · rw [if_pos hst] at ht
      cases hrs : rs.findSession t with
      | none =>
          rw [hrs, Option.getD_none, Option.some.injEq] at ht
          rw [← ht]
          exact ⟨rfl, rfl⟩
      | some old =>
          rw [hrs, Option.getD_some, Option.some.injEq] at ht
          exact h.anonymous t session (ht ▸ hrs) hl
    · rw [if_neg hst] at ht
      exact h.anonymous t session ht hl
  · intro t u a b htu ha hb hla hlb
    exact h.name_unique t u a b htu (hold t a ha hla) (hold u b hb hlb) hla hlb

theorem wellFormed_setLoggedIn {rs : RoomSystem} (h : rs.WellFormed) {s : UInt32}
    {name : Bytes} (hacc : LoginAccepted rs s name) : (rs.setLoggedIn s name).WellFormed := by
  rcases hacc with ⟨_, hne, hlen, hfree⟩
  -- The requester carries the new name; everybody else is as before.
  have hcase : ∀ t session, (rs.setLoggedIn s name).findSession t = some session →
      (s = t ∧ session.loggedIn = true ∧ session.displayName = name) ∨
      (s ≠ t ∧ rs.findSession t = some session) := by
    intro t session ht
    rw [findSession_setLoggedIn] at ht
    by_cases hst : s = t
    · rw [if_pos hst, Option.map_eq_some_iff] at ht
      rcases ht with ⟨old, _, rfl⟩
      exact Or.inl ⟨hst, rfl, rfl⟩
    · rw [if_neg hst] at ht
      exact Or.inr ⟨hst, ht⟩
  refine ⟨consistent_setLoggedIn h.toConsistent s name, ?_, ?_, ?_⟩
  · intro t session ht hl
    rcases hcase t session ht with ⟨_, _, hname⟩ | ⟨_, hold⟩
    · rw [hname]
      exact ⟨hne, hlen⟩
    · exact h.name_bounds t session hold hl
  · intro t session ht hl
    rcases hcase t session ht with ⟨_, hlog, _⟩ | ⟨_, hold⟩
    · rw [hlog] at hl
      exact absurd hl.symm Bool.false_ne_true
    · exact h.anonymous t session hold hl
  · intro t u a b htu ha hb hla hlb
    -- One of the two may be the requester, whose name the scan found free.
    rcases hcase t a ha with ⟨hst, _, hna⟩ | ⟨hst, hta⟩
    · rcases hcase u b hb with ⟨hsu, _, _⟩ | ⟨hsu, hub⟩
      · exact absurd (hst.symm.trans hsu) htu
      · rw [hna]
        exact (isDisplayNameTaken_eq_false hfree hsu hub hlb).symm
    · rcases hcase u b hb with ⟨_, _, hnb⟩ | ⟨_, hub⟩
      · rw [hnb]
        exact isDisplayNameTaken_eq_false hfree hst hta hla
      · exact h.name_unique t u a b htu hta hub hla hlb

theorem wellFormed_assign {rs : RoomSystem} (h : rs.WellFormed) {s r : UInt32}
    (hr : r = noRoomId ∨ (∃ room, rs.findRoom r = some room) ∧
      ∃ session, rs.findSession s = some session ∧ session.loggedIn = true) :
    (rs.assign s r).WellFormed := by
  have hc : (rs.assign s r).Consistent := by
    refine consistent_assign h.toConsistent (hr.imp id (fun hex => ⟨hex.1, ?_⟩))
    rcases hex.2 with ⟨session, hs, _⟩
    exact ⟨session, hs⟩
  refine wellFormed_of_names h hc (fun t session' ht => ?_)
  rw [findSession_assign] at ht
  by_cases hst : s = t
  · subst hst
    rw [if_pos rfl, Option.map_eq_some_iff] at ht
    rcases ht with ⟨session, hs, rfl⟩
    refine ⟨session, hs, rfl, rfl, fun hl => ?_⟩
    -- Only a logged-in session is placed in a room.
    rcases hr with hr | ⟨_, session', hs', hl'⟩
    · exact hr
    · rw [hs, Option.some.injEq] at hs'
      rw [hs', hl'] at hl
      exact absurd hl.symm Bool.false_ne_true
  · rw [if_neg hst] at ht
    exact ⟨session', ht, rfl, rfl, fun hl => (h.anonymous t session' ht hl).2⟩

theorem wellFormed_removeSession {rs : RoomSystem} (h : rs.WellFormed) (s : UInt32) :
    (rs.removeSession s).WellFormed := by
  refine wellFormed_of_names h (consistent_removeSession h.toConsistent s)
    (fun t session' ht => ?_)
  rw [findSession_removeSession h.toConsistent] at ht
  by_cases hst : s = t
  · rw [if_pos hst] at ht
    exact absurd ht (by simp only [reduceCtorEq, not_false_eq_true])
  · rw [if_neg hst] at ht
    exact ⟨session', ht, rfl, rfl, fun hl => (h.anonymous t session' ht hl).2⟩

/-- Every member of a room is logged in. -/
theorem WellFormed.loggedIn {rs : RoomSystem} (h : rs.WellFormed) {s : UInt32}
    {session : SessionState} (hs : rs.findSession s = some session)
    (hr : session.roomId ≠ noRoomId) : session.loggedIn = true := by
  cases hl : session.loggedIn with
  | true => rfl
  | false => exact absurd (h.anonymous s session hs hl).2 hr

end RoomSystem

theorem wellFormed_move {env : Env} {allowed : RoomSystem → UInt32 → Bytes → Prop}
    (rs : RoomSystem) (calls : List QueueCall) (rs' : RoomSystem) (h : rs.WellFormed)
    (hm : Move env allowed rs calls rs') : rs'.WellFormed := by
  cases hm with
  | connect s => exact RoomSystem.wellFormed_addSession h s
  | login s requestId name haccepted _ => exact RoomSystem.wellFormed_setLoggedIn h haccepted
  | leave s session hs hroom hlogged => exact RoomSystem.wellFormed_assign h (Or.inl rfl)
  | enter s requestId r session room hs hroom hlogged hr =>
      exact RoomSystem.wellFormed_assign h (Or.inr ⟨⟨room, hr⟩, session, hs, hlogged⟩)
  | remove s hroom => exact RoomSystem.wellFormed_removeSession h s
  | chat s session content reads hs hroom hlogged => exact h
  | reply s m hm => exact h

theorem Emits.wellFormed {env : Env} {allowed : RoomSystem → UInt32 → Bytes → Prop}
    {g g' : GameLogicSystem} (he : Emits env allowed g g') (h : g.roomSystem.WellFormed) :
    g'.roomSystem.WellFormed := by
  rcases he with ⟨calls, hrun, _⟩
  exact hrun.invariant wellFormed_move h

/-! ### The handlers as runs of moves -/

namespace GameLogicSystem

variable (env : Env)

@[simp] theorem roomSystem_queueMessage (g : GameLogicSystem) (s : UInt32) (m : Message) :
    (g.queueMessage env s m).roomSystem = g.roomSystem := by
  unfold queueMessage
  split <;> rfl

@[simp] theorem queueCalls_queueMessage (g : GameLogicSystem) (s : UInt32) (m : Message) :
    (g.queueMessage env s m).queueCalls = g.queueCalls ++ [⟨g.roomSystem, s, m⟩] := by
  unfold queueMessage
  split <;> rfl

@[simp] theorem clockReads_queueMessage (g : GameLogicSystem) (s : UInt32) (m : Message) :
    (g.queueMessage env s m).clockReads = g.clockReads := by
  unfold queueMessage
  split <;> rfl

/-- A loop whose body only queues: the room system stays, and the calls of the
    bodies follow each other. -/
theorem foldl_queue {α : Type} (body : GameLogicSystem → α → GameLogicSystem)
    (out : RoomSystem → α → List QueueCall)
    (hbody : ∀ g a, (body g a).roomSystem = g.roomSystem ∧
      (body g a).queueCalls = g.queueCalls ++ out g.roomSystem a)
    (l : List α) (g : GameLogicSystem) :
    (l.foldl body g).roomSystem = g.roomSystem ∧
      (l.foldl body g).queueCalls = g.queueCalls ++ l.flatMap (out g.roomSystem) := by
  induction l generalizing g with
  | nil => exact ⟨rfl, (List.append_nil _).symm⟩
  | cons a l ih =>
      have hhead := hbody g a
      have htail := ih (body g a)
      rw [List.foldl_cons, htail.1, htail.2, hhead.1, hhead.2, List.flatMap_cons,
        List.append_assoc]
      exact ⟨rfl, rfl⟩

/-- The chat loop reads the clock once per member. -/
theorem foldl_queueChatBroadcast (session : SessionState) (content : Bytes)
    (l : List SessionState) (g : GameLogicSystem) :
    (l.foldl (fun g member => g.queueChatBroadcast env member.sessionId session.roomId session
      content) g).roomSystem = g.roomSystem ∧
    (l.foldl (fun g member => g.queueChatBroadcast env member.sessionId session.roomId session
      content) g).queueCalls = g.queueCalls ++ (l.zipIdx g.clockReads).map fun p =>
        ⟨g.roomSystem, p.1.sessionId,
          chatBroadcastMessage session content (env.currentTimestampMs p.2)⟩ := by
  induction l generalizing g with
  | nil => exact ⟨rfl, (List.append_nil _).symm⟩
  | cons member l ih =>
      -- The clock has been read once more by the time the rest of the loop runs.
      have htail := ih (g.queueChatBroadcast env member.sessionId session.roomId session content)
      rw [List.foldl_cons, htail.1, htail.2, List.zipIdx_cons, List.map_cons]
      simp only [queueChatBroadcast, roomSystem_queueMessage, queueCalls_queueMessage,
        clockReads_queueMessage, List.append_assoc, List.singleton_append, chatBroadcastMessage,
        and_self]

@[simp] theorem roomSystem_notifyRoomLeave (g : GameLogicSystem) (session : SessionState) :
    (g.notifyRoomLeave env session).roomSystem = g.roomSystem := by
  unfold notifyRoomLeave
  split_ifs
  · rfl
  · exact (foldl_queue _ (fun rs (member : SessionState) => [⟨rs, member.sessionId, _⟩])
      (fun g member => ⟨roomSystem_queueMessage env g _ _, queueCalls_queueMessage env g _ _⟩)
      _ g).1

theorem queueCalls_notifyRoomLeave (g : GameLogicSystem) (session : SessionState)
    (hroom : session.roomId ≠ noRoomId) (hlogged : session.loggedIn = true) :
    (g.notifyRoomLeave env session).queueCalls
      = g.queueCalls ++ leaveCalls env g.roomSystem session := by
  have hguard : ¬ (session.roomId = noRoomId ∨ session.loggedIn = false) := by
    rw [hlogged]
    exact fun hc => hc.elim hroom (fun hf => Bool.false_ne_true hf.symm)
  unfold notifyRoomLeave
  rw [if_neg hguard]
  have hfold := foldl_queue
    (fun g (member : SessionState) =>
      g.queueUserLeftEvent env member.sessionId session.roomId session)
    (fun rs member => [⟨rs, member.sessionId, userLeftMessage session.roomId session⟩])
    (fun g member => ⟨roomSystem_queueMessage env g _ _, queueCalls_queueMessage env g _ _⟩)
    (g.roomSystem.getRoomMembers env.toIteration session.roomId (some session.sessionId)) g
  rw [hfold.2, leaveCalls, List.map_eq_flatMap]

theorem notifyRoomLeave_of_noRoom (g : GameLogicSystem) (session : SessionState)
    (hroom : session.roomId = noRoomId) : g.notifyRoomLeave env session = g := by
  unfold notifyRoomLeave
  rw [if_pos (Or.inl hroom)]

/-- The announcements of a join, when everybody in the room is logged in. -/
theorem notifyRoomJoin_calls (g : GameLogicSystem) (s : UInt32) (session : SessionState)
    (room : RoomState) (members : List SessionState)
    (hlogged : ∀ member ∈ members, member.loggedIn = true) :
    (g.notifyRoomJoin env s session room members).roomSystem = g.roomSystem ∧
      (g.notifyRoomJoin env s session room members).queueCalls = g.queueCalls ++
        members.flatMap fun other =>
          [⟨g.roomSystem, other.sessionId, userJoinedMessage room.roomId session⟩,
            ⟨g.roomSystem, s, userJoinedMessage room.roomId other⟩] := by
  induction members generalizing g with
  | nil => exact ⟨rfl, (List.append_nil _).symm⟩
  | cons other members ih =>
      have hother : ¬ other.loggedIn = false := by
        rw [hlogged other List.mem_cons_self]
        exact fun hc => Bool.false_ne_true hc.symm
      have htail := ih ((g.queueUserJoinedEvent env other.sessionId room.roomId
        session).queueUserJoinedEvent env s room.roomId other)
        (fun member hm => hlogged member (List.mem_cons_of_mem other hm))
      unfold notifyRoomJoin at htail ⊢
      rw [List.foldl_cons]
      simp only [if_neg hother]
      rw [htail.1, htail.2]
      simp only [queueUserJoinedEvent, roomSystem_queueMessage, queueCalls_queueMessage,
        userJoinedMessage, List.flatMap_cons, List.append_assoc, List.cons_append,
        List.nil_append, and_self]

variable {env} {allowed : RoomSystem → UInt32 → Bytes → Prop}

/-- Queueing a reply is a move. -/
theorem queueMessage_emits (g : GameLogicSystem) (s : UInt32) (m : Message) (hm : m.IsReply) :
    Emits env allowed g (g.queueMessage env s m) := by
  refine Emits.of_move [⟨g.roomSystem, s, m⟩] ?_ (queueCalls_queueMessage env g s m)
  rw [roomSystem_queueMessage]
  exact Move.reply g.roomSystem s m hm

/-- A session told out of its room: the notices, then the removal. -/
theorem leaveRoom_emits {g : GameLogicSystem} (hw : g.roomSystem.WellFormed) {s : UInt32}
    {session : SessionState} (hs : g.roomSystem.findSession s = some session)
    (hroom : session.roomId ≠ noRoomId) (g' : GameLogicSystem)
    (hrooms : g'.roomSystem = g.roomSystem.assign s noRoomId)
    (hcalls : g'.queueCalls = (g.notifyRoomLeave env session).queueCalls) :
    Emits env allowed g g' := by
  have hlogged := hw.loggedIn hs hroom
  refine Emits.of_move (leaveCalls env g.roomSystem session) ?_ ?_
  · rw [hrooms]
    exact Move.leave g.roomSystem s session hs hroom hlogged
  · rw [hcalls, queueCalls_notifyRoomLeave env g session hroom hlogged]

/-- The part a room switch and a leave request have in common. -/
theorem leaveCurrentRoom_emits {g : GameLogicSystem} (hw : g.roomSystem.WellFormed)
    {s : UInt32} {session : SessionState} (hs : g.roomSystem.findSession s = some session)
    (hroom : session.roomId ≠ noRoomId) :
    Emits env allowed g { g.notifyRoomLeave env session with
      roomSystem := (g.notifyRoomLeave env
        session).roomSystem.removeSessionFromCurrentRoom s } := by
  refine leaveRoom_emits hw hs hroom _ ?_ rfl
  rw [roomSystem_notifyRoomLeave, RoomSystem.removeSessionFromCurrentRoom_eq hw.toConsistent]

/-- A session told out of its room, if it is in one, and then forgotten. -/
theorem removeSession_emits {g : GameLogicSystem} (hw : g.roomSystem.WellFormed) (s : UInt32)
    (g' : GameLogicSystem) (hrooms : g'.roomSystem = g.roomSystem.removeSession s)
    (hcalls : g'.queueCalls = (match g.roomSystem.findSession s with
      | some session => g.notifyRoomLeave env session
      | none => g).queueCalls) : Emits env allowed g g' := by
  by_cases hin : ∃ session, g.roomSystem.findSession s = some session ∧
      session.roomId ≠ noRoomId
  · rcases hin with ⟨session, hs, hroom⟩
    rw [hs] at hcalls
    simp only at hcalls
    -- First out of the room, then out of the table.
    have hleave : Emits env allowed g
        { g' with roomSystem := g.roomSystem.assign s noRoomId } :=
      leaveRoom_emits hw hs hroom _ rfl hcalls
    refine hleave.trans (Emits.of_move [] ?_ (List.append_nil _).symm)
    rw [hrooms, ← RoomSystem.removeSession_assign hw.toConsistent]
    refine Move.remove _ s (fun session' hs' => ?_)
    rw [RoomSystem.findSession_assign, if_pos rfl, Option.map_eq_some_iff] at hs'
    rcases hs' with ⟨_, _, rfl⟩
    rfl
  · -- In no room: nobody is told, and only the table changes.
    have hout : ∀ session, g.roomSystem.findSession s = some session →
        session.roomId = noRoomId :=
      fun session hs => by_contra fun hc => hin ⟨session, hs, hc⟩
    refine Emits.of_move [] ?_ ?_
    · rw [hrooms]
      exact Move.remove _ s hout
    · rw [hcalls, List.append_nil]
      cases hs : g.roomSystem.findSession s with
      | none => rfl
      | some session =>
          simp only
          rw [notifyRoomLeave_of_noRoom env g session (hout session hs)]

theorem handleLoginRequest_emits {g : GameLogicSystem} (s requestId : UInt32) (name : Bytes)
    (hallowed : LoginAccepted g.roomSystem s name → allowed g.roomSystem s name) :
    Emits env allowed g (g.handleLoginRequest env s requestId name) := by
  unfold handleLoginRequest
  cases hs : g.roomSystem.findSession s with
  | none => exact Emits.refl g
  | some session =>
      simp only
      split_ifs with hempty hlong htaken
      · exact queueMessage_emits g s _ trivial
      · exact queueMessage_emits g s _ trivial
      · exact queueMessage_emits g s _ trivial
      · -- All checks passed: the state is set before the response is built.
        have hacc : LoginAccepted g.roomSystem s name := by
          refine ⟨⟨session, hs⟩, fun hc => hempty ?_, by omega, ?_⟩
          · rw [hc, List.isEmpty_nil]
          · rw [Bool.not_eq_true] at htaken
            exact htaken
        refine Emits.of_move ([⟨g.roomSystem.setLoggedIn s name, s,
          loginResponseMessage requestId true .none
            ((g.roomSystem.setLoggedIn s name).findSession s)⟩]) ?_ ?_
        · unfold queueLoginResponse
          rw [roomSystem_queueMessage]
          exact Move.login g.roomSystem s requestId name hacc (hallowed hacc)
        · unfold queueLoginResponse
          rw [queueCalls_queueMessage]
          rfl

/-- Everybody `GetRoomMembers` returns is a live session of the room. -/
theorem mem_getRoomMembers {rs : RoomSystem} {it : Iteration} {r : UInt32}
    {exclude : Option UInt32} {member : SessionState} (h : rs.Consistent)
    (hm : member ∈ rs.getRoomMembers it r exclude) :
    ∃ t, rs.findSession t = some member ∧ member.roomId = r ∧ r ≠ noRoomId := by
  unfold RoomSystem.getRoomMembers at hm
  cases hroom : rs.findRoom r with
  | none =>
      rw [hroom] at hm
      exact absurd hm List.not_mem_nil
  | some room =>
      rw [hroom] at hm
      rcases List.mem_filterMap.mp hm with ⟨t, ht, hfind⟩
      split_ifs at hfind
      rcases h.session_of_isMember ⟨room, hroom, (it.mem_order _ _).mp ht⟩ with
        ⟨session, hs, hr, hne⟩
      rw [hfind, Option.some.injEq] at hs
      exact ⟨t, hfind, hs ▸ hr, hne⟩

/-- The part of `HandleJoinRoomRequest` after the session has left its old
    room. -/
theorem joinRoom_emits {g : GameLogicSystem} (hw : g.roomSystem.WellFormed)
    {s r requestId : UInt32} {session : SessionState} {room : RoomState}
    (hs : g.roomSystem.findSession s = some session) (hroom : session.roomId = noRoomId)
    (hlogged : session.loggedIn = true) (hr : g.roomSystem.findRoom r = some room) :
    Emits env allowed g
      (let existingMembers := g.roomSystem.getRoomMembers env.toIteration r
       let g := { g with roomSystem := g.roomSystem.moveSessionToRoom s r }
       match g.roomSystem.findSession s, g.roomSystem.findRoom r with
       | some session, some room =>
         let g := g.queueJoinRoomResponse env s requestId true .none (some room)
         let g := g.queueSystemMessage env s room.roomId
           (room.roomName ++ utf8 " 방에 입장했습니다.")
         g.notifyRoomJoin env s session room existingMembers
       | _, _ => g) := by
  have hmove := RoomSystem.moveSessionToRoom_eq hw.toConsistent hs hr
  have hkey := hw.room_key r room hr
  -- After the move both lookups succeed, with the new room in place.
  have hs' : (g.roomSystem.assign s r).findSession s = some { session with roomId := r } := by
    rw [RoomSystem.findSession_assign, if_pos rfl, hs, Option.map_some]
  have hr' : (g.roomSystem.assign s r).findRoom r
      = some { room with members := room.members.insert s } := by
    rw [RoomSystem.findRoom_assign, hr, Option.map_some]
    simp only [if_true]
  -- Everybody already there is logged in, so the announcements skip nobody.
  have hall : ∀ member ∈ g.roomSystem.getRoomMembers env.toIteration r,
      member.loggedIn = true := by
    intro member hm
    rcases mem_getRoomMembers hw.toConsistent hm with ⟨t, ht, hmr, hne⟩
    exact hw.loggedIn ht (hmr ▸ hne)
  simp only [hmove, hs', hr']
  refine Emits.of_move (enterCalls env g.roomSystem (g.roomSystem.assign s r) s
    requestId { session with roomId := r }
    { room with members := room.members.insert s }) ?_ ?_
  · rw [(notifyRoomJoin_calls env _ s _ _ _ hall).1]
    simp only [queueSystemMessage, queueJoinRoomResponse, roomSystem_queueMessage]
    exact Move.enter g.roomSystem s requestId r session room hs hroom hlogged hr
  · rw [(notifyRoomJoin_calls env _ s _ _ _ hall).2]
    simp only [queueSystemMessage, queueJoinRoomResponse, roomSystem_queueMessage,
      queueCalls_queueMessage, enterCalls, joinRoomResponseMessage, systemMessage, hkey,
      List.append_assoc, List.cons_append, List.nil_append]

theorem handleJoinRoomRequest_emits {g : GameLogicSystem} (hw : g.roomSystem.WellFormed)
    (s requestId r : UInt32) :
    Emits env allowed g (g.handleJoinRoomRequest env s requestId r) := by
  unfold handleJoinRoomRequest
  cases hs : g.roomSystem.findSession s with
  | none => exact Emits.refl g
  | some session =>
      simp only
      by_cases hlogged : session.loggedIn = false
      · rw [if_pos hlogged]
        exact queueMessage_emits g s _ rfl
      rw [if_neg hlogged, Bool.not_eq_false] at *
      cases hr : g.roomSystem.findRoom r with
      | none => exact queueMessage_emits g s _ rfl
      | some room =>
          simp only
          by_cases hsame : session.roomId = r
          · rw [if_pos hsame]
            exact queueMessage_emits g s _ rfl
          rw [if_neg hsame]
          by_cases hroom : session.roomId = noRoomId
          · simp only [ne_eq, hroom, not_true_eq_false, if_false]
            exact joinRoom_emits hw hs hroom hlogged hr
          · -- A room switch: out of the old room first.
            have hleave : Emits env allowed g _ := leaveCurrentRoom_emits hw hs hroom
            have hw' := hleave.wellFormed hw
            simp only [ne_eq, hroom, not_false_eq_true, if_true]
            have hs' : (((g.notifyRoomLeave env session).roomSystem.removeSessionFromCurrentRoom
                s).findSession s) = some { session with roomId := noRoomId } := by
              rw [roomSystem_notifyRoomLeave,
                RoomSystem.removeSessionFromCurrentRoom_eq hw.toConsistent,
                RoomSystem.findSession_assign, if_pos rfl, hs, Option.map_some]
            have hr' : (((g.notifyRoomLeave env session).roomSystem.removeSessionFromCurrentRoom
                s).findRoom r) = some { room with members := room.members.erase s } := by
              rw [roomSystem_notifyRoomLeave,
                RoomSystem.removeSessionFromCurrentRoom_eq hw.toConsistent,
                hw.findRoom_assign_noRoomId, hr, Option.map_some]
            exact hleave.trans (joinRoom_emits hw' hs' rfl hlogged hr')

theorem handleChatSendRequest_emits {g : GameLogicSystem} (s : UInt32) (content : Bytes) :
    Emits env allowed g (g.handleChatSendRequest env s content) := by
  unfold handleChatSendRequest
  cases hs : g.roomSystem.findSession s with
  | none => exact Emits.refl g
  | some session =>
      simp only
      split_ifs with hlogged hroom hempty hlong
      · exact Emits.refl g
      · exact queueMessage_emits g s _ trivial
      · exact queueMessage_emits g s _ trivial
      · exact queueMessage_emits g s _ trivial
      · -- The line is accepted and goes to the whole room.
        have hfold := foldl_queueChatBroadcast env session content
          (g.roomSystem.getRoomMembers env.toIteration session.roomId) g
        refine Emits.of_move _ ?_ hfold.2
        rw [hfold.1]
        rw [Bool.not_eq_false] at hlogged
        exact Move.chat g.roomSystem s session content g.clockReads hs hroom hlogged

theorem handleLeaveRoomRequest_emits {g : GameLogicSystem} (hw : g.roomSystem.WellFormed)
    (s requestId : UInt32) :
    Emits env allowed g (g.handleLeaveRoomRequest env s requestId) := by
  unfold handleLeaveRoomRequest
  cases hs : g.roomSystem.findSession s with
  | none => exact Emits.refl g
  | some session =>
      simp only
      by_cases hroom : session.roomId = noRoomId
      · rw [if_pos hroom]
        exact queueMessage_emits g s _ trivial
      · rw [if_neg hroom]
        refine (leaveCurrentRoom_emits hw hs hroom).trans
          (Emits.trans (queueMessage_emits _ s _ ?_) (queueMessage_emits _ s _ trivial))
        exact trivial

theorem handleDisconnectRequest_emits {g : GameLogicSystem} (hw : g.roomSystem.WellFormed)
    (s requestId : UInt32) :
    Emits env allowed g (g.handleDisconnectRequest env s requestId) := by
  -- The response comes first and touches no session.
  have hreply : Emits env allowed g (g.queueDisconnectResponse env s requestId true .none) :=
    queueMessage_emits g s _ trivial
  refine hreply.trans (removeSession_emits (hreply.wellFormed hw) s _ ?_ ?_)
  · unfold handleDisconnectRequest
    simp only
    cases hs : (g.queueDisconnectResponse env s requestId true .none).roomSystem.findSession s with
    | none => rfl
    | some session => simp only [roomSystem_notifyRoomLeave]
  · rfl

theorem handleSessionDisconnected_emits {g : GameLogicSystem} (hw : g.roomSystem.WellFormed)
    (s : UInt32) : Emits env allowed g (g.handleSessionDisconnected env s) := by
  refine removeSession_emits hw s _ ?_ rfl
  unfold handleSessionDisconnected
  cases hs : g.roomSystem.findSession s with
  | none => rfl
  | some session => simp only [roomSystem_notifyRoomLeave]

/-- Every handler, in a well-formed state, is a run of moves. -/
theorem handleEvent_emits {g : GameLogicSystem} (hw : g.roomSystem.WellFormed)
    (event : ServerEvent) (hallowed : ∀ s requestId name,
      event = .loginRequest s requestId name → LoginAccepted g.roomSystem s name →
        allowed g.roomSystem s name) :
    Emits env allowed g (handleEvent env g event) := by
  cases event with
  | sessionConnected s =>
      exact Emits.of_move _ (Move.connect g.roomSystem s) (List.append_nil _).symm
  | sessionDisconnected s => exact handleSessionDisconnected_emits hw s
  | invalidPacket s message => exact queueMessage_emits g s _ trivial
  | loginRequest s requestId name =>
      exact handleLoginRequest_emits s requestId name (hallowed s requestId name rfl)
  | roomListRequest s requestId => exact queueMessage_emits g s _ trivial
  | joinRoomRequest s requestId r => exact handleJoinRoomRequest_emits hw s requestId r
  | chatSendRequest s requestId content => exact handleChatSendRequest_emits s content
  | leaveRoomRequest s requestId => exact handleLeaveRoomRequest_emits hw s requestId
  | disconnectRequest s requestId => exact handleDisconnectRequest_emits hw s requestId

/-! ### Lists of events -/

/-- Every login that is accepted on the way through `events` is allowed. -/
def LoginsAllowed (env : Env) (allowed : RoomSystem → UInt32 → Bytes → Prop) :
    GameLogicSystem → List ServerEvent → Prop
  | _, [] => True
  | g, event :: events =>
      (∀ s requestId name, event = .loginRequest s requestId name →
        LoginAccepted g.roomSystem s name → allowed g.roomSystem s name) ∧
      LoginsAllowed env allowed (handleEvent env g event) events

/-- With no condition on logins every list of events qualifies. -/
theorem loginsAllowed_true (env : Env) (g : GameLogicSystem) (events : List ServerEvent) :
    LoginsAllowed env (fun _ _ _ => True) g events := by
  induction events generalizing g with
  | nil => exact trivial
  | cons event events ih => exact ⟨fun _ _ _ _ _ => trivial, ih _⟩

theorem loginsAllowed_and {env : Env} {p q : RoomSystem → UInt32 → Bytes → Prop}
    {g : GameLogicSystem} {events : List ServerEvent} (hp : LoginsAllowed env p g events)
    (hq : LoginsAllowed env q g events) :
    LoginsAllowed env (fun rs s name => p rs s name ∧ q rs s name) g events := by
  induction events generalizing g with
  | nil => exact trivial
  | cons event events ih =>
      refine ⟨fun s requestId name he hacc => ?_, ih hp.2 hq.2⟩
      exact ⟨hp.1 s requestId name he hacc, hq.1 s requestId name he hacc⟩

theorem update_emits (events : List ServerEvent) (g : GameLogicSystem)
    (hw : g.roomSystem.WellFormed) (hallowed : LoginsAllowed env allowed g events) :
    Emits env allowed g (update env g events) := by
  induction events generalizing g with
  | nil => exact Emits.refl g
  | cons event events ih =>
      have hfirst : Emits env allowed g (handleEvent env g event) :=
        handleEvent_emits hw event hallowed.1
      exact hfirst.trans (ih _ (hfirst.wellFormed hw) hallowed.2)

/-- Whatever happens to a fresh server, its state is well formed. -/
theorem update_wellFormed (env : Env) (events : List ServerEvent) :
    (update env initial events).roomSystem.WellFormed :=
  (update_emits events initial RoomSystem.wellFormed_init
    (loginsAllowed_true env initial events)).wellFormed RoomSystem.wellFormed_init

/-! ### The queue as the record's survivors -/

/-- `outgoing_messages_` is what the size guard left of the recorded calls. -/
def Synced (env : Env) (g : GameLogicSystem) : Prop :=
  g.outgoingMessages = (g.queueCalls.filter (fun call => env.fits call.message)).map
    (fun call => ⟨call.sessionId, call.message⟩)

theorem synced_queueMessage {g : GameLogicSystem} (h : Synced env g) (s : UInt32)
    (m : Message) : Synced env (g.queueMessage env s m) := by
  unfold Synced at h
  unfold queueMessage
  -- The record gets the call in either case, the queue only what fits.
  by_cases hfits : env.fits m = true
  · simp only [Synced, hfits, if_true, h, List.filter_append, List.map_append,
      List.filter_cons_of_pos, List.filter_nil, List.map_cons, List.map_nil]
  · simp only [Synced, hfits, if_false, h, List.filter_append, List.filter_cons_of_neg,
      List.filter_nil, List.append_nil, not_false_eq_true, Bool.false_eq_true]

/-- A loop keeps the two in step when its body does. -/
theorem synced_foldl {α : Type} (body : GameLogicSystem → α → GameLogicSystem)
    (hbody : ∀ g a, Synced env g → Synced env (body g a)) (l : List α)
    (g : GameLogicSystem) (h : Synced env g) : Synced env (l.foldl body g) := by
  induction l generalizing g with
  | nil => exact h
  | cons a l ih => exact ih _ (hbody g a h)

theorem synced_notifyRoomLeave {g : GameLogicSystem} (h : Synced env g)
    (session : SessionState) : Synced env (g.notifyRoomLeave env session) := by
  unfold notifyRoomLeave
  split_ifs
  · exact h
  · exact synced_foldl _ (fun g member hg => synced_queueMessage hg _ _) _ g h

theorem synced_notifyRoomJoin {g : GameLogicSystem} (h : Synced env g) (s : UInt32)
    (session : SessionState) (room : RoomState) (existing : List SessionState) :
    Synced env (g.notifyRoomJoin env s session room existing) := by
  refine synced_foldl _ (fun g other hg => ?_) existing g h
  split_ifs
  · exact hg
  · exact synced_queueMessage (synced_queueMessage hg _ _) _ _

/-- The leave notice in front of a removal, when the session is known. -/
theorem synced_leaveIfPresent {g : GameLogicSystem} (h : Synced env g)
    (found : Option SessionState) : Synced env (match found with
      | some session => g.notifyRoomLeave env session
      | none => g) := by
  cases found with
  | none => exact h
  | some session => exact synced_notifyRoomLeave h session

theorem synced_handleLoginRequest {g : GameLogicSystem} (h : Synced env g)
    (s requestId : UInt32) (name : Bytes) :
    Synced env (g.handleLoginRequest env s requestId name) := by
  unfold handleLoginRequest
  cases g.roomSystem.findSession s with
  | none => exact h
  | some session =>
      simp only
      split_ifs
      · exact synced_queueMessage h _ _
      · exact synced_queueMessage h _ _
      · exact synced_queueMessage h _ _
      · exact synced_queueMessage (g := { g with
          roomSystem := g.roomSystem.setLoggedIn s name }) h _ _

theorem synced_handleJoinRoomRequest {g : GameLogicSystem} (h : Synced env g)
    (s requestId r : UInt32) : Synced env (g.handleJoinRoomRequest env s requestId r) := by
  unfold handleJoinRoomRequest
  cases g.roomSystem.findSession s with
  | none => exact h
  | some session =>
      cases g.roomSystem.findRoom r with
      | none =>
          simp only
          split_ifs
          · exact synced_queueMessage h _ _
          · exact synced_queueMessage h _ _
      | some room =>
          -- The part after the old room has been left, if there was one.
          have henter : ∀ g', Synced env g' → Synced env
              (match (g'.roomSystem.moveSessionToRoom s r).findSession s,
                (g'.roomSystem.moveSessionToRoom s r).findRoom r with
              | some session, some room =>
                notifyRoomJoin env (queueSystemMessage env (queueJoinRoomResponse env { g' with
                  roomSystem := g'.roomSystem.moveSessionToRoom s r } s requestId true .none
                  (some room)) s room.roomId (room.roomName ++ utf8 " 방에 입장했습니다.")) s
                  session room (g'.roomSystem.getRoomMembers env.toIteration r)
              | _, _ => { g' with
                  roomSystem := g'.roomSystem.moveSessionToRoom s r }) := by
            intro g' hg'
            have hmoved : Synced env { g' with
                roomSystem := g'.roomSystem.moveSessionToRoom s r } := hg'
            split
            · exact synced_notifyRoomJoin
                (synced_queueMessage (synced_queueMessage hmoved _ _) _ _) _ _ _ _
            · exact hmoved
          -- Not logged in, already there, a room switch, or a first join.
          simp only
          split_ifs
          · exact synced_queueMessage h _ _
          · exact synced_queueMessage h _ _
          · exact henter { g.notifyRoomLeave env session with
              roomSystem := (g.notifyRoomLeave env
                session).roomSystem.removeSessionFromCurrentRoom s }
              (synced_notifyRoomLeave h session)
          · exact henter g h

theorem synced_handleChatSendRequest {g : GameLogicSystem} (h : Synced env g) (s : UInt32)
    (content : Bytes) : Synced env (g.handleChatSendRequest env s content) := by
  unfold handleChatSendRequest
  cases g.roomSystem.findSession s with
  | none => exact h
  | some session =>
      simp only
      split_ifs
      · exact h
      · exact synced_queueMessage h _ _
      · exact synced_queueMessage h _ _
      · exact synced_queueMessage h _ _
      · exact synced_foldl _ (fun g member hg => synced_queueMessage
          (g := { g with clockReads := g.clockReads + 1 }) hg _ _) _ g h

theorem synced_handleLeaveRoomRequest {g : GameLogicSystem} (h : Synced env g)
    (s requestId : UInt32) : Synced env (g.handleLeaveRoomRequest env s requestId) := by
  unfold handleLeaveRoomRequest
  cases g.roomSystem.findSession s with
  | none => exact h
  | some session =>
      simp only
      split_ifs
      · exact synced_queueMessage h _ _
      · have hleft : Synced env { g.notifyRoomLeave env session with
            roomSystem := (g.notifyRoomLeave env
              session).roomSystem.removeSessionFromCurrentRoom s } :=
          synced_notifyRoomLeave h session
        exact synced_queueMessage (synced_queueMessage hleft _ _) _ _

theorem synced_handleEvent {g : GameLogicSystem} (h : Synced env g) (event : ServerEvent) :
    Synced env (handleEvent env g event) := by
  cases event with
  | sessionConnected s => exact h
  | sessionDisconnected s => exact synced_leaveIfPresent h _
  | invalidPacket s message => exact synced_queueMessage h _ _
  | loginRequest s requestId name => exact synced_handleLoginRequest h s requestId name
  | roomListRequest s requestId => exact synced_queueMessage h _ _
  | joinRoomRequest s requestId r => exact synced_handleJoinRoomRequest h s requestId r
  | chatSendRequest s requestId content => exact synced_handleChatSendRequest h s content
  | leaveRoomRequest s requestId => exact synced_handleLeaveRoomRequest h s requestId
  | disconnectRequest s requestId =>
      exact synced_leaveIfPresent (synced_queueMessage h _ _) _

theorem synced_update {g : GameLogicSystem} (h : Synced env g) (events : List ServerEvent) :
    Synced env (update env g events) :=
  synced_foldl _ (fun _ event hg => synced_handleEvent hg event) events g h

/-- Nothing is lost when everything that was built fits. -/
theorem outgoingMessages_update (env : Env) (events : List ServerEvent)
    (hfits : ∀ call ∈ (update env initial events).queueCalls, env.fits call.message = true) :
    (update env initial events).outgoingMessages
      = (update env initial events).queueCalls.map
        (fun call => ⟨call.sessionId, call.message⟩) := by
  have hinit : Synced env initial := rfl
  have hsync := synced_update hinit events
  unfold Synced at hsync
  rw [List.filter_eq_self.mpr hfits] at hsync
  exact hsync

end GameLogicSystem

end ProjectNight
