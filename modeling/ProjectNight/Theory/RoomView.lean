import Mathlib.Data.List.DropRight
import ProjectNight.Lib.View
import ProjectNight.Theory.Delivery

/-!
# The Room as a Client Sees It

A client is never sent a member list. It learns who is in its room from the
notices that follow the confirmation of its join, and has to keep up from
there. This module proves that it can: replaying the notices since the latest
confirmation yields exactly the other members of the room, whatever the other
sessions did in the meantime.

The proof goes by moves. `Observed` lists what a move can look like to one
session that ends up in a room: it has just entered and is told of everybody
there, or it was there before and hears of one arrival, of one departure, or
of nothing while the membership stands still. `move_observed` shows that
nothing else happens, and from it each property of the replayed view is a
short case analysis, carried through whole runs by `Trace.Run.history`.

## Main definitions

* `messagesFor`, `sinceJoin`, `roomNotices`: What a client replays.
* `Observed`: What a move looks like to one session.
* `Informed`: The view of the members is right.

## Theorems

* `move_observed`: A move, as one session sees it.
* `replay_members`: What a newcomer is told amounts to the room.
* `informed_observed`, `informed_move`: The view stays right over a move.
* `update_view`: It is right after every list of events.
-/

namespace ProjectNight

/-! ### What a client replays -/

/-- The room a notice names, and the arrival or departure it reports. -/
def Message.notice (m : Message) : Option (UInt32 × View.Notice UInt32 Bytes) :=
  match m.payload with
  | .userJoinedEvent (some ⟨roomId, some user⟩) =>
      some (roomId, .joined user.userId (toUtf8 user.displayName))
  | .userLeftEvent (some ⟨roomId, some user⟩) =>
      some (roomId, .left user.userId (toUtf8 user.displayName))
  | _ => none

/-- A successful `JoinRoomResponse`. -/
def Message.confirmsJoin (m : Message) : Bool :=
  match m.payload with
  | .joinRoomResponse (some table) => table.success
  | _ => false

/-- The messages queued for session `c`, in order. -/
def messagesFor (c : UInt32) (queue : List OutgoingMessage) : List Message :=
  (queue.filter (fun out => out.sessionId = c)).map OutgoingMessage.payload

/-- The messages after the latest confirmation of a join. -/
def sinceJoin (ms : List Message) : List Message := ms.rtakeWhile (fun m => !m.confirmsJoin)

/-- The notices among the messages, each with the room it names. -/
def roomNotices (ms : List Message) : List (UInt32 × View.Notice UInt32 Bytes) :=
  ms.filterMap Message.notice

/-- The arrivals and departures a client replays. -/
def replayed (ms : List Message) : List (View.Notice UInt32 Bytes) :=
  (roomNotices (sinceJoin ms)).map Prod.snd

/-- What session `c` is told by a list of calls. -/
def told (c : UInt32) (calls : List QueueCall) : List Message :=
  (calls.filter (fun call => call.sessionId = c)).map QueueCall.message

theorem told_append (c : UInt32) (a b : List QueueCall) :
    told c (a ++ b) = told c a ++ told c b := by
  unfold told
  rw [List.filter_append, List.map_append]

theorem told_cons_self (c : UInt32) (rs : RoomSystem) (m : Message) (calls : List QueueCall) :
    told c (⟨rs, c, m⟩ :: calls) = m :: told c calls := by
  unfold told
  rw [List.filter_cons_of_pos (by simp only [decide_true]), List.map_cons]

theorem told_cons_other {c s : UInt32} (h : s ≠ c) (rs : RoomSystem) (m : Message)
    (calls : List QueueCall) : told c (⟨rs, s, m⟩ :: calls) = told c calls := by
  unfold told
  rw [List.filter_cons_of_neg (by simp only [h, decide_false, Bool.false_eq_true,
    not_false_eq_true])]

/-- A client reads in the queue what the calls told it. -/
theorem messagesFor_map (c : UInt32) (calls : List QueueCall) :
    messagesFor c (calls.map (fun call => ⟨call.sessionId, call.message⟩)) = told c calls := by
  unfold messagesFor told
  rw [List.filter_map, List.map_map]
  rfl

theorem sinceJoin_append {ms rest : List Message}
    (h : ∀ m ∈ rest, m.confirmsJoin = false) :
    sinceJoin (ms ++ rest) = sinceJoin ms ++ rest := by
  unfold sinceJoin List.rtakeWhile
  rw [List.reverse_append, List.takeWhile_append_of_pos, List.reverse_append,
    List.reverse_reverse]
  intro m hm
  rw [h m (List.mem_reverse.mp hm), Bool.not_false]

/-- A confirmation starts the replay over. -/
theorem sinceJoin_confirmation (ms : List Message) {rest : List Message} {m : Message}
    (hm : m.confirmsJoin = true) (h : ∀ m ∈ rest, m.confirmsJoin = false) :
    sinceJoin (ms ++ m :: rest) = rest := by
  have hcut : sinceJoin (ms ++ [m]) = [] := by
    unfold sinceJoin
    exact List.rtakeWhile_concat_neg _ _ _ (by simp only [hm, Bool.not_true,
      Bool.false_eq_true, not_false_eq_true])
  have happend : sinceJoin ((ms ++ [m]) ++ rest) = sinceJoin (ms ++ [m]) ++ rest :=
    sinceJoin_append h
  rw [List.append_assoc, List.singleton_append] at happend
  rw [happend, hcut, List.nil_append]

/-! ### What a move looks like to one session -/

/-- One message for each element of a list with distinct ids reaches `c` once
    or not at all. -/
theorem told_map_member {l : List SessionState} (hnd : (l.map SessionState.sessionId).Nodup)
    (c : UInt32) (rs : RoomSystem) (m : Message) :
    told c (l.map (fun member => ⟨rs, member.sessionId, m⟩))
      = if c ∈ l.map SessionState.sessionId then [m] else [] := by
  induction l with
  | nil => rfl
  | cons member l ih =>
      rw [List.map_cons, List.nodup_cons] at hnd
      have htail := ih hnd.2
      rw [List.map_cons, List.map_cons]
      -- Ids are distinct, so once it was `c` it is not `c` again.
      by_cases hc : member.sessionId = c
      · rw [if_neg (hc ▸ hnd.1)] at htail
        rw [hc, told_cons_self, htail, if_pos List.mem_cons_self]
      · have hiff : c ∈ member.sessionId :: l.map SessionState.sessionId ↔
            c ∈ l.map SessionState.sessionId := by
          rw [List.mem_cons]
          exact ⟨fun h => h.resolve_left (fun hcm => hc hcm.symm), Or.inr⟩
        rw [told_cons_other hc, htail]
        simp only [hiff]

/-- Of the announcements of a join, everybody but the newcomer hears its own
    half. -/
theorem told_announce_other {c s : UInt32} (hsc : s ≠ c) (l : List SessionState)
    (rs : RoomSystem) (m : Message) (reply : SessionState → Message) :
    told c (l.flatMap (fun other => [⟨rs, other.sessionId, m⟩, ⟨rs, s, reply other⟩]))
      = told c (l.map (fun other => ⟨rs, other.sessionId, m⟩)) := by
  induction l with
  | nil => rfl
  | cons other l ih =>
      rw [List.flatMap_cons, List.map_cons, List.cons_append, List.singleton_append]
      by_cases hc : other.sessionId = c
      · rw [hc, told_cons_self, told_cons_self, told_cons_other hsc, ih]
      · rw [told_cons_other hc, told_cons_other hc, told_cons_other hsc, ih]

/-- The newcomer hears of everybody. -/
theorem told_announce_self {s : UInt32} (l : List SessionState)
    (hl : ∀ other ∈ l, other.sessionId ≠ s) (rs : RoomSystem) (m : Message)
    (reply : SessionState → Message) :
    told s (l.flatMap (fun other => [⟨rs, other.sessionId, m⟩, ⟨rs, s, reply other⟩]))
      = l.map reply := by
  induction l with
  | nil => rfl
  | cons other l ih =>
      have htail := ih (fun o ho => hl o (List.mem_cons_of_mem other ho))
      rw [List.flatMap_cons, List.map_cons, List.cons_append, List.singleton_append,
        told_cons_other (hl other List.mem_cons_self), told_cons_self, htail]

/-- A message that neither confirms a join nor reports an arrival or a
    departure. -/
def Message.IsQuiet (m : Message) : Prop := m.confirmsJoin = false ∧ m.notice = none

theorem Message.isQuiet_of_isReply {m : Message} (h : m.IsReply) : m.IsQuiet := by
  rcases m with ⟨requestId, payload⟩
  cases payload with
  | joinRoomResponse table =>
      cases table with
      | none => exact absurd h id
      | some table => exact ⟨h, rfl⟩
  | userJoinedEvent table => exact absurd h id
  | userLeftEvent table => exact absurd h id
  | _ => exact ⟨rfl, rfl⟩

theorem told_quiet {c : UInt32} {calls : List QueueCall}
    (h : ∀ call ∈ calls, call.message.IsQuiet) : ∀ m ∈ told c calls, m.IsQuiet := by
  intro m hm
  rcases List.mem_map.mp hm with ⟨call, hcall, rfl⟩
  exact h call (List.mem_of_mem_filter hcall)

/-- What a move from `rs` to `rs'` looks like to session `c`, which is in room
    `r` afterwards. -/
inductive Observed (env : Env) (allowed : RoomSystem → UInt32 → Bytes → Prop)
    (rs rs' : RoomSystem) (c r : UInt32) : List Message → Prop where
  -- It has just entered, and is told of everybody who was there.
  | enters (session : SessionState) (confirmation welcome : Message)
      (hc : rs.findSession c = some session) (hroom : session.roomId = noRoomId)
      (hr : ∃ room, rs.findRoom r = some room) (hrs : rs' = rs.assign c r)
      (hconfirmation : confirmation.confirmsJoin = true) (hwelcome : welcome.IsQuiet) :
      Observed env allowed rs rs' c r (confirmation :: welcome ::
        (rs.getRoomMembers env.toIteration r).map (userJoinedMessage r))
  -- It was there before, and the membership of its room stands still. A member
  -- keeps its name, or has just logged in under another.
  | quiet (ms : List Message) (hc : ∃ session, rs.findSession c = some session ∧
        session.roomId = r) (hms : ∀ m ∈ ms, m.IsQuiet)
      (hmem : ∀ t, rs'.IsMember t r ↔ rs.IsMember t r)
      (hnames : ∀ t session session', rs.IsMember t r → rs.findSession t = some session →
        rs'.findSession t = some session' → session'.displayName = session.displayName ∨
          allowed rs t session'.displayName) :
      Observed env allowed rs rs' c r ms
  | joined (s : UInt32) (session : SessionState) (hsc : s ≠ c)
      (hc : ∃ session, rs.findSession c = some session ∧ session.roomId = r)
      (hs : rs.findSession s = some session) (hroom : session.roomId = noRoomId)
      (hr : ∃ room, rs.findRoom r = some room) (hrs : rs' = rs.assign s r) :
      Observed env allowed rs rs' c r [userJoinedMessage r session]
  | left (s : UInt32) (session : SessionState) (hsc : s ≠ c)
      (hc : ∃ session, rs.findSession c = some session ∧ session.roomId = r)
      (hs : rs.findSession s = some session) (hroom : session.roomId = r)
      (hrs : rs' = rs.assign s noRoomId) :
      Observed env allowed rs rs' c r [userLeftMessage r session]

section Observation

variable {env : Env} {allowed : RoomSystem → UInt32 → Bytes → Prop}

/-- Placing another session in or out of another room goes unnoticed. -/
theorem observed_assign_elsewhere {rs : RoomSystem} {c r s q : UInt32}
    (hc : ∃ session, rs.findSession c = some session ∧ session.roomId = r) (hq : r ≠ q)
    (hs : ¬ rs.IsMember s r) :
    Observed env allowed rs (rs.assign s q) c r [] := by
  refine Observed.quiet [] hc (fun m hm => absurd hm List.not_mem_nil) (fun t => ?_)
    (fun t session session' _ ht ht' => Or.inl ?_)
  · rw [RoomSystem.isMember_assign]
    by_cases hts : t = s
    · rw [if_pos hts, hts]
      exact ⟨fun h => absurd h.1 hq, fun h => absurd h hs⟩
    · rw [if_neg hts]
  · rw [RoomSystem.findSession_assign] at ht'
    by_cases hst : s = t
    · rw [if_pos hst, ht, Option.map_some, Option.some.injEq] at ht'
      rw [← ht']
    · rw [if_neg hst, ht, Option.some.injEq] at ht'
      rw [ht']

/-- What a leave tells a session that stays. -/
theorem told_leaveCalls {rs : RoomSystem} (hw : rs.WellFormed) {c s : UInt32} (hsc : s ≠ c)
    {session : SessionState} (hs : rs.findSession s = some session) :
    told c (leaveCalls env rs session) = if rs.IsMember c session.roomId then
      [userLeftMessage session.roomId session] else [] := by
  have hkey := (hw.session_key s session hs).1
  unfold leaveCalls
  rw [told_map_member (hw.nodup_getRoomMembers _ _ _)]
  have hne : (some session.sessionId : Option UInt32) ≠ some c := by
    rw [hkey, ne_eq, Option.some.injEq]
    exact hsc
  simp only [hw.mem_map_getRoomMembers, hne, ne_eq, not_false_eq_true, and_true]

/-- What an arrival tells a session that was there or elsewhere. -/
theorem told_enterCalls_other {rs rs' : RoomSystem} (hw : rs.WellFormed) {c s : UInt32}
    (hsc : s ≠ c) (requestId : UInt32) (session : SessionState) (room : RoomState) :
    told c (enterCalls env rs rs' s requestId session room) = if rs.IsMember c room.roomId then
      [userJoinedMessage room.roomId session] else [] := by
  unfold enterCalls
  rw [told_cons_other hsc, told_cons_other hsc, told_announce_other hsc,
    told_map_member (hw.nodup_getRoomMembers _ _ _)]
  simp only [hw.mem_map_getRoomMembers, ne_eq, reduceCtorEq, not_false_eq_true, and_true]

/-- A move that leaves rooms alone, says nothing of arrivals or departures and
    keeps what `c` had. -/
theorem observed_quiet {rs rs' : RoomSystem} {c : UInt32} {calls : List QueueCall}
    {session : SessionState} (hc : rs.findSession c = some session)
    (hcalls : ∀ call ∈ calls, call.message.IsQuiet)
    (hmem : ∀ t, rs'.IsMember t session.roomId ↔ rs.IsMember t session.roomId)
    (hnames : ∀ t session' session'', rs.IsMember t session.roomId →
      rs.findSession t = some session' → rs'.findSession t = some session'' →
        session''.displayName = session'.displayName ∨ allowed rs t session''.displayName) :
    Observed env allowed rs rs' c session.roomId (told c calls) :=
  Observed.quiet _ ⟨session, hc, rfl⟩ (told_quiet hcalls) hmem hnames

theorem observed_leave {rs : RoomSystem} (hw : rs.WellFormed) {c s : UInt32}
    {session cSession : SessionState} (hs : rs.findSession s = some session)
    (hc : (rs.assign s noRoomId).findSession c = some cSession)
    (hne : cSession.roomId ≠ noRoomId) :
    Observed env allowed rs (rs.assign s noRoomId) c cSession.roomId
      (told c (leaveCalls env rs session)) := by
  rw [RoomSystem.findSession_assign] at hc
  by_cases hsc : s = c
  · -- The session that left is in no room.
    rw [if_pos hsc, Option.map_eq_some_iff] at hc
    rcases hc with ⟨old, _, rfl⟩
    exact absurd rfl hne
  rw [if_neg hsc] at hc
  rw [told_leaveCalls hw hsc hs]
  -- Whoever shares the room is told; the others neither are nor need to be.
  by_cases hsame : session.roomId = cSession.roomId
  · have hcm : rs.IsMember c session.roomId := hsame ▸ hw.isMember_of_session hc hne
    rw [if_pos hcm, hsame]
    exact Observed.left s session hsc ⟨cSession, hc, rfl⟩ hs hsame rfl
  · rw [if_neg (hw.not_isMember hc (fun h => hsame h.symm))]
    exact observed_assign_elsewhere ⟨cSession, hc, rfl⟩ hne
      (hw.not_isMember hs hsame)

theorem observed_enter {rs : RoomSystem} (hw : rs.WellFormed) {c s r requestId : UInt32}
    {session cSession : SessionState} {room : RoomState}
    (hs : rs.findSession s = some session) (hroom : session.roomId = noRoomId)
    (hr : rs.findRoom r = some room)
    (hc : (rs.assign s r).findSession c = some cSession) (hne : cSession.roomId ≠ noRoomId) :
    Observed env allowed rs (rs.assign s r) c cSession.roomId
      (told c (enterCalls env rs (rs.assign s r) s requestId { session with roomId := r }
        { room with members := room.members.insert s })) := by
  have hkey := hw.room_key r room hr
  rw [RoomSystem.findSession_assign] at hc
  by_cases hsc : s = c
  · subst hsc
    rw [if_pos rfl, hs, Option.map_some, Option.some.injEq] at hc
    rw [← hc]
    -- Nobody in the room is the newcomer.
    have hothers : ∀ other ∈ rs.getRoomMembers env.toIteration r, other.sessionId ≠ s := by
      intro other hother heq
      have hmem := (hw.findSession_of_mem hother).2.2.1
      rw [heq] at hmem
      refine hw.not_isMember hs ?_ hmem
      rw [hroom]
      exact fun h => hw.ne_noRoomId hr h.symm
    unfold enterCalls
    rw [told_cons_self, told_cons_self]
    simp only [hkey]
    rw [told_announce_self _ hothers]
    exact Observed.enters session _ _ hs hroom ⟨room, hr⟩ rfl rfl ⟨rfl, rfl⟩
  · rw [if_neg hsc] at hc
    rw [told_enterCalls_other hw hsc]
    simp only [hkey]
    -- The old members of the room are told of the newcomer, and nobody else.
    by_cases hsame : r = cSession.roomId
    · have hcm : rs.IsMember c r := hsame ▸ hw.isMember_of_session hc hne
      rw [if_pos hcm, hsame]
      exact Observed.joined s session hsc ⟨cSession, hc, rfl⟩ hs hroom
        ⟨room, hsame ▸ hr⟩ rfl
    · rw [if_neg (hw.not_isMember hc (fun h => hsame h.symm))]
      refine observed_assign_elsewhere ⟨cSession, hc, rfl⟩ (fun h => hsame h.symm)
        (hw.not_isMember hs ?_)
      rw [hroom]
      exact fun h => hne h.symm

/-- A move, as a session that is in a room afterwards sees it. -/
theorem move_observed {rs rs' : RoomSystem} {calls : List QueueCall} (hw : rs.WellFormed)
    (hm : Move env allowed rs calls rs') {c : UInt32} {cSession : SessionState}
    (hc : rs'.findSession c = some cSession) (hne : cSession.roomId ≠ noRoomId) :
    Observed env allowed rs rs' c cSession.roomId (told c calls) := by
  cases hm with
  | connect s =>
      -- A session in a room is not one that has just connected.
      have hold : rs.findSession c = some cSession := by
        rw [RoomSystem.findSession_addSession] at hc
        by_cases hsc : s = c
        · rw [if_pos hsc, Option.some.injEq] at hc
          cases hold : rs.findSession c with
          | none =>
              rw [hold, Option.getD_none] at hc
              rw [← hc] at hne
              exact absurd rfl hne
          | some old =>
              rw [hold, Option.getD_some] at hc
              rw [hc]
        · rw [if_neg hsc] at hc
          exact hc
      refine observed_quiet hold (fun call h => absurd h List.not_mem_nil) (fun t => Iff.rfl)
        (fun t session session' _ ht ht' => Or.inl ?_)
      rw [RoomSystem.findSession_addSession] at ht'
      by_cases hst : s = t
      · rw [if_pos hst, ht, Option.getD_some, Option.some.injEq] at ht'
        rw [ht']
      · rw [if_neg hst, ht, Option.some.injEq] at ht'
        rw [ht']
  | login s requestId name haccepted hallowed =>
      -- The room of a session does not depend on its login state.
      have hold : ∃ old, rs.findSession c = some old ∧ old.roomId = cSession.roomId := by
        rw [RoomSystem.findSession_setLoggedIn] at hc
        by_cases hsc : s = c
        · rw [if_pos hsc, Option.map_eq_some_iff] at hc
          rcases hc with ⟨old, hold, rfl⟩
          exact ⟨old, hold, rfl⟩
        · rw [if_neg hsc] at hc
          exact ⟨cSession, hc, rfl⟩
      refine Observed.quiet _ hold (told_quiet (fun call hcall => ?_)) (fun t => Iff.rfl)
        (fun t session session' _ ht ht' => ?_)
      · rw [List.mem_singleton] at hcall
        rw [hcall]
        exact ⟨rfl, rfl⟩
      · rw [RoomSystem.findSession_setLoggedIn] at ht'
        by_cases hst : s = t
        · rw [if_pos hst, ht, Option.map_some, Option.some.injEq] at ht'
          rw [← ht', ← hst]
          exact Or.inr hallowed
        · rw [if_neg hst, ht, Option.some.injEq] at ht'
          rw [ht']
          exact Or.inl rfl
  | leave s session hs hroom hlogged => exact observed_leave hw hs hc hne
  | enter s requestId r session room hs hroom hlogged hr =>
      exact observed_enter hw hs hroom hr hc hne
  | remove s hroom =>
      rw [RoomSystem.findSession_removeSession hw.toConsistent] at hc
      by_cases hsc : s = c
      · rw [if_pos hsc] at hc
        exact absurd hc (by simp only [reduceCtorEq, not_false_eq_true])
      rw [if_neg hsc] at hc
      refine observed_quiet hc (fun call h => absurd h List.not_mem_nil) (fun t => ?_)
        (fun t session session' _ ht ht' => Or.inl ?_)
      · rw [RoomSystem.isMember_removeSession hw.toConsistent]
        refine ⟨And.right, fun h => ⟨fun hts => ?_, h⟩⟩
        -- Whoever is removed has left its room before.
        rcases hw.session_of_isMember h with ⟨session, hs, hr, hne'⟩
        exact hne' (hr ▸ hroom session (hts ▸ hs))
      · rw [RoomSystem.findSession_removeSession hw.toConsistent] at ht'
        by_cases hst : s = t
        · rw [if_pos hst] at ht'
          exact absurd ht' (by simp only [reduceCtorEq, not_false_eq_true])
        · rw [if_neg hst, ht, Option.some.injEq] at ht'
          rw [ht']
  | chat s session content reads hs hroom hlogged =>
      refine observed_quiet hc (fun call hcall => ?_) (fun t => Iff.rfl)
        (fun t session session' _ ht ht' => Or.inl ?_)
      · rcases List.mem_map.mp hcall with ⟨p, _, rfl⟩
        exact ⟨rfl, rfl⟩
      · rw [ht, Option.some.injEq] at ht'
        rw [ht']
  | reply s m hm =>
      refine observed_quiet hc (fun call hcall => ?_) (fun t => Iff.rfl)
        (fun t session session' _ ht ht' => Or.inl ?_)
      · rw [List.mem_singleton] at hcall
        rw [hcall]
        exact Message.isQuiet_of_isReply hm
      · rw [ht, Option.some.injEq] at ht'
        rw [ht']

end Observation

/-! ### The view of the members -/

theorem roomNotices_append (a b : List Message) :
    roomNotices (a ++ b) = roomNotices a ++ roomNotices b := List.filterMap_append

theorem roomNotices_quiet {ms : List Message} (h : ∀ m ∈ ms, m.IsQuiet) :
    roomNotices ms = [] := by
  unfold roomNotices
  rw [List.filterMap_eq_nil_iff]
  exact fun m hm => (h m hm).2

/-- The notices of a list of arrivals. -/
theorem roomNotices_joined (r : UInt32) (others : List SessionState) :
    roomNotices (others.map (userJoinedMessage r)) = others.map
      (fun other => (r, View.Notice.joined other.userId (cStr other.displayName))) := by
  induction others with
  | nil => rfl
  | cons other others ih =>
      have htail := ih
      unfold roomNotices at htail ⊢
      rw [List.map_cons, List.map_cons, ← htail]
      exact List.filterMap_cons_some rfl

/-- Messages after the latest confirmation extend the replay. -/
theorem replayed_append {ms rest : List Message} (h : ∀ m ∈ rest, m.confirmsJoin = false) :
    replayed (ms ++ rest) = replayed ms ++ (roomNotices rest).map Prod.snd := by
  unfold replayed
  rw [sinceJoin_append h, roomNotices_append, List.map_append]

/-- The messages of session `c`, which is in room `r`, describe the room: a
    confirmed join is among them, and replaying what followed it yields the
    other members, with every notice fitting the view it meets. -/
structure Informed (rs : RoomSystem) (c r : UInt32) (ms : List Message) : Prop where
  latest : ∃ before confirmation, ms = before ++ confirmation :: sinceJoin ms ∧
    confirmation.confirmsJoin = true
  room : ∀ p ∈ roomNotices (sinceJoin ms), p.1 = r
  proper : View.Proper (fun _ => none) (replayed ms)
  domain : ∀ t, (View.replayFrom (fun _ => none) (replayed ms) t).isSome ↔
    t ≠ c ∧ rs.IsMember t r

/-- One more notice extends the replay by it. -/
theorem replayed_notice (ms : List Message) {m : Message} {r : UInt32}
    {n : View.Notice UInt32 Bytes} (hm : m.confirmsJoin = false) (hn : m.notice = some (r, n)) :
    roomNotices (sinceJoin (ms ++ [m])) = roomNotices (sinceJoin ms) ++ [(r, n)] ∧
      replayed (ms ++ [m]) = replayed ms ++ [n] := by
  have hquiet : ∀ m' ∈ [m], m'.confirmsJoin = false := by
    intro m' hm'
    rw [List.mem_singleton] at hm'
    rw [hm']
    exact hm
  have hnotices : roomNotices [m] = [(r, n)] := List.filterMap_cons_some hn
  refine ⟨?_, ?_⟩
  · rw [sinceJoin_append hquiet, roomNotices_append, hnotices]
  · rw [replayed_append hquiet, hnotices, List.map_cons, List.map_nil]

/-- Messages that confirm no join leave the latest confirmation in place. -/
theorem Informed.latest_append {rs : RoomSystem} {c r : UInt32} {ms new : List Message}
    (h : Informed rs c r ms) (hnew : ∀ m ∈ new, m.confirmsJoin = false) :
    ∃ before confirmation, ms ++ new = before ++ confirmation :: sinceJoin (ms ++ new) ∧
      confirmation.confirmsJoin = true := by
  rcases h.latest with ⟨before, confirmation, heq, hconf⟩
  refine ⟨before, confirmation, ?_, hconf⟩
  rw [sinceJoin_append hnew, ← List.cons_append, ← List.append_assoc, ← heq]

/-- The view stays right over one notice that fits it and reports what
    happened. -/
theorem Informed.notice {rs rs' : RoomSystem} {c r : UInt32} {ms : List Message}
    (h : Informed rs c r ms) {m : Message} {n : View.Notice UInt32 Bytes}
    (hm : m.confirmsJoin = false) (hn : m.notice = some (r, n))
    (hfits : n.Fits (View.replayFrom (fun _ => none) (replayed ms)))
    (hdomain : ∀ t, (n.apply (View.replayFrom (fun _ => none) (replayed ms)) t).isSome ↔
      t ≠ c ∧ rs'.IsMember t r) : Informed rs' c r (ms ++ [m]) := by
  have hreplayed := replayed_notice ms hm hn
  refine ⟨h.latest_append ?_, ?_, ?_, fun t => ?_⟩
  · intro m' hm'
    rw [List.mem_singleton] at hm'
    rw [hm']
    exact hm
  · rw [hreplayed.1]
    intro p hp
    rcases List.mem_append.mp hp with hp | hp
    · exact h.room p hp
    · rw [List.mem_singleton] at hp
      rw [hp]
  · rw [hreplayed.2, View.proper_append]
    exact ⟨h.proper, hfits, trivial⟩
  · rw [hreplayed.2, View.replayFrom_append]
    exact hdomain t

section Views

variable {env : Env} {allowed : RoomSystem → UInt32 → Bytes → Prop}

/-- The members announced to a newcomer, as a view. -/
theorem replay_members {rs : RoomSystem} (hw : rs.WellFormed) (it : Iteration) (r : UInt32) :
    View.Proper (fun _ => none) ((rs.getRoomMembers it r).map (fun other =>
      View.Notice.joined other.userId (cStr other.displayName))) ∧
    ∀ t, View.replayFrom (fun _ => none) ((rs.getRoomMembers it r).map (fun other =>
      View.Notice.joined other.userId (cStr other.displayName))) t
        = if rs.IsMember t r then (rs.findSession t).map (fun session =>
            cStr session.displayName) else none := by
  have hids : (rs.getRoomMembers it r).map SessionState.userId
      = (rs.getRoomMembers it r).map SessionState.sessionId :=
    List.map_congr_left (fun member hm => (hw.findSession_of_mem hm).2.1)
  have hnd : ((rs.getRoomMembers it r).map SessionState.userId).Nodup := by
    rw [hids]
    exact hw.nodup_getRoomMembers it r none
  refine ⟨View.proper_joins _ _ _ _ hnd (fun _ _ => rfl), fun t => ?_⟩
  rw [View.replayFrom_joins _ _ _ _ hnd, Option.or_none]
  by_cases hm : rs.IsMember t r
  · rw [if_pos hm]
    -- The first entry with this id is the member itself.
    have hin : t ∈ (rs.getRoomMembers it r).map SessionState.userId := by
      rw [hids, hw.mem_map_getRoomMembers]
      exact ⟨hm, by simp only [ne_eq, reduceCtorEq, not_false_eq_true]⟩
    cases hfind : (rs.getRoomMembers it r).find? (fun other => other.userId = t) with
    | none =>
        rcases List.mem_map.mp hin with ⟨member, hmember, heq⟩
        rw [List.find?_eq_none] at hfind
        exact absurd (decide_eq_true heq) (hfind member hmember)
    | some member =>
        have hmember := hw.findSession_of_mem (List.mem_of_find?_eq_some hfind)
        have hkey := List.find?_some hfind
        rw [decide_eq_true_eq, hmember.2.1] at hkey
        rw [← hkey, hmember.1, Option.map_some]
  · rw [if_neg hm, Option.map_eq_none_iff, List.find?_eq_none]
    intro member hmember hkey
    rw [decide_eq_true_eq] at hkey
    have hfound := hw.findSession_of_mem hmember
    rw [hfound.2.1] at hkey
    exact hm (hkey ▸ hfound.2.2.1)

/-- What a newcomer replays: the announcements that follow the confirmation
    and the welcome. -/
theorem sinceJoin_enters (env : Env) (ms : List Message) (r : UInt32) (rs : RoomSystem)
    {confirmation welcome : Message} (hconfirmation : confirmation.confirmsJoin = true)
    (hwelcome : welcome.IsQuiet) :
    sinceJoin (ms ++ confirmation :: welcome ::
      (rs.getRoomMembers env.toIteration r).map (userJoinedMessage r))
      = welcome :: (rs.getRoomMembers env.toIteration r).map (userJoinedMessage r) := by
  refine sinceJoin_confirmation ms hconfirmation (fun m hm => ?_)
  rcases List.mem_cons.mp hm with rfl | hm
  · exact hwelcome.1
  · rcases List.mem_map.mp hm with ⟨other, _, rfl⟩
    rfl

theorem roomNotices_enters (env : Env) (r : UInt32) (rs : RoomSystem) {welcome : Message}
    (hwelcome : welcome.IsQuiet) :
    roomNotices (welcome :: (rs.getRoomMembers env.toIteration r).map (userJoinedMessage r))
      = (rs.getRoomMembers env.toIteration r).map
        (fun other => (r, View.Notice.joined other.userId (cStr other.displayName))) := by
  rw [← roomNotices_joined]
  exact List.filterMap_cons_none hwelcome.2

theorem replayed_enters (env : Env) (ms : List Message) (r : UInt32) (rs : RoomSystem)
    {confirmation welcome : Message} (hconfirmation : confirmation.confirmsJoin = true)
    (hwelcome : welcome.IsQuiet) :
    replayed (ms ++ confirmation :: welcome ::
      (rs.getRoomMembers env.toIteration r).map (userJoinedMessage r))
      = (rs.getRoomMembers env.toIteration r).map (fun other =>
        View.Notice.joined other.userId (cStr other.displayName)) := by
  unfold replayed
  rw [sinceJoin_enters env ms r rs hconfirmation hwelcome, roomNotices_enters env r rs hwelcome,
    List.map_map]
  rfl

/-- The view stays right over whatever a move shows. -/
theorem informed_observed {rs rs' : RoomSystem} (hw : rs.WellFormed) {c r : UInt32}
    (hne : r ≠ noRoomId) {ms new : List Message} (hobs : Observed env allowed rs rs' c r new)
    (h : ∀ session, rs.findSession c = some session → session.roomId = r →
      Informed rs c r ms) : Informed rs' c r (ms ++ new) := by
  cases hobs with
  | enters session confirmation welcome hc hroom hr hrs hconfirmation hwelcome =>
      have hsince := sinceJoin_enters env ms r rs hconfirmation hwelcome
      have hnotices := roomNotices_enters env r rs hwelcome
      have hreplayed := replayed_enters env ms r rs hconfirmation hwelcome
      have hmembers := replay_members hw env.toIteration r
      refine ⟨⟨ms, confirmation, by rw [hsince], hconfirmation⟩, ?_, ?_, fun t => ?_⟩
      · rw [hsince, hnotices]
        intro p hp
        rcases List.mem_map.mp hp with ⟨other, _, rfl⟩
        rfl
      · rw [hreplayed]
        exact hmembers.1
      · rw [hreplayed, hmembers.2, hrs, RoomSystem.isMember_assign]
        -- The newcomer itself was in no room.
        have hself : ¬ rs.IsMember c r := by
          rcases hr with ⟨room, hr⟩
          refine hw.not_isMember hc ?_
          rw [hroom]
          exact fun heq => hw.ne_noRoomId hr heq.symm
        by_cases htc : t = c
        · rw [htc, if_neg hself]
          simp only [Option.isSome_none, Bool.false_eq_true, ne_eq, not_true_eq_false, false_and]
        · rw [if_neg htc]
          by_cases hm : rs.IsMember t r
          · rcases hw.session_of_isMember hm with ⟨other, hother, _⟩
            rw [if_pos hm, hother, Option.map_some, Option.isSome_some]
            exact ⟨fun _ => ⟨htc, hm⟩, fun _ => rfl⟩
          · rw [if_neg hm]
            exact ⟨fun hf => absurd hf Bool.false_ne_true, fun hf => absurd hf.2 hm⟩
  | quiet _ hc hms hmem hnames =>
      rcases hc with ⟨session, hs, hr⟩
      have hold := h session hs hr
      have hquiet : ∀ m ∈ new, m.confirmsJoin = false := fun m hm => (hms m hm).1
      have hsame : replayed (ms ++ new) = replayed ms := by
        rw [replayed_append hquiet, roomNotices_quiet hms, List.map_nil, List.append_nil]
      refine ⟨hold.latest_append hquiet, ?_, ?_, fun t => ?_⟩
      · rw [sinceJoin_append hquiet, roomNotices_append, roomNotices_quiet hms,
          List.append_nil]
        exact hold.room
      · rw [hsame]
        exact hold.proper
      · rw [hsame, hold.domain t, hmem t]
  | joined s session hsc hc hs hroom hr hrs =>
      rcases hc with ⟨cSession, hcs, hcr⟩
      have hold := h cSession hcs hcr
      have hkey := (hw.session_key s session hs).2
      -- The newcomer was in no room, so nobody had it in view.
      have habsent : View.replayFrom (fun _ => none) (replayed ms) s = none := by
        rw [← Option.not_isSome_iff_eq_none, hold.domain s]
        intro hin
        refine hw.not_isMember hs ?_ hin.2
        rw [hroom]
        rcases hr with ⟨room, hr⟩
        exact fun heq => hw.ne_noRoomId hr heq.symm
      refine hold.notice rfl (n := .joined s (cStr session.displayName)) ?_ habsent (fun t => ?_)
      · rw [← hkey]
        rfl
      · rw [hrs, RoomSystem.isMember_assign]
        simp only [View.Notice.apply]
        by_cases hts : t = s
        · rw [if_pos hts, if_pos hts, hts]
          exact ⟨fun _ => ⟨hsc, trivial, hr⟩, fun _ => rfl⟩
        · rw [if_neg hts, if_neg hts]
          exact hold.domain t
  | left s session hsc hc hs hroom hrs =>
      rcases hc with ⟨cSession, hcs, hcr⟩
      have hold := h cSession hcs hcr
      have hkey := (hw.session_key s session hs).2
      -- It was a member until now, so it is in view.
      have hpresent : (View.replayFrom (fun _ => none) (replayed ms) s).isSome := by
        rw [hold.domain s]
        exact ⟨hsc, hroom ▸ hw.isMember_of_session hs (hroom ▸ hne)⟩
      refine hold.notice rfl (n := .left s (cStr session.displayName)) ?_ hpresent (fun t => ?_)
      · rw [← hkey]
        rfl
      · rw [hrs, RoomSystem.isMember_assign]
        simp only [View.Notice.apply]
        by_cases hts : t = s
        · rw [if_pos hts, if_pos hts]
          exact ⟨fun hf => absurd hf Bool.false_ne_true, fun hf => absurd hf.2.1 hne⟩
        · rw [if_neg hts, if_neg hts]
          exact hold.domain t

/-- Every session in a room is informed by what it has been told. -/
def AllInformed (past : List QueueCall) (rs : RoomSystem) : Prop :=
  rs.WellFormed ∧ ∀ c session, rs.findSession c = some session →
    session.roomId ≠ noRoomId → Informed rs c session.roomId (told c past)

theorem informed_move (past : List QueueCall) (rs : RoomSystem) (calls : List QueueCall)
    (rs' : RoomSystem) (h : AllInformed past rs) (hm : Move env allowed rs calls rs') :
    AllInformed (past ++ calls) rs' := by
  refine ⟨wellFormed_move rs calls rs' h.1 hm, fun c session hc hne => ?_⟩
  rw [told_append]
  -- What held before the move holds of the session if it was in the same room.
  refine informed_observed h.1 hne (move_observed h.1 hm hc hne) (fun old hold hroom => ?_)
  rw [← hroom]
  exact h.2 c old hold (hroom ▸ hne)

/-- In a fresh room system nobody is in a room. -/
theorem allInformed_init : AllInformed [] RoomSystem.init := by
  refine ⟨RoomSystem.wellFormed_init, fun c session hc => ?_⟩
  rw [RoomSystem.findSession_init] at hc
  exact absurd hc (by simp only [reduceCtorEq, not_false_eq_true])

theorem update_informed (events : List ServerEvent)
    (hallowed : GameLogicSystem.LoginsAllowed env allowed .initial events) :
    AllInformed (GameLogicSystem.update env .initial events).queueCalls
      (GameLogicSystem.update env .initial events).roomSystem := by
  rcases GameLogicSystem.update_emits events _ RoomSystem.wellFormed_init hallowed with
    ⟨calls, hrun, hcalls⟩
  rw [hcalls]
  exact hrun.history informed_move [] allInformed_init

end Views

namespace GameLogicSystem

/-- For every list of events, when everything that is built fits the queue: a
    session in a room has been sent the confirmation of a join, and replaying
    the notices it was sent since the latest one, all of which name the room,
    from the empty set yields the members of the room without the session
    itself. No notice in the replay adds a user already present or removes an
    absent one. -/
theorem update_view (env : Env) (events : List ServerEvent)
    (hfits : ∀ call ∈ (update env initial events).queueCalls, env.fits call.message = true)
    (c r : UInt32) (hc : (update env initial events).roomSystem.IsMember c r) :
    let ms := messagesFor c (update env initial events).outgoingMessages
    (∃ before confirmation, ms = before ++ confirmation :: sinceJoin ms ∧
      confirmation.confirmsJoin = true) ∧
    (∀ p ∈ roomNotices (sinceJoin ms), p.1 = r) ∧
    (∃ room, (update env initial events).roomSystem.findRoom r = some room ∧
      View.replayKeys ∅ (replayed ms) = room.members.elems.erase c) ∧
    View.ProperKeys ∅ (replayed ms) := by
  intro ms
  have hall := update_informed events (loginsAllowed_true env initial events)
  rcases hall.1.session_of_isMember hc with ⟨session, hs, hroom, hne⟩
  have hinformed := hall.2 c session hs (hroom ▸ hne)
  have hms : told c (update env initial events).queueCalls = ms := by
    rw [← messagesFor_map, ← outgoingMessages_update env events hfits]
  rw [hms, hroom] at hinformed
  -- The empty set is the domain of the empty view.
  have hempty : ∀ k, k ∈ (∅ : Std.ExtTreeSet UInt32) ↔
      ((fun _ => none : UInt32 → Option Bytes) k).isSome :=
    fun k => ⟨fun h => absurd h Std.ExtTreeSet.not_mem_empty,
      fun h => absurd h Bool.false_ne_true⟩
  refine ⟨hinformed.latest, hinformed.room, ?_,
    View.properKeys_of_proper ∅ _ hempty _ hinformed.proper⟩
  rcases hc with ⟨room, hfind, _⟩
  -- Member by member, through the domain of the view.
  refine ⟨room, hfind, Std.ExtTreeSet.ext_mem (fun t => ?_)⟩
  rw [View.mem_replayKeys ∅ _ hempty, hinformed.domain t, TreeMap.mem_erase_iff]
  refine and_congr_right (fun _ => ⟨fun h => ?_, fun h => ⟨room, hfind, h⟩⟩)
  rcases h with ⟨room', hfind', hmem⟩
  rw [hfind, Option.some.injEq] at hfind'
  exact hfind' ▸ hmem

/-- Session 2 sees session 1 and, after it has come over from another room,
    session 3. -/
theorem update_view_lobby :
    (∃ room, (update sampleEnv initial
        (twoInLobby [97] ++ [.joinRoomRequest 3 3 1001])).roomSystem.findRoom 1001 = some room ∧
      View.replayKeys ∅ (replayed (messagesFor 2 (update sampleEnv initial
        (twoInLobby [97] ++ [.joinRoomRequest 3 3 1001])).outgoingMessages))
        = room.members.elems.erase 2) ∧
    View.ProperKeys ∅ (replayed (messagesFor 2 (update sampleEnv initial
      (twoInLobby [97] ++ [.joinRoomRequest 3 3 1001])).outgoingMessages)) := by
  have hview := update_view sampleEnv (twoInLobby [97] ++ [.joinRoomRequest 3 3 1001])
    (by decide +kernel) 2 1001 (by decide +kernel)
  exact hview.2.2

end GameLogicSystem

end ProjectNight
