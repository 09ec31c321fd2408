import ProjectNight.Theory.Noninterference

/-!
# Events That Do Not Meet

The network gives no order between the packets of different sessions, so the
order in which two of their events reach `Update` is up to thread timing. This
module says when it does not matter: the events concern different rooms, no
two of them compete for a name, and none counts members while the other
changes a count.

An event of session `a` rewrites the entry of `a` and its place in the rooms
the event touches. Seen from an event of session `b` that touches other rooms
nothing has changed: `a` is in none of the rooms `b` looks at, neither before
nor after (`agree_after`). So each event has the effect it would have had
first, and effects of different sessions commute on the room system, down to
the histories of the member sets, since no set is changed by both. What is left
is that no recipient gets messages from both, since a session is in one room
only.

The conditions on logins and on room lists are needed where an event reads
more than its rooms: a login scans all names in use, and a room list shows the
sizes of all rooms.

## Main definitions

* `Independent`: The conditions under which two events do not meet.

## Theorems

* `agree_after`: An independent event leaves everything the other one reads.
* `told_once`: No session hears of both.
* `update_commute`: Independent events can be processed in either order.
-/

namespace ProjectNight

def ServerEvent.IsLogin : ServerEvent → Prop
  | .loginRequest _ _ _ => True
  | _ => False

def ServerEvent.IsRoomList : ServerEvent → Prop
  | .roomListRequest _ _ => True
  | _ => False

/-- A join, a leave or a removal. -/
def ServerEvent.Moves (event : ServerEvent) : Prop :=
  (∃ s requestId r, event = .joinRoomRequest s requestId r) ∨
    (∃ s requestId, event = .leaveRoomRequest s requestId) ∨ event.IsRemoval

/-- Two events of different sessions that touch no room in common, neither of
    which decides over a name the other asks for, or over a count the other
    shows. -/
structure Independent (rs : RoomSystem) (a b : ServerEvent) : Prop where
  sessions : a.sessionId ≠ b.sessionId
  rooms : ∀ r, Touches rs a r → ¬ Touches rs b r
  names : b.IsLogin → ¬ (a.IsLogin ∨ a.IsRemoval)
  names' : a.IsLogin → ¬ (b.IsLogin ∨ b.IsRemoval)
  counts : b.IsRoomList → ¬ a.Moves
  counts' : a.IsRoomList → ¬ b.Moves

theorem Independent.symm {rs : RoomSystem} {a b : ServerEvent} (h : Independent rs a b) :
    Independent rs b a where
  sessions := h.sessions.symm
  rooms := fun r hb ha => h.rooms r ha hb
  names := h.names'
  names' := h.names
  counts := h.counts'
  counts' := h.counts

section Commuting

variable {rs : RoomSystem} {a b : ServerEvent} (env : Env) (reads : Nat)

-- A session that is in a room touches it.
theorem touches_of_isMember (hc : rs.Consistent) {r : UInt32}
    (hm : rs.IsMember a.sessionId r) : Touches rs a r := by
  rcases hc.session_of_isMember hm with ⟨session, hs, hroom, hne⟩
  exact ⟨hne, Or.inl ⟨session, hs, hroom⟩⟩

-- So does one that is moved into it.
theorem touches_of_place {r : UInt32} (hr : r ≠ noRoomId)
    (h : (effect env reads rs a).change = .place r) : Touches rs a r := by
  have hcases := effect_change_cases env reads rs a
  rw [h] at hcases
  rcases hcases with hc | ⟨_, _, hc⟩ | ⟨_, _, _, _, _, hc⟩ | ⟨_, _, q, he, _, hc⟩ |
    ⟨_, _, _, _, hc⟩ | ⟨_, hc⟩
  · exact Change.noConfusion hc
  · exact Change.noConfusion hc
  · exact Change.noConfusion hc
  · rw [Change.place.injEq] at hc
    refine ⟨hr, Or.inr ?_⟩
    rw [he, hc]
    rfl
  · -- A leave places its session in no room.
    rw [Change.place.injEq] at hc
    exact absurd hc hr
  · exact Change.noConfusion hc

-- The session of an event neither is in a room the event does not touch, nor
-- does it go there.
theorem elsewhere_of_not_touches (hc : rs.Consistent) {r : UInt32} (hr : r ≠ noRoomId)
    (hnot : ¬ Touches rs a r) :
    ¬ rs.IsMember a.sessionId r ∧ (effect env reads rs a).change ≠ .place r :=
  ⟨fun hm => hnot (touches_of_isMember hc hm),
    fun hplace => hnot (touches_of_place env reads hr hplace)⟩

-- Names come and go with logins and removals, and with nothing else.
theorem change_keeps_names (h : ¬ (a.IsLogin ∨ a.IsRemoval)) :
    (∀ name, (effect env reads rs a).change ≠ .login name) ∧
      (effect env reads rs a).change ≠ .remove := by
  rcases effect_change_cases env reads rs a with hc | ⟨_, _, hc⟩ | ⟨_, _, _, he, _⟩ |
    ⟨_, _, _, _, _, hc⟩ | ⟨_, _, _, _, hc⟩ | ⟨hremoval, _⟩
  · rw [hc]
    exact ⟨fun _ hc => Change.noConfusion hc, fun hc => Change.noConfusion hc⟩
  · rw [hc]
    exact ⟨fun _ hc => Change.noConfusion hc, fun hc => Change.noConfusion hc⟩
  · refine absurd (Or.inl ?_) h
    rw [he]
    exact trivial
  · rw [hc]
    exact ⟨fun _ hc => Change.noConfusion hc, fun hc => Change.noConfusion hc⟩
  · rw [hc]
    exact ⟨fun _ hc => Change.noConfusion hc, fun hc => Change.noConfusion hc⟩
  · exact absurd (Or.inr hremoval) h

-- What does not move its session keeps all member sets.
theorem change_keeps_rooms (h : ¬ a.Moves) (r : UInt32) :
    (rs.change a.sessionId (effect env reads rs a).change).findRoom r = rs.findRoom r := by
  rcases effect_change_cases env reads rs a with hc | ⟨_, _, hc⟩ | ⟨_, _, _, _, _, hc⟩ |
    ⟨s, requestId, q, he, _⟩ | ⟨s, requestId, he, _⟩ | ⟨hremoval, _⟩
  · rw [hc]
    rfl
  · rw [hc]
    rfl
  · rw [hc]
    rfl
  · exact absurd (Or.inl ⟨s, requestId, q, he⟩) h
  · exact absurd (Or.inr (Or.inl ⟨s, requestId, he⟩)) h
  · exact absurd (Or.inr (Or.inr hremoval)) h

-- The names in use change only through a login or a removal.
theorem isDisplayNameTaken_change {s t : UInt32} {c : Change} {name : Bytes}
    (hlogin : ∀ n, c ≠ .login n) (hremove : c ≠ .remove) :
    (rs.change s c).isDisplayNameTaken name t = rs.isDisplayNameTaken name t := by
  -- Entry by entry: who is logged in, and under which name.
  have hentry : ∀ u, (∃ session, (rs.change s c).findSession u = some session ∧
      session.loggedIn = true ∧ session.displayName = name) ↔
      ∃ session, rs.findSession u = some session ∧ session.loggedIn = true ∧
        session.displayName = name := by
    intro u
    rw [RoomSystem.findSession_change]
    by_cases hsu : s = u
    · rw [if_pos hsu]
      cases c with
      | keep => exact Iff.rfl
      | add =>
          cases hs : rs.findSession u with
          | none =>
              simp only [Change.entry, Option.getD_none, Option.some.injEq, exists_eq_left',
                Bool.false_eq_true, false_and, reduceCtorEq, exists_false]
          | some session => rfl
      | login n => exact absurd rfl (hlogin n)
      | place r =>
          cases hs : rs.findSession u with
          | none => rfl
          | some session =>
              simp only [Change.entry, Option.map_some, Option.some.injEq, exists_eq_left']
      | remove => exact absurd rfl hremove
    · rw [if_neg hsu]
  rw [Bool.eq_iff_iff, RoomSystem.isDisplayNameTaken_iff, RoomSystem.isDisplayNameTaken_iff]
  constructor
  · rintro ⟨u, session, hut, hfound⟩
    rcases (hentry u).mp ⟨session, hfound⟩ with ⟨old, hold⟩
    exact ⟨u, old, hut, hold⟩
  · rintro ⟨u, session, hut, hfound⟩
    rcases (hentry u).mpr ⟨session, hfound⟩ with ⟨new, hnew⟩
    exact ⟨u, new, hut, hnew⟩

-- After an independent event everything the other one reads is as before.
theorem agree_after (hc : rs.Consistent) (h : Independent rs a b) :
    Agree b rs (rs.change a.sessionId (effect env reads rs a).change) where
  entry := by rw [RoomSystem.findSession_change, if_neg h.sessions]
  room := by
    intro r hr
    have helsewhere := elsewhere_of_not_touches env reads hc hr.1 (fun ha => h.rooms r ha hr)
    exact (RoomSystem.findRoom_change_elsewhere helsewhere.1 helsewhere.2).symm
  members := by
    intro r t hr ht
    have hat : a.sessionId ≠ t := by
      rintro rfl
      exact h.rooms r (touches_of_isMember hc ht) hr
    rw [RoomSystem.findSession_change, if_neg hat]
  names := by
    intro s requestId name hb
    have hlogin : b.IsLogin := by
      rw [hb]
      exact trivial
    have hkept : (∀ n, (effect env reads rs a).change ≠ .login n) ∧ _ :=
      change_keeps_names env reads (h.names hlogin)
    exact (isDisplayNameTaken_change hkept.1 hkept.2).symm
  rooms := by
    intro s requestId hb r
    have hlist : b.IsRoomList := by
      rw [hb]
      exact trivial
    exact (change_keeps_rooms env reads (h.counts hlist) r).symm

-- No member set is changed by both.
theorem change_comm_of_independent (hc : rs.Consistent) (h : Independent rs a b) :
    (rs.change a.sessionId (timelessEffect env rs a).change).change b.sessionId
        (timelessEffect env rs b).change
      = (rs.change b.sessionId (timelessEffect env rs b).change).change a.sessionId
        (timelessEffect env rs a).change := by
  refine RoomSystem.change_comm h.sessions (fun r hr => ?_)
  rcases hr with ⟨room, hroom⟩
  have hne := hc.ne_noRoomId hroom
  by_cases ha : Touches rs a r
  · exact Or.inr (elsewhere_of_not_touches env 0 hc hne (h.rooms r ha))
  · exact Or.inl (elsewhere_of_not_touches env 0 hc hne ha)

-- A recipient is one of the two, or in a room one of them touches; it cannot
-- hear from both, as it is in one room only.
theorem told_once (hc : rs.Consistent) (h : Independent rs a b) {x y : OutgoingMessage}
    (hx : x ∈ (effect env reads rs a).messages) (hy : y ∈ (effect env reads rs b).messages) :
    x.sessionId ≠ y.sessionId := by
  intro hxy
  rcases recipient_of_mem hc hx with hxa | ⟨r, hr, hxr⟩
  · rcases recipient_of_mem hc hy with hyb | ⟨q, hq, hyq⟩
    · exact h.sessions (hxa.symm.trans (hxy.trans hyb))
    · -- `a` itself would be in a room of `b`.
      rw [← hxy, hxa] at hyq
      exact h.rooms q (touches_of_isMember hc hyq) hq
  · rcases recipient_of_mem hc hy with hyb | ⟨q, hq, hyq⟩
    · rw [hxy, hyb] at hxr
      exact h.rooms r hr (touches_of_isMember hc hxr)
    · -- Nobody is in two rooms.
      rcases hc.session_of_isMember hxr with ⟨session, hs, hroom, _⟩
      rcases hc.session_of_isMember hyq with ⟨session', hs', hroom', _⟩
      rw [← hxy, hs, Option.some.injEq] at hs'
      have hrq : r = q := hroom.symm.trans (hs' ▸ hroom')
      exact h.rooms r hr (hrq ▸ hq)

-- So for each recipient the order of the two answers does not matter.
theorem messagesFor_comm (hc : rs.Consistent) (h : Independent rs a b) (c : UInt32) :
    messagesFor c ((timelessEffect env rs a).messages ++ (timelessEffect env rs b).messages)
      = messagesFor c ((timelessEffect env rs b).messages
        ++ (timelessEffect env rs a).messages) := by
  rw [messagesFor_append, messagesFor_append]
  by_cases ha : ∃ x ∈ (timelessEffect env rs a).messages, x.sessionId = c
  · have hb : messagesFor c (timelessEffect env rs b).messages = [] := by
      rcases ha with ⟨x, hx, hxc⟩
      refine messagesFor_eq_nil (fun y hy hyc => ?_)
      -- Clearing the timestamps does not change the recipients.
      rcases List.mem_map.mp hx with ⟨x', hx', rfl⟩
      rcases List.mem_map.mp hy with ⟨y', hy', rfl⟩
      exact told_once env 0 hc h hx' hy' (hxc.trans hyc.symm)
    rw [hb, List.append_nil, List.nil_append]
  · have hnone : messagesFor c (timelessEffect env rs a).messages = [] :=
      messagesFor_eq_nil (fun x hx hxc => ha ⟨x, hx, hxc⟩)
    rw [hnone, List.append_nil, List.nil_append]

end Commuting

namespace GameLogicSystem

/-- Two events one after the other, as two effects of the state before. -/
theorem handleEvent_two (env : Env) {g : GameLogicSystem} (hw : g.roomSystem.WellFormed)
    {a b : ServerEvent} (h : Independent g.roomSystem a b) :
    let g' := handleEvent env (handleEvent env g a) b
    let ea := timelessEffect env g.roomSystem a
    let eb := timelessEffect env g.roomSystem b
    g'.roomSystem = (g.roomSystem.change a.sessionId ea.change).change b.sessionId eb.change ∧
    g'.transcript = g.transcript ++ (ea.messages ++ eb.messages) ∧
    g'.pendingDisconnects = g.pendingDisconnects ++ (ea.disconnects ++ eb.disconnects) := by
  intro g' ea eb
  have hw' := wellFormed_handleEvent env hw a
  rcases handleEvent_timeless env hw env.currentTimestampMs a with ⟨hrooms, hsent, hdisc⟩
  rcases handleEvent_timeless env hw' env.currentTimestampMs b with ⟨hrooms', hsent', hdisc'⟩
  -- The second event finds what it would have found before the first.
  have hagree : Agree b g.roomSystem (handleEvent env g a).roomSystem := by
    rw [(handleEvent_performs env hw a).roomSystem]
    exact agree_after env g.clockReads hw.toConsistent h
  rw [← timelessEffect_congr hagree hw.toConsistent hw'.toConsistent env] at hrooms' hsent' hdisc'
  refine ⟨hrooms'.trans ?_, hsent'.trans ?_, hdisc'.trans ?_⟩
  · exact congrArg (fun rs => RoomSystem.change rs b.sessionId eb.change) hrooms
  · rw [← List.append_assoc]
    exact congrArg (· ++ eb.messages) hsent
  · rw [← List.append_assoc]
    exact congrArg (· ++ eb.disconnects) hdisc

theorem update_pair (env : Env) (events : List ServerEvent) (a b : ServerEvent) :
    update env initial (events ++ [a, b])
      = handleEvent env (handleEvent env (update env initial events) a) b := by
  unfold update
  rw [List.foldl_append]
  rfl

/-- In every reachable state two consecutive events of different sessions that
    touch different rooms, do not compete for a name and do not count what the
    other changes can be processed in either order: the room system is the
    same, the same sessions are to be disconnected, and every session is sent
    the same messages. -/
theorem update_commute (env : Env) (henv : env.ChatsFit) (events : List ServerEvent)
    (a b : ServerEvent) (h : Independent (update env initial events).roomSystem a b) :
    let gab := update env initial (events ++ [a, b])
    let gba := update env initial (events ++ [b, a])
    gab.roomSystem = gba.roomSystem ∧
    gab.pendingDisconnects.Perm gba.pendingDisconnects ∧
    ∀ c, messagesFor c gab.queued = messagesFor c gba.queued := by
  intro gab gba
  have hw := update_wellFormed env events
  have hab : gab = _ := update_pair env events a b
  have hba : gba = _ := update_pair env events b a
  rcases handleEvent_two env hw h with ⟨hrooms, hsent, hdisc⟩
  rcases handleEvent_two env hw h.symm with ⟨hrooms', hsent', hdisc'⟩
  rw [← hab] at hrooms hsent hdisc
  rw [← hba] at hrooms' hsent' hdisc'
  refine ⟨?_, ?_, fun c => ?_⟩
  · rw [hrooms, hrooms']
    exact change_comm_of_independent env hw.toConsistent h
  · rw [hdisc, hdisc']
    exact List.Perm.append_left _ List.perm_append_comm
  · have hqueued : messagesFor c gab.queued = (messagesFor c gab.transcript).filter env.fits :=
      messagesFor_queued env henv _ c
    have hqueued' : messagesFor c gba.queued = (messagesFor c gba.transcript).filter env.fits :=
      messagesFor_queued env henv _ c
    rw [hqueued, hqueued', hsent, hsent',
      messagesFor_append c (update env initial events).transcript,
      messagesFor_comm env hw.toConsistent h c,
      messagesFor_append c (update env initial events).transcript]

/-- A chat line in the lobby and a leave of another room, in both orders. -/
theorem update_commute_twoRooms :
    let events := twoInLobby [97]
    let gab := update sampleEnv initial
      (events ++ [.chatSendRequest 1 3 [104], .leaveRoomRequest 3 3])
    let gba := update sampleEnv initial
      (events ++ [.leaveRoomRequest 3 3, .chatSendRequest 1 3 [104]])
    gab.roomSystem = gba.roomSystem ∧
    gab.pendingDisconnects.Perm gba.pendingDisconnects ∧
    ∀ c, messagesFor c gab.queued = messagesFor c gba.queued := by
  intro events
  refine update_commute sampleEnv chatsFit_sampleEnv events _ _ ?_
  have h1 : (update sampleEnv initial events).roomSystem.findSession 1
      = some ⟨1, 1, [97], 1001, true⟩ := by decide +kernel
  have h3 : (update sampleEnv initial events).roomSystem.findSession 3
      = some ⟨3, 3, [99], 1002, true⟩ := by decide +kernel
  refine ⟨by decide, ?_, False.elim, False.elim, False.elim, False.elim⟩
  rintro r ⟨_, ha | ha⟩ ⟨_, hb | hb⟩
  · rcases ha with ⟨session, hs, rfl⟩
    rcases hb with ⟨session', hs', hroom⟩
    simp only [ServerEvent.sessionId] at hs hs'
    rw [h1, Option.some.injEq] at hs
    rw [h3, Option.some.injEq] at hs'
    rw [← hs, ← hs'] at hroom
    exact absurd hroom (by decide)
  · cases hb
  · cases ha
  · cases ha

end GameLogicSystem

end ProjectNight
