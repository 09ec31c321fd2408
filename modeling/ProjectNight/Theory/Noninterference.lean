import ProjectNight.Theory.Transcript

/-!
# Sessions That Never Log In

A session that is connected and never gets through the login can send anything
it likes. This module compares a run with the same run after all its events
have been deleted, and shows that nobody else can tell the two apart.

The comparison is a relation between the two states, `Without u`: they have
the same rooms and the same entries except that of `u`, which is missing on
one side and anonymous on the other. Being anonymous, `u` is in no room and
holds no name, so an event of another session looks at the same data on both
sides (`Agree`) and has the same effect. An event of `u` itself is answered to
`u` alone: the checks of the handlers keep it from taking a name or a room.

Whether a login of `u` succeeds depends on the names the others hold, so the
condition is one on the run that contains `u`.

## Main definitions

* `Without`: The two states agree up to the session.

## Theorems

* `isDisplayNameTaken_iff`: What the scan for a name finds.
* `effect_anonymous`: What a session that is not logged in can do.
* `without_other`, `without_self`: One event keeps the relation.
* `without_update`: A run keeps it.
* `update_noninterference`: Nobody else notices the session.
-/

namespace ProjectNight

-- The scan finds exactly the other logged-in sessions that hold the name.
theorem RoomSystem.isDisplayNameTaken_iff (rs : RoomSystem) (name : Bytes) (s : UInt32) :
    rs.isDisplayNameTaken name s = true ↔ ∃ t session, t ≠ s ∧
      rs.findSession t = some session ∧ session.loggedIn = true ∧
      session.displayName = name := by
  unfold isDisplayNameTaken
  rw [List.any_eq_true]
  constructor
  · rintro ⟨⟨t, session⟩, hmem, hscan⟩
    simp only [ne_eq, decide_not, Bool.and_eq_true, Bool.not_eq_true',
      decide_eq_false_iff_not, beq_iff_eq] at hscan
    exact ⟨t, session, hscan.1, Std.ExtTreeMap.mem_toList_iff_getElem?_eq_some.mp hmem,
      hscan.2.1, hscan.2.2⟩
  · rintro ⟨t, session, hts, hfound, hlogged, hname⟩
    refine ⟨(t, session), Std.ExtTreeMap.mem_toList_iff_getElem?_eq_some.mpr hfound, ?_⟩
    simp only [ne_eq, hts, not_false_eq_true, decide_true, hlogged, hname, beq_self_eq_true,
      Bool.and_self]

/-- An event that leaves its session where it was, or adds or removes it, and
    is answered to that session alone. -/
structure Effect.Private (u : UInt32) (e : Effect) : Prop where
  change : e.change = .keep ∨ e.change = .add ∨ e.change = .remove
  messages : ∀ out ∈ e.messages, out.sessionId = u
  disconnects : ∀ d ∈ e.disconnects, d = u

theorem Effect.private_reply (u : UInt32) (m : Message) :
    Effect.Private u { messages := [⟨u, m⟩] } where
  change := Or.inl rfl
  messages := by
    intro out hout
    rw [List.mem_singleton] at hout
    rw [hout]
  disconnects := fun _ hd => absurd hd List.not_mem_nil

theorem Effect.private_nothing (u : UInt32) : Effect.Private u {} where
  change := Or.inl rfl
  messages := fun _ hout => absurd hout List.not_mem_nil
  disconnects := fun _ hd => absurd hd List.not_mem_nil

/-- What a session that is unknown or not logged in can do, short of logging
    in. -/
theorem effect_anonymous {rs : RoomSystem} (hw : rs.WellFormed) {event : ServerEvent}
    (env : Env) (reads : Nat)
    (hanon : ∀ session, rs.findSession event.sessionId = some session →
      session.loggedIn = false)
    (hlogin : ∀ s requestId name, event = .loginRequest s requestId name →
      ¬ LoginAccepted rs s name) : (effect env reads rs event).Private event.sessionId := by
  -- Outside any room there is nobody to tell.
  have hfarewells : farewells env rs event.sessionId = [] := by
    unfold farewells
    cases hs : rs.findSession event.sessionId with
    | none => rfl
    | some session =>
        have hroom := (hw.anonymous _ session hs (hanon session hs)).2
        simp only
        rw [leaveNotices, hroom, hw.getRoomMembers_noRoomId, List.map_nil]
  cases event with
  | sessionConnected s =>
      exact ⟨Or.inr (Or.inl rfl), fun _ h => absurd h List.not_mem_nil,
        fun _ h => absurd h List.not_mem_nil⟩
  | sessionDisconnected s =>
      refine ⟨Or.inr (Or.inr rfl), fun out hout => ?_, fun _ h => absurd h List.not_mem_nil⟩
      have hmem : out ∈ farewells env rs s := hout
      rw [ServerEvent.sessionId] at hfarewells
      rw [hfarewells] at hmem
      exact absurd hmem List.not_mem_nil
  | invalidPacket s message => exact Effect.private_reply s _
  | loginRequest s requestId name =>
      simp only [effect, ServerEvent.sessionId]
      rcases loginEffect_cases rs s requestId name with ⟨_, he⟩ | ⟨code, _, he⟩ |
        ⟨session, hacc, _⟩
      · rw [he]
        exact Effect.private_nothing s
      · rw [he]
        exact Effect.private_reply s _
      · exact absurd hacc (hlogin s requestId name rfl)
  | roomListRequest s requestId => exact Effect.private_reply s _
  | joinRoomRequest s requestId r =>
      simp only [effect, joinEffect, ServerEvent.sessionId] at hanon ⊢
      cases hs : rs.findSession s with
      | none => exact Effect.private_nothing s
      | some session =>
          simp only [if_pos (hanon session hs)]
          exact Effect.private_reply s _
  | chatSendRequest s requestId content =>
      simp only [effect, chatMessages, ServerEvent.sessionId] at hanon ⊢
      cases hs : rs.findSession s with
      | none => exact Effect.private_nothing s
      | some session =>
          simp only [if_pos (hanon session hs)]
          exact Effect.private_nothing s
  | leaveRoomRequest s requestId =>
      simp only [effect, leaveEffect, ServerEvent.sessionId] at hanon ⊢
      cases hs : rs.findSession s with
      | none => exact Effect.private_nothing s
      | some session =>
          simp only [if_pos (hw.anonymous s session hs (hanon session hs)).2]
          exact Effect.private_reply s _
  | disconnectRequest s requestId =>
      refine ⟨Or.inr (Or.inr rfl), fun out hout => ?_, fun d hd => List.mem_singleton.mp hd⟩
      rcases List.mem_cons.mp hout with rfl | hout
      · rfl
      · rw [ServerEvent.sessionId] at hfarewells
        rw [hfarewells] at hout
        exact absurd hout List.not_mem_nil

/-- State `g'` is state `g` as if session `u`, which is not logged in, had never
    been there. -/
structure Without (u : UInt32) (g g' : GameLogicSystem) : Prop where
  sessions : ∀ t, t ≠ u → g.roomSystem.findSession t = g'.roomSystem.findSession t
  rooms : ∀ r, g.roomSystem.findRoom r = g'.roomSystem.findRoom r
  absent : g'.roomSystem.findSession u = none
  anonymous : ∀ session, g.roomSystem.findSession u = some session → session.loggedIn = false
  transcript : ∀ c, c ≠ u → messagesFor c g.transcript = messagesFor c g'.transcript
  pendingDisconnects : g.pendingDisconnects.filter (· ≠ u) = g'.pendingDisconnects

namespace Without

variable {u : UInt32} {g g' : GameLogicSystem}

-- Not being logged in, the session is in no room.
theorem not_isMember (h : Without u g g') (hw : g.roomSystem.WellFormed) (r : UInt32) :
    ¬ g.roomSystem.IsMember u r := by
  intro hm
  rcases hw.session_of_isMember hm with ⟨session, hs, hroom, hne⟩
  exact hne (hroom.symm.trans (hw.anonymous u session hs (h.anonymous session hs)).2)

-- Holding no name, it blocks nobody's login.
theorem isDisplayNameTaken (h : Without u g g') (name : Bytes) (s : UInt32) :
    g.roomSystem.isDisplayNameTaken name s = g'.roomSystem.isDisplayNameTaken name s := by
  rw [Bool.eq_iff_iff, RoomSystem.isDisplayNameTaken_iff, RoomSystem.isDisplayNameTaken_iff]
  constructor
  · rintro ⟨t, session, hts, hfound, hlogged, hname⟩
    have htu : t ≠ u := by
      rintro rfl
      exact Bool.false_ne_true ((h.anonymous session hfound).symm.trans hlogged)
    exact ⟨t, session, hts, h.sessions t htu ▸ hfound, hlogged, hname⟩
  · rintro ⟨t, session, hts, hfound, hlogged, hname⟩
    have htu : t ≠ u := by
      rintro rfl
      rw [h.absent] at hfound
      exact absurd hfound (by simp only [reduceCtorEq, not_false_eq_true])
    exact ⟨t, session, hts, (h.sessions t htu).trans hfound, hlogged, hname⟩

theorem agree (h : Without u g g') (hw : g.roomSystem.WellFormed) {event : ServerEvent}
    (hne : event.sessionId ≠ u) : Agree event g.roomSystem g'.roomSystem where
  entry := h.sessions event.sessionId hne
  room := fun r _ => h.rooms r
  members := by
    intro r t _ hm
    refine h.sessions t ?_
    rintro rfl
    exact h.not_isMember hw r hm
  names := fun s _ name _ => h.isDisplayNameTaken name s
  rooms := fun _ _ _ => h.rooms

end Without

namespace GameLogicSystem

variable {env : Env} {u : UInt32} {g g' : GameLogicSystem}

-- An event of another session looks the same on both sides and has the same
-- effect, whatever the two clocks show.
theorem without_other (h : Without u g g') (hw : g.roomSystem.WellFormed)
    (hw' : g'.roomSystem.WellFormed) {event : ServerEvent} (hne : event.sessionId ≠ u)
    (clock : Nat → UInt64) : Without u (handleEvent env g event)
      (handleEvent { env with currentTimestampMs := clock } g' event) := by
  have heffect := timelessEffect_congr (h.agree hw hne) hw.toConsistent hw'.toConsistent env
  rcases handleEvent_timeless env hw env.currentTimestampMs event with ⟨hrooms, hbuilt, hdisc⟩
  rcases handleEvent_timeless env hw' clock event with ⟨hrooms', hbuilt', hdisc'⟩
  rw [← heffect] at hrooms' hbuilt' hdisc'
  -- Only the requester's own entry is rewritten.
  have hentry : ∀ (rs : RoomSystem) (c : Change),
      (rs.change event.sessionId c).findSession u = rs.findSession u := by
    intro rs c
    rw [RoomSystem.findSession_change, if_neg hne]
  refine ⟨fun t ht => ?_, fun r => ?_, ?_, ?_, fun c hc => ?_, ?_⟩
  · rw [hrooms, hrooms', RoomSystem.findSession_change, RoomSystem.findSession_change,
      h.sessions t ht]
  · rw [hrooms, hrooms', RoomSystem.findRoom_change, RoomSystem.findRoom_change, h.rooms r]
  · rw [hrooms', hentry]
    exact h.absent
  · rw [hrooms, hentry]
    exact h.anonymous
  · rw [hbuilt, hbuilt', messagesFor_append, messagesFor_append, h.transcript c hc]
  · rw [hdisc, hdisc', List.filter_append, h.pendingDisconnects]
    -- A disconnect is only ever asked for by the event's own session.
    refine congrArg _ (List.filter_eq_self.mpr (fun d hd => ?_))
    rw [eq_of_mem_disconnects hd]
    simp only [ne_eq, hne, not_false_eq_true, decide_true]

-- An event of the session itself is answered to nobody else, and touches
-- nothing but its own entry.
theorem without_self (h : Without u g g') (hw : g.roomSystem.WellFormed) {event : ServerEvent}
    (hu : event.sessionId = u)
    (hlogin : ∀ s requestId name, event = .loginRequest s requestId name →
      ¬ LoginAccepted g.roomSystem s name) : Without u (handleEvent env g event) g' := by
  subst hu
  have hprivate := effect_anonymous hw env g.clockReads h.anonymous hlogin
  have hdoes := handleEvent_performs env hw event
  refine ⟨fun t ht => ?_, fun r => ?_, h.absent, fun session hs => ?_, fun c hc => ?_, ?_⟩
  · rw [hdoes.roomSystem, RoomSystem.findSession_change, if_neg (fun hc => ht hc.symm)]
    exact h.sessions t ht
  · have hplace : (effect env g.clockReads g.roomSystem event).change ≠ .place r := by
      rcases hprivate.change with hc | hc | hc <;>
        · rw [hc]
          exact fun hc => Change.noConfusion hc
    rw [hdoes.roomSystem, RoomSystem.findRoom_change_elsewhere (h.not_isMember hw r) hplace]
    exact h.rooms r
  · rw [hdoes.roomSystem, RoomSystem.findSession_change, if_pos rfl] at hs
    rcases hprivate.change with hc | hc | hc
    · rw [hc] at hs
      exact h.anonymous session hs
    · -- A fresh entry is not logged in, and an old one is kept.
      rw [hc] at hs
      cases hold : g.roomSystem.findSession event.sessionId with
      | none =>
          rw [hold, Change.entry, Option.getD_none, Option.some.injEq] at hs
          rw [← hs]
      | some old =>
          rw [hold, Change.entry, Option.getD_some, Option.some.injEq] at hs
          exact hs ▸ h.anonymous old hold
    · rw [hc] at hs
      cases hs
  · have hnone : messagesFor c ((effect env g.clockReads g.roomSystem event).messages.map
        OutgoingMessage.timeless) = [] := by
      refine messagesFor_eq_nil (fun out hout hsame => ?_)
      rcases List.mem_map.mp hout with ⟨raw, hraw, rfl⟩
      exact hc (hsame.symm.trans (hprivate.messages raw hraw))
    unfold transcript
    rw [hdoes.built, List.map_append, messagesFor_append, hnone, List.append_nil]
    exact h.transcript c hc
  · rw [hdoes.pendingDisconnects, List.filter_append, h.pendingDisconnects]
    refine List.append_right_eq_self.mpr (List.filter_eq_nil_iff.mpr (fun d hd => ?_))
    simp only [hprivate.disconnects d hd, ne_eq, not_true_eq_false, decide_false,
      Bool.false_eq_true, not_false_eq_true]

-- The two runs stay related: an event of the session steps on one side only.
theorem without_update (events : List ServerEvent) (clock : Nat → UInt64)
    (h : Without u g g') (hw : g.roomSystem.WellFormed) (hw' : g'.roomSystem.WellFormed)
    (hlogins : LoginsAllowed env (fun _ s _ => s ≠ u) g events) :
    Without u (update env g events) (update { env with currentTimestampMs := clock } g'
      (events.filter (fun event => event.sessionId ≠ u))) := by
  induction events generalizing g g' with
  | nil => exact h
  | cons event events ih =>
      have hnext := wellFormed_handleEvent env hw event
      by_cases hu : event.sessionId = u
      · rw [List.filter_cons_of_neg (by simp only [hu, ne_eq, not_true_eq_false, decide_false,
          Bool.false_eq_true, not_false_eq_true])]
        refine ih (without_self h hw hu (fun s requestId name he hacc => ?_)) hnext hw' hlogins.2
        -- An accepted login would be one of the session.
        refine hlogins.1 s requestId name he hacc ?_
        rw [← hu, he]
        rfl
      · rw [List.filter_cons_of_pos (by simp only [hu, ne_eq, not_false_eq_true, decide_true])]
        exact ih (without_other h hw hw' hu clock) hnext
          (wellFormed_handleEvent { env with currentTimestampMs := clock } hw' event)
          hlogins.2

theorem without_initial (u : UInt32) : Without u initial initial where
  sessions := fun _ _ => rfl
  rooms := fun _ => rfl
  absent := RoomSystem.findSession_init u
  anonymous := by
    intro session hs
    exact absurd (hs.symm.trans (RoomSystem.findSession_init u))
      (by simp only [reduceCtorEq, not_false_eq_true])
  transcript := fun _ _ => rfl
  pendingDisconnects := rfl

/-- For every list of events and every session none of whose logins succeeds:
    with all events of the session deleted, and whatever the clock shows then,
    every other session is sent the same messages in the same order, the same
    other sessions are to be disconnected, and the room system is the same
    except for the entry of the session. -/
theorem update_noninterference (env : Env) (henv : env.ChatsFit) (clock : Nat → UInt64)
    (events : List ServerEvent) (u : UInt32)
    (hlogins : LoginsAllowed env (fun _ s _ => s ≠ u) initial events) :
    let g := update env initial events
    let g' := update { env with currentTimestampMs := clock } initial
      (events.filter (fun event => event.sessionId ≠ u))
    (∀ c, c ≠ u → messagesFor c g.queued = messagesFor c g'.queued) ∧
    g'.pendingDisconnects = g.pendingDisconnects.filter (· ≠ u) ∧
    g'.roomSystem = { g.roomSystem with sessions := g.roomSystem.sessions.erase u } := by
  intro g g'
  have h : Without u g g' := without_update events clock (without_initial u)
    RoomSystem.wellFormed_init RoomSystem.wellFormed_init hlogins
  refine ⟨fun c hc => ?_, h.pendingDisconnects.symm, ?_⟩
  · have hsent : messagesFor c g.queued = (messagesFor c g.transcript).filter env.fits :=
      messagesFor_queued env henv events c
    have hsent' : messagesFor c g'.queued = (messagesFor c g'.transcript).filter env.fits :=
      messagesFor_queued { env with currentTimestampMs := clock } henv _ c
    rw [hsent, hsent', h.transcript c hc]
  · refine RoomSystem.ext_find _ _ (fun t => ?_) (fun r => (h.rooms r).symm)
    refine Eq.trans ?_ (TreeMap.getElem?_erase_ite g.roomSystem.sessions u t).symm
    by_cases hut : u = t
    · rw [if_pos hut, ← hut]
      exact h.absent
    · rw [if_neg hut]
      exact (h.sessions t (fun hc => hut hc.symm)).symm

theorem chatsFit_sampleEnv : sampleEnv.ChatsFit := fun _ _ _ => rfl

/-- Session 2 tries to take the name of session 1, to join its room, to talk
    and to leave; session 1 and the state are as if it had not. -/
theorem update_noninterference_impostor :
    let events := [ServerEvent.sessionConnected 1, .sessionConnected 2, .loginRequest 1 1 [97],
      .loginRequest 2 1 [97], .joinRoomRequest 1 2 1001, .joinRoomRequest 2 2 1001,
      .chatSendRequest 1 3 [104, 105], .chatSendRequest 2 3 [98], .disconnectRequest 2 4]
    let g := update sampleEnv initial events
    let g' := update { sampleEnv with currentTimestampMs := fun _ => 7 } initial
      (events.filter (fun event => event.sessionId ≠ 2))
    (∀ c, c ≠ 2 → messagesFor c g.queued = messagesFor c g'.queued) ∧
    g'.pendingDisconnects = g.pendingDisconnects.filter (· ≠ 2) ∧
    g'.roomSystem = { g.roomSystem with sessions := g.roomSystem.sessions.erase 2 } := by
  intro events
  refine update_noninterference sampleEnv chatsFit_sampleEnv (fun _ => 7) events 2 ?_
  refine ⟨?_, ?_, ?_, ?_, ?_, ?_, ?_, ?_, ?_, trivial⟩ <;>
    intro s requestId name he hacc <;> cases he
  · decide
  · -- The name is taken.
    exact absurd hacc.2.2.2 (by decide +kernel)

end GameLogicSystem

end ProjectNight
