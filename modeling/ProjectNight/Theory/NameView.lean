import ProjectNight.Theory.RoomView

/-!
# Names as a Client Sees Them

A notice carries the name its subject has at that moment. A session may log in
again under another name while it is in a room; `HandleLoginRequest` answers
it and tells nobody else. From then on the others see the old name, and when
the session leaves, the notice carries a name their views do not have, so a
client that removes entries by name removes none.

The view of the names is right in every run in which no session that shares
its room with another changes its name (`NameKept`). The proof follows the
same observations as the view of the members: a notice brings in the current
name, and over a quiet move the names of the members stand still.

Unlike the view of the members this one is stated without assuming that every
message fits the queue. It needs only that the builder does not inflate a
notice with a short name beyond the size guard (`NoticesFit`): the names are
short by the login checks, and losing other messages changes nothing in the
replay.

## Main definitions

* `NameKept`: The condition on logins.
* `InformedOfNames`: The names in view are right.
* `Env.NoticesFit`: What is assumed of the builder.
* `NamesInView`: The view of the names, read off the queue.

## Theorems

* `informedOfNames_observed`, `informedOfNames_move`: The names stay right over
  a move.
* `short_move`, `replayed_filter`: What the size guard drops does not matter.
* `update_nameView`: The names in view are right after every list of events.
-/

namespace ProjectNight

/-- The login does not change the name of a session that somebody else in its
    room can see. -/
def NameKept (rs : RoomSystem) (s : UInt32) (name : Bytes) : Prop :=
  ∀ session t, rs.findSession s = some session → rs.IsMember t session.roomId → t ≠ s →
    name = session.displayName

/-- The names in the replayed view are current, as far as a `const char*` shows
    them, and departures carry the names they remove. -/
structure InformedOfNames (rs : RoomSystem) (c r : UInt32) (ms : List Message) : Prop where
  faithful : View.Faithful (fun _ => none) (replayed ms)
  names : ∀ t session, t ≠ c → rs.IsMember t r → rs.findSession t = some session →
    View.replayFrom (fun _ => none) (replayed ms) t = some (cStr session.displayName)

section NameViews

variable {env : Env} {allowed : RoomSystem → UInt32 → Bytes → Prop}

theorem informedOfNames_observed (hallowed : ∀ rs s name, allowed rs s name → NameKept rs s name)
    {rs rs' : RoomSystem} (hw : rs.WellFormed) {c r : UInt32} (hne : r ≠ noRoomId)
    {ms new : List Message} (hobs : Observed env allowed rs rs' c r new)
    (h : ∀ session, rs.findSession c = some session → session.roomId = r →
      InformedOfNames rs c r ms) : InformedOfNames rs' c r (ms ++ new) := by
  cases hobs with
  | enters session confirmation welcome hc hroom hr hrs hconfirmation hwelcome =>
      have hreplayed := replayed_enters env ms r rs hconfirmation hwelcome
      refine ⟨?_, fun t other htc hm ht => ?_⟩
      · rw [hreplayed]
        exact View.faithful_joins _ _ _ _
      · rw [hrs, RoomSystem.isMember_assign, if_neg htc] at hm
        rw [hrs, RoomSystem.findSession_assign, if_neg (fun heq => htc heq.symm)] at ht
        rw [hreplayed, (replay_members hw env.toIteration r).2, if_pos hm, ht, Option.map_some]
  | quiet _ hc hms hmem hnames =>
      rcases hc with ⟨cSession, hcs, hcr⟩
      have hold := h cSession hcs hcr
      have hquiet : ∀ m ∈ new, m.confirmsJoin = false := fun m hm => (hms m hm).1
      have hsame : replayed (ms ++ new) = replayed ms := by
        rw [replayed_append hquiet, roomNotices_quiet hms, List.map_nil, List.append_nil]
      refine ⟨by rw [hsame]; exact hold.faithful, fun t session' htc hm ht => ?_⟩
      rw [hmem] at hm
      rcases hw.session_of_isMember hm with ⟨session, hs, hsr, _⟩
      rw [hsame, hold.names t session htc hm hs]
      -- Whoever logs in under `c`'s eyes keeps its name.
      have hname : session'.displayName = session.displayName := by
        rcases hnames t session session' hm hs ht with heq | hallow
        · exact heq
        · refine hallowed rs t _ hallow session c hs ?_ (fun heq => htc heq.symm)
          rw [hsr, ← hcr]
          exact hw.isMember_of_session hcs (hcr ▸ hne)
      rw [hname]
  | joined s session hsc hc hs hroom hr hrs =>
      rcases hc with ⟨cSession, hcs, hcr⟩
      have hold := h cSession hcs hcr
      have hkey := (hw.session_key s session hs).2
      have hnotice : (userJoinedMessage r session).notice
          = some (r, View.Notice.joined s (cStr session.displayName)) := by
        rw [← hkey]
        rfl
      have hreplayed := (replayed_notice ms (m := userJoinedMessage r session) rfl hnotice).2
      refine ⟨?_, fun t other htc hm ht => ?_⟩
      · rw [hreplayed, View.faithful_append]
        exact ⟨hold.faithful, trivial, trivial⟩
      · rw [hreplayed, View.replayFrom_append]
        rw [hrs, RoomSystem.isMember_assign] at hm
        rw [hrs, RoomSystem.findSession_assign] at ht
        simp only [View.replayFrom, List.foldl_cons, List.foldl_nil, View.Notice.apply]
        by_cases hts : t = s
        · rw [if_pos hts.symm, hts, hs, Option.map_some, Option.some.injEq] at ht
          rw [if_pos hts, ← ht]
        · rw [if_neg hts] at hm
          rw [if_neg (fun heq => hts heq.symm)] at ht
          rw [if_neg hts]
          exact hold.names t other htc hm ht
  | left s session hsc hc hs hroom hrs =>
      rcases hc with ⟨cSession, hcs, hcr⟩
      have hold := h cSession hcs hcr
      have hkey := (hw.session_key s session hs).2
      have hnotice : (userLeftMessage r session).notice
          = some (r, View.Notice.left s (cStr session.displayName)) := by
        rw [← hkey]
        rfl
      have hreplayed := (replayed_notice ms (m := userLeftMessage r session) rfl hnotice).2
      -- The name announced on arrival is the one the departure carries.
      have hmember : rs.IsMember s r := hroom ▸ hw.isMember_of_session hs (hroom ▸ hne)
      refine ⟨?_, fun t other htc hm ht => ?_⟩
      · rw [hreplayed, View.faithful_append]
        exact ⟨hold.faithful, hold.names s session hsc hmember hs, trivial⟩
      · rw [hreplayed, View.replayFrom_append]
        rw [hrs, RoomSystem.isMember_assign] at hm
        rw [hrs, RoomSystem.findSession_assign] at ht
        simp only [View.replayFrom, List.foldl_cons, List.foldl_nil, View.Notice.apply]
        by_cases hts : t = s
        · rw [if_pos hts] at hm
          exact absurd hm.1 hne
        · rw [if_neg hts] at hm
          rw [if_neg (fun heq => hts heq.symm)] at ht
          rw [if_neg hts]
          exact hold.names t other htc hm ht

/-- Every session in a room knows the names of the others. -/
def AllInformedOfNames (past : List QueueCall) (rs : RoomSystem) : Prop :=
  rs.WellFormed ∧ ∀ c session, rs.findSession c = some session →
    session.roomId ≠ noRoomId → InformedOfNames rs c session.roomId (told c past)

theorem informedOfNames_move (hallowed : ∀ rs s name, allowed rs s name → NameKept rs s name)
    (past : List QueueCall) (rs : RoomSystem) (calls : List QueueCall) (rs' : RoomSystem)
    (h : AllInformedOfNames past rs) (hm : Move env allowed rs calls rs') :
    AllInformedOfNames (past ++ calls) rs' := by
  refine ⟨wellFormed_move rs calls rs' h.1 hm, fun c session hc hne => ?_⟩
  rw [told_append]
  refine informedOfNames_observed hallowed h.1 hne (move_observed h.1 hm hc hne)
    (fun old hold hroom => ?_)
  rw [← hroom]
  exact h.2 c old hold (hroom ▸ hne)

end NameViews

/-! ### What the size guard lets through -/

/-- The length of the one string in a notice or in the confirmation of a join. -/
def Message.textLength (m : Message) : Nat :=
  match m.payload with
  | .userJoinedEvent (some ⟨_, some user⟩) | .userLeftEvent (some ⟨_, some user⟩) =>
      (toUtf8 user.displayName).length
  | .joinRoomResponse (some ⟨_, _, some room⟩) => (toUtf8 room.roomName).length
  | _ => 0

/-- FlatBuffers adds well under two kilobytes of tables to the one string of a
    notice or a confirmation, so with a short string they pass the guard. -/
def Env.NoticesFit (env : Env) : Prop :=
  ∀ m : Message, ¬ m.IsQuiet → m.textLength ≤ 32 → env.fits m = true

theorem length_cStr_le (name : Bytes) : (cStr name).length ≤ name.length := by
  unfold cStr
  exact (List.takeWhile_prefix _).length_le

/-- The names of the rooms are short. -/
theorem RoomSystem.Consistent.length_roomName_le {rs : RoomSystem} (h : rs.Consistent)
    {r : UInt32} {room : RoomState} (hr : rs.findRoom r = some room) :
    room.roomName.length ≤ 32 := by
  have hfix := h.rooms_fixed r
  rw [hr, RoomSystem.findRoom_init, Option.map_some] at hfix
  split_ifs at hfix with h3 h2 h1
  · rw [Option.map_some, Option.some.injEq] at hfix
    rw [hfix]
    decide
  · rw [Option.map_some, Option.some.injEq] at hfix
    rw [hfix]
    decide
  · rw [Option.map_some, Option.some.injEq] at hfix
    rw [hfix]
    decide
  · exact absurd hfix (by simp only [Option.map_none, reduceCtorEq, not_false_eq_true])

/-- Whatever a move says of arrivals, departures and joins is short. -/
theorem short_move {env : Env} {allowed : RoomSystem → UInt32 → Bytes → Prop}
    (rs : RoomSystem) (calls : List QueueCall) (rs' : RoomSystem) (hw : rs.WellFormed)
    (hm : Move env allowed rs calls rs') :
    ∀ call ∈ calls, ¬ call.message.IsQuiet → call.message.textLength ≤ 32 := by
  -- A logged-in session has a short name, and less of it is shown.
  have hname : ∀ s session, rs.findSession s = some session → session.loggedIn = true →
      (cStr session.displayName).length ≤ 32 := by
    intro s session hs hl
    exact (length_cStr_le _).trans (hw.name_bounds s session hs hl).2
  intro call hcall hloud
  cases hm with
  | connect s => exact absurd hcall List.not_mem_nil
  | login s requestId name haccepted hallow =>
      rw [List.mem_singleton] at hcall
      rw [hcall] at hloud
      exact absurd ⟨rfl, rfl⟩ hloud
  | leave s session hs hroom hlogged =>
      rcases List.mem_map.mp hcall with ⟨member, _, rfl⟩
      exact hname s session hs hlogged
  | enter s requestId q session room hs hroom hlogged hq =>
      rcases List.mem_cons.mp hcall with rfl | hcall
      · have hroomName : (cStr room.roomName).length ≤ 32 :=
          (length_cStr_le _).trans (hw.length_roomName_le hq)
        exact hroomName
      rcases List.mem_cons.mp hcall with rfl | hcall
      · exact absurd ⟨rfl, rfl⟩ hloud
      rcases List.mem_flatMap.mp hcall with ⟨other, hother, hcall⟩
      rcases List.mem_cons.mp hcall with rfl | hcall
      · exact hname s session hs hlogged
      · rw [List.mem_singleton] at hcall
        rw [hcall]
        have hfound := hw.findSession_of_mem hother
        rcases hw.session_of_isMember hfound.2.2.1 with ⟨other', hother', hr, hne⟩
        rw [hfound.1, Option.some.injEq] at hother'
        exact hname _ other hfound.1 (hw.loggedIn hfound.1 (hother' ▸ hr ▸ hne))
  | remove s hroom => exact absurd hcall List.not_mem_nil
  | chat s session content reads hs hroom hlogged =>
      rcases List.mem_map.mp hcall with ⟨p, _, rfl⟩
      exact absurd ⟨rfl, rfl⟩ hloud
  | reply s m hm =>
      rw [List.mem_singleton] at hcall
      rw [hcall] at hloud
      exact absurd (Message.isQuiet_of_isReply hm) hloud

/-- Losing quiet messages changes nothing in the replay. -/
theorem replayed_filter (f : Message → Bool) (ms : List Message)
    (h : ∀ m ∈ ms, ¬ m.IsQuiet → f m = true) : replayed (ms.filter f) = replayed ms := by
  induction ms using List.reverseRecOn with
  | nil => rfl
  | append_singleton ms m ih =>
      have hinit := ih (fun m' hm' => h m' (List.mem_append_left _ hm'))
      have hlast := h m (List.mem_append_right _ (List.mem_singleton.mpr rfl))
      -- The last message restarts the replay, extends it, or says nothing.
      by_cases hconf : m.confirmsJoin = true
      · have hloud : ¬ m.IsQuiet := fun hq => Bool.false_ne_true (hq.1.symm.trans hconf)
        have hnone : ∀ m' ∈ ([] : List Message), m'.confirmsJoin = false :=
          fun m' hm' => absurd hm' List.not_mem_nil
        have hkeep : [m].filter f = [m] := List.filter_cons_of_pos (hlast hloud)
        unfold replayed
        rw [List.filter_append, hkeep, sinceJoin_confirmation (ms.filter f) hconf hnone,
          sinceJoin_confirmation ms hconf hnone]
      · have hmsg : ∀ m' ∈ [m], m'.confirmsJoin = false := by
          intro m' hm'
          rw [List.mem_singleton] at hm'
          rw [hm']
          exact Bool.not_eq_true _ ▸ hconf
        have hsub : ∀ m' ∈ [m].filter f, m'.confirmsJoin = false :=
          fun m' hm' => hmsg m' (List.mem_of_mem_filter hm')
        -- A message the guard drops is quiet, and has no notice to lose.
        have hnotices : roomNotices ([m].filter f) = roomNotices [m] := by
          by_cases hf : f m = true
          · rw [List.filter_cons_of_pos hf, List.filter_nil]
          · have hquiet : m.IsQuiet := by_contra fun hloud => hf (hlast hloud)
            rw [List.filter_cons_of_neg hf, List.filter_nil]
            exact (List.filterMap_cons_none hquiet.2).symm
        rw [List.filter_append, replayed_append hsub, replayed_append hmsg, hinit, hnotices]

namespace GameLogicSystem

/-- What a client replays is what it was told, when short notices fit. -/
theorem replayed_messagesFor {env : Env} (henv : env.NoticesFit) (events : List ServerEvent)
    (c : UInt32) :
    replayed (messagesFor c (update env initial events).outgoingMessages)
      = replayed (told c (update env initial events).queueCalls) := by
  have hinit : Synced env initial := rfl
  have hsync := synced_update hinit events
  unfold Synced at hsync
  have hfiltered : messagesFor c (update env initial events).outgoingMessages
      = (told c (update env initial events).queueCalls).filter env.fits := by
    rw [hsync, messagesFor_map]
    unfold told
    rw [List.filter_filter, List.filter_map, List.filter_filter]
    refine congrArg (List.map QueueCall.message) (List.filter_congr (fun call _ => ?_))
    exact Bool.and_comm _ _
  rw [hfiltered]
  refine replayed_filter env.fits _ (fun m hm hloud => henv m hloud ?_)
  rcases update_emits events initial RoomSystem.wellFormed_init
    (loginsAllowed_true env initial events) with ⟨calls, hrun, hcalls⟩
  rcases List.mem_map.mp hm with ⟨call, hcall, rfl⟩
  have hmem := List.mem_of_mem_filter hcall
  rw [hcalls] at hmem
  exact hrun.outputs wellFormed_move short_move RoomSystem.wellFormed_init call hmem hloud

/-- The map from users to names that session `c` in room `r` rebuilds has the
    current name of every other member, and every departure it was told of
    carried the name it removed. -/
def NamesInView (g : GameLogicSystem) (c r : UInt32) : Prop :=
  let ms := messagesFor c g.outgoingMessages
  (∀ t session, t ≠ c → g.roomSystem.IsMember t r → g.roomSystem.findSession t = some session →
    View.replayFrom (fun _ => none) (replayed ms) t = some session.displayName) ∧
  View.Faithful (fun _ => none) (replayed ms)

/-- In every run with names without NUL bytes in which no session that shares
    its room changes its name, every session in a room has the current names
    of the others in view. -/
theorem update_nameView (env : Env) (henv : env.NoticesFit) (events : List ServerEvent)
    (hnul : LoginsAllowed env NulFree initial events)
    (hkept : LoginsAllowed env NameKept initial events) (c r : UInt32)
    (hc : (update env initial events).roomSystem.IsMember c r) :
    NamesInView (update env initial events) c r := by
  have hboth := loginsAllowed_and hnul hkept
  have hinit : AllInformedOfNames [] RoomSystem.init := by
    refine ⟨RoomSystem.wellFormed_init, fun c session hc => ?_⟩
    rw [RoomSystem.findSession_init] at hc
    exact absurd hc (by simp only [reduceCtorEq, not_false_eq_true])
  rcases update_emits events initial RoomSystem.wellFormed_init hboth with
    ⟨calls, hrun, hcalls⟩
  have hall := hrun.history (informedOfNames_move (fun _ _ _ h => h.2)) [] hinit
  have htold : (update env initial events).queueCalls = [] ++ calls := hcalls
  rw [← htold] at hall
  rcases hall.1.session_of_isMember hc with ⟨session, hs, hroom, hne⟩
  have hinformed := hall.2 c session hs (hroom ▸ hne)
  unfold NamesInView
  simp only [replayed_messagesFor henv events c]
  refine ⟨fun t other htc hm ht => ?_, hinformed.faithful⟩
  -- What the view has is the name up to its first NUL byte, and there is none.
  rw [hinformed.names t other htc (hroom ▸ hm) ht,
    cStr_eq_self _ (update_nulFree (fun _ _ _ h => h) events hnul t other ht)]

/-- A login outside any room is seen by nobody. -/
theorem nameKept_of_noRoom {rs : RoomSystem} (hrs : rs.findRoom noRoomId = none) {s : UInt32}
    (name : Bytes) (hs : (rs.findSession s).map SessionState.roomId = some noRoomId) :
    NameKept rs s name := by
  intro session t hfound hm
  rw [hfound, Option.map_some, Option.some.injEq] at hs
  rcases hm with ⟨room, hroom, _⟩
  rw [hs, hrs] at hroom
  exact absurd hroom (by simp only [reduceCtorEq, not_false_eq_true])

theorem noticesFit_sampleEnv : sampleEnv.NoticesFit := fun _ _ _ => rfl

/-- Sessions 1 and 2 log in as `a` and `b` and meet in the lobby. -/
theorem update_nameView_lobby : NamesInView (update sampleEnv initial
    [.sessionConnected 1, .sessionConnected 2, .loginRequest 1 1 [97], .loginRequest 2 1 [98],
      .joinRoomRequest 1 2 1001, .joinRoomRequest 2 2 1001]) 2 1001 := by
  refine update_nameView sampleEnv noticesFit_sampleEnv _ ?_ ?_ 2 1001 (by decide +kernel)
  · refine ⟨?_, ?_, ?_, ?_, ?_, ?_, trivial⟩ <;>
      intro s requestId name he hacc <;> cases he <;> unfold NulFree <;> decide
  · refine ⟨?_, ?_, ?_, ?_, ?_, ?_, trivial⟩ <;>
      intro s requestId name he hacc <;> cases he
    · exact nameKept_of_noRoom (by decide +kernel) [97] (by decide +kernel)
    · exact nameKept_of_noRoom (by decide +kernel) [98] (by decide +kernel)

/-- Session 1 logs in again as `z` while session 2 is in the room with it:
    session 2 is told nothing and goes on seeing `a`. -/
theorem not_namesInView_rename :
    let events := [ServerEvent.sessionConnected 1, .sessionConnected 2,
      .loginRequest 1 1 [97], .loginRequest 2 1 [98], .joinRoomRequest 1 2 1001,
      .joinRoomRequest 2 2 1001, .loginRequest 1 3 [122]]
    sampleEnv.NoticesFit ∧ LoginsAllowed sampleEnv NulFree initial events ∧
      (update sampleEnv initial events).roomSystem.IsMember 2 1001 ∧
      ¬ NamesInView (update sampleEnv initial events) 2 1001 := by
  intro events
  refine ⟨noticesFit_sampleEnv, ?_, by decide +kernel, fun h => ?_⟩
  · refine ⟨?_, ?_, ?_, ?_, ?_, ?_, ?_, trivial⟩ <;>
      intro s requestId name he hacc <;> cases he <;> unfold NulFree <;> decide
  · have hview := h.1 1 ⟨1, 1, [122], 1001, true⟩ (by decide) (by decide +kernel)
      (by decide +kernel)
    exact absurd hview (by decide +kernel)

end GameLogicSystem

end ProjectNight
