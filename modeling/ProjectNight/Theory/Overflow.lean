import ProjectNight.Theory.UserCounts

/-!
# Overflow by One Event

A session takes 1024 frames ahead of its socket and is closed by the next one.
How many frames can one event cost a session that has kept up so far? A
refusal is one message, a notice is one message, and a session that leaves
gets two. The exception is a join: the newcomer is told of every member of the
room, after the confirmation and the welcome, and nothing limits the number of
members. So a room with more than 1022 members cannot be joined: the join is
done, the members are told, and the connection of the newcomer is closed by
the messages that were to inform it.

`Crowded` is a state with a given number of members in the lobby. It is
reached by as many sessions that connect, log in and join, one after the other
(`crowded_crowd`).

## Main definitions

* `Session.enqueueWrites`: Frames that are enqueued with no write completing.
* `CrowdedJoin`: An accepted join of a room with more than 1022 members.
* `crowd`, `Crowded`: A full lobby.

## Theorems

* `closed_enqueueWrites`: When the queue overflows.
* `length_messagesFor_effect`, `length_messagesFor_join`: How many messages one
  event queues to one session.
* `crowded_crowd`: Every number of members can be reached.
* `overflow_iff_crowdedJoin`: No other event closes an idle session.
-/

namespace ProjectNight

open Wire

/-! ### The write queue -/

namespace Session

/-- The handlers of `enqueue_write` for a list of frames, with no write
    completing in between, and the calls out of the session. -/
def enqueueWrites (s : Session) : List Bytes → Session × List SessionEffect
  | [] => (s, [])
  | frame :: frames =>
    let (s, effects) := s.enqueueWrite frame
    let (s, later) := s.enqueueWrites frames
    (s, effects ++ later)

theorem enqueueWrites_of_closed {s : Session} (h : s.closed = true) (frames : List Bytes) :
    s.enqueueWrites frames = (s, []) := by
  induction frames with
  | nil => rfl
  | cons frame frames ih =>
      have hone : s.enqueueWrite frame = (s, []) := by
        unfold enqueueWrite
        rw [h, if_pos rfl]
      simp only [enqueueWrites, hone, ih, List.append_nil]

/-- A frame that finds room in the queue is put there. -/
theorem enqueueWrite_of_room {s : Session} (hopen : s.closed = false)
    (hroom : s.writer.queue.length < maxPendingWriteFrames) (frame : Bytes) :
    ∃ writer, s.enqueueWrite frame = ({ s with writer }, []) ∧
      writer.queue.length = s.writer.queue.length + 1 := by
  unfold enqueueWrite Writer.enqueueFrame
  rw [hopen, if_neg Bool.false_ne_true, if_neg (fun h => Nat.not_lt.mpr h.2 hroom)]
  refine ⟨_, rfl, ?_⟩
  split_ifs
  · exact List.length_append
  · unfold Writer.doWrite
    split
    · exact List.length_append
    · exact List.length_append

theorem enqueueWrite_of_full {s : Session} (hopen : s.closed = false)
    (hfull : maxPendingWriteFrames ≤ s.writer.queue.length) (frame : Bytes) :
    s.enqueueWrite frame = ({ s with closed := true }, [.close]) := by
  unfold enqueueWrite Writer.enqueueFrame handleClose
  rw [hopen, if_neg Bool.false_ne_true, if_pos ⟨by decide, hfull⟩]
  rfl

/-- The session is closed when there are more frames than the queue has room
    for, and otherwise nothing calls out of it. -/
theorem closed_enqueueWrites {s : Session} (hopen : s.closed = false)
    (hqueue : s.writer.queue.length ≤ maxPendingWriteFrames) (frames : List Bytes) :
    if s.writer.queue.length + frames.length ≤ maxPendingWriteFrames then
      (s.enqueueWrites frames).1.closed = false ∧ (s.enqueueWrites frames).2 = []
    else (s.enqueueWrites frames).1.closed = true ∧ (s.enqueueWrites frames).2 = [.close] := by
  induction frames generalizing s with
  | nil =>
      rw [List.length_nil, Nat.add_zero, if_pos hqueue]
      exact ⟨hopen, rfl⟩
  | cons frame frames ih =>
      rw [List.length_cons]
      by_cases hroom : s.writer.queue.length < maxPendingWriteFrames
      · rcases enqueueWrite_of_room hopen hroom frame with ⟨writer, hwrite, hlength⟩
        have hrest := ih (s := { s with writer }) hopen (by
          simp only [hlength]
          omega)
        simp only [hlength] at hrest
        simp only [enqueueWrites, hwrite, List.nil_append]
        rw [show s.writer.queue.length + (frames.length + 1)
          = s.writer.queue.length + 1 + frames.length by omega]
        exact hrest
      · rw [if_neg (by omega)]
        simp only [enqueueWrites, enqueueWrite_of_full hopen (Nat.not_lt.mp hroom) frame]
        rw [enqueueWrites_of_closed rfl]
        exact ⟨rfl, rfl⟩

end Session

/-! ### Messages of one event to one session -/

theorem length_messagesFor_le (t : UInt32) (l : List OutgoingMessage) :
    (messagesFor t l).length ≤ l.length := by
  unfold messagesFor
  rw [List.length_map]
  exact List.length_filter_le _ _

/-- A loop that visits each recipient once sends each of them one message. -/
theorem length_messagesFor_le_one {l : List OutgoingMessage}
    (h : (l.map OutgoingMessage.sessionId).Nodup) (t : UInt32) :
    (messagesFor t l).length ≤ 1 := by
  have hcount := List.nodup_iff_count_le_one.mp h t
  rw [List.count, List.countP_map, List.countP_eq_length_filter] at hcount
  unfold messagesFor
  rw [List.length_map]
  exact hcount

section Counting

variable (env : Env) {rs : RoomSystem}

theorem length_messagesFor_leaveNotices (hw : rs.WellFormed) (session : SessionState)
    (t : UInt32) : (messagesFor t (leaveNotices env rs session)).length ≤ 1 := by
  refine length_messagesFor_le_one ?_ t
  unfold leaveNotices
  rw [List.map_map]
  exact hw.nodup_getRoomMembers env.toIteration session.roomId (some session.sessionId)

theorem length_messagesFor_farewells (hw : rs.WellFormed) (s t : UInt32) :
    (messagesFor t (farewells env rs s)).length ≤ 1 := by
  unfold farewells
  cases rs.findSession s with
  | none => exact Nat.zero_le 1
  | some session => exact length_messagesFor_leaveNotices env hw session t

theorem length_messagesFor_chat (hw : rs.WellFormed) (reads : Nat) (s : UInt32) (content : Bytes)
    (t : UInt32) : (messagesFor t (chatMessages env reads rs s content)).length ≤ 1 := by
  unfold chatMessages
  cases rs.findSession s with
  | none => exact Nat.zero_le 1
  | some session =>
      simp only
      split_ifs
      · exact Nat.zero_le 1
      · exact length_messagesFor_le t _
      · exact length_messagesFor_le t _
      · exact length_messagesFor_le t _
      · refine length_messagesFor_le_one ?_ t
        have hids := hw.nodup_getRoomMembers env.toIteration session.roomId none
        rw [List.map_map]
        rw [← List.zipIdx_map_fst reads (rs.getRoomMembers env.toIteration session.roomId),
          List.map_map] at hids
        exact hids

/-- The newcomer gets the confirmation, the welcome and one notice for each
    member. -/
theorem length_messagesFor_join (hw : rs.WellFormed) {s r : UInt32} (requestId : UInt32)
    {session : SessionState} {room : RoomState} (hs : rs.findSession s = some session)
    (hr : rs.findRoom r = some room) (hne : session.roomId ≠ r) :
    (messagesFor s (leaveNotices env rs session
      ++ enterNotices env rs s requestId r session room)).length = room.members.size + 2 := by
  rw [messagesFor_append, messagesFor_leaveNotices_self env hw hs, List.nil_append,
    messagesFor_enter_self env hw requestId hs hr hne, List.length_cons, List.length_cons,
    List.length_map, hw.length_getRoomMembers env.toIteration hr]

/-- Everything else costs a session two messages at most. -/
theorem length_messagesFor_effect (hw : rs.WellFormed) (reads : Nat) (event : ServerEvent)
    (t : UInt32)
    (hjoin : ∀ requestId r, event = .joinRoomRequest t requestId r → ¬ JoinAccepted rs t r) :
    (messagesFor t (effect env reads rs event).messages).length ≤ 2 := by
  cases event with
  | sessionConnected s => exact Nat.zero_le 2
  | sessionDisconnected s => exact (length_messagesFor_farewells env hw s t).trans (by decide)
  | invalidPacket s message => exact (length_messagesFor_le t _).trans (Nat.le_succ 1)
  | loginRequest s requestId name =>
      simp only [effect]
      rcases loginEffect_cases rs s requestId name with ⟨_, he⟩ | ⟨_, _, he⟩ | ⟨_, _, _, he⟩
      · rw [he]
        exact Nat.zero_le 2
      · rw [he]
        exact (length_messagesFor_le t _).trans (Nat.le_succ 1)
      · rw [he]
        exact (length_messagesFor_le t _).trans (Nat.le_succ 1)
  | roomListRequest s requestId => exact (length_messagesFor_le t _).trans (Nat.le_succ 1)
  | joinRoomRequest s requestId r =>
      simp only [effect]
      rcases joinEffect_cases env rs s requestId r with ⟨_, he⟩ | ⟨_, _, he⟩ |
        ⟨session, room, hs, hlogged, hr, hne, he⟩
      · rw [he]
        exact Nat.zero_le 2
      · rw [he]
        exact (length_messagesFor_le t _).trans (Nat.le_succ 1)
      · have hst : s ≠ t := by
          rintro rfl
          exact hjoin requestId r rfl ⟨session, room, hs, hlogged, hr, hne⟩
        have hleave := length_messagesFor_leaveNotices env hw session t
        have harrival : (arrivals rs t r session).length ≤ 1 := by
          unfold arrivals
          split_ifs
          · exact Nat.le_refl 1
          · exact Nat.zero_le 1
        rw [he]
        simp only [messagesFor_append, messagesFor_arrivals env hw hst requestId session hr]
        rw [List.length_append]
        omega
  | chatSendRequest s requestId content =>
      exact (length_messagesFor_chat env hw reads s content t).trans (by decide)
  | leaveRoomRequest s requestId =>
      simp only [effect]
      rcases leaveEffect_cases env rs s requestId with ⟨_, he⟩ | ⟨_, he⟩ | ⟨session, hs, _, he⟩
      · rw [he]
        exact Nat.zero_le 2
      · rw [he]
        exact (length_messagesFor_le t _).trans (Nat.le_succ 1)
      · rw [he]
        simp only [messagesFor_append]
        rw [List.length_append]
        -- The two replies go to the one session that gets no notice.
        by_cases hst : s = t
        · subst hst
          rw [messagesFor_leaveNotices_self env hw hs, List.length_nil, Nat.zero_add]
          exact length_messagesFor_le s _
        · have hleave := length_messagesFor_leaveNotices env hw session t
          have hreplies : messagesFor t [⟨s, leaveRoomResponseMessage requestId true .none⟩,
              ⟨s, systemMessage session.roomId (utf8 "방에서 퇴장했습니다.")⟩] = [] :=
            messagesFor_eq_nil (by simp [hst])
          rw [hreplies, List.length_nil]
          omega
  | disconnectRequest s requestId =>
      have hfarewells := length_messagesFor_farewells env hw s t
      have hone := length_messagesFor_le t [⟨s, disconnectResponseMessage requestId⟩]
      have happend := messagesFor_append t [⟨s, disconnectResponseMessage requestId⟩]
        (farewells env rs s)
      simp only [effect]
      rw [List.singleton_append] at happend
      rw [happend, List.length_append]
      rw [List.length_singleton] at hone
      omega

end Counting

/-! ### A full lobby -/

def crowdName (i : Nat) : Bytes := [UInt8.ofNat (i / 256), UInt8.ofNat (i % 256)]

def crowdId (i : Nat) : UInt32 := UInt32.ofNat (i + 1)

/-- The `i`-th session connects and logs in. -/
def knock (i : Nat) : List ServerEvent :=
  [.sessionConnected (crowdId i), .loginRequest (crowdId i) 1 (crowdName i)]

/-- The first `n` sessions, all in the lobby. -/
def crowd (n : Nat) : List ServerEvent :=
  (List.range n).flatMap fun i => knock i ++ [.joinRoomRequest (crowdId i) 2 1001]

theorem crowdId_inj {i j : Nat} (hi : i < 65536) (hj : j < 65536) (h : crowdId i = crowdId j) :
    i = j := by
  have hnat := congrArg UInt32.toNat h
  unfold crowdId at hnat
  rw [UInt32.toNat_ofNat', UInt32.toNat_ofNat'] at hnat
  omega

theorem crowdName_inj {i j : Nat} (hi : i < 65536) (hj : j < 65536)
    (h : crowdName i = crowdName j) : i = j := by
  unfold crowdName at h
  rw [List.cons.injEq, List.cons.injEq] at h
  have hhigh := congrArg UInt8.toNat h.1
  have hlow := congrArg UInt8.toNat h.2.1
  rw [UInt8.toNat_ofNat', UInt8.toNat_ofNat'] at hhigh hlow
  omega

/-- A lobby of `n` sessions, and nobody else on the server. -/
structure Crowded (rs : RoomSystem) (n : Nat) : Prop where
  wellFormed : rs.WellFormed
  lobby : ∃ room, rs.findRoom 1001 = some room ∧ room.members.size = n
  known : ∀ t session, rs.findSession t = some session →
    ∃ i < n, t = crowdId i ∧ session.displayName = crowdName i

/-- The next one is logged in and in no room yet. -/
structure Knocked (rs : RoomSystem) (n : Nat) : Prop where
  wellFormed : rs.WellFormed
  lobby : ∃ room, rs.findRoom 1001 = some room ∧ room.members.size = n
  newcomer : rs.findSession (crowdId n)
    = some ⟨crowdId n, crowdId n, crowdName n, noRoomId, true⟩
  known : ∀ t session, rs.findSession t = some session →
    ∃ i < n + 1, t = crowdId i ∧ session.displayName = crowdName i

namespace GameLogicSystem

variable (env : Env) {g : GameLogicSystem} {n : Nat}

/-- A login that passes its checks is done. -/
theorem roomSystem_login {s requestId : UInt32} {name : Bytes}
    (hacc : LoginAccepted g.roomSystem s name) :
    (handleEvent env g (.loginRequest s requestId name)).roomSystem
      = g.roomSystem.setLoggedIn s name := by
  have hlogin : Performs g s (loginEffect g.roomSystem s requestId name)
      (handleEvent env g (.loginRequest s requestId name)) := performs_login s requestId name
  have hdoes := hlogin.roomSystem
  rcases loginEffect_cases g.roomSystem s requestId name with ⟨hnone, _⟩ | ⟨_, hnot, _⟩ |
    ⟨_, _, _, he⟩
  · rcases hacc.1 with ⟨session, hs⟩
    rw [hnone] at hs
    exact absurd hs.symm (Option.some_ne_none _)
  · exact absurd hacc hnot
  · rw [he] at hdoes
    exact hdoes

/-- A join that passes its checks is done. -/
theorem roomSystem_join (hw : g.roomSystem.WellFormed) {s r : UInt32} (requestId : UInt32)
    (hacc : JoinAccepted g.roomSystem s r) :
    (handleEvent env g (.joinRoomRequest s requestId r)).roomSystem
      = g.roomSystem.assign s r := by
  have hdoes := (handleEvent_performs env hw (.joinRoomRequest s requestId r)).roomSystem
  rcases hacc with ⟨session, room, hs, hlogged, hr, hne⟩
  simp only [effect, joinEffect_of_accepted env requestId hs hlogged hr hne] at hdoes
  exact hdoes

/-- A new session with a new name is let in. -/
theorem knocked_knock (h : Crowded g.roomSystem n) (hn : n < 65536) :
    Knocked (update env g (knock n)).roomSystem n := by
  have hfresh : g.roomSystem.findSession (crowdId n) = none := by
    cases hfound : g.roomSystem.findSession (crowdId n) with
    | none => rfl
    | some session =>
        rcases h.known _ _ hfound with ⟨i, hi, hid, _⟩
        exact absurd (crowdId_inj hn (by omega) hid) (by omega)
  have hadd : ∀ t, (g.roomSystem.addSession (crowdId n)).findSession t
      = if crowdId n = t then some { sessionId := crowdId n, userId := crowdId n }
        else g.roomSystem.findSession t := by
    intro t
    rw [RoomSystem.findSession_addSession]
    split_ifs with ht
    · rw [← ht, hfresh, Option.getD_none]
    · rfl
  have hfree : (g.roomSystem.addSession (crowdId n)).isDisplayNameTaken (crowdName n) (crowdId n)
      = false := by
    unfold RoomSystem.isDisplayNameTaken
    rw [List.any_eq_false]
    rintro ⟨t, session⟩ hmem
    have ht := Std.ExtTreeMap.mem_toList_iff_getElem?_eq_some.mp hmem
    have hfind := hadd t
    rw [RoomSystem.findSession, ht] at hfind
    split_ifs at hfind with heq
    · simp [heq]
    · rcases h.known t session hfind.symm with ⟨i, hi, _, hname⟩
      have hne : session.displayName ≠ crowdName n := by
        rw [hname]
        intro hsame
        exact absurd (crowdName_inj (by omega) hn hsame) (by omega)
      simp [hne]
  have hacc : LoginAccepted (g.roomSystem.addSession (crowdId n)) (crowdId n) (crowdName n) :=
    ⟨⟨_, (hadd _).trans (if_pos rfl)⟩, List.cons_ne_nil _ _,
      Nat.le_of_ble_eq_true rfl, hfree⟩
  have hrooms : (update env g (knock n)).roomSystem
      = (g.roomSystem.addSession (crowdId n)).setLoggedIn (crowdId n) (crowdName n) :=
    roomSystem_login env (g := g.handleSessionConnected (crowdId n)) hacc
  have hentry : ∀ t, (update env g (knock n)).roomSystem.findSession t
      = if crowdId n = t then some ⟨crowdId n, crowdId n, crowdName n, noRoomId, true⟩
        else g.roomSystem.findSession t := by
    intro t
    rw [hrooms, RoomSystem.findSession_setLoggedIn, hadd]
    split_ifs <;> rfl
  refine ⟨?_, ?_, (hentry _).trans (if_pos rfl), fun t session ht => ?_⟩
  · rw [hrooms]
    exact RoomSystem.wellFormed_setLoggedIn
      (RoomSystem.wellFormed_addSession h.wellFormed _) hacc
  · rw [hrooms]
    exact h.lobby
  · rw [hentry] at ht
    split_ifs at ht with hid
    · rw [Option.some.injEq] at ht
      exact ⟨n, Nat.lt_succ_self n, hid.symm, congrArg SessionState.displayName ht.symm⟩
    · rcases h.known t session ht with ⟨i, hi, hknown⟩
      exact ⟨i, Nat.lt_succ_of_lt hi, hknown⟩

theorem noRoomId_ne_lobby : noRoomId ≠ 1001 := by decide

theorem Knocked.joinAccepted {rs : RoomSystem} (h : Knocked rs n) :
    JoinAccepted rs (crowdId n) 1001 := by
  rcases h.lobby with ⟨room, hr, _⟩
  exact ⟨_, room, h.newcomer, rfl, hr, noRoomId_ne_lobby⟩

theorem crowded_join (h : Knocked g.roomSystem n) :
    Crowded (handleEvent env g (.joinRoomRequest (crowdId n) 2 1001)).roomSystem (n + 1) := by
  have hrooms := roomSystem_join env h.wellFormed 2 (Knocked.joinAccepted h)
  rcases h.lobby with ⟨room, hr, hsize⟩
  have hnotin : crowdId n ∉ room.members := fun hin =>
    h.wellFormed.not_isMember h.newcomer noRoomId_ne_lobby ⟨room, hr, hin⟩
  refine ⟨wellFormed_handleEvent env h.wellFormed _,
    ⟨{ room with members := room.members.insert (crowdId n) }, ?_, ?_⟩, fun t session ht => ?_⟩
  · rw [hrooms, RoomSystem.findRoom_assign, hr, Option.map_some, if_pos rfl]
  · rw [UnorderedSet.size_insert hnotin, hsize]
  · rw [hrooms, RoomSystem.findSession_assign] at ht
    split_ifs at ht
    · rcases Option.map_eq_some_iff.mp ht with ⟨old, hold, rfl⟩
      exact h.known t old hold
    · exact h.known t session ht

/-- Every number of members can be reached. -/
theorem crowded_crowd (hn : n ≤ 65536) : Crowded (update env initial (crowd n)).roomSystem n := by
  induction n with
  | zero =>
      refine ⟨RoomSystem.wellFormed_init, ⟨_, RoomSystem.findRoom_init 1001, rfl⟩,
        fun t session ht => ?_⟩
      exact absurd ((RoomSystem.findSession_init t).symm.trans ht) (Option.some_ne_none _).symm
  | succ n ih =>
      have hstep : update env initial (crowd (n + 1))
          = handleEvent env (update env (update env initial (crowd n)) (knock n))
            (.joinRoomRequest (crowdId n) 2 1001) := by
        unfold crowd update
        rw [List.range_succ, List.flatMap_append, List.foldl_append, List.flatMap_singleton,
          List.foldl_append]
        rfl
      rw [hstep]
      exact crowded_join env (knocked_knock env (ih (by omega)) (by omega))

end GameLogicSystem

/-! ### Idle sessions -/

/-- An open session whose write queue is empty. -/
def Session.Idle (session : Session) : Prop :=
  session.closed = false ∧ session.writer.queue = []

/-- The frames of the messages in a list that are for session `t`. -/
def framesFor (env : Env) (t : UInt32) (messages : List OutgoingMessage) : List Bytes :=
  (messagesFor t messages).map fun m => buildDataFrame (env.buildMessage m)

/-- The messages in a list are not too many for any session, and enqueueing
    them closes no session that was idle. -/
def Absorbed (env : Env) (messages : List OutgoingMessage) : Prop :=
  ∀ t, (messagesFor t messages).length ≤ maxPendingWriteFrames ∧
    ∀ session : Session, session.Idle →
      (session.enqueueWrites (framesFor env t messages)).1.closed = false ∧
      (session.enqueueWrites (framesFor env t messages)).2 = []

/-- An accepted join of a room with more than 1022 members. -/
def CrowdedJoin (rs : RoomSystem) (event : ServerEvent) : Prop :=
  ∃ s requestId r room, event = .joinRoomRequest s requestId r ∧ JoinAccepted rs s r ∧
    rs.findRoom r = some room ∧ 1022 < room.members.size

/-- An idle session is closed by more frames than the queue holds. -/
theorem Session.Idle.enqueueWrites {session : Session} (h : session.Idle) (frames : List Bytes) :
    if frames.length ≤ maxPendingWriteFrames then
      (session.enqueueWrites frames).1.closed = false ∧ (session.enqueueWrites frames).2 = []
    else (session.enqueueWrites frames).1.closed = true ∧
      (session.enqueueWrites frames).2 = [.close] := by
  have hclosed := Session.closed_enqueueWrites h.1 (by rw [h.2]; exact Nat.zero_le _) frames
  rw [h.2, List.length_nil, Nat.zero_add] at hclosed
  exact hclosed

theorem absorbed_iff (env : Env) (messages : List OutgoingMessage) : Absorbed env messages ↔
    ∀ t, (messagesFor t messages).length ≤ maxPendingWriteFrames := by
  refine ⟨fun h t => (h t).1, fun h t => ⟨h t, fun session hidle => ?_⟩⟩
  have hclosed := hidle.enqueueWrites (framesFor env t messages)
  rw [if_pos (by rw [framesFor, List.length_map]; exact h t)] at hclosed
  exact hclosed

namespace GameLogicSystem

/-- The messages of a join all fit, so the newcomer gets two more than there
    are members. -/
theorem length_messagesFor_accepted {env : Env} (henv : env.Compact) {rs : RoomSystem}
    (hw : rs.WellFormed) (reads : Nat) {s r : UInt32} (requestId : UInt32) {room : RoomState}
    (hacc : JoinAccepted rs s r) (hr : rs.findRoom r = some room) :
    (messagesFor s ((effect env reads rs (.joinRoomRequest s requestId r)).messages.filter
      (fun out => env.fits out.payload))).length = room.members.size + 2 := by
  rcases hacc with ⟨session, room', hs, hlogged, hr', hne⟩
  have hbrief : (ServerEvent.joinRoomRequest s requestId r).Brief := trivial
  rw [henv.filter_effect hw hbrief]
  simp only [effect, joinEffect_of_accepted env requestId hs hlogged hr hne]
  exact length_messagesFor_join env hw requestId hs hr hne

/-- In every reachable state, what one event queues is absorbed by idle
    sessions unless the event is an accepted join of a room with more than 1022
    members. -/
theorem overflow_iff_crowdedJoin (env : Env) (henv : env.Compact) (events : List ServerEvent)
    (event : ServerEvent) :
    let g := update env initial events
    ∃ new, (handleEvent env g event).outgoingMessages = g.outgoingMessages ++ new ∧
      (Absorbed env new ↔ ¬ CrowdedJoin g.roomSystem event) := by
  intro g
  have hw : g.roomSystem.WellFormed := update_wellFormed env events
  refine ⟨_, outgoingMessages_step env events event, ?_⟩
  rw [absorbed_iff]
  constructor
  · rintro hall ⟨s, requestId, r, room, rfl, hacc, hr, hsize⟩
    have hle := hall s
    rw [length_messagesFor_accepted henv hw _ _ hacc hr] at hle
    unfold maxPendingWriteFrames at hle
    omega
  · intro hnot t
    by_cases hjoin : ∃ requestId r, event = .joinRoomRequest t requestId r ∧
        JoinAccepted g.roomSystem t r
    · rcases hjoin with ⟨requestId, r, rfl, hacc⟩
      have hroom := hacc
      rcases hroom with ⟨_, room, _, _, hr, _⟩
      have hfew : ¬ 1022 < room.members.size := fun hsize =>
        hnot ⟨t, requestId, r, room, rfl, hacc, hr, hsize⟩
      rw [length_messagesFor_accepted henv hw _ _ hacc hr]
      unfold maxPendingWriteFrames
      omega
    · have hfew := length_messagesFor_effect env hw g.clockReads event t
        (fun requestId r heq hacc => hjoin ⟨requestId, r, heq, hacc⟩)
      rw [← messagesFor_filter]
      refine (List.length_filter_le _ _).trans (hfew.trans ?_)
      unfold maxPendingWriteFrames
      omega

/-- One member in the lobby, and another session joins. -/
theorem overflow_iff_crowdedJoin_lobby :
    let g := update plainCodec.toEnv initial (crowd 1 ++ knock 1)
    ∃ new, (handleEvent plainCodec.toEnv g (.joinRoomRequest 2 2 1001)).outgoingMessages
        = g.outgoingMessages ++ new ∧ Absorbed plainCodec.toEnv new := by
  intro g
  rcases overflow_iff_crowdedJoin plainCodec.toEnv compact_plainCodec (crowd 1 ++ knock 1)
    (.joinRoomRequest 2 2 1001) with ⟨new, hnew, hiff⟩
  refine ⟨new, hnew, hiff.mpr ?_⟩
  rintro ⟨s, requestId, r, room, heq, _, hr, hsize⟩
  cases heq
  have hone : (g.roomSystem.findRoom 1001).map (fun room => room.members.size) = some 1 := by
    decide +kernel
  rw [hr, Option.map_some, Option.some.injEq] at hone
  omega

/-- With 1023 members in the lobby, the next session to join is queued 1025
    messages, and enqueueing them closes it although its queue was empty. -/
theorem not_absorbed_full_lobby :
    let env := plainCodec.toEnv
    let g := update env initial (crowd 1023 ++ knock 1023)
    ∃ new, (handleEvent env g (.joinRoomRequest (crowdId 1023) 2 1001)).outgoingMessages
        = g.outgoingMessages ++ new ∧
      (messagesFor (crowdId 1023) new).length = 1025 ∧
      ∀ session : Session, session.Idle →
        (session.enqueueWrites (framesFor env (crowdId 1023) new)).1.closed = true := by
  intro env g
  have hknocked : Knocked g.roomSystem 1023 := by
    have hcrowded := crowded_crowd (n := 1023) env (by decide)
    have hknock := knocked_knock env hcrowded (by decide)
    have happend : g = update env (update env initial (crowd 1023)) (knock 1023) :=
      List.foldl_append
    rw [happend]
    exact hknock
  rcases hknocked.lobby with ⟨room, hr, hsize⟩
  have hlength := length_messagesFor_accepted compact_plainCodec
    hknocked.wellFormed g.clockReads 2 (Knocked.joinAccepted hknocked) hr
  have houtgoing := outgoingMessages_step env (crowd 1023 ++ knock 1023)
    (.joinRoomRequest (crowdId 1023) 2 1001)
  rw [hsize] at hlength
  change (handleEvent env g _).outgoingMessages = g.outgoingMessages ++ (effect env g.clockReads
    g.roomSystem _).messages.filter (fun out => env.fits out.payload) at houtgoing
  generalize (effect env g.clockReads g.roomSystem
    (.joinRoomRequest (crowdId 1023) 2 1001)).messages.filter
      (fun out => env.fits out.payload) = new at hlength houtgoing
  refine ⟨new, houtgoing, hlength, fun session hidle => ?_⟩
  have hclosed := hidle.enqueueWrites (framesFor env (crowdId 1023) new)
  rw [if_neg (by
    rw [framesFor, List.length_map, hlength]
    unfold maxPendingWriteFrames
    omega)] at hclosed
  exact hclosed.1

end GameLogicSystem

end ProjectNight
