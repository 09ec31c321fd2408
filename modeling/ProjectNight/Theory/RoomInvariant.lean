import ProjectNight.Core.RoomSystem
import ProjectNight.Lib.TreeMap

/-!
# Agreement of the Two Copies of Membership

A session's room is stored in the session and again in the room's member set.
`Consistent` says that the two copies agree, that the keys of both maps are
the ids stored under them, and that the rooms are the constructor's rooms.
Every operation preserves it, in any order and with any arguments.

The operations differ in which side they touch and behind which checks, but in
a consistent state the membership they produce is always of one shape: session
`s` is put into room `r` and taken out of every other, with `noRoomId` for no
room at all. `assign` is that shape, and the operations are rewritten to it
once (`removeSessionFromCurrentRoom_eq`, `moveSessionToRoom_eq`). Taking `s`
out of a set it is not in changes nothing, which is why erasing from one room
and erasing from all of them agree.

## Main definitions

* `IsMember`: A session is in a room's member set.
* `Consistent`: The invariant.
* `assign`: A session placed in one room and no other.

## Theorems

* `ext_find`: A room system is determined by its lookups.
* `isMember_assign`: Membership after a placement.
* `consistent_assign`: A placement keeps the invariant.
* `removeSessionFromCurrentRoom_eq`, `moveSessionToRoom_eq`: The operations as
  placements.
* `consistent_init`, `consistent_applyOp`, `consistent_runOps`: The invariant
  holds at the start and after every run of operations.
* `runOps_membership`: The invariant spelled out for a run.
-/

namespace ProjectNight

namespace RoomSystem

theorem ext_find (a b : RoomSystem) (hs : ∀ s, a.findSession s = b.findSession s)
    (hr : ∀ r, a.findRoom r = b.findRoom r) : a = b := by
  rcases a with ⟨as, ar⟩
  rcases b with ⟨bs, br⟩
  simp only [findSession, findRoom] at hs hr
  rw [Std.ExtTreeMap.ext_getElem? hs, Std.ExtTreeMap.ext_getElem? hr]

theorem findSession_addSession (rs : RoomSystem) (s t : UInt32) :
    (rs.addSession s).findSession t = if s = t then
      some ((rs.findSession t).getD { sessionId := s, userId := s })
      else rs.findSession t :=
  TreeMap.getElem?_insertIfNew_ite rs.sessions s t _

@[simp] theorem findRoom_addSession (rs : RoomSystem) (s r : UInt32) :
    (rs.addSession s).findRoom r = rs.findRoom r := rfl

theorem findSession_setLoggedIn (rs : RoomSystem) (s t : UInt32) (name : Bytes) :
    (rs.setLoggedIn s name).findSession t = if s = t then
      (rs.findSession t).map
        (fun session => { session with loggedIn := true, displayName := name })
      else rs.findSession t :=
  TreeMap.getElem?_modify_ite rs.sessions s t _

@[simp] theorem findRoom_setLoggedIn (rs : RoomSystem) (s r : UInt32) (name : Bytes) :
    (rs.setLoggedIn s name).findRoom r = rs.findRoom r := rfl

theorem findRoom_init (r : UInt32) :
    init.findRoom r = if 1003 = r then some { roomId := 1003, roomName := utf8 "Chat" }
      else if 1002 = r then some { roomId := 1002, roomName := utf8 "Dev" }
      else if 1001 = r then some { roomId := 1001, roomName := utf8 "Lobby" }
      else none := by
  simp only [init, findRoom, TreeMap.getElem?_insert_ite, Std.ExtTreeMap.getElem?_empty]

theorem findSession_init (s : UInt32) : init.findSession s = none := by
  simp only [init, findSession, Std.ExtTreeMap.getElem?_empty]

/-- Session `s` is in the member set of room `r`. -/
def IsMember (rs : RoomSystem) (s r : UInt32) : Prop :=
  ∃ room, rs.findRoom r = some room ∧ s ∈ room.members

theorem isMember_iff_any (rs : RoomSystem) (s r : UInt32) :
    (rs.findRoom r).any (fun room => s ∈ room.members) = true ↔ rs.IsMember s r := by
  unfold IsMember
  rw [Option.any_eq_true]
  simp only [decide_eq_true_eq]

instance (rs : RoomSystem) (s r : UInt32) : Decidable (rs.IsMember s r) :=
  decidable_of_iff _ (isMember_iff_any rs s r)

/-- The two copies of membership agree, keys are the ids stored under them,
    and the rooms are those of the constructor. -/
structure Consistent (rs : RoomSystem) : Prop where
  member_iff : ∀ s r, rs.IsMember s r ↔
    (∃ room, rs.findRoom r = some room) ∧
      ∃ session, rs.findSession s = some session ∧ session.roomId = r
  room_exists : ∀ s session, rs.findSession s = some session →
    session.roomId = noRoomId ∨ ∃ room, rs.findRoom session.roomId = some room
  session_key : ∀ s session, rs.findSession s = some session →
    session.sessionId = s ∧ session.userId = s
  room_key : ∀ r room, rs.findRoom r = some room → room.roomId = r
  rooms_fixed : ∀ r, (rs.findRoom r).map RoomState.roomName
    = (init.findRoom r).map RoomState.roomName

/-- The id that stands for no room is not a room. -/
theorem Consistent.findRoom_noRoomId {rs : RoomSystem} (h : rs.Consistent) :
    rs.findRoom noRoomId = none := by
  have hfix := h.rooms_fixed noRoomId
  rw [findRoom_init, if_neg (by decide), if_neg (by decide), if_neg (by decide),
    Option.map_none, Option.map_eq_none_iff] at hfix
  exact hfix

theorem Consistent.ne_noRoomId {rs : RoomSystem} (h : rs.Consistent) {r : UInt32}
    {room : RoomState} (hr : rs.findRoom r = some room) : r ≠ noRoomId := by
  rintro rfl
  rw [h.findRoom_noRoomId] at hr
  exact absurd hr (by simp only [reduceCtorEq, not_false_eq_true])

/-- A session in a member set is a live session of that room. -/
theorem Consistent.session_of_isMember {rs : RoomSystem} (h : rs.Consistent) {s r : UInt32}
    (hm : rs.IsMember s r) :
    ∃ session, rs.findSession s = some session ∧ session.roomId = r ∧ r ≠ noRoomId := by
  rcases (h.member_iff s r).mp hm with ⟨⟨room, hroom⟩, session, hs, hr⟩
  exact ⟨session, hs, hr, h.ne_noRoomId hroom⟩

/-- A live session is in no member set but that of the room it names. -/
theorem Consistent.not_isMember {rs : RoomSystem} (h : rs.Consistent) {s r : UInt32}
    {session : SessionState} (hs : rs.findSession s = some session) (hr : session.roomId ≠ r) :
    ¬ rs.IsMember s r := by
  intro hm
  rcases h.session_of_isMember hm with ⟨session', hs', hroom, _⟩
  rw [hs, Option.some.injEq] at hs'
  exact hr (hs' ▸ hroom)

/-- A live session that names a room is in that room's member set. -/
theorem Consistent.isMember_of_session {rs : RoomSystem} (h : rs.Consistent) {s : UInt32}
    {session : SessionState} (hs : rs.findSession s = some session)
    (hr : session.roomId ≠ noRoomId) : rs.IsMember s session.roomId :=
  (h.member_iff s session.roomId).mpr
    ⟨(h.room_exists s session hs).resolve_left hr, session, hs, rfl⟩

/-! ### Placements -/

/-- Session `s` placed in room `r` and in no other. -/
def assign (rs : RoomSystem) (s r : UInt32) : RoomSystem where
  sessions := rs.sessions.modify s (fun session => { session with roomId := r })
  rooms := rs.rooms.map (fun q room => { room with
    members := if q = r then room.members.insert s else room.members.erase s })

theorem findSession_assign (rs : RoomSystem) (s r t : UInt32) :
    (rs.assign s r).findSession t = if s = t then
      (rs.findSession t).map (fun session => { session with roomId := r })
      else rs.findSession t :=
  TreeMap.getElem?_modify_ite rs.sessions s t _

theorem findRoom_assign (rs : RoomSystem) (s r q : UInt32) :
    (rs.assign s r).findRoom q = (rs.findRoom q).map (fun room => { room with
      members := if q = r then room.members.insert s else room.members.erase s }) := by
  simp only [assign, findRoom, Std.ExtTreeMap.getElem?_map]

/-- Placing a session decides its own membership and nobody else's. -/
theorem mem_members_assign (m : UnorderedSet UInt32) (s r t q : UInt32) :
    t ∈ (if q = r then m.insert s else m.erase s) ↔ if t = s then q = r else t ∈ m := by
  by_cases hqr : q = r
  · rw [if_pos hqr, UnorderedSet.mem_insert_iff]
    by_cases hts : t = s
    · rw [if_pos hts]
      exact ⟨fun _ => hqr, fun _ => Or.inl hts⟩
    · rw [if_neg hts]
      exact ⟨fun h => h.resolve_left hts, Or.inr⟩
  · rw [if_neg hqr, UnorderedSet.mem_erase_iff]
    by_cases hts : t = s
    · rw [if_pos hts]
      exact ⟨fun h => absurd hts h.1, fun h => absurd h hqr⟩
    · rw [if_neg hts]
      exact ⟨And.right, fun h => ⟨hts, h⟩⟩

theorem isMember_assign (rs : RoomSystem) (s r t q : UInt32) :
    (rs.assign s r).IsMember t q ↔
      if t = s then q = r ∧ ∃ room, rs.findRoom q = some room else rs.IsMember t q := by
  simp only [IsMember, findRoom_assign, Option.map_eq_some_iff]
  constructor
  · rintro ⟨_, ⟨room, hroom, rfl⟩, hm⟩
    rw [mem_members_assign] at hm
    by_cases hts : t = s
    · rw [if_pos hts] at hm ⊢
      exact ⟨hm, room, hroom⟩
    · rw [if_neg hts] at hm ⊢
      exact ⟨room, hroom, hm⟩
  · intro h
    by_cases hts : t = s
    · rw [if_pos hts] at h
      rcases h with ⟨hqr, room, hroom⟩
      exact ⟨_, ⟨room, hroom, rfl⟩, by rw [mem_members_assign, if_pos hts]; exact hqr⟩
    · rw [if_neg hts] at h
      rcases h with ⟨room, hroom, hm⟩
      exact ⟨_, ⟨room, hroom, rfl⟩, by rw [mem_members_assign, if_neg hts]; exact hm⟩

theorem exists_findRoom_assign (rs : RoomSystem) (s r q : UInt32) :
    (∃ room, (rs.assign s r).findRoom q = some room) ↔ ∃ room, rs.findRoom q = some room := by
  rw [← Option.isSome_iff_exists, ← Option.isSome_iff_exists, findRoom_assign, Option.isSome_map]

/-- Placing a session in an existing room, or in none, keeps the invariant.
    The session itself has to be live: a room must not gain a stranger. -/
theorem consistent_assign {rs : RoomSystem} (h : rs.Consistent) {s r : UInt32}
    (hr : r = noRoomId ∨ (∃ room, rs.findRoom r = some room) ∧
      ∃ session, rs.findSession s = some session) : (rs.assign s r).Consistent where
  member_iff := by
    intro t q
    rw [isMember_assign, exists_findRoom_assign, findSession_assign]
    by_cases hts : t = s
    · subst hts
      rw [if_pos rfl]
      constructor
      · rintro ⟨rfl, room, hroom⟩
        -- A room that exists is not the empty one, so the session is live.
        have hlive := (hr.resolve_left (h.ne_noRoomId hroom)).2
        rcases hlive with ⟨session, hs⟩
        exact ⟨⟨room, hroom⟩, { session with roomId := q }, by rw [if_pos rfl, hs]; rfl, rfl⟩
      · rintro ⟨hex, session, hs, hq⟩
        rw [if_pos rfl, Option.map_eq_some_iff] at hs
        rcases hs with ⟨old, _, rfl⟩
        exact ⟨hq.symm, hex⟩
    · rw [if_neg hts, if_neg (fun hc => hts hc.symm)]
      exact h.member_iff t q
  room_exists := by
    intro t session ht
    rw [findSession_assign] at ht
    by_cases hts : s = t
    · rw [if_pos hts, Option.map_eq_some_iff] at ht
      rcases ht with ⟨old, _, rfl⟩
      rw [exists_findRoom_assign]
      exact hr.imp id And.left
    · rw [if_neg hts] at ht
      rw [exists_findRoom_assign]
      exact h.room_exists t session ht
  session_key := by
    intro t session ht
    rw [findSession_assign] at ht
    by_cases hts : s = t
    · rw [if_pos hts, Option.map_eq_some_iff] at ht
      rcases ht with ⟨old, hold, rfl⟩
      exact h.session_key t old hold
    · rw [if_neg hts] at ht
      exact h.session_key t session ht
  room_key := by
    intro q room hq
    rw [findRoom_assign, Option.map_eq_some_iff] at hq
    rcases hq with ⟨old, hold, rfl⟩
    exact h.room_key q old hold
  rooms_fixed := by
    intro q
    rw [findRoom_assign, Option.map_map, ← h.rooms_fixed q]
    rfl

/-- Leaving first makes no difference to a placement in a new room: the sets
    see the same changes in the same order. -/
theorem Consistent.assign_assign {rs : RoomSystem} (h : rs.Consistent) {s r : UInt32}
    (hnot : ¬ rs.IsMember s r) : (rs.assign s noRoomId).assign s r = rs.assign s r := by
  refine ext_find _ _ (fun t => ?_) (fun q => ?_)
  · simp only [findSession_assign]
    by_cases hst : s = t
    · simp only [if_pos hst, Option.map_map, Function.comp_def]
    · simp only [if_neg hst]
  · simp only [findRoom_assign, Option.map_map]
    cases hroom : rs.findRoom q with
    | none => rfl
    | some room =>
        simp only [Option.map_some, Function.comp_def, if_neg (h.ne_noRoomId hroom)]
        by_cases hqr : q = r
        · -- The new room does not have the session, so nothing is erased there.
          have hout : s ∉ room.members := fun hm => hnot ⟨room, hqr ▸ hroom, hm⟩
          simp only [if_pos hqr, UnorderedSet.erase_eq_self hout]
        · -- Elsewhere it is erased by the first, if it is there at all.
          have hgone : s ∉ room.members.erase s := fun hm =>
            ((UnorderedSet.mem_erase_iff room.members s s).mp hm).1 rfl
          simp only [if_neg hqr, UnorderedSet.erase_eq_self hgone]

/-- A room the session does not name looks the same with it erased. -/
theorem Consistent.erase_elsewhere {rs : RoomSystem} (h : rs.Consistent) {s q : UInt32}
    (hne : ∀ session, rs.findSession s = some session → session.roomId ≠ q) :
    (rs.findRoom q).map (fun room => { room with members := room.members.erase s })
      = rs.findRoom q := by
  cases hroom : rs.findRoom q with
  | none => rfl
  | some room =>
      -- A member would name this room.
      have hnot : s ∉ room.members := by
        intro hm
        rcases (h.member_iff s q).mp ⟨room, hroom, hm⟩ with ⟨_, session, hs, hr⟩
        exact hne session hs hr
      rw [Option.map_some, UnorderedSet.erase_eq_self hnot]

/-- Placing a session in no room erases it everywhere. -/
theorem Consistent.findRoom_assign_noRoomId {rs : RoomSystem} (h : rs.Consistent)
    (s q : UInt32) : (rs.assign s noRoomId).findRoom q
      = (rs.findRoom q).map (fun room => { room with members := room.members.erase s }) := by
  rw [findRoom_assign]
  cases hroom : rs.findRoom q with
  | none => rfl
  | some room => simp only [if_neg (h.ne_noRoomId hroom), Option.map_some]

/-- Leaving the current room. When the session names no room, or is unknown,
    the source returns early and the placement has nothing to change. -/
theorem removeSessionFromCurrentRoom_eq {rs : RoomSystem} (h : rs.Consistent) (s : UInt32) :
    rs.removeSessionFromCurrentRoom s = rs.assign s noRoomId := by
  refine ext_find _ _ (fun t => ?_) (fun q => ?_)
  · rw [findSession_assign, removeSessionFromCurrentRoom]
    cases hs : rs.findSession s with
    | none =>
        by_cases hst : s = t
        · rw [if_pos hst, ← hst, hs, Option.map_none]
        · rw [if_neg hst]
    | some session =>
        by_cases hr : session.roomId = noRoomId
        · simp only [if_pos hr]
          by_cases hst : s = t
          · rw [if_pos hst, ← hst, hs, Option.map_some, ← hr]
          · rw [if_neg hst]
        · simp only [if_neg hr]
          exact TreeMap.getElem?_modify_ite rs.sessions s t _
  · rw [h.findRoom_assign_noRoomId, removeSessionFromCurrentRoom]
    cases hs : rs.findSession s with
    | none =>
        -- An unknown session is in no member set.
        refine (h.erase_elsewhere (fun session hs' => ?_)).symm
        rw [hs] at hs'
        exact absurd hs' (by simp only [reduceCtorEq, not_false_eq_true])
    | some session =>
        by_cases hr : session.roomId = noRoomId
        · simp only [if_pos hr]
          cases hroom : rs.findRoom q with
          | none => rfl
          | some room =>
              rw [← hroom]
              refine (h.erase_elsewhere (fun session' hs' hq => ?_)).symm
              rw [hs, Option.some.injEq] at hs'
              exact h.ne_noRoomId hroom (hq.symm.trans (hs' ▸ hr))
        · simp only [if_neg hr]
          refine (TreeMap.getElem?_modify_ite rs.rooms session.roomId q _).trans ?_
          -- The source erases from the one room the session names, and only that
          -- one has it.
          by_cases hq : session.roomId = q
          · rw [if_pos hq, findRoom]
          · rw [if_neg hq]
            refine (h.erase_elsewhere (fun session' hs' => ?_)).symm
            rw [hs, Option.some.injEq] at hs'
            exact hs' ▸ hq

/-- The two pointer writes that end `MoveSessionToRoom` are a placement when
    the session is in no room, or already in the target. -/
theorem Consistent.insert_eq_assign {rs : RoomSystem} (h : rs.Consistent) {s r : UInt32}
    {session : SessionState} (hs : rs.findSession s = some session)
    (hr : session.roomId = noRoomId ∨ session.roomId = r) :
    ({ rooms := rs.rooms.modify r (fun room => { room with members := room.members.insert s })
       sessions := rs.sessions.modify s (fun session => { session with roomId := r }) } :
      RoomSystem) = rs.assign s r := by
  refine ext_find _ _ (fun t => rfl) (fun q => ?_)
  rw [findRoom_assign]
  refine (TreeMap.getElem?_modify_ite rs.rooms r q _).trans ?_
  by_cases hq : r = q
  · simp only [if_pos hq, if_pos hq.symm, findRoom]
  · have hqr : q ≠ r := fun hc => hq hc.symm
    simp only [if_neg hq, if_neg hqr]
    cases hroom : rs.findRoom q with
    | none => exact hroom
    | some room =>
        rw [← hroom]
        -- The session names no room but the target, so no other set has it.
        refine (h.erase_elsewhere (fun session' hs' hc => ?_)).symm
        rw [hs, Option.some.injEq] at hs'
        subst hs'
        rcases hr with hr | hr
        · exact h.ne_noRoomId hroom (hc.symm.trans hr)
        · exact hq (hr.symm.trans hc)

theorem moveSessionToRoom_eq {rs : RoomSystem} (h : rs.Consistent) {s r : UInt32}
    {session : SessionState} {room : RoomState} (hs : rs.findSession s = some session)
    (hroom : rs.findRoom r = some room) : rs.moveSessionToRoom s r = rs.assign s r := by
  simp only [moveSessionToRoom, hs, hroom]
  by_cases hout : session.roomId ≠ noRoomId ∧ session.roomId ≠ r
  · -- The session leaves its room first, and is then placed from nowhere.
    simp only [if_pos hout, removeSessionFromCurrentRoom_eq h]
    have hs' : (rs.assign s noRoomId).findSession s
        = some { session with roomId := noRoomId } := by
      rw [findSession_assign, if_pos rfl, hs, Option.map_some]
    rw [(consistent_assign h (Or.inl rfl)).insert_eq_assign hs' (Or.inl rfl),
      h.assign_assign (h.not_isMember hs hout.2)]
  · simp only [if_neg hout]
    refine h.insert_eq_assign hs ?_
    by_cases hr : session.roomId = noRoomId
    · exact Or.inl hr
    · exact Or.inr (by_contra fun hc => hout ⟨hr, hc⟩)

theorem findSession_removeSession {rs : RoomSystem} (h : rs.Consistent) (s t : UInt32) :
    (rs.removeSession s).findSession t = if s = t then none else rs.findSession t := by
  rw [removeSession, removeSessionFromCurrentRoom_eq h]
  refine (TreeMap.getElem?_erase_ite (rs.assign s noRoomId).sessions s t).trans ?_
  by_cases hst : s = t
  · rw [if_pos hst, if_pos hst]
  · have hassign := findSession_assign rs s noRoomId t
    rw [if_neg hst] at hassign
    rw [if_neg hst, if_neg hst]
    exact hassign

theorem findRoom_removeSession {rs : RoomSystem} (h : rs.Consistent) (s q : UInt32) :
    (rs.removeSession s).findRoom q = (rs.assign s noRoomId).findRoom q := by
  rw [removeSession, removeSessionFromCurrentRoom_eq h]
  rfl

/-- Membership after a session is removed. -/
theorem isMember_removeSession {rs : RoomSystem} (h : rs.Consistent) (s t q : UInt32) :
    (rs.removeSession s).IsMember t q ↔ t ≠ s ∧ rs.IsMember t q := by
  have hiff : (rs.removeSession s).IsMember t q ↔ (rs.assign s noRoomId).IsMember t q := by
    simp only [IsMember, findRoom_removeSession h]
  rw [hiff, isMember_assign]
  by_cases hts : t = s
  · rw [if_pos hts]
    refine ⟨fun hc => ?_, fun hc => absurd hts hc.1⟩
    rcases hc with ⟨rfl, room, hroom⟩
    exact absurd rfl (h.ne_noRoomId hroom)
  · rw [if_neg hts]
    exact ⟨fun hm => ⟨hts, hm⟩, And.right⟩

/-- Leaving the room before being removed makes no difference. -/
theorem removeSession_assign {rs : RoomSystem} (h : rs.Consistent) (s : UInt32) :
    (rs.assign s noRoomId).removeSession s = rs.removeSession s := by
  have hc : (rs.assign s noRoomId).Consistent := consistent_assign h (Or.inl rfl)
  refine ext_find _ _ (fun t => ?_) (fun q => ?_)
  · rw [findSession_removeSession hc, findSession_removeSession h, findSession_assign]
    by_cases hst : s = t
    · rw [if_pos hst, if_pos hst]
    · rw [if_neg hst, if_neg hst, if_neg hst]
  · have hnot : ¬ rs.IsMember s noRoomId := by
      rintro ⟨room, hroom, _⟩
      exact h.ne_noRoomId hroom rfl
    rw [findRoom_removeSession hc, findRoom_removeSession h, h.assign_assign hnot]

/-! ### Preservation -/

theorem consistent_init : init.Consistent where
  member_iff := by
    intro s r
    constructor
    · rintro ⟨room, hroom, hm⟩
      rw [findRoom_init] at hroom
      split_ifs at hroom <;>
        · rw [Option.some.injEq] at hroom
          subst hroom
          exact absurd hm UnorderedSet.not_mem_empty
    · rintro ⟨_, session, hs, _⟩
      rw [findSession_init] at hs
      exact absurd hs (by simp only [reduceCtorEq, not_false_eq_true])
  room_exists := by
    intro s session hs
    rw [findSession_init] at hs
    exact absurd hs (by simp only [reduceCtorEq, not_false_eq_true])
  session_key := by
    intro s session hs
    rw [findSession_init] at hs
    exact absurd hs (by simp only [reduceCtorEq, not_false_eq_true])
  room_key := by
    intro r room hroom
    rw [findRoom_init] at hroom
    split_ifs at hroom with h3 h2 h1 <;>
      · rw [Option.some.injEq] at hroom
        subst hroom
        assumption
  rooms_fixed := fun _ => rfl

/-- The invariant reads only the rooms, and of the sessions which room each
    one names. An operation that leaves both alone keeps it. -/
theorem consistent_of_sessions {rs rs' : RoomSystem} (h : rs.Consistent)
    (hrooms : ∀ r, rs'.findRoom r = rs.findRoom r)
    (hsessions : ∀ t q, q ≠ noRoomId →
      ((∃ session, rs'.findSession t = some session ∧ session.roomId = q) ↔
        ∃ session, rs.findSession t = some session ∧ session.roomId = q))
    (hkeys : ∀ t session, rs'.findSession t = some session →
      session.sessionId = t ∧ session.userId = t) : rs'.Consistent where
  member_iff := by
    intro t q
    have hiff : rs'.IsMember t q ↔ rs.IsMember t q := by simp only [IsMember, hrooms]
    rw [hiff, h.member_iff t q, hrooms]
    by_cases hq : q = noRoomId
    · -- There is no such room, whatever the sessions say.
      subst hq
      rw [h.findRoom_noRoomId]
      simp only [reduceCtorEq, exists_false, false_and]
    · rw [hsessions t q hq]
  room_exists := by
    intro t session ht
    by_cases hq : session.roomId = noRoomId
    · exact Or.inl hq
    · rcases (hsessions t session.roomId hq).mp ⟨session, ht, rfl⟩ with ⟨old, hold, hroom⟩
      rw [hrooms, ← hroom]
      exact Or.inr ((h.room_exists t old hold).resolve_left (hroom ▸ hq))
  session_key := hkeys
  room_key := by
    intro r room hr
    rw [hrooms] at hr
    exact h.room_key r room hr
  rooms_fixed := by
    intro r
    rw [hrooms]
    exact h.rooms_fixed r

theorem consistent_addSession {rs : RoomSystem} (h : rs.Consistent) (s : UInt32) :
    (rs.addSession s).Consistent := by
  refine consistent_of_sessions h (findRoom_addSession rs s) (fun t q hq => ?_)
    (fun t session ht => ?_)
  · rw [findSession_addSession]
    by_cases hst : s = t
    · rw [if_pos hst]
      cases ht : rs.findSession t with
      | none =>
          -- The new session names no room.
          simp only [Option.getD_none, Option.some.injEq, exists_eq_left', reduceCtorEq,
            false_and, exists_false, iff_false]
          exact fun hc => hq hc.symm
      | some session => rw [Option.getD_some]
    · rw [if_neg hst]
  · rw [findSession_addSession] at ht
    by_cases hst : s = t
    · rw [if_pos hst] at ht
      cases hold : rs.findSession t with
      | none =>
          rw [hold, Option.getD_none, Option.some.injEq] at ht
          rw [← ht]
          exact ⟨hst, hst⟩
      | some old =>
          rw [hold, Option.getD_some, Option.some.injEq] at ht
          exact h.session_key t session (ht ▸ hold)
    · rw [if_neg hst] at ht
      exact h.session_key t session ht

theorem consistent_setLoggedIn {rs : RoomSystem} (h : rs.Consistent) (s : UInt32)
    (name : Bytes) : (rs.setLoggedIn s name).Consistent := by
  refine consistent_of_sessions h (fun r => findRoom_setLoggedIn rs s r name)
    (fun t q _ => ?_) (fun t session ht => ?_)
  · rw [findSession_setLoggedIn]
    by_cases hst : s = t
    · rw [if_pos hst]
      cases rs.findSession t with
      | none => rw [Option.map_none]
      | some session => simp only [Option.map_some, Option.some.injEq, exists_eq_left']
    · rw [if_neg hst]
  · rw [findSession_setLoggedIn] at ht
    by_cases hst : s = t
    · rw [if_pos hst, Option.map_eq_some_iff] at ht
      rcases ht with ⟨old, hold, rfl⟩
      exact h.session_key t old hold
    · rw [if_neg hst] at ht
      exact h.session_key t session ht

theorem consistent_removeSession {rs : RoomSystem} (h : rs.Consistent) (s : UInt32) :
    (rs.removeSession s).Consistent := by
  refine consistent_of_sessions (consistent_assign h (s := s) (Or.inl rfl))
    (findRoom_removeSession h s) (fun t q hq => ?_) (fun t session ht => ?_)
  · rw [findSession_removeSession h, findSession_assign]
    by_cases hst : s = t
    · rw [if_pos hst, if_pos hst]
      constructor
      · rintro ⟨session, hs, _⟩
        exact absurd hs (by simp only [reduceCtorEq, not_false_eq_true])
      · rintro ⟨session, hs, hr⟩
        rw [Option.map_eq_some_iff] at hs
        rcases hs with ⟨old, _, rfl⟩
        exact absurd hr.symm hq
    · rw [if_neg hst, if_neg hst]
  · rw [findSession_removeSession h] at ht
    by_cases hst : s = t
    · rw [if_pos hst] at ht
      exact absurd ht (by simp only [reduceCtorEq, not_false_eq_true])
    · rw [if_neg hst] at ht
      exact h.session_key t session ht

theorem consistent_moveSessionToRoom {rs : RoomSystem} (h : rs.Consistent) (s r : UInt32) :
    (rs.moveSessionToRoom s r).Consistent := by
  cases hs : rs.findSession s with
  | none =>
      simp only [moveSessionToRoom, hs]
      exact h
  | some session =>
      cases hroom : rs.findRoom r with
      | none =>
          simp only [moveSessionToRoom, hs, hroom]
          exact h
      | some room =>
          rw [moveSessionToRoom_eq h hs hroom]
          exact consistent_assign h (Or.inr ⟨⟨room, hroom⟩, session, hs⟩)

theorem consistent_applyOp {rs : RoomSystem} (h : rs.Consistent) (op : RoomOp) :
    (rs.applyOp op).Consistent := by
  cases op with
  | addSession s => exact consistent_addSession h s
  | removeSession s => exact consistent_removeSession h s
  | removeSessionFromCurrentRoom s =>
      rw [applyOp, removeSessionFromCurrentRoom_eq h]
      exact consistent_assign h (Or.inl rfl)
  | moveSessionToRoom s r => exact consistent_moveSessionToRoom h s r
  | setLoggedIn s name => exact consistent_setLoggedIn h s name

theorem consistent_runOps {rs : RoomSystem} (h : rs.Consistent) (ops : List RoomOp) :
    (rs.runOps ops).Consistent := by
  induction ops generalizing rs with
  | nil => exact h
  | cons op ops ih => exact ih (consistent_applyOp h op)

/-- Whatever calls are made on a fresh room system, in whatever order, a
    session is in a room's member set exactly when the room exists and the
    session is live and names it. So a session is in at most one member set,
    every member is live, a live session names no room or an existing one,
    keys are the stored ids, and the rooms and their names never change. -/
theorem runOps_membership (ops : List RoomOp) :
    let rs := init.runOps ops
    (∀ s r, rs.IsMember s r ↔ (∃ room, rs.findRoom r = some room) ∧
      ∃ session, rs.findSession s = some session ∧ session.roomId = r) ∧
    (∀ s r r', rs.IsMember s r → rs.IsMember s r' → r = r') ∧
    (∀ s r, rs.IsMember s r → ∃ session, rs.findSession s = some session) ∧
    (∀ s session, rs.findSession s = some session →
      session.roomId = noRoomId ∨ ∃ room, rs.findRoom session.roomId = some room) ∧
    (∀ s session, rs.findSession s = some session →
      session.sessionId = s ∧ session.userId = s) ∧
    (∀ r room, rs.findRoom r = some room → room.roomId = r) ∧
    (∀ r, (rs.findRoom r).map RoomState.roomName
      = (init.findRoom r).map RoomState.roomName) := by
  intro rs
  have h : rs.Consistent := consistent_runOps consistent_init ops
  refine ⟨h.member_iff, fun s r r' hr hr' => ?_, fun s r hm => ?_, h.room_exists,
    h.session_key, h.room_key, h.rooms_fixed⟩
  · -- Both rooms are the one the session names.
    rcases h.session_of_isMember hr with ⟨session, hs, hroom, _⟩
    rcases h.session_of_isMember hr' with ⟨session', hs', hroom', _⟩
    rw [hs, Option.some.injEq] at hs'
    rw [← hroom, ← hroom', hs']
  · rcases h.session_of_isMember hm with ⟨session, hs, _⟩
    exact ⟨session, hs⟩

end RoomSystem

end ProjectNight
