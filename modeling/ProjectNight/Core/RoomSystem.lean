import ProjectNight.Core.Protocol
import ProjectNight.Lib.UnorderedSet

/-!
# Room System

`ServerTypes.h` and `RoomSystem.cpp`: the sessions, the rooms, and the five
operations that change them.

Membership is stored twice, once as the session's `roomId` and once in the
room's member set, and each operation updates one side or both behind its own
early returns. The definitions below keep those returns as they stand; that
the two copies agree is proved in `Theory.RoomInvariant`.

The two `std::unordered_map`s are extensional tree maps, so two states are
equal exactly when every lookup is. A write through a pointer that
`FindSession` or `FindRoom` returned is a `modify` at that key, which does
nothing when the key is absent, as the null check in front of the write does.

A member set is an `unordered_set`, which promises no iteration order. It is
kept with its history, and `Iteration` is what a loop over it may do: some list
of the elements, each once, that is any function of the set and of what was
done to it so far. Everything that loops over members takes one as a
parameter, so nothing proved here depends on a particular order.

## Main definitions

* `SessionState`, `RoomState`: What the server keeps of a session and a room.
* `RoomSystem`: The two maps.
* `Iteration`: An unspecified order in which a set is visited, given its history.
* `addSession`, `removeSession`, `removeSessionFromCurrentRoom`,
  `moveSessionToRoom`, `setLoggedIn`: The operations.
* `isDisplayNameTaken`, `getRoomMembers`: The scans.
* `RoomOp`, `runOps`: A call of one of the operations, and a run of calls.
-/

namespace ProjectNight

open Std

/-- `no_room_id`. -/
def noRoomId : UInt32 := 0

structure SessionState where
  sessionId : UInt32 := 0
  userId : UInt32 := 0
  displayName : Bytes := []
  roomId : UInt32 := noRoomId
  loggedIn : Bool := false
  deriving DecidableEq, Repr

structure RoomState where
  roomId : UInt32 := 0
  roomName : Bytes := []
  members : UnorderedSet UInt32 := ∅

structure RoomSystem where
  sessions : ExtTreeMap UInt32 SessionState := ∅
  rooms : ExtTreeMap UInt32 RoomState := ∅

/-- The order in which a loop visits an `unordered_set`: every element once,
    in no order the program may rely on. Sets with the same elements and
    different histories may be visited differently. -/
structure Iteration where
  order : UnorderedSet UInt32 → List UInt32
  nodup_order : ∀ s, (order s).Nodup
  mem_order : ∀ s a, a ∈ order s ↔ a ∈ s

/-- Visiting a set in ascending order is one admissible iteration. -/
def Iteration.ascending : Iteration where
  order s := s.elems.toList
  nodup_order s := by
    refine (ExtTreeSet.distinct_toList (t := s.elems)).imp (fun h heq => h ?_)
    rw [heq]
    exact ReflCmp.compare_self
  mem_order _ _ := ExtTreeSet.mem_toList

/-- Whatever the order, a loop makes as many rounds as there are elements. -/
theorem Iteration.length_order (it : Iteration) (s : UnorderedSet UInt32) :
    (it.order s).length = s.size := by
  have hsame : (it.order s).Perm (Iteration.ascending.order s) := by
    refine (List.perm_ext_iff_of_nodup (it.nodup_order s)
      (Iteration.ascending.nodup_order s)).mpr (fun a => ?_)
    rw [it.mem_order, Iteration.ascending.mem_order]
  rw [hsame.length_eq]
  exact ExtTreeSet.length_toList

namespace RoomSystem

/-- The constructor: three rooms, nobody in them. -/
def init : RoomSystem where
  rooms := (((∅ : ExtTreeMap UInt32 RoomState)
    |>.insert 1001 { roomId := 1001, roomName := utf8 "Lobby" })
    |>.insert 1002 { roomId := 1002, roomName := utf8 "Dev" })
    |>.insert 1003 { roomId := 1003, roomName := utf8 "Chat" }

def findSession (rs : RoomSystem) (sessionId : UInt32) : Option SessionState :=
  rs.sessions[sessionId]?

def findRoom (rs : RoomSystem) (roomId : UInt32) : Option RoomState :=
  rs.rooms[roomId]?

/-- `try_emplace`: a session that is already there is left alone. -/
def addSession (rs : RoomSystem) (sessionId : UInt32) : RoomSystem :=
  { rs with
    sessions := rs.sessions.insertIfNew sessionId
      { sessionId := sessionId, userId := sessionId } }

def removeSessionFromCurrentRoom (rs : RoomSystem) (sessionId : UInt32) : RoomSystem :=
  match rs.findSession sessionId with
  | none => rs
  | some session =>
    if session.roomId = noRoomId then rs
    else
      { rooms := rs.rooms.modify session.roomId
          (fun room => { room with members := room.members.erase sessionId })
        sessions := rs.sessions.modify sessionId
          (fun session => { session with roomId := noRoomId }) }

def removeSession (rs : RoomSystem) (sessionId : UInt32) : RoomSystem :=
  let rs := rs.removeSessionFromCurrentRoom sessionId
  { rs with sessions := rs.sessions.erase sessionId }

def moveSessionToRoom (rs : RoomSystem) (sessionId roomId : UInt32) : RoomSystem :=
  match rs.findSession sessionId, rs.findRoom roomId with
  | some session, some _ =>
    let rs := if session.roomId ≠ noRoomId ∧ session.roomId ≠ roomId then
        rs.removeSessionFromCurrentRoom sessionId
      else rs
    { rooms := rs.rooms.modify roomId
        (fun room => { room with members := room.members.insert sessionId })
      sessions := rs.sessions.modify sessionId
        (fun session => { session with roomId := roomId }) }
  | _, _ => rs

def setLoggedIn (rs : RoomSystem) (sessionId : UInt32) (displayName : Bytes) : RoomSystem :=
  { rs with
    sessions := rs.sessions.modify sessionId
      (fun session => { session with loggedIn := true, displayName := displayName }) }

/-- Another logged-in session already holds the name. -/
def isDisplayNameTaken (rs : RoomSystem) (displayName : Bytes) (exceptSessionId : UInt32) :
    Bool :=
  rs.sessions.toList.any fun (sessionId, session) =>
    sessionId ≠ exceptSessionId && (session.loggedIn && session.displayName == displayName)

def getRoomMembers (rs : RoomSystem) (it : Iteration) (roomId : UInt32)
    (excludeSessionId : Option UInt32 := none) : List SessionState :=
  match rs.findRoom roomId with
  | none => []
  | some room => (it.order room.members).filterMap fun memberSessionId =>
      if excludeSessionId = some memberSessionId then none
      else rs.findSession memberSessionId

end RoomSystem

/-- A call of one of the operations that change a `RoomSystem`. -/
inductive RoomOp where
  | addSession (sessionId : UInt32)
  | removeSession (sessionId : UInt32)
  | removeSessionFromCurrentRoom (sessionId : UInt32)
  | moveSessionToRoom (sessionId roomId : UInt32)
  | setLoggedIn (sessionId : UInt32) (displayName : Bytes)
  deriving DecidableEq, Repr

def RoomSystem.applyOp (rs : RoomSystem) : RoomOp → RoomSystem
  | .addSession sessionId => rs.addSession sessionId
  | .removeSession sessionId => rs.removeSession sessionId
  | .removeSessionFromCurrentRoom sessionId => rs.removeSessionFromCurrentRoom sessionId
  | .moveSessionToRoom sessionId roomId => rs.moveSessionToRoom sessionId roomId
  | .setLoggedIn sessionId displayName => rs.setLoggedIn sessionId displayName

def RoomSystem.runOps (rs : RoomSystem) (ops : List RoomOp) : RoomSystem :=
  ops.foldl RoomSystem.applyOp rs

end ProjectNight
