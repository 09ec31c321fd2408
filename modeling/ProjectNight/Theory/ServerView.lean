import ProjectNight.Theory.Transport

/-!
# One Session of Many

`Connection.lean` has a server with a single session. A real server has many,
and they share its queue, its strand and its table. This module shows that a
session cannot tell: of a server with any number of sessions, what one of them
takes part in (`Server.only`) is a server with a single session. A handler of
the real server is one of that server when it concerns the session, and
otherwise at most a push of somebody else's packet.

For that, the ids must be told apart, the table must lead to the right object,
and every posted handler must be for a session that exists. `Hosted` says so.
It holds as long as `next_id` has not wrapped around.

## Main definitions

* `ServerTask.target`: The session a posted handler is for.
* `Server.ids`: The ids of all sessions ever started.
* `Server.Hosted`: The invariant of a server with many sessions.
* `Server.only`: What one session takes part in.

## Theorems

* `Server.hosted_accept`, `Server.hosted_task`, `Server.hosted_session`: The
  handlers keep the invariant.
* `Server.only_onAccept`, `Server.only_onSession`, `Server.only_send`: What the
  steps of the server are to one session.
* `Connection.connected_hostTask`, `Connection.connected_stranger`: The
  invariant of a connection survives what the others do.
-/

namespace ProjectNight

open Wire Std

/-- The session a posted handler is for; the shutdown is for all of them. -/
def ServerTask.target : ServerTask → Option UInt32
  | .send sessionId _ | .disconnect sessionId | .erase sessionId => some sessionId
  | .shutdown => none

namespace Server

/-- The ids of all sessions ever started. -/
def ids (s : Server) : List UInt32 := s.objects.map Session.id

/-- The invariant of a server with many sessions: it is not shutting down, ids
    are distinct and have been handed out, the next one has not, the table leads
    to objects with the id it was asked for, and packets and posted handlers are
    for sessions that were started. -/
structure Hosted (s : Server) : Prop where
  running : s.queue.shuttingDown = false
  nodup : s.ids.Nodup
  allocated : ∀ id ∈ s.ids, id.toNat ≤ s.accepts
  next : s.nextId.toNat = (s.accepts + 1) % 2 ^ 32
  table : ∀ (id : UInt32) (index : Nat), s.sessions[id]? = some index → s.ids[index]? = some id
  tasks : ∀ task ∈ s.strand, ∃ id ∈ s.ids, task.target = some id
  packets : ∀ packet ∈ s.queue.pushed, packet.sessionId ∈ s.ids

theorem hosted_init : Hosted {} where
  running := rfl
  nodup := List.nodup_nil
  allocated := fun _ hid => absurd hid List.not_mem_nil
  next := rfl
  table := fun id index h => by
    rw [Std.ExtTreeMap.getElem?_empty] at h
    exact absurd h.symm (Option.some_ne_none index)
  tasks := fun _ ht => absurd ht List.not_mem_nil
  packets := fun _ hp => absurd hp List.not_mem_nil

theorem ids_eq_profile (s : Server) : s.ids = s.profile.map Prod.fst := by
  unfold ids profile
  rw [List.map_map]
  rfl

/-- The object of an id is the only one with it. -/
theorem Hosted.index_unique {s : Server} (h : Hosted s) {i j : Nat} {id : UInt32}
    (hi : s.ids[i]? = some id) (hj : s.ids[j]? = some id) : i = j := by
  rcases List.getElem?_eq_some_iff.mp hi with ⟨hilt, hieq⟩
  rcases List.getElem?_eq_some_iff.mp hj with ⟨hjlt, hjeq⟩
  exact h.nodup.getElem_inj_iff.mp (hieq.trans hjeq.symm)

theorem getElem?_ids {s : Server} {index : Nat} {session : Session}
    (h : s.objects[index]? = some session) : s.ids[index]? = some session.id := by
  unfold ids
  rw [List.getElem?_map, h, Option.map_some]

/-- The next id is new, as long as the counter has not wrapped around. -/
theorem Hosted.next_fresh {s : Server} (h : Hosted s) (hfew : s.accepts + 1 < 2 ^ 32) :
    s.nextId ∉ s.ids := by
  intro hmem
  have hle := h.allocated _ hmem
  rw [h.next, Nat.mod_eq_of_lt hfew] at hle
  omega

/-- Steps that change neither the ids nor the counters, the table only by
    erasing, and push and post nothing for strangers. -/
theorem Hosted.update {s t : Server} (h : Hosted s) (hids : t.ids = s.ids)
    (hcounters : t.nextId = s.nextId ∧ t.accepts = s.accepts)
    (hdown : t.queue.shuttingDown = s.queue.shuttingDown)
    (htable : ∀ (id : UInt32) (index : Nat), t.sessions[id]? = some index →
      s.sessions[id]? = some index)
    (htasks : ∀ task ∈ t.strand, task ∈ s.strand ∨ ∃ id ∈ s.ids, task.target = some id)
    (hpackets : ∀ packet ∈ t.queue.pushed,
      packet ∈ s.queue.pushed ∨ packet.sessionId ∈ s.ids) : Hosted t where
  running := by rw [hdown, h.running]
  nodup := by rw [hids]; exact h.nodup
  allocated := by rw [hids, hcounters.2]; exact h.allocated
  next := by rw [hcounters.1, hcounters.2]; exact h.next
  table := fun id index hindex => by
    rw [hids]
    exact h.table id index (htable id index hindex)
  tasks := fun task htask => by
    rw [hids]
    rcases htasks task htask with hold | hnew
    · exact h.tasks task hold
    · exact hnew
  packets := fun packet hpacket => by
    rw [hids]
    rcases hpackets packet hpacket with hold | hnew
    · exact h.packets packet hold
    · exact hnew

/-- A push records its packet or nothing. -/
theorem mem_pushed {q : PacketQueue} {packet p : Packet}
    (h : p ∈ (q.pushPacket packet).2.pushed) : p ∈ q.pushed ∨ p = packet := by
  rcases q.pushed_pushPacket packet with ⟨_, heq⟩ | ⟨_, heq⟩
  · rw [heq, List.mem_append, List.mem_singleton] at h
    exact h
  · rw [heq] at h
    exact Or.inl h

theorem hosted_accept {s : Server} (h : Hosted s) (hfew : s.onAccept.accepts < 2 ^ 32) :
    Hosted s.onAccept := by
  have hrun := h.running
  unfold onAccept at hfew ⊢
  rw [if_neg (by rw [hrun]; exact Bool.false_ne_true)] at hfew ⊢
  have hnext : (s.nextId + 1).toNat = (s.accepts + 1 + 1) % 2 ^ 32 := by
    rw [UInt32.toNat_add, h.next, UInt32.toNat_one]
    omega
  by_cases hroom : s.queue.packets.length < packetQueueCapacity
  · simp only [PacketQueue.pushPacket_of_room hrun hroom, if_true] at hfew ⊢
    -- The session is entered under an id that no object has had, for fewer than 2^32
    -- connections have been accepted.
    have hfresh := h.next_fresh hfew
    have hids : (s.objects ++ [Session.start { id := s.nextId }]).map Session.id
        = s.ids ++ [s.nextId] := by
      rw [List.map_append]
      rfl
    refine ⟨hrun, ?_, fun id hid => ?_, hnext, fun id index hindex => ?_, fun task htask => ?_,
      fun packet hpacket => ?_⟩
    · unfold ids
      rw [hids]
      exact List.Nodup.append h.nodup (List.nodup_singleton _)
        (List.disjoint_singleton.mpr hfresh)
    · unfold ids at hid
      rw [hids, List.mem_append, List.mem_singleton] at hid
      rcases hid with hold | rfl
      · exact Nat.le_succ_of_le (h.allocated id hold)
      · rw [h.next, Nat.mod_eq_of_lt hfew]
    · simp only [TreeMap.getElem?_insertIfNew_ite] at hindex
      unfold ids
      simp only
      rw [hids]
      split_ifs at hindex with heq
      · -- The id is new, so the entry is the one just made.
        have hnone : s.sessions[id]? = none := by
          refine Option.eq_none_iff_forall_ne_some.mpr (fun j hj => ?_)
          exact hfresh (heq ▸ List.mem_of_getElem? (h.table id j hj))
        rw [hnone, Option.getD_none, Option.some.injEq] at hindex
        rw [← hindex, ← heq, show s.objects.length = s.ids.length from
          (List.length_map _).symm, List.getElem?_concat_length]
      · have hold := h.table id index hindex
        rw [List.getElem?_append_left (List.getElem?_eq_some_iff.mp hold).1]
        exact hold
    · rcases h.tasks task htask with ⟨id, hid, htarget⟩
      refine ⟨id, ?_, htarget⟩
      unfold ids
      rw [hids]
      exact List.mem_append_left _ hid
    · unfold ids
      rw [hids]
      rcases List.mem_append.mp hpacket with hold | hnew
      · exact List.mem_append_left _ (h.packets packet hold)
      · rw [List.mem_singleton.mp hnew]
        exact List.mem_append_right _ (List.mem_singleton.mpr rfl)
  · simp only [PacketQueue.pushPacket_of_full hrun hroom, Bool.false_eq_true, if_false]
    -- The queue is full: the id is used up, and no object is made.
    exact ⟨hrun, h.nodup, fun id hid => Nat.le_succ_of_le (h.allocated id hid), hnext, h.table,
      h.tasks, h.packets⟩

/-- The table after a handler of `server_strand`, and the strand. -/
theorem onTask_frame (s : Server) (task : ServerTask) (htask : task.target ≠ none) :
    (s.onTask task).strand = s.strand ∧
      ∀ (id : UInt32) (index : Nat), (s.onTask task).sessions[id]? = some index →
        s.sessions[id]? = some index := by
  have hwith : ∀ sessionId f, (s.withSession sessionId f).strand = s.strand ∧
      (s.withSession sessionId f).sessions = s.sessions := by
    intro sessionId f
    unfold withSession
    cases s.sessions[sessionId]? with
    | none => exact ⟨rfl, rfl⟩
    | some index => exact ⟨rfl, rfl⟩
  cases task with
  | send sessionId frame =>
      unfold onTask
      split_ifs
      · exact ⟨rfl, fun _ _ h => h⟩
      · rw [(hwith sessionId _).1, (hwith sessionId _).2]
        exact ⟨rfl, fun _ _ h => h⟩
  | disconnect sessionId =>
      unfold onTask
      split_ifs
      · exact ⟨rfl, fun _ _ h => h⟩
      · rw [(hwith sessionId _).1, (hwith sessionId _).2]
        exact ⟨rfl, fun _ _ h => h⟩
  | erase sessionId =>
      refine ⟨rfl, fun id index h => ?_⟩
      unfold onTask at h
      rw [TreeMap.getElem?_erase_ite] at h
      split_ifs at h
      exact h
  | shutdown => exact absurd rfl htask

theorem hosted_task {s t : Server} (h : Hosted s) (hstep : s.ioStep .task = some t) :
    Hosted t := by
  unfold ioStep at hstep
  cases hstrand : s.strand with
  | nil => simp only [hstrand, reduceCtorEq] at hstep
  | cons task strand =>
      simp only [hstrand, Option.some.injEq] at hstep
      have hmem : task ∈ s.strand := by
        rw [hstrand]
        exact List.mem_cons_self
      rcases h.tasks task hmem with ⟨id, _, htarget⟩
      have hframe := onTask_frame { s with strand } task
        (by rw [htarget]; exact Option.some_ne_none id)
      have hprofile := profile_onTask { s with strand } task
      rw [hstep] at hframe hprofile
      refine h.update ?_ hprofile.2.2 (by rw [hprofile.2.1]) hframe.2 (fun task' htask' => ?_)
        (fun packet hpacket => ?_)
      · rw [ids_eq_profile, hprofile.1, ids_eq_profile]
        rfl
      · left
        rw [hframe.1] at htask'
        rw [hstrand]
        exact List.mem_cons_of_mem _ htask'
      · left
        rw [hprofile.2.1] at hpacket
        exact hpacket

/-- Replacing an object by one with the same id changes no id. -/
theorem ids_set {s : Server} {index : Nat} {session session' : Session}
    (hobject : s.objects[index]? = some session) (hid : session'.id = session.id) :
    (s.objects.set index session').map Session.id = s.ids := by
  rcases List.getElem?_eq_some_iff.mp (getElem?_ids hobject) with ⟨hlt, heq⟩
  rw [List.map_set, hid, ← heq]
  exact List.set_getElem_self hlt

theorem hosted_session {s : Server} (h : Hosted s) {index : Nat} {session session' : Session}
    {action : SessionAction} {effects : List SessionEffect}
    (hobject : s.objects[index]? = some session)
    (hstep : session.step action = some (session', effects)) :
    Hosted (s.onSession index session (session', effects)) := by
  rcases Session.step_outcome hstep with ⟨hid, hout⟩
  have hids := ids_set hobject hid
  have hmem : session.id ∈ s.ids := List.mem_of_getElem? (getElem?_ids hobject)
  unfold onSession
  cases hout with
  | silent =>
      exact h.update hids ⟨rfl, rfl⟩ rfl (fun _ _ h => h) (fun _ h => Or.inl h)
        (fun _ h => Or.inl h)
  | receives size data =>
      refine h.update hids ⟨rfl, rfl⟩ (PacketQueue.shuttingDown_pushPacket _ _)
        (fun _ _ h => h) (fun _ h => Or.inl h) (fun packet hpacket => ?_)
      rcases mem_pushed hpacket with hold | rfl
      · exact Or.inl hold
      · exact Or.inr hmem
  | closes =>
      refine h.update hids ⟨rfl, rfl⟩ (PacketQueue.shuttingDown_pushPacket _ _)
        (fun _ _ h => h) (fun task htask => ?_) (fun packet hpacket => ?_)
      · rcases List.mem_append.mp htask with hold | hnew
        · exact Or.inl hold
        · rw [List.mem_singleton.mp hnew]
          exact Or.inr ⟨session.id, hmem, rfl⟩
      · rcases mem_pushed hpacket with hold | rfl
        · exact Or.inl hold
        · exact Or.inr hmem

/-! ### What one session takes part in -/

/-- The server as far as the session `id` at `index` is concerned: its object, its
    entry in the table, the handlers posted for it, and the queue. -/
def only (s : Server) (index : Nat) (id : UInt32) : Server where
  queue := s.queue
  nextId := id + 1
  objects := s.objects[index]?.toList
  sessions :=
    if s.sessions[id]? = some index then (∅ : ExtTreeMap UInt32 Nat).insertIfNew id 0 else ∅
  strand := s.strand.filter (fun task => task.target = some id)
  accepts := 1

variable {s : Server} {index : Nat} {id : UInt32} {session : Session}

theorem only_objects (hobject : s.objects[index]? = some session) :
    (s.only index id).objects = [session] := by
  unfold only
  rw [hobject, Option.toList_some]

/-- Replacing another object. -/
theorem only_set_other {j : Nat} (hj : j ≠ index) (other : Session) :
    ({ s with objects := s.objects.set j other } : Server).only index id = s.only index id := by
  unfold only
  simp only [List.getElem?_set_ne hj]

/-- Replacing the object of the session. -/
theorem only_set_self (hobject : s.objects[index]? = some session) (session' : Session) :
    ({ s with objects := s.objects.set index session' } : Server).only index id
      = { s.only index id with objects := (s.only index id).objects.set 0 session' } := by
  have hlt := (List.getElem?_eq_some_iff.mp hobject).1
  rw [only_objects hobject]
  unfold only
  simp only [List.getElem?_set_self hlt, Option.toList_some, List.set_cons_zero]

/-- A call on the session through the table. -/
theorem only_withSession_self (h : Hosted s) (hobject : s.objects[index]? = some session)
    (hid : session.id = id) (f : Session → Session) :
    (s.withSession id f).only index id = (s.only index id).withSession id f := by
  cases hentry : s.sessions[id]? with
  | none =>
      have hnone : (s.only index id).sessions[id]? = none := by
        unfold only
        simp only [hentry, reduceCtorEq, if_false, ExtTreeMap.getElem?_empty]
      simp only [withSession, hentry, hnone]
  | some j =>
      have hj : j = index :=
        h.index_unique (h.table id j hentry) (hid ▸ getElem?_ids hobject)
      rw [hj] at hentry
      have hzero : (s.only index id).sessions[id]? = some 0 := by
        unfold only
        simp only [hentry, if_true, TreeMap.getElem?_insertIfNew_ite, ExtTreeMap.getElem?_empty,
          Option.getD_none]
      simp only [withSession, hentry, hzero]
      rw [only_objects hobject]
      unfold only
      simp only [List.getElem?_modify, hobject, if_true, Option.map_eq_map, Option.map_some,
        Option.toList_some, List.modify_zero_cons]

/-- A call on another session. -/
theorem only_withSession_other (h : Hosted s) (hobject : s.objects[index]? = some session)
    (hid : session.id = id) {other : UInt32} (hother : other ≠ id) (f : Session → Session) :
    (s.withSession other f).only index id = s.only index id := by
  cases hentry : s.sessions[other]? with
  | none => simp only [withSession, hentry]
  | some j =>
      have hj : j ≠ index := by
        intro heq
        have hids := h.table other j hentry
        rw [heq, getElem?_ids hobject, Option.some.injEq, hid] at hids
        exact hother hids.symm
      simp only [withSession, hentry]
      unfold only
      simp only [List.getElem?_modify, if_neg hj, Option.map_eq_map, Option.map_id']

/-- While the server runs, two of the posted handlers are calls through the
    table. -/
theorem onTask_send (h : s.queue.shuttingDown = false) (sessionId : UInt32) (frame : Bytes) :
    s.onTask (.send sessionId frame)
      = s.withSession sessionId (fun session => session.enqueueRawFrame frame) := by
  simp only [onTask, h, Bool.false_eq_true, if_false]

theorem onTask_disconnect (h : s.queue.shuttingDown = false) (sessionId : UInt32) :
    s.onTask (.disconnect sessionId) = s.withSession sessionId Session.close := by
  simp only [onTask, h, Bool.false_eq_true, if_false]

/-- A posted handler for the session. -/
theorem only_onTask_self (h : Hosted s) (hobject : s.objects[index]? = some session)
    (hid : session.id = id) {task : ServerTask} (htask : task.target = some id) :
    (s.onTask task).only index id = (s.only index id).onTask task := by
  cases task with
  | send sessionId frame =>
      rw [Option.some.inj htask, onTask_send h.running,
        onTask_send (s := s.only index id) h.running]
      exact only_withSession_self h hobject hid _
  | disconnect sessionId =>
      rw [Option.some.inj htask, onTask_disconnect h.running,
        onTask_disconnect (s := s.only index id) h.running]
      exact only_withSession_self h hobject hid _
  | erase sessionId =>
      rw [Option.some.inj htask]
      unfold onTask only
      have hgone : (s.sessions.erase id)[id]? = none := by
        rw [TreeMap.getElem?_erase_ite, if_pos rfl]
      simp only [hgone, reduceCtorEq, if_false, Server.mk.injEq, true_and, and_true]
      refine ExtTreeMap.ext_getElem? (fun other => ?_)
      rw [TreeMap.getElem?_erase_ite, ExtTreeMap.getElem?_empty]
      split_ifs with heq hentry
      · rfl
      · rw [TreeMap.getElem?_insertIfNew_ite, if_neg heq, ExtTreeMap.getElem?_empty]
      · rw [ExtTreeMap.getElem?_empty]
  | shutdown => exact absurd htask.symm (Option.some_ne_none id)

/-- A posted handler for another session. -/
theorem only_onTask_other (h : Hosted s) (hobject : s.objects[index]? = some session)
    (hid : session.id = id) {task : ServerTask} {other : UInt32} (htask : task.target = some other)
    (hother : other ≠ id) : (s.onTask task).only index id = s.only index id := by
  cases task with
  | send sessionId frame =>
      rw [Option.some.inj htask, onTask_send h.running]
      exact only_withSession_other h hobject hid hother _
  | disconnect sessionId =>
      rw [Option.some.inj htask, onTask_disconnect h.running]
      exact only_withSession_other h hobject hid hother _
  | erase sessionId =>
      rw [Option.some.inj htask]
      unfold onTask only
      simp only [TreeMap.getElem?_erase_ite, if_neg hother]
  | shutdown => exact absurd htask.symm (Option.some_ne_none other)

/-- A handler posted for the session. -/
theorem only_post_self (s : Server) (task : ServerTask) (htask : task.target = some id) :
    ({ s with strand := s.strand ++ [task] } : Server).only index id
      = { s.only index id with strand := (s.only index id).strand ++ [task] } := by
  unfold only
  simp only [List.filter_append, List.filter_cons, htask, decide_true, if_true, List.filter_nil]

/-- A handler posted for another. -/
theorem only_post_other (s : Server) (task : ServerTask) (htask : task.target ≠ some id) :
    ({ s with strand := s.strand ++ [task] } : Server).only index id = s.only index id := by
  unfold only
  simp only [List.filter_append, List.filter_cons, htask, decide_false, Bool.false_eq_true,
    if_false, List.filter_nil, List.append_nil]

/-- A callback of the session. -/
theorem only_applyEffect_self (s : Server) (effect : SessionEffect) :
    (applyEffect id s effect).only index id = applyEffect id (s.only index id) effect := by
  cases effect with
  | receive data => rfl
  | close => exact only_post_self { s with
      queue := (s.queue.pushPacket ⟨.disconnect, id, []⟩).2 } (.erase id) rfl

theorem only_onSession_self (hobject : s.objects[index]? = some session)
    (hid : session.id = id) (result : Session × List SessionEffect) :
    (s.onSession index session result).only index id
      = (s.only index id).onSession 0 session result := by
  unfold onSession
  rw [hid, ← only_set_self hobject]
  generalize ({ s with objects := s.objects.set index result.1 } : Server) = t
  induction result.2 generalizing t with
  | nil => rfl
  | cons effect effects ih =>
      rw [List.foldl_cons, List.foldl_cons, ih, only_applyEffect_self]

/-- A handler of another session is at most a push of one of its packets. -/
theorem only_onSession_other {j : Nat} (hj : j ≠ index) {other other' : Session}
    (hother : other.id ≠ id) {action : SessionAction} {effects : List SessionEffect}
    (hstep : other.step action = some (other', effects)) :
    (s.onSession j other (other', effects)).only index id = s.only index id ∨
      ∃ packet, packet.sessionId ≠ id ∧
        (s.onSession j other (other', effects)).only index id
          = { s.only index id with queue := (s.queue.pushPacket packet).2 } := by
  have hset : ({ s with objects := s.objects.set j other' } : Server).only index id
      = s.only index id := only_set_other hj other'
  unfold onSession
  cases (Session.step_outcome hstep).2 with
  | silent => exact Or.inl hset
  | receives size data =>
      refine Or.inr ⟨⟨.data, other.id, data⟩, hother, ?_⟩
      rw [← hset]
      rfl
  | closes =>
      refine Or.inr ⟨⟨.disconnect, other.id, []⟩, hother, ?_⟩
      rw [← hset]
      exact only_post_other { s with
        objects := s.objects.set j other'
        queue := (s.queue.pushPacket ⟨.disconnect, other.id, []⟩).2 } (.erase other.id)
        (fun heq => hother (Option.some.inj heq))

/-- So is the accept of another session. -/
theorem only_onAccept_other (h : Hosted s) (hobject : s.objects[index]? = some session)
    (hid : session.id = id) (hfew : s.onAccept.accepts < 2 ^ 32) :
    s.onAccept.only index id
        = { s.only index id with queue := (s.queue.pushPacket ⟨.connect, s.nextId, []⟩).2 } ∧
      s.nextId ≠ id := by
  have hrun := h.running
  have hlt := (List.getElem?_eq_some_iff.mp hobject).1
  have haccepts : s.onAccept.accepts = s.accepts + 1 := by
    unfold onAccept
    rw [if_neg (by rw [hrun]; exact Bool.false_ne_true)]
    simp only
    split_ifs <;> rfl
  rw [haccepts] at hfew
  have hne : s.nextId ≠ id := by
    intro heq
    refine h.next_fresh hfew (heq ▸ ?_)
    exact hid ▸ List.mem_of_getElem? (getElem?_ids hobject)
  refine ⟨?_, hne⟩
  unfold onAccept
  rw [if_neg (by rw [hrun]; exact Bool.false_ne_true)]
  by_cases hroom : s.queue.packets.length < packetQueueCapacity
  · simp only [PacketQueue.pushPacket_of_room hrun hroom, if_true]
    unfold only
    simp only [TreeMap.getElem?_insertIfNew_ite, if_neg hne, List.getElem?_append_left hlt]
  · simp only [PacketQueue.pushPacket_of_full hrun hroom, Bool.false_eq_true, if_false]
    rfl

/-- A message sent to the session, and one sent to another. -/
theorem only_send (h : Hosted s) (sessionId : UInt32) (data : Bytes) :
    (s.send sessionId data).only index id
      = if sessionId = id then (s.only index id).send id data else s.only index id := by
  rw [send_strand h.running]
  by_cases hsend : Sendable data
  · rw [if_pos hsend]
    by_cases heq : sessionId = id
    · rw [if_pos heq, send_strand (s := s.only index id) h.running, if_pos hsend, heq]
      exact only_post_self s _ rfl
    · rw [if_neg heq]
      exact only_post_other s _ (fun htarget => heq (Option.some.inj htarget))
  · rw [if_neg hsend, send_strand (s := s.only index id) h.running, if_neg hsend, List.append_nil,
      List.append_nil, ite_self]

theorem only_disconnect (h : Hosted s) (sessionId : UInt32) :
    (s.disconnect sessionId).only index id
      = if sessionId = id then (s.only index id).disconnect id else s.only index id := by
  have hdown : ¬ s.queue.shuttingDown = true := by
    rw [h.running]
    exact Bool.false_ne_true
  have hdown' : ¬ (s.only index id).queue.shuttingDown = true := hdown
  unfold disconnect
  rw [if_neg hdown, if_neg hdown']
  by_cases heq : sessionId = id
  · rw [if_pos heq, heq]
    exact only_post_self s _ rfl
  · rw [if_neg heq]
    exact only_post_other s _ (fun htarget => heq (Option.some.inj htarget))

/-- The accept handler, when it makes the session: nothing was posted for its id
    before. -/
theorem only_onAccept_self (h : Hosted s) (hfew : s.onAccept.accepts < 2 ^ 32)
    (hgrow : s.objects.length < s.onAccept.objects.length) :
    s.onAccept.only s.objects.length s.nextId
        = ({ queue := s.queue, nextId := s.nextId } : Server).onAccept ∧
      s.nextId ∉ s.ids ∧
      s.onAccept.objects[s.objects.length]? = some (Session.start { id := s.nextId }) := by
  have hrun := h.running
  unfold onAccept at hfew hgrow ⊢
  rw [if_neg (by rw [hrun]; exact Bool.false_ne_true)] at hfew hgrow ⊢
  by_cases hroom : s.queue.packets.length < packetQueueCapacity
  · simp only [PacketQueue.pushPacket_of_room hrun hroom, if_true] at hfew ⊢
    have hfresh := h.next_fresh hfew
    have hnone : s.sessions[s.nextId]? = none := by
      refine Option.eq_none_iff_forall_ne_some.mpr (fun j hj => ?_)
      exact hfresh (List.mem_of_getElem? (h.table s.nextId j hj))
    have hstrand : s.strand.filter (fun task => task.target = some s.nextId) = [] := by
      refine List.filter_eq_nil_iff.mpr (fun task htask htarget => ?_)
      rcases h.tasks task htask with ⟨id, hid, heq⟩
      rw [heq, decide_eq_true_eq, Option.some.injEq] at htarget
      exact hfresh (htarget ▸ hid)
    refine ⟨?_, hfresh, List.getElem?_concat_length⟩
    unfold only
    simp only [hrun, Bool.false_eq_true, if_false, hstrand, TreeMap.getElem?_insertIfNew_ite,
      hnone, Option.getD_none, if_true, List.getElem?_concat_length, Option.toList_some,
      List.nil_append, List.length_nil]
  · simp only [PacketQueue.pushPacket_of_full hrun hroom, Bool.false_eq_true, if_false] at hgrow
    exact absurd hgrow (lt_irrefl _)

end Server

/-! ### The connection of a session -/

namespace Connection

variable {s t : Server} {index : Nat} {id : UInt32} {session : Session} {c : Connection}

/-- The next handler of `server_strand`, whoever it is for. -/
theorem connected_hostTask (h : s.Hosted) (hobject : s.objects[index]? = some session)
    (hid : session.id = id) (hc : Connected id c) (hserver : c.server = s.only index id)
    (hstep : s.ioStep .task = some t) : Connected id { c with server := t.only index id } := by
  unfold Server.ioStep at hstep
  cases hstrand : s.strand with
  | nil => simp only [hstrand, reduceCtorEq] at hstep
  | cons task strand =>
      simp only [hstrand, Option.some.injEq] at hstep
      have hmem : ∀ t ∈ strand, t ∈ s.strand := by
        intro t ht
        rw [hstrand]
        exact List.mem_cons_of_mem _ ht
      have hrest : Server.Hosted { s with strand } :=
        h.update rfl ⟨rfl, rfl⟩ rfl (fun _ _ h => h) (fun t ht => Or.inl (hmem t ht))
          (fun _ h => Or.inl h)
      rcases h.tasks task (by rw [hstrand]; exact List.mem_cons_self) with ⟨other, _, htarget⟩
      by_cases hother : other = id
      · -- The handler is the next one of the connection, too.
        rw [hother] at htarget
        have hfront : c.server.strand
            = task :: (Server.only { s with strand } index id).strand := by
          rw [hserver]
          unfold Server.only
          simp only [hstrand, List.filter_cons, htarget, decide_true, if_true]
        refine connected_serverTask hc ?_
        rw [Server.ioStep, hfront, ← hstep,
          Server.only_onTask_self hrest hobject hid htarget, hserver]
        rfl
      · have hsame : t.only index id = c.server := by
          rw [← hstep, Server.only_onTask_other hrest hobject hid htarget hother, hserver]
          unfold Server.only
          simp only [hstrand, List.filter_cons, htarget, Option.some.injEq, hother, decide_false,
            Bool.false_eq_true, if_false]
        rw [hsame]
        exact hc

/-- A handler of another session, or the accept of one. -/
theorem connected_stranger (hc : Connected id c) (hserver : c.server = s.only index id)
    (hstep : t.only index id = s.only index id ∨ ∃ packet, packet.sessionId ≠ id ∧
      t.only index id = { s.only index id with queue := (s.queue.pushPacket packet).2 }) :
    Connected id { c with server := t.only index id } := by
  rcases hstep with hsame | ⟨packet, hother, hpush⟩
  · rw [hsame, ← hserver]
    exact hc
  · have hnew := connected_otherPush hc hother
    rw [hserver] at hnew
    rw [hpush]
    exact hnew

/-- Once there is a session, it does not matter whether the `Connect` has been
    polled. -/
theorem Connected.polled (hc : Connected id c) {s : Session} (hs : c.session = some s) :
    Connected id { c with connectPolled := true } :=
  ⟨hc.toServer, hc.toClient, hc.clientSends, Or.inr ⟨s, hc.established hs⟩, hc.serverLog,
    hc.clientLog⟩

/-- A connection that is waiting for the accept handler gets the queue of the
    server, in which nothing is for its id. -/
theorem Connected.waiting (hc : Connected id { c with server := { nextId := id } })
    (hpolled : c.connectPolled = false) (hsent : c.sentToClient = []) (queue : PacketQueue)
    (hrun : queue.shuttingDown = false) (hpackets : ∀ packet ∈ queue.packets,
      packet.sessionId ≠ id) :
    Connected id { c with server := { queue, nextId := id } } := by
  refine hc.withServer rfl rfl (Or.inl ⟨rfl, rfl, fun _ => rfl, fun packet hp hconnect => ?_,
    fun _ ht => absurd ht List.not_mem_nil, hpolled, hsent⟩) ?_
  · exact hpackets packet hp hconnect.2
  · have hlog := hc.serverLog
    have hnone : queuedPayloads id queue = [] := by
      unfold queuedPayloads
      rw [List.map_eq_nil_iff, List.filter_eq_nil_iff]
      intro packet hp hpayload
      exact hpackets packet hp (of_decide_eq_true hpayload).2
    simp only
    rw [hnone, hrun]
    exact hlog

/-- What both directions of a connection with a session deliver. -/
theorem Connected.delivers (hc : Connected id c) {s : Session} (hs : c.session = some s) :
    Delivers c.sentToServer c.serverLog c.serverPolled (queuedPayloads id c.server.queue) ∧
    Delivers c.sentToClient c.clientLog c.clientPolled c.client.receiveQueue := by
  have hlog := hc.toClient.log_initial
  rw [toClientChannel_eq hs] at hlog
  exact ⟨hc.serverLog.delivers (hc.toServer.log_initial.trans hc.clientSends.accepted),
    hc.clientLog.delivers (hlog.trans (hc.established hs).accepted)⟩

end Connection

end ProjectNight
