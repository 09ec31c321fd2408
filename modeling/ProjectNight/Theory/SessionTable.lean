import Mathlib.Tactic
import ProjectNight.Core.Acceptor
import ProjectNight.Lib.TreeMap
import ProjectNight.Theory.PacketWords

/-!
# The Session Table

`Server::Impl::sessions` is written by two handlers of `server_strand`: the
accept handler enters a session, and a handler posted by the session's close
callback erases it. In between lie another strand and the game thread, so the
table is behind the sessions most of the time. What it promises is that it is
never ahead of them: a session leaves only by its own erase.

For the table a step of the server is one of five things (`TableStep`): nothing
it has to do with, one of the two steps of the accept handler, the close of a
session, or an erase. The invariant (`TableFit`) ties the table to the sessions
and to the erases that are still on their way.

Ids are handed out by a counter of 32 bits. With fewer than 2^32 accepts it
does not come round.

## Main definitions

* `Server.erasing`: The ids whose erase has been posted and has not run.
* `Acceptor.Announced`: The game thread has polled the `Connect` of an id, or
  can poll it.
* `Acceptor.TableStep`: What a step does to the table.
* `Acceptor.TableFit`: The invariant.
* `Acceptor.TableOk`: What the table promises.

## Theorems

* `Acceptor.step_table`: Every step is one of the five.
* `Acceptor.tableFit_step`: The invariant.
* `Acceptor.session_table`: The promise, in every run.
-/

namespace ProjectNight

open TreeMap

namespace Server

/-- The ids whose erase has been posted and has not run. -/
def erasing (s : Server) : List UInt32 :=
  s.strand.filterMap fun
    | .erase id => some id
    | _ => none

/-- A call on a session leaves the table and the strand alone. -/
theorem table_withSession (s : Server) (id : UInt32) (f : Session → Session) :
    (s.withSession id f).sessions = s.sessions ∧ (s.withSession id f).strand = s.strand := by
  unfold withSession
  cases s.sessions[id]? <;> exact ⟨rfl, rfl⟩

theorem table_shutdown (s : Server) :
    (s.onTask .shutdown).sessions = s.sessions ∧ (s.onTask .shutdown).strand = s.strand := by
  unfold onTask
  generalize s.sessions.keys = ids
  induction ids generalizing s with
  | nil => exact ⟨rfl, rfl⟩
  | cons id ids ih =>
      have hhead := table_withSession s id Session.close
      have htail := ih (s.withSession id Session.close)
      rw [List.foldl_cons, htail.1, htail.2]
      exact hhead

/-- A handler of the strand posts nothing there, and only an erase changes the
    table. -/
theorem table_onTask (s : Server) (task : ServerTask) :
    (s.onTask task).strand = s.strand ∧
      ((∀ id, task ≠ .erase id) → (s.onTask task).sessions = s.sessions) := by
  cases task with
  | send id frame =>
      unfold onTask
      split_ifs
      · exact ⟨rfl, fun _ => rfl⟩
      · have htable := table_withSession s id (fun session => session.enqueueRawFrame frame)
        exact ⟨htable.2, fun _ => htable.1⟩
  | disconnect id =>
      unfold onTask
      split_ifs
      · exact ⟨rfl, fun _ => rfl⟩
      · have htable := table_withSession s id Session.close
        exact ⟨htable.2, fun _ => htable.1⟩
  | erase id => exact ⟨rfl, fun hne => absurd rfl (hne id)⟩
  | shutdown => exact ⟨(table_shutdown s).2, fun _ => (table_shutdown s).1⟩

end Server

namespace Acceptor

/-- The ids of the sessions that have been started. -/
def ids (a : Acceptor) : List UInt32 := a.server.profile.map Prod.fst

/-- The game thread has polled the `Connect` of an id, or can poll it. -/
def Announced (a : Acceptor) (id : UInt32) : Prop :=
  id ∈ a.polled ∨ ∃ data, ⟨.connect, id, data⟩ ∈ a.server.queue.packets

/-- Nothing the table has to do with. -/
structure Quiet (a a' : Acceptor) : Prop where
  nextId : a'.server.nextId = a.server.nextId
  accepts : a'.server.accepts = a.server.accepts
  accepting : a'.accepting = a.accepting
  running : a'.server.queue.shuttingDown = a.server.queue.shuttingDown
  announced : ∀ id, a'.Announced id → a.Announced id

/-- What a step can do to the table, to the sessions and to the erases on their
    way. -/
inductive TableStep (a : Acceptor) (action : Action) (a' : Acceptor) : Prop where
  | quiet (h : Quiet a a') (hprofile : a'.server.profile = a.server.profile)
      (hsessions : a'.server.sessions = a.server.sessions)
      (herasing : a'.server.erasing = a.server.erasing)
  | publish (hnone : a.accepting = none) (ha' : a' = a.publish)
  | enter (id : UInt32) (hid : a.accepting = some id) (ha' : a' = a.enter id)
  | close (index : Nat) (id : UInt32)
      (haction : ∃ sessionAction, action = .session index sessionAction)
      (hopen : a.server.profile[index]? = some (id, false))
      (h : Quiet a a') (hprofile : a'.server.profile = a.server.profile.set index (id, true))
      (hsessions : a'.server.sessions = a.server.sessions)
      (herasing : a'.server.erasing = a.server.erasing ++ [id])
  | erase (id : UInt32) (haction : action = .task)
      (hstrand : ∃ rest, a.server.strand = .erase id :: rest) (h : Quiet a a')
      (hprofile : a'.server.profile = a.server.profile)
      (hsessions : a'.server.sessions = a.server.sessions.erase id)
      (herasing : a.server.erasing = id :: a'.server.erasing)

/-- A handler of the server strand. -/
theorem task_tableStep {a : Acceptor} {server : Server} (h : a.server.ioStep .task = some server) :
    TableStep a .task { a with server } := by
  unfold Server.ioStep at h
  cases hstrand : a.server.strand with
  | nil => simp [hstrand] at h
  | cons task strand =>
      simp only [hstrand, Option.some.injEq] at h
      subst h
      rcases Server.profile_onTask { a.server with strand } task with
        ⟨hprofile, hqueue, hnext, haccepts⟩
      have hquiet : Quiet a { a with server := Server.onTask { a.server with strand } task } := by
        refine ⟨hnext, haccepts, rfl, by rw [hqueue], ?_⟩
        intro id hid
        unfold Announced at hid ⊢
        rw [hqueue] at hid
        exact hid
      rcases Server.table_onTask { a.server with strand } task with ⟨hrest, hsessions⟩
      -- Everything but an erase leaves the table alone.
      have hother : (∀ id, task ≠ .erase id) →
          TableStep a .task { a with server := Server.onTask { a.server with strand } task } := by
        intro hne
        refine .quiet hquiet hprofile (hsessions hne) ?_
        unfold Server.erasing
        rw [hrest, hstrand, List.filterMap_cons]
        cases task with
        | erase id => exact absurd rfl (hne id)
        | _ => rfl
      cases task with
      | send id frame => exact hother (by simp)
      | disconnect id => exact hother (by simp)
      | shutdown => exact hother (by simp)
      | erase id =>
          refine .erase id rfl ⟨strand, hstrand⟩ hquiet hprofile rfl ?_
          unfold Server.erasing
          rw [hstrand, List.filterMap_cons]
          rfl

/-- A push of a packet that is no `Connect` announces nobody. -/
theorem announced_push {q : PacketQueue} {packet : Packet} (hpacket : packet.type ≠ .connect)
    {id : UInt32} {data : Bytes} (h : ⟨.connect, id, data⟩ ∈ (q.pushPacket packet).2.packets) :
    ⟨.connect, id, data⟩ ∈ q.packets := by
  unfold PacketQueue.pushPacket at h
  split_ifs at h
  · exact h
  · rcases List.mem_append.mp h with h | h
    · exact h
    · rw [List.mem_singleton] at h
      rw [← h] at hpacket
      exact absurd rfl hpacket
  · exact h

theorem shuttingDown_push (q : PacketQueue) (packet : Packet) :
    (q.pushPacket packet).2.shuttingDown = q.shuttingDown := by
  unfold PacketQueue.pushPacket
  split_ifs <;> rfl

/-- A handler of a session. -/
theorem session_tableStep {a : Acceptor} {server : Server} {index : Nat} {action : SessionAction}
    (h : a.server.ioStep (.session index action) = some server) :
    TableStep a (.session index action) { a with server } := by
  unfold Server.ioStep at h
  cases hobject : a.server.objects[index]? with
  | none => simp [hobject] at h
  | some session =>
      simp only [hobject, Option.map_eq_some_iff] at h
      rcases h with ⟨⟨session', effects⟩, hstep, rfl⟩
      rcases Session.step_outcome hstep with ⟨hid, hout⟩
      have hset := a.server.profile_set index hid
      have hentry := Server.getElem?_profile hobject
      have hsame : session'.closed = session.closed →
          a.server.profile.set index (session.id, session'.closed) = a.server.profile := by
        intro hclosed
        rcases List.getElem?_eq_some_iff.mp hentry with ⟨hlt, heq⟩
        rw [hclosed, ← heq, List.set_getElem_self]
      cases hout with
      | silent hclosed =>
          refine .quiet ⟨rfl, rfl, rfl, rfl, fun id h => h⟩ ?_ rfl rfl
          exact hset.trans (hsame hclosed)
      | receives size data haction hreader hclosed =>
          refine .quiet ⟨rfl, rfl, rfl, shuttingDown_push _ _, ?_⟩ ?_ rfl rfl
          · rintro id (hid | ⟨data, hid⟩)
            · exact Or.inl hid
            · exact Or.inr ⟨data, announced_push (by simp) hid⟩
          · exact hset.trans (hsame hclosed)
      | closes hopen hclosed =>
          refine .close index session.id ⟨action, rfl⟩ (hopen ▸ hentry)
            ⟨rfl, rfl, rfl, shuttingDown_push _ _, ?_⟩ (hclosed ▸ hset) rfl ?_
          · rintro id (hid | ⟨data, hid⟩)
            · exact Or.inl hid
            · exact Or.inr ⟨data, announced_push (by simp) hid⟩
          · unfold Server.erasing Server.onSession
            simp [Server.applyEffect]

theorem step_table {a a' : Acceptor} {action : Action} (h : a.step action = some a') :
    TableStep a action a' := by
  cases action with
  | publish =>
      simp only [step] at h
      split_ifs at h with hnone
      exact .publish hnone (Option.some.inj h).symm
  | enter =>
      rcases Option.map_eq_some_iff.mp h with ⟨id, hid, ha'⟩
      exact .enter id hid ha'.symm
  | task =>
      simp only [step] at h
      split_ifs at h
      rcases Option.map_eq_some_iff.mp h with ⟨server, hserver, rfl⟩
      exact task_tableStep hserver
  | session index action =>
      rcases Option.map_eq_some_iff.mp h with ⟨server, hserver, rfl⟩
      exact session_tableStep hserver
  | poll =>
      rcases Option.map_eq_some_iff.mp h with ⟨⟨packet, queue⟩, hpoll, rfl⟩
      unfold PacketQueue.pollPacket at hpoll
      cases hpackets : a.server.queue.packets with
      | nil => simp [hpackets] at hpoll
      | cons first rest =>
          simp only [hpackets, Option.some.injEq, Prod.mk.injEq] at hpoll
          rcases hpoll with ⟨rfl, rfl⟩
          refine .quiet ⟨rfl, rfl, rfl, rfl, ?_⟩ rfl rfl rfl
          rintro id (hid | ⟨data, hid⟩)
          · rcases List.mem_append.mp hid with hid | hid
            · exact Or.inl hid
            · unfold connectId at hid
              split_ifs at hid with htype
              · rw [List.mem_singleton] at hid
                subst hid
                refine Or.inr ⟨first.data, ?_⟩
                rw [hpackets, ← htype]
                exact List.mem_cons_self ..
              · simp at hid
          · refine Or.inr ⟨data, ?_⟩
            rw [hpackets]
            exact List.mem_cons_of_mem _ hid
  | send id data =>
      have herasing : (a.server.send id data).erasing = a.server.erasing := by
        unfold Server.send
        simp only
        split_ifs <;> simp [Server.erasing]
      rcases Server.send_eq a.server id data with ⟨strand, hsend⟩
      simp only [step, Option.some.injEq] at h
      subst h
      rw [hsend] at herasing ⊢
      exact .quiet ⟨rfl, rfl, rfl, rfl, fun id h => h⟩ rfl rfl herasing
  | disconnect id =>
      have herasing : (a.server.disconnect id).erasing = a.server.erasing := by
        unfold Server.disconnect
        split_ifs <;> simp [Server.erasing]
      rcases Server.disconnect_eq a.server id with ⟨strand, hdisconnect⟩
      simp only [step, Option.some.injEq] at h
      subst h
      rw [hdisconnect] at herasing ⊢
      exact .quiet ⟨rfl, rfl, rfl, rfl, fun id h => h⟩ rfl rfl herasing

/-! ### The invariant -/

/-- The table, the sessions and the erases on their way. A session is in the
    table while it is open and until its erase has run. -/
structure TableFit (a : Acceptor) : Prop where
  running : a.server.queue.shuttingDown = false
  nodup : a.ids.Nodup
  allocated : ∀ id ∈ a.ids, id.toNat ≤ a.server.accepts
  next : a.server.nextId.toNat = (a.server.accepts + 1) % 2 ^ 32
  accepting : ∀ id, a.accepting = some id → id ∉ a.ids ∧ id.toNat ≤ a.server.accepts
  listed : ∀ (id : UInt32) (index : Nat), a.server.sessions[id]? = some index →
    ∃ closed, a.server.profile[index]? = some (id, closed)
  entered : ∀ (index : Nat) id closed, a.server.profile[index]? = some (id, closed) →
    (a.server.sessions[id]? = some index ↔ closed = false ∨ id ∈ a.server.erasing)
  erasing : ∀ id ∈ a.server.erasing, ∃ index : Nat, a.server.profile[index]? = some (id, true)
  erasingOnce : a.server.erasing.Nodup
  announced : ∀ id, a.Announced id → id ∈ a.ids ∨ a.accepting = some id

theorem tableFit_init : TableFit {} where
  running := rfl
  nodup := List.nodup_nil
  allocated := by simp [ids, Server.profile]
  next := rfl
  accepting := by simp
  listed := by simp
  entered := by simp [Server.profile]
  erasing := by simp [Server.erasing]
  erasingOnce := by simp [Server.erasing]
  announced := by simp [Announced]

/-- An id stands at one place only. -/
theorem TableFit.index_unique {a : Acceptor} (h : TableFit a) {i j : Nat} {id : UInt32}
    {x y : Bool} (hi : a.server.profile[i]? = some (id, x))
    (hj : a.server.profile[j]? = some (id, y)) : i = j := by
  have hi' : a.ids[i]? = some id := by simp [ids, hi]
  have hj' : a.ids[j]? = some id := by simp [ids, hj]
  have hlt := (List.getElem?_eq_some_iff.mp hi').1
  exact (List.getElem?_inj hlt h.nodup).mp (hi'.trans hj'.symm)

theorem mem_ids {a : Acceptor} {index : Nat} {id : UInt32} {closed : Bool}
    (h : a.server.profile[index]? = some (id, closed)) : id ∈ a.ids :=
  List.mem_map.mpr ⟨_, List.mem_of_getElem? h, rfl⟩

theorem publish_eq {a : Acceptor} (h : a.server.queue.shuttingDown = false) :
    a.publish = ⟨{ a.server with
        queue := (a.server.queue.pushPacket ⟨.connect, a.server.nextId, []⟩).2
        nextId := a.server.nextId + 1
        accepts := a.server.accepts + 1 },
      if (a.server.queue.pushPacket ⟨.connect, a.server.nextId, []⟩).1 = true then
        some a.server.nextId else none, a.polled⟩ := by
  unfold publish
  rw [if_neg (by simp [h])]

/-- Ids are handed out by a counter that has not come round. -/
theorem tableFit_publish {a : Acceptor} (h : TableFit a) (hnone : a.accepting = none)
    (hfew : a.publish.server.accepts < 2 ^ 32) : TableFit a.publish := by
  rw [publish_eq h.running] at hfew ⊢
  have hnextId : (a.server.nextId + 1).toNat = (a.server.accepts + 1 + 1) % 2 ^ 32 := by
    rw [UInt32.toNat_add, h.next]
    simp only [UInt32.reduceToNat]
    omega
  have hid : a.server.nextId.toNat = a.server.accepts + 1 := by
    simp only at hfew
    rw [h.next]
    omega
  have hallocated : ∀ id ∈ a.ids, id.toNat ≤ a.server.accepts + 1 := by
    intro id hmem
    have hle := h.allocated id hmem
    omega
  have hannounced : ∀ id data,
      (⟨.connect, id, data⟩ : Packet) ∈
          (a.server.queue.pushPacket ⟨.connect, a.server.nextId, []⟩).2.packets →
        (⟨.connect, id, data⟩ : Packet) ∈ a.server.queue.packets ∨
          id = a.server.nextId ∧
            (a.server.queue.pushPacket ⟨.connect, a.server.nextId, []⟩).1 = true := by
    intro id data hmem
    unfold PacketQueue.pushPacket at hmem ⊢
    rw [if_neg (by simp [h.running])] at hmem ⊢
    split_ifs at hmem ⊢
    · rcases List.mem_append.mp hmem with hmem | hmem
      · exact Or.inl hmem
      · rw [List.mem_singleton, Packet.mk.injEq] at hmem
        exact Or.inr ⟨hmem.2.1, rfl⟩
    · exact Or.inl hmem
  refine ⟨?_, h.nodup, hallocated, hnextId, ?_, h.listed, h.entered, h.erasing, h.erasingOnce, ?_⟩
  · rw [shuttingDown_push]
    exact h.running
  · intro id haccepting
    split_ifs at haccepting
    rw [← Option.some.inj haccepting]
    refine ⟨?_, hid.le⟩
    intro hmem
    have hle := h.allocated _ hmem
    omega
  · rintro id (hmem | ⟨data, hmem⟩)
    · rcases h.announced id (Or.inl hmem) with hmem | hmem
      · exact Or.inl hmem
      · rw [hnone] at hmem
        simp at hmem
    · rcases hannounced id data hmem with hmem | ⟨rfl, hpushed⟩
      · rcases h.announced id (Or.inr ⟨data, hmem⟩) with hmem | hmem
        · exact Or.inl hmem
        · rw [hnone] at hmem
          simp at hmem
      · exact Or.inr (if_pos hpushed)

/-- The new session enters the table under an id nobody has. -/
theorem tableFit_enter {a : Acceptor} {id : UInt32} (h : TableFit a)
    (hid : a.accepting = some id) : TableFit (a.enter id) := by
  rcases h.accepting id hid with ⟨hfresh, hallocated⟩
  have hprofile : (a.enter id).server.profile = a.server.profile ++ [(id, false)] :=
    a.server.profile_start id
  have hids : (a.enter id).ids = a.ids ++ [id] := by
    rw [ids, hprofile, List.map_append]
    rfl
  have hlength : a.server.profile.length = a.server.objects.length := by
    simp [Server.profile]
  have hfree : a.server.sessions[id]? = none := by
    cases hlookup : a.server.sessions[id]? with
    | none => rfl
    | some index =>
        rcases h.listed id index hlookup with ⟨closed, hentry⟩
        exact absurd (mem_ids hentry) hfresh
  have hlookup : ∀ key : UInt32, (a.enter id).server.sessions[key]?
      = if id = key then some a.server.objects.length else a.server.sessions[key]? := by
    intro key
    unfold enter
    simp only
    rw [getElem?_insertIfNew_ite]
    split_ifs with hkey
    · rw [← hkey, hfree, Option.getD_none]
    · rfl
  have hold : ∀ (index : Nat) key closed,
      (a.enter id).server.profile[index]? = some (key, closed) →
        a.server.profile[index]? = some (key, closed) ∧ key ≠ id ∨
          index = a.server.objects.length ∧ key = id ∧ closed = false := by
    intro index key closed hentry
    rw [hprofile, List.getElem?_append] at hentry
    split_ifs at hentry with hlt
    · refine Or.inl ⟨hentry, ?_⟩
      rintro rfl
      exact hfresh (mem_ids hentry)
    · right
      rw [List.getElem?_singleton] at hentry
      split_ifs at hentry with hzero
      rw [Option.some.injEq, Prod.mk.injEq] at hentry
      exact ⟨by omega, hentry.1.symm, hentry.2.symm⟩
  have hkeep : ∀ (index : Nat) key closed, a.server.profile[index]? = some (key, closed) →
      (a.enter id).server.profile[index]? = some (key, closed) := by
    intro index key closed hentry
    rw [hprofile, List.getElem?_append_left (List.getElem?_eq_some_iff.mp hentry).1]
    exact hentry
  refine ⟨h.running, ?_, ?_, h.next, by simp [enter], ?_, ?_, ?_, h.erasingOnce, ?_⟩
  · rw [hids, List.nodup_append_comm, List.singleton_append, List.nodup_cons]
    exact ⟨hfresh, h.nodup⟩
  · intro key hmem
    rw [hids, List.mem_append, List.mem_singleton] at hmem
    rcases hmem with hmem | rfl
    · exact h.allocated key hmem
    · exact hallocated
  · intro key index hentry
    rw [hlookup] at hentry
    split_ifs at hentry with hkey
    · refine ⟨false, ?_⟩
      rw [hprofile, ← Option.some.inj hentry, ← hlength, List.getElem?_concat_length, hkey]
    · rcases h.listed key index hentry with ⟨closed, hentry⟩
      exact ⟨closed, hkeep index key closed hentry⟩
  · intro index key closed hentry
    rw [hlookup]
    rcases hold index key closed hentry with ⟨hentry, hne⟩ | ⟨rfl, rfl, rfl⟩
    · rw [if_neg (Ne.symm hne)]
      exact h.entered index key closed hentry
    · simp
  · intro key hmem
    rcases h.erasing key hmem with ⟨index, hentry⟩
    exact ⟨index, hkeep index key true hentry⟩
  · intro key hmem
    rw [hids, List.mem_append, List.mem_singleton]
    rcases h.announced key hmem with hmem | hmem
    · exact Or.inl (Or.inl hmem)
    · rw [hid, Option.some.injEq] at hmem
      exact Or.inl (Or.inr hmem.symm)

/-- A session closes: it stays in the table, and its erase is on its way. -/
theorem tableFit_close {a a' : Acceptor} {index : Nat} {id : UInt32} (h : TableFit a)
    (hquiet : Quiet a a') (hopen : a.server.profile[index]? = some (id, false))
    (hprofile : a'.server.profile = a.server.profile.set index (id, true))
    (hsessions : a'.server.sessions = a.server.sessions)
    (herasing : a'.server.erasing = a.server.erasing ++ [id]) : TableFit a' := by
  have hlt := (List.getElem?_eq_some_iff.mp hopen).1
  have hlookup : ∀ i : Nat, a'.server.profile[i]?
      = if index = i then some (id, true) else a.server.profile[i]? := by
    intro i
    rw [hprofile, List.getElem?_set]
    split_ifs with hi
    · rfl
    · rfl
  have hids : a'.ids = a.ids := by
    apply List.ext_getElem?
    intro i
    simp only [ids, List.getElem?_map, hlookup]
    split_ifs with hi
    · rw [← hi, hopen]
      rfl
    · rfl
  have hnot : id ∉ a.server.erasing := by
    intro hmem
    rcases h.erasing id hmem with ⟨j, hj⟩
    have hij := h.index_unique hopen hj
    rw [← hij, hopen] at hj
    simp at hj
  refine ⟨hquiet.running.trans h.running, hids ▸ h.nodup, ?_, ?_, ?_, ?_, ?_, ?_, ?_, ?_⟩
  · rw [hids, hquiet.accepts]
    exact h.allocated
  · rw [hquiet.nextId, hquiet.accepts]
    exact h.next
  · rw [hids, hquiet.accepting, hquiet.accepts]
    exact h.accepting
  · intro key i hentry
    rw [hsessions] at hentry
    rcases h.listed key i hentry with ⟨closed, hentry⟩
    rw [hlookup]
    split_ifs with hi
    · rw [← hi, hopen, Option.some.injEq, Prod.mk.injEq] at hentry
      exact ⟨true, by rw [hentry.1]⟩
    · exact ⟨closed, hentry⟩
  · intro i key closed hentry
    rw [hsessions, herasing, List.mem_append, List.mem_singleton]
    rw [hlookup] at hentry
    split_ifs at hentry with hi
    · rw [Option.some.injEq, Prod.mk.injEq] at hentry
      rcases hentry with ⟨rfl, rfl⟩
      rw [← hi, h.entered index id false hopen]
      simp
    · rw [h.entered i key closed hentry]
      have hne : key ≠ id := by
        rintro rfl
        exact hi (h.index_unique hopen hentry)
      simp [hne]
  · intro key hmem
    rw [herasing, List.mem_append, List.mem_singleton] at hmem
    rcases hmem with hmem | rfl
    · rcases h.erasing key hmem with ⟨i, hentry⟩
      refine ⟨i, ?_⟩
      rw [hlookup]
      split_ifs with hi
      · rw [← hi, hopen] at hentry
        simp at hentry
      · exact hentry
    · exact ⟨index, by rw [hlookup, if_pos rfl]⟩
  · rw [herasing, List.nodup_append_comm, List.singleton_append, List.nodup_cons]
    exact ⟨hnot, h.erasingOnce⟩
  · intro key hmem
    rw [hids, hquiet.accepting]
    exact h.announced key (hquiet.announced key hmem)

/-- An erase runs: the closed session it is for leaves the table. -/
theorem tableFit_erase {a a' : Acceptor} {id : UInt32} (h : TableFit a) (hquiet : Quiet a a')
    (hprofile : a'.server.profile = a.server.profile)
    (hsessions : a'.server.sessions = a.server.sessions.erase id)
    (herasing : a.server.erasing = id :: a'.server.erasing) : TableFit a' := by
  have hids : a'.ids = a.ids := by rw [ids, hprofile, ids]
  have honce := h.erasingOnce
  rw [herasing, List.nodup_cons] at honce
  refine ⟨hquiet.running.trans h.running, hids ▸ h.nodup, ?_, ?_, ?_, ?_, ?_, ?_, honce.2, ?_⟩
  · rw [hids, hquiet.accepts]
    exact h.allocated
  · rw [hquiet.nextId, hquiet.accepts]
    exact h.next
  · rw [hids, hquiet.accepting, hquiet.accepts]
    exact h.accepting
  · intro key index hentry
    rw [hsessions, getElem?_erase_ite] at hentry
    split_ifs at hentry
    rw [hprofile]
    exact h.listed key index hentry
  · intro index key closed hentry
    rw [hprofile] at hentry
    have hentered := h.entered index key closed hentry
    rw [herasing, List.mem_cons] at hentered
    rw [hsessions, getElem?_erase_ite]
    by_cases hkey : id = key
    · -- The erased session is closed, and this was its only erase.
      subst hkey
      have hclosed : closed = true := by
        rcases h.erasing id (by rw [herasing]; exact List.mem_cons_self ..) with ⟨j, hj⟩
        have hij := h.index_unique hentry hj
        rw [← hij, hentry, Option.some.injEq, Prod.mk.injEq] at hj
        exact hj.2
      simp [hclosed, honce.1]
    · rw [if_neg hkey, hentered]
      simp [Ne.symm hkey]
  · intro key hmem
    rw [hprofile]
    exact h.erasing key (by rw [herasing]; exact List.mem_cons_of_mem _ hmem)
  · intro key hmem
    rw [hids, hquiet.accepting]
    exact h.announced key (hquiet.announced key hmem)

theorem accepts_mono {a a' : Acceptor} {action : Action} (h : a.step action = some a') :
    a.server.accepts ≤ a'.server.accepts := by
  cases step_table h with
  | quiet h => exact h.accepts.ge
  | publish _ ha' =>
      rw [ha']
      unfold publish
      split_ifs
      · exact le_rfl
      · exact Nat.le_succ _
  | enter id _ ha' =>
      rw [ha']
      exact le_rfl
  | close _ _ _ _ h => exact h.accepts.ge
  | erase _ _ _ h => exact h.accepts.ge

/-- The invariant holds as long as ids do not repeat. -/
theorem tableFit_step {a a' : Acceptor} {action : Action}
    (h : a.server.accepts < 2 ^ 32 → TableFit a) (hstep : a.step action = some a') :
    a'.server.accepts < 2 ^ 32 → TableFit a' := by
  intro hfew
  have hfit := h (lt_of_le_of_lt (accepts_mono hstep) hfew)
  cases step_table hstep with
  | quiet hquiet hprofile hsessions herasing =>
      have hids : a'.ids = a.ids := by rw [ids, hprofile, ids]
      refine ⟨hquiet.running.trans hfit.running, hids ▸ hfit.nodup, ?_, ?_, ?_, ?_, ?_, ?_, ?_,
        ?_⟩
      · rw [hids, hquiet.accepts]
        exact hfit.allocated
      · rw [hquiet.nextId, hquiet.accepts]
        exact hfit.next
      · rw [hids, hquiet.accepting, hquiet.accepts]
        exact hfit.accepting
      · rw [hsessions, hprofile]
        exact hfit.listed
      · rw [hsessions, hprofile, herasing]
        exact hfit.entered
      · rw [hprofile, herasing]
        exact hfit.erasing
      · rw [herasing]
        exact hfit.erasingOnce
      · intro id hmem
        rw [hids, hquiet.accepting]
        exact hfit.announced id (hquiet.announced id hmem)
  | publish hnone ha' =>
      subst ha'
      exact tableFit_publish hfit hnone hfew
  | enter id hid ha' =>
      subst ha'
      exact tableFit_enter hfit hid
  | close index id _ hopen hquiet hprofile hsessions herasing =>
      exact tableFit_close hfit hquiet hopen hprofile hsessions herasing
  | erase id _ _ hquiet hprofile hsessions herasing =>
      exact tableFit_erase hfit hquiet hprofile hsessions herasing

theorem run_tableFit {actions : List Action} {a : Acceptor}
    (hrun : Machine.run step {} actions = some a) (hfew : a.server.accepts < 2 ^ 32) :
    TableFit a :=
  Machine.invariant (P := fun a : Acceptor => a.server.accepts < 2 ^ 32 → TableFit a)
    (fun _ _ _ h hstep => tableFit_step h hstep) hrun (fun _ => tableFit_init) hfew

/-! ### What the table promises -/

/-- The table has the session of an id under that id. -/
def Finds (a : Acceptor) (id : UInt32) : Prop :=
  ∃ (index : Nat) (session : Session), a.server.sessions[id]? = some index ∧
    a.server.objects[index]? = some session ∧ session.id = id

/-- What the table promises in every state. -/
structure TableOk (a : Acceptor) : Prop where
  distinct : (a.server.objects.map Session.id).Nodup
  keyed : ∀ (id : UInt32) (index : Nat), a.server.sessions[id]? = some index →
    ∃ session, a.server.objects[index]? = some session ∧ session.id = id
  /-- A session that is not in the table is closed, and its erase is no longer
      on its way. -/
  stays : ∀ (index : Nat) session, a.server.objects[index]? = some session →
    a.server.sessions[session.id]? ≠ some index →
      session.closed = true ∧ ServerTask.erase session.id ∉ a.server.strand
  /-- When every posted handler has run, the table has the open sessions. -/
  settled : a.server.strand = [] → a.accepting = none →
    ∀ (index : Nat) session, a.server.objects[index]? = some session →
      (a.server.sessions[session.id]? = some index ↔ session.closed = false)
  /-- A handler of the server strand that is about to run for an id whose
      `Connect` has been polled finds the session, or the session is closed. -/
  found : a.accepting = none → ∀ id ∈ a.polled,
    a.Finds id ∨ ∃ session ∈ a.server.objects, session.id = id ∧ session.closed = true

/-- What a step may do to the table. -/
structure TableMoves (a : Acceptor) (action : Action) (a' : Acceptor) : Prop where
  /-- A session leaves by an erase for its own id, closed, and nobody leaves
      with it. -/
  leaves : ∀ (index : Nat) session, a.server.objects[index]? = some session →
    a.server.sessions[session.id]? = some index →
      a'.server.sessions[session.id]? = some index ∨
      action = .task ∧ (∃ rest, a.server.strand = .erase session.id :: rest) ∧
        session.closed = true ∧
        ∀ id : UInt32, id ≠ session.id → a'.server.sessions[id]? = a.server.sessions[id]?
  /-- An erase is posted by the close of the session with that id. -/
  posts : ∀ id ∈ a'.server.erasing, id ∈ a.server.erasing ∨
    ∃ index sessionAction session session', action = .session index sessionAction ∧
      a.server.objects[index]? = some session ∧ session.id = id ∧ session.closed = false ∧
      a'.server.objects[index]? = some session' ∧ session'.closed = true

theorem object_of_profile {s : Server} {index : Nat} {id : UInt32} {closed : Bool}
    (h : s.profile[index]? = some (id, closed)) :
    ∃ session, s.objects[index]? = some session ∧ session.id = id ∧ session.closed = closed := by
  unfold Server.profile at h
  rw [List.getElem?_map, Option.map_eq_some_iff] at h
  rcases h with ⟨session, hobject, heq⟩
  rw [Prod.mk.injEq] at heq
  exact ⟨session, hobject, heq⟩

theorem mem_erasing {s : Server} {id : UInt32} :
    id ∈ s.erasing ↔ ServerTask.erase id ∈ s.strand := by
  unfold Server.erasing
  rw [List.mem_filterMap]
  constructor
  · rintro ⟨task, hmem, htask⟩
    cases task with
    | erase id' =>
        rw [← Option.some.inj htask]
        exact hmem
    | _ => simp at htask
  · intro hmem
    exact ⟨_, hmem, rfl⟩

theorem TableFit.ok {a : Acceptor} (h : TableFit a) : TableOk a := by
  have hids : a.server.objects.map Session.id = a.ids := by
    simp [ids, Server.profile, Function.comp_def]
  refine ⟨hids ▸ h.nodup, ?_, ?_, ?_, ?_⟩
  · intro id index hlookup
    rcases h.listed id index hlookup with ⟨closed, hentry⟩
    rcases object_of_profile hentry with ⟨session, hobject, hid, _⟩
    exact ⟨session, hobject, hid⟩
  · intro index session hobject hnot
    have hentered := h.entered index _ _ (Server.getElem?_profile hobject)
    rw [← mem_erasing]
    rw [ne_eq, hentered, not_or, Bool.not_eq_false] at hnot
    exact hnot
  · intro hstrand _ index session hobject
    have hentered := h.entered index _ _ (Server.getElem?_profile hobject)
    have hnone : a.server.erasing = [] := by simp [Server.erasing, hstrand]
    rw [hentered, hnone]
    simp
  · intro hnone id hmem
    rcases h.announced id (Or.inl hmem) with hmem | hmem
    · rcases List.mem_map.mp hmem with ⟨⟨id', closed⟩, hentry, rfl⟩
      rcases List.mem_iff_getElem?.mp hentry with ⟨index, hentry⟩
      rcases object_of_profile hentry with ⟨session, hobject, hid, hclosed⟩
      cases closed with
      | true => exact Or.inr ⟨session, List.mem_of_getElem? hobject, hid, hclosed⟩
      | false =>
          exact Or.inl ⟨index, session, (h.entered index _ _ hentry).mpr (Or.inl rfl), hobject,
            hid⟩
    · rw [hnone] at hmem
      simp at hmem

theorem TableFit.moves {a a' : Acceptor} {action : Action} (h : TableFit a)
    (hstep : a.step action = some a') : TableMoves a action a' := by
  cases step_table hstep with
  | quiet hquiet hprofile hsessions herasing =>
      refine ⟨?_, ?_⟩
      · intro index session _ hlookup
        rw [hsessions]
        exact Or.inl hlookup
      · intro id hmem
        rw [herasing] at hmem
        exact Or.inl hmem
  | publish hnone ha' =>
      rw [ha', publish_eq h.running]
      exact ⟨fun _ _ _ hlookup => Or.inl hlookup, fun _ hmem => Or.inl hmem⟩
  | enter id hid ha' =>
      subst ha'
      refine ⟨?_, fun _ hmem => Or.inl hmem⟩
      intro index session _ hlookup
      left
      unfold enter
      simp only
      rw [getElem?_insertIfNew_ite, hlookup]
      split_ifs <;> rfl
  | close index id haction hopen hquiet hprofile hsessions herasing =>
      refine ⟨?_, ?_⟩
      · intro index session _ hlookup
        rw [hsessions]
        exact Or.inl hlookup
      · intro key hmem
        rw [herasing, List.mem_append, List.mem_singleton] at hmem
        rcases hmem with hmem | rfl
        · exact Or.inl hmem
        · right
          rcases haction with ⟨sessionAction, haction⟩
          rcases object_of_profile hopen with ⟨session, hobject, hid, hclosed⟩
          have hentry : a'.server.profile[index]? = some (key, true) := by
            rw [hprofile, List.getElem?_set_self (List.getElem?_eq_some_iff.mp hopen).1]
          rcases object_of_profile hentry with ⟨session', hobject', _, hclosed'⟩
          exact ⟨index, sessionAction, session, session', haction, hobject, hid, hclosed,
            hobject', hclosed'⟩
  | erase id haction hstrand hquiet hprofile hsessions herasing =>
      refine ⟨?_, ?_⟩
      · intro index session hobject hlookup
        rw [hsessions, getElem?_erase_ite]
        by_cases hkey : id = session.id
        · right
          subst hkey
          have hmem : session.id ∈ a.server.erasing := by
            rw [herasing]
            exact List.mem_cons_self ..
          rcases h.erasing session.id hmem with ⟨j, hj⟩
          have hentry := Server.getElem?_profile hobject
          have hij := h.index_unique hentry hj
          rw [← hij, hentry, Option.some.injEq, Prod.mk.injEq] at hj
          refine ⟨haction, hstrand, hj.2, ?_⟩
          intro key hne
          rw [getElem?_erase_ite, if_neg (Ne.symm hne)]
        · rw [if_neg hkey]
          exact Or.inl hlookup
      · intro key hmem
        left
        rw [herasing]
        exact List.mem_cons_of_mem _ hmem

/-! ### Every run -/

/-- What has been polled stays polled. -/
theorem polled_step {a a' : Acceptor} {action : Action} (h : a.step action = some a')
    {id : UInt32} (hid : id ∈ a.polled) : id ∈ a'.polled := by
  cases action with
  | publish =>
      simp only [step] at h
      split_ifs at h
      rw [← Option.some.inj h]
      unfold publish
      split_ifs <;> exact hid
  | enter =>
      rcases Option.map_eq_some_iff.mp h with ⟨_, _, rfl⟩
      exact hid
  | task =>
      simp only [step] at h
      split_ifs at h
      rcases Option.map_eq_some_iff.mp h with ⟨_, _, rfl⟩
      exact hid
  | session index action =>
      rcases Option.map_eq_some_iff.mp h with ⟨_, _, rfl⟩
      exact hid
  | poll =>
      rcases Option.map_eq_some_iff.mp h with ⟨_, _, rfl⟩
      exact List.mem_append_left _ hid
  | send | disconnect =>
      rw [← Option.some.inj h]
      exact hid

/-- The session a call of the game thread is for. -/
def Action.target : Action → Option UInt32
  | .send id _ => some id
  | .disconnect id => some id
  | _ => none

/-- In every run without shutdown and with fewer than 2^32 accepts: the table
    keeps its promise in every state and in every step, and a `send` or
    `disconnect` that the game thread calls after it has polled the `Connect`
    of its session finds the session whenever the posted handler runs, unless
    the session is closed. -/
theorem session_table {actions : List Action} {a : Acceptor}
    (hrun : Machine.run step {} actions = some a) (hfew : a.server.accepts < 2 ^ 32) :
    TableOk a ∧ (∀ action a', a.step action = some a' → TableMoves a action a') ∧
    ∀ before call after b id, actions = before ++ call :: after →
      Machine.run step {} before = some b → call.target = some id → id ∈ b.polled →
      a.accepting = none →
        a.Finds id ∨ ∃ session ∈ a.server.objects, session.id = id ∧ session.closed = true := by
  have hfit := run_tableFit hrun hfew
  refine ⟨hfit.ok, fun _ _ => hfit.moves, ?_⟩
  intro before call after b id hactions hbefore _ hpolled hnone
  refine hfit.ok.found hnone id ?_
  have hrest : Machine.run step b (call :: after) = some a := by
    rw [hactions, Machine.run_append, hbefore] at hrun
    exact hrun
  exact Machine.invariant (P := fun a : Acceptor => id ∈ a.polled)
    (fun _ _ _ hid hstep => polled_step hstep hid) hrest hpolled

/-- The game thread polls the `Connect` and sends before the session is in the
    table. -/
def sendBeforeEnter : List Action := [.publish, .poll, .send 1 [7], .enter]

theorem session_table_sendBeforeEnter :
    ∃ a, Machine.run step {} sendBeforeEnter = some a ∧ TableOk a ∧
      (a.Finds 1 ∨ ∃ session ∈ a.server.objects, session.id = 1 ∧ session.closed = true) := by
  have hend : (Machine.run step {} sendBeforeEnter).map (fun a => (a.server.accepts,
      a.accepting, a.polled)) = some (1, none, [1]) := by decide +kernel
  have hbefore : (Machine.run step {} [.publish, .poll]).map (fun a => a.polled)
      = some [1] := by decide +kernel
  rcases Option.map_eq_some_iff.mp hend with ⟨a, hrun, ha⟩
  rcases Option.map_eq_some_iff.mp hbefore with ⟨b, hb, hpolled⟩
  simp only [Prod.mk.injEq] at ha
  have h := session_table hrun (by rw [ha.1]; decide)
  refine ⟨a, hrun, h.1, ?_⟩
  exact h.2.2 [.publish, .poll] (.send 1 [7]) [.enter] b 1 rfl hb rfl (by simp [hpolled]) ha.2.1

end Acceptor

end ProjectNight
