import Mathlib.Data.List.Nodup
import Mathlib.Tactic
import ProjectNight.Core.Server
import ProjectNight.Lib.Machine
import ProjectNight.Theory.Transitions

/-!
# The Packets of a Session

What the game thread learns of a session is the sequence of packets pushed for
its id: a `Connect`, then data, then a `Disconnect`. This module proves that
shape for every interleaving of handlers, under one condition.

The condition is on the handler of a body read. It pushes its payload without
looking at `closed_`, and closing the socket does not stop a handler whose
read has already completed. So when a close gets in between, the payload
follows the `Disconnect`. `enqueue_write`, on the other side of the same
session, does check `closed_` first.

Everything the server knows of its sessions is their ids and which of them are
closed (`profile`). Only the handlers of a session change that, and no handler
of `server_strand` does.

## Main definitions

* `Server.profile`: The ids of the sessions, and which of them are closed.
* `packetKinds`, `SessionWord`: The packets pushed for an id, and their shape.
* `bodyReadsOpen`: The condition on body reads.

## Theorems

* `Server.profile_onTask`: Handlers of the server strand keep the profile.
* `wordsFit_step`: The invariant.
* `server_words`: The shape of the packets of every session.
-/

namespace ProjectNight

/-! ### What the server knows of its sessions -/

namespace Server

/-- The ids of all sessions ever started, and which of them are closed. -/
def profile (s : Server) : List (UInt32 × Bool) :=
  s.objects.map (fun session => (session.id, session.closed))

theorem getElem?_profile {s : Server} {index : Nat} {session : Session}
    (h : s.objects[index]? = some session) :
    s.profile[index]? = some (session.id, session.closed) := by
  unfold profile
  rw [List.getElem?_map, h, Option.map_some]

/-- The profile after a handler of one session. -/
theorem profile_set (s : Server) (index : Nat) {session session' : Session}
    (hid : session'.id = session.id) :
    (s.objects.set index session').map (fun session => (session.id, session.closed))
      = s.profile.set index (session.id, session'.closed) := by
  unfold profile
  rw [List.map_set, hid]

/-- The profile after a session has been started. -/
theorem profile_start (s : Server) (id : UInt32) :
    (s.objects ++ [Session.start { id }]).map (fun session => (session.id, session.closed))
      = s.profile ++ [(id, false)] := by
  rw [List.map_append]
  rfl

/-- Changing one object in neither respect changes nothing here. -/
theorem profile_modify (objects : List Session) (index : Nat) (f : Session → Session)
    (hf : ∀ session, (f session).id = session.id ∧ (f session).closed = session.closed) :
    (objects.modify index f).map (fun session => (session.id, session.closed))
      = objects.map (fun session => (session.id, session.closed)) := by
  induction objects generalizing index with
  | nil => rw [List.modify_nil]
  | cons session objects ih =>
      cases index with
      | zero =>
          simp only [List.modify_zero_cons, List.map_cons, (hf session).1, (hf session).2]
      | succ index => simp only [List.modify_succ_cons, List.map_cons, ih]

theorem profile_withSession (s : Server) (id : UInt32) (f : Session → Session)
    (hf : ∀ session, (f session).id = session.id ∧ (f session).closed = session.closed) :
    (s.withSession id f).profile = s.profile ∧ (s.withSession id f).queue = s.queue ∧
      (s.withSession id f).nextId = s.nextId ∧ (s.withSession id f).accepts = s.accepts := by
  unfold withSession
  cases s.sessions[id]? with
  | none => exact ⟨rfl, rfl, rfl, rfl⟩
  | some index => exact ⟨profile_modify s.objects index f hf, rfl, rfl, rfl⟩

/-- Handlers of the server strand push nothing, close nothing and start
    nothing. -/
theorem profile_onTask (s : Server) (task : ServerTask) :
    (s.onTask task).profile = s.profile ∧ (s.onTask task).queue = s.queue ∧
      (s.onTask task).nextId = s.nextId ∧ (s.onTask task).accepts = s.accepts := by
  cases task with
  | send id frame =>
      unfold onTask
      split_ifs
      · exact ⟨rfl, rfl, rfl, rfl⟩
      · exact profile_withSession s id _ (fun session => ⟨rfl, rfl⟩)
  | disconnect id =>
      unfold onTask
      split_ifs
      · exact ⟨rfl, rfl, rfl, rfl⟩
      · exact profile_withSession s id _ (fun session => ⟨rfl, rfl⟩)
  | erase id => exact ⟨rfl, rfl, rfl, rfl⟩
  | shutdown =>
      unfold onTask
      -- One close after the other, over any list of ids.
      generalize s.sessions.keys = ids
      induction ids generalizing s with
      | nil => exact ⟨rfl, rfl, rfl, rfl⟩
      | cons id ids ih =>
          have hhead := profile_withSession s id Session.close (fun session => ⟨rfl, rfl⟩)
          have htail := ih (s.withSession id Session.close)
          rw [List.foldl_cons, htail.1, htail.2.1, htail.2.2.1, htail.2.2.2]
          exact hhead

end Server

/-- A push appends its packet when there is room. -/
theorem PacketQueue.pushPacket_of_room {q : PacketQueue} (hdown : q.shuttingDown = false)
    (hroom : q.packets.length < packetQueueCapacity) (packet : Packet) :
    q.pushPacket packet = (true,
      { q with packets := q.packets ++ [packet], pushed := q.pushed ++ [packet] }) := by
  unfold pushPacket
  rw [if_neg (by rw [hdown]; exact Bool.false_ne_true), if_pos hroom]

/-- A push that finds no room changes nothing the game thread sees. -/
theorem PacketQueue.pushPacket_of_full {q : PacketQueue} (hdown : q.shuttingDown = false)
    (hfull : ¬ q.packets.length < packetQueueCapacity) (packet : Packet) :
    q.pushPacket packet = (false, { q with droppedPackets := q.droppedPackets + 1 }) := by
  unfold pushPacket
  rw [if_neg (by rw [hdown]; exact Bool.false_ne_true), if_neg hfull]

/-- A queue that is shutting down takes nothing and counts nothing. -/
theorem PacketQueue.pushPacket_of_down {q : PacketQueue} (hdown : q.shuttingDown = true)
    (packet : Packet) : q.pushPacket packet = (false, q) := by
  unfold pushPacket
  rw [if_pos hdown]

/-- What a push can do to the record of pushed packets. -/
theorem PacketQueue.pushed_pushPacket (q : PacketQueue) (packet : Packet) :
    (q.pushPacket packet).1 = true ∧
        (q.pushPacket packet).2.pushed = q.pushed ++ [packet] ∨
      (q.pushPacket packet).1 = false ∧ (q.pushPacket packet).2.pushed = q.pushed := by
  unfold PacketQueue.pushPacket
  split_ifs
  · exact Or.inr ⟨rfl, rfl⟩
  · exact Or.inl ⟨rfl, rfl⟩
  · exact Or.inr ⟨rfl, rfl⟩

/-! ### The word of a session -/

/-- The kinds of the packets pushed for an id, in order. -/
def packetKinds (pushed : List Packet) (id : UInt32) : List PacketType :=
  (pushed.filter (fun packet => packet.sessionId = id)).map Packet.type

/-- One `Connect`, then data, then at most one `Disconnect`. -/
def SessionWord (kinds : List PacketType) : Prop :=
  ∃ n, kinds = .connect :: List.replicate n .data ∨
    kinds = .connect :: (List.replicate n .data ++ [.disconnect])

/-- The word of a session, which is still open-ended while the session is. -/
def WordFor (closed : Bool) (kinds : List PacketType) : Prop :=
  if closed then SessionWord kinds else ∃ n, kinds = .connect :: List.replicate n .data

theorem sessionWord_of_wordFor {closed : Bool} {kinds : List PacketType}
    (h : WordFor closed kinds) : SessionWord kinds := by
  cases closed with
  | true => exact h
  | false =>
      rcases h with ⟨n, h⟩
      exact ⟨n, Or.inl h⟩

theorem packetKinds_append (pushed : List Packet) (packet : Packet) (id : UInt32) :
    packetKinds (pushed ++ [packet]) id = packetKinds pushed id ++
      if packet.sessionId = id then [packet.type] else [] := by
  unfold packetKinds
  rw [List.filter_append, List.map_append]
  by_cases h : packet.sessionId = id
  · simp only [h, decide_true, List.filter_cons_of_pos, List.filter_nil, List.map_cons,
      List.map_nil, if_true]
  · simp only [h, decide_false, Bool.false_eq_true, not_false_eq_true, List.filter_cons_of_neg,
      List.filter_nil, List.map_nil, if_false]

/-- Data extends the word of an open session. -/
theorem wordFor_data {kinds : List PacketType} (h : WordFor false kinds) :
    WordFor false (kinds ++ [.data]) := by
  rcases h with ⟨n, h⟩
  refine ⟨n + 1, ?_⟩
  rw [h, List.cons_append, List.replicate_succ']

/-- Closing ends the word, with or without a `Disconnect`. -/
theorem wordFor_disconnect {kinds : List PacketType} (h : WordFor false kinds) :
    WordFor true (kinds ++ [.disconnect]) := by
  rcases h with ⟨n, h⟩
  refine ⟨n, Or.inr ?_⟩
  rw [h, List.cons_append]

/-- The invariant: ids are distinct and have been handed out, the next one has
    not, only started sessions have packets, and those of each make a word. -/
structure WordsFit (s : Server) : Prop where
  nodup : (s.profile.map Prod.fst).Nodup
  allocated : ∀ p ∈ s.profile, p.1.toNat ≤ s.accepts
  next : s.nextId.toNat = (s.accepts + 1) % 2 ^ 32
  unknown : ∀ id, id ∉ s.profile.map Prod.fst → packetKinds s.queue.pushed id = []
  words : ∀ p ∈ s.profile, WordFor p.2 (packetKinds s.queue.pushed p.1)

/-- The invariant reads only the profile, the record of pushes and the two
    counters. -/
theorem WordsFit.congr {s t : Server} (h : WordsFit s) (hprofile : t.profile = s.profile)
    (hpushed : t.queue.pushed = s.queue.pushed) (hnext : t.nextId = s.nextId)
    (haccepts : t.accepts = s.accepts) : WordsFit t where
  nodup := by rw [hprofile]; exact h.nodup
  allocated := by rw [hprofile, haccepts]; exact h.allocated
  next := by rw [hnext, haccepts]; exact h.next
  unknown := by rw [hprofile, hpushed]; exact h.unknown
  words := by rw [hprofile, hpushed]; exact h.words

/-- One session changes; its id stays, and nobody else's packets change. -/
theorem WordsFit.update {s t : Server} (h : WordsFit s) {index : Nat} {session : Session}
    (hobject : s.objects[index]? = some session) {closed : Bool}
    (hprofile : t.profile = s.profile.set index (session.id, closed))
    (hself : WordFor closed (packetKinds t.queue.pushed session.id))
    (hother : ∀ id, id ≠ session.id →
      packetKinds t.queue.pushed id = packetKinds s.queue.pushed id)
    (hnext : t.nextId = s.nextId) (haccepts : t.accepts = s.accepts) : WordsFit t := by
  have hentry := Server.getElem?_profile hobject
  -- Ids never change, so the entry that changed is found by its id.
  have hids : t.profile.map Prod.fst = s.profile.map Prod.fst := by
    rw [hprofile, List.map_set]
    refine List.ext_getElem? (fun i => ?_)
    rw [List.getElem?_set]
    by_cases hi : index = i
    · rw [if_pos hi, ← hi, List.getElem?_map, hentry, Option.map_some, List.length_map]
      rw [if_pos (List.getElem?_eq_some_iff.mp hentry).1]
    · rw [if_neg hi]
  have hmem : session.id ∈ s.profile.map Prod.fst :=
    List.mem_map.mpr ⟨_, List.mem_of_getElem? hentry, rfl⟩
  have hold : ∀ p ∈ t.profile, p.1 ≠ session.id → p ∈ s.profile := by
    intro p hp hne
    rw [hprofile] at hp
    rcases List.mem_or_eq_of_mem_set hp with hp | hp
    · exact hp
    · rw [hp] at hne
      exact absurd rfl hne
  refine ⟨by rw [hids]; exact h.nodup, fun p hp => ?_, by rw [hnext, haccepts]; exact h.next,
    fun id hid => ?_, fun p hp => ?_⟩
  · rw [haccepts]
    have hp1 : p.1 ∈ s.profile.map Prod.fst := hids ▸ List.mem_map_of_mem hp
    rcases List.mem_map.mp hp1 with ⟨q, hq, heq⟩
    exact heq ▸ h.allocated q hq
  · rw [hids] at hid
    rw [hother id (fun heq => hid (heq ▸ hmem))]
    exact h.unknown id hid
  · by_cases hp1 : p.1 = session.id
    · -- Ids are distinct, so this is the entry that changed.
      have hnew : (session.id, closed) ∈ t.profile := by
        rw [hprofile]
        exact List.mem_set (List.getElem?_eq_some_iff.mp hentry).1 _
      have hnd : (t.profile.map Prod.fst).Nodup := by rw [hids]; exact h.nodup
      rw [List.inj_on_of_nodup_map hnd hp hnew hp1]
      exact hself
    · rw [hother p.1 hp1]
      exact h.words p (hold p hp hp1)

/-- A packet for one id leaves the words of the others alone. -/
theorem packetKinds_push_other {q : PacketQueue} {packet : Packet} {id : UInt32}
    (h : id ≠ packet.sessionId) :
    packetKinds (q.pushPacket packet).2.pushed id = packetKinds q.pushed id := by
  rcases q.pushed_pushPacket packet with ⟨_, hpushed⟩ | ⟨_, hpushed⟩
  · rw [hpushed, packetKinds_append, if_neg (fun heq => h heq.symm), List.append_nil]
  · rw [hpushed]

/-- A push extends the word of its id, or fails and leaves it alone. -/
theorem packetKinds_push_self (q : PacketQueue) (packet : Packet) :
    packetKinds (q.pushPacket packet).2.pushed packet.sessionId
        = packetKinds q.pushed packet.sessionId ++ [packet.type] ∨
      packetKinds (q.pushPacket packet).2.pushed packet.sessionId
        = packetKinds q.pushed packet.sessionId := by
  rcases q.pushed_pushPacket packet with ⟨_, hpushed⟩ | ⟨_, hpushed⟩
  · left
    rw [hpushed, packetKinds_append, if_pos rfl]
  · right
    rw [hpushed]

/-- When the action is the handler of a body read, it finds its session open. -/
def bodyReadsOpen (s : Server) : Server.Action → Bool
  | .io (.session index .read) =>
    match s.objects[index]? with
    | some ⟨_, _, _, .completed (.body _) _, closed⟩ => !closed
    | _ => true
  | _ => true

theorem closed_of_bodyReadsOpen {s : Server} {index : Nat} {session : Session} {size : Nat}
    {data : Bytes} (h : bodyReadsOpen s (.io (.session index .read)) = true)
    (hobject : s.objects[index]? = some session)
    (hreader : session.reader = .completed (.body size) data) : session.closed = false := by
  rcases session with ⟨id, strand, writer, reader, closed⟩
  simp only at hreader
  subst hreader
  simp only [bodyReadsOpen, hobject, Bool.not_eq_true'] at h
  exact h

theorem wordsFit_session {s : Server} (h : WordsFit s) {index : Nat} {session session' : Session}
    {action : SessionAction} {effects : List SessionEffect}
    (hobject : s.objects[index]? = some session)
    (hstep : session.step action = some (session', effects))
    (hcond : bodyReadsOpen s (.io (.session index action)) = true) :
    WordsFit (s.onSession index session (session', effects)) := by
  rcases Session.step_outcome hstep with ⟨hid, hout⟩
  have hentry : (session.id, session.closed) ∈ s.profile :=
    List.mem_map.mpr ⟨session, List.mem_of_getElem? hobject, rfl⟩
  have hword := h.words _ hentry
  have hprofile := s.profile_set index hid
  cases hout with
  | silent hclosed =>
      refine h.update hobject hprofile ?_ (fun id _ => rfl) rfl rfl
      rw [hclosed]
      exact hword
  | receives size data haction hreader hclosed =>
      rw [haction] at hcond
      -- The condition: the body is handled while the session is open.
      have hopen := closed_of_bodyReadsOpen hcond hobject hreader
      rw [hopen] at hclosed hword
      refine h.update hobject hprofile ?_ (fun id hne => packetKinds_push_other hne) rfl rfl
      rw [hclosed]
      rcases packetKinds_push_self s.queue ⟨.data, session.id, data⟩ with hk | hk
      · exact hk ▸ wordFor_data hword
      · exact hk ▸ hword
  | closes hopen hclosed =>
      rw [hopen] at hword
      refine h.update hobject hprofile ?_ (fun id hne => packetKinds_push_other hne) rfl rfl
      rw [hclosed]
      -- A `Disconnect` that is dropped ends the word all the same.
      rcases packetKinds_push_self s.queue ⟨.disconnect, session.id, []⟩ with hk | hk
      · exact hk ▸ wordFor_disconnect hword
      · rw [show packetKinds ((s.onSession index session (session', [.close])).queue.pushed)
          session.id = packetKinds s.queue.pushed session.id from hk]
        exact sessionWord_of_wordFor hword

/-- A fresh id gets its `Connect`, if there is room for it. -/
theorem wordsFit_accept {s : Server} (h : WordsFit s) (hfew : s.onAccept.accepts < 2 ^ 32) :
    WordsFit s.onAccept := by
  unfold Server.onAccept at hfew ⊢
  by_cases hdown : s.queue.shuttingDown = true
  · rw [if_pos hdown]
    exact h
  rw [if_neg hdown] at hfew ⊢
  have hnextId : (s.nextId + 1).toNat = (s.accepts + 1 + 1) % 2 ^ 32 := by
    rw [UInt32.toNat_add, h.next]
    simp only [UInt32.reduceToNat]
    omega
  rcases s.queue.pushed_pushPacket ⟨.connect, s.nextId, []⟩ with ⟨hok, hpushed⟩ | ⟨hok, hpushed⟩
  · simp only [hok, if_true] at hfew ⊢
    -- Fewer than 2^32 ids were handed out, so this one is new.
    have hid : s.nextId.toNat = s.accepts + 1 := by
      rw [h.next]
      omega
    have hfresh : s.nextId ∉ s.profile.map Prod.fst := by
      intro hmem
      rcases List.mem_map.mp hmem with ⟨p, hp, heq⟩
      have hle := h.allocated p hp
      rw [heq] at hle
      omega
    have hprofile := s.profile_start s.nextId
    refine ⟨?_, fun p hp => ?_, hnextId, fun id hid' => ?_, fun p hp => ?_⟩
    · unfold Server.profile
      rw [hprofile, List.map_append, List.map_cons, List.map_nil, List.nodup_append_comm,
        List.singleton_append, List.nodup_cons]
      exact ⟨hfresh, h.nodup⟩
    · unfold Server.profile at hp
      rw [hprofile] at hp
      rcases List.mem_append.mp hp with hp | hp
      · exact (h.allocated p hp).trans (Nat.le_succ _)
      · rw [List.mem_singleton] at hp
        rw [hp]
        exact hid.le
    · unfold Server.profile at hid'
      rw [hprofile, List.map_append, List.mem_append, not_or] at hid'
      simp only [List.map_cons, List.map_nil, List.mem_singleton] at hid'
      simp only [hpushed, packetKinds_append]
      rw [h.unknown id hid'.1, if_neg (fun heq => hid'.2 heq.symm), List.append_nil]
    · unfold Server.profile at hp
      rw [hprofile] at hp
      simp only [hpushed, packetKinds_append]
      rcases List.mem_append.mp hp with hp | hp
      · have hne : ¬ s.nextId = p.1 := fun heq => hfresh (heq ▸ List.mem_map_of_mem hp)
        rw [if_neg hne, List.append_nil]
        exact h.words p hp
      · rw [List.mem_singleton] at hp
        rw [hp, if_pos rfl, h.unknown s.nextId hfresh, List.nil_append]
        exact ⟨0, rfl⟩
  · simp only [hok, Bool.false_eq_true, if_false]
    refine ⟨h.nodup, fun p hp => (h.allocated p hp).trans (Nat.le_succ _), hnextId, ?_, ?_⟩
    · simp only [hpushed]
      exact h.unknown
    · simp only [hpushed]
      exact h.words

/-- `send` only posts a handler, if it does anything. -/
theorem Server.send_eq (s : Server) (sessionId : UInt32) (data : Bytes) :
    ∃ strand, s.send sessionId data = { s with strand } := by
  unfold send
  simp only
  split_ifs
  all_goals exact ⟨_, rfl⟩

/-- While the server runs, `send` posts the frame of what it does not refuse. -/
theorem Server.send_strand {s : Server} (h : s.queue.shuttingDown = false) (id : UInt32)
    (data : Bytes) :
    s.send id data = { s with
      strand := s.strand ++
        (if Sendable data then [.send id (Wire.buildDataFrame data)] else []) } := by
  unfold send
  by_cases hsend : Sendable data
  · have hne := buildDataFrame_ne_nil hsend
    rw [if_neg ((refused_iff data).not.mpr (not_not.mpr hsend)), if_neg (by simp [h]),
      if_pos hsend]
    simp only
    rw [if_neg (by rw [List.isEmpty_iff]; exact hne)]
  · rw [if_pos ((refused_iff data).mpr hsend), if_neg hsend, List.append_nil]

/-- `disconnect` only posts a handler, if it does anything. -/
theorem Server.disconnect_eq (s : Server) (sessionId : UInt32) :
    ∃ strand, s.disconnect sessionId = { s with strand } := by
  unfold disconnect
  split_ifs
  all_goals exact ⟨_, rfl⟩

/-- A handler is the accept handler, one of a session, or one that touches
    neither the queue nor the profile. -/
theorem Server.ioStep_cases {s t : Server} {action : IoAction} (h : s.ioStep action = some t) :
    (action = .accept ∧ t = s.onAccept) ∨
    (∃ index session session' sessionAction effects,
      action = .session index sessionAction ∧ s.objects[index]? = some session ∧
      session.step sessionAction = some (session', effects) ∧
      t = s.onSession index session (session', effects)) ∨
    (t.profile = s.profile ∧ t.queue = s.queue ∧ t.nextId = s.nextId ∧
      t.accepts = s.accepts) := by
  cases action with
  | accept =>
      simp only [ioStep, Option.some.injEq] at h
      exact Or.inl ⟨rfl, h.symm⟩
  | task =>
      unfold ioStep at h
      cases hstrand : s.strand with
      | nil => simp only [hstrand, reduceCtorEq] at h
      | cons task strand =>
          simp only [hstrand, Option.some.injEq] at h
          have htask := profile_onTask { s with strand } task
          rw [h] at htask
          exact Or.inr (Or.inr htask)
  | session index sessionAction =>
      unfold ioStep at h
      cases hobject : s.objects[index]? with
      | none => simp only [hobject, reduceCtorEq] at h
      | some session =>
          simp only [hobject, Option.map_eq_some_iff] at h
          rcases h with ⟨⟨session', effects⟩, hstep, ht⟩
          exact Or.inr (Or.inl ⟨index, session, session', sessionAction, effects, rfl,
            hobject, hstep, ht.symm⟩)

/-- A step is an accept, a handler of one session, or something that neither
    pushes nor changes the profile. -/
theorem Server.step_cases {s t : Server} {action : Server.Action}
    (h : s.step action = some t) :
    t = s.onAccept ∨
    (∃ index session session' sessionAction effects,
      action = .io (.session index sessionAction) ∧ s.objects[index]? = some session ∧
      session.step sessionAction = some (session', effects) ∧
      t = s.onSession index session (session', effects)) ∨
    (t.profile = s.profile ∧ t.queue.pushed = s.queue.pushed ∧ t.nextId = s.nextId ∧
      t.accepts = s.accepts) := by
  cases action with
  | io action =>
      rcases ioStep_cases h with ⟨_, ht⟩ | ⟨index, session, session', sessionAction, effects,
        rfl, hsession⟩ | ⟨hprofile, hqueue, hcounters⟩
      · exact Or.inl ht
      · exact Or.inr (Or.inl ⟨index, session, session', sessionAction, effects, rfl, hsession⟩)
      · exact Or.inr (Or.inr ⟨hprofile, congrArg PacketQueue.pushed hqueue, hcounters⟩)
  | poll =>
      right; right
      unfold step PacketQueue.pollPacket at h
      cases hpackets : s.queue.packets with
      | nil => simp only [hpackets, Option.map_none, reduceCtorEq] at h
      | cons packet rest =>
          simp only [hpackets, Option.map_some, Option.some.injEq] at h
          rw [← h]
          exact ⟨rfl, rfl, rfl, rfl⟩
  | send id data =>
      rcases send_eq s id data with ⟨strand, hsend⟩
      simp only [step, Option.some.injEq, hsend] at h
      rw [← h]
      exact Or.inr (Or.inr ⟨rfl, rfl, rfl, rfl⟩)
  | disconnect id =>
      rcases disconnect_eq s id with ⟨strand, hdisconnect⟩
      simp only [step, Option.some.injEq, hdisconnect] at h
      rw [← h]
      exact Or.inr (Or.inr ⟨rfl, rfl, rfl, rfl⟩)
  | shutdown =>
      right; right
      simp only [step, Option.some.injEq, shutdown] at h
      rw [← h]
      split_ifs <;> exact ⟨rfl, rfl, rfl, rfl⟩

/-- The callbacks of a session accept nobody. -/
theorem Server.accepts_onSession (s : Server) (index : Nat) (session : Session)
    (result : Session × List SessionEffect) :
    (s.onSession index session result).accepts = s.accepts := by
  unfold onSession
  have hfold : ∀ (effects : List SessionEffect) (u : Server),
      (effects.foldl (applyEffect session.id) u).accepts = u.accepts := by
    intro effects
    induction effects with
    | nil => exact fun u => rfl
    | cons effect effects ih =>
        intro u
        rw [List.foldl_cons, ih]
        cases effect <;> rfl
  exact hfold result.2 _

theorem Server.accepts_mono {s t : Server} {action : Server.Action}
    (h : s.step action = some t) : s.accepts ≤ t.accepts := by
  rcases step_cases h with ht | ⟨index, session, session', _, effects, _, _, _, ht⟩ | ht
  · rw [ht]
    unfold onAccept
    simp only
    split_ifs
    · exact le_rfl
    · exact Nat.le_succ _
    · exact Nat.le_succ _
  · rw [ht, accepts_onSession]
  · rw [ht.2.2.2]

/-- The words fit as long as ids do not repeat. -/
theorem wordsFit_step (s : Server) (action : Server.Action) (t : Server)
    (h : s.accepts < 2 ^ 32 → WordsFit s) (hcond : bodyReadsOpen s action = true)
    (hstep : s.step action = some t) : t.accepts < 2 ^ 32 → WordsFit t := by
  intro hfew
  have hs := h (lt_of_le_of_lt (Server.accepts_mono hstep) hfew)
  rcases Server.step_cases hstep with ht | ⟨index, session, session', sessionAction, effects,
    haction, hobject, hsession, ht⟩ | ⟨hprofile, hpushed, hnext, haccepts⟩
  · rw [ht] at hfew ⊢
    exact wordsFit_accept hs hfew
  · rw [ht]
    exact wordsFit_session hs hobject hsession (haction ▸ hcond)
  · exact hs.congr hprofile hpushed hnext haccepts

theorem wordsFit_init : WordsFit {} where
  nodup := List.nodup_nil
  allocated := fun _ hp => absurd hp List.not_mem_nil
  next := rfl
  unknown := fun _ _ => rfl
  words := fun _ hp => absurd hp List.not_mem_nil

/-- In every run in which no body read is handled on a closed session, and
    with fewer than 2^32 accepted connections, the packets pushed for each
    session are one `Connect`, then data, then at most one `Disconnect`, and no
    packet is pushed for any other id. -/
theorem server_words (actions : List Server.Action) (s : Server)
    (hrun : Machine.run Server.step {} actions = some s)
    (hcond : Machine.Respects Server.step bodyReadsOpen {} actions = true)
    (hfew : s.accepts < 2 ^ 32) :
    (∀ session ∈ s.objects, SessionWord (packetKinds s.queue.pushed session.id)) ∧
    (∀ id, (∀ session ∈ s.objects, session.id ≠ id) → packetKinds s.queue.pushed id = []) := by
  have hfit := Machine.invariant_of_respects wordsFit_step hrun hcond (fun _ => wordsFit_init) hfew
  refine ⟨fun session hs => ?_, fun id hid => ?_⟩
  · exact sessionWord_of_wordFor (hfit.words _ (List.mem_map.mpr ⟨session, hs, rfl⟩))
  · refine hfit.unknown id (fun hmem => ?_)
    unfold Server.profile at hmem
    rw [List.map_map] at hmem
    rcases List.mem_map.mp hmem with ⟨session, hs, heq⟩
    exact hid session hs heq

/-- A client sends one byte and is then disconnected by the game thread. -/
def byteThenDisconnect : List Server.Action :=
  [.io .accept, .io (.session 0 (.arrive (Wire.writeHeader 0 1))), .io (.session 0 .read),
    .io (.session 0 (.arrive [7])), .io (.session 0 .read), .poll, .disconnect 1, .io .task,
    .io (.session 0 .task)]

theorem server_words_byteThenDisconnect :
    ∃ s, Machine.run Server.step {} byteThenDisconnect = some s ∧
      packetKinds s.queue.pushed 1 = [.connect, .data, .disconnect] ∧
      ∀ session ∈ s.objects, SessionWord (packetKinds s.queue.pushed session.id) := by
  have hend : (Machine.run Server.step {} byteThenDisconnect).map (fun s => (s.accepts,
      packetKinds s.queue.pushed 1)) = some (1, [.connect, .data, .disconnect]) := by
    decide +kernel
  rcases Option.map_eq_some_iff.mp hend with ⟨s, hrun, hs⟩
  rw [Prod.mk.injEq] at hs
  refine ⟨s, hrun, hs.2, ?_⟩
  exact (server_words byteThenDisconnect s hrun (by decide +kernel) (by rw [hs.1]; decide)).1

/-- The same client, with the close handler run between the completion of the
    body read and its handler. -/
def disconnectBeforeByte : List Server.Action :=
  [.io .accept, .io (.session 0 (.arrive (Wire.writeHeader 0 1))), .io (.session 0 .read),
    .poll, .disconnect 1, .io .task, .io (.session 0 (.arrive [7])), .io (.session 0 .task),
    .io (.session 0 .read)]

/-- The payload is pushed after the `Disconnect`. -/
theorem not_sessionWord_disconnectBeforeByte :
    ∃ s, Machine.run Server.step {} disconnectBeforeByte = some s ∧ s.accepts < 2 ^ 32 ∧
      ∃ session ∈ s.objects, ¬ SessionWord (packetKinds s.queue.pushed session.id) := by
  have hend : (Machine.run Server.step {} disconnectBeforeByte).map (fun s => (s.accepts,
      s.objects.map Session.id, packetKinds s.queue.pushed 1))
        = some (1, [1], [.connect, .disconnect, .data]) := by decide +kernel
  rcases Option.map_eq_some_iff.mp hend with ⟨s, hrun, hs⟩
  rw [Prod.mk.injEq, Prod.mk.injEq] at hs
  refine ⟨s, hrun, by rw [hs.1]; decide, ?_⟩
  have hmem : (1 : UInt32) ∈ s.objects.map Session.id := by
    rw [hs.2.1]
    exact List.mem_singleton.mpr rfl
  rcases List.mem_map.mp hmem with ⟨session, hsession, hid⟩
  refine ⟨session, hsession, ?_⟩
  rw [hid, hs.2.2]
  rintro ⟨n, h | h⟩
  · -- A `Disconnect` where only data may stand.
    rw [List.cons.injEq] at h
    have hdata : PacketType.disconnect = .data :=
      List.eq_of_mem_replicate (h.2 ▸ List.mem_cons_self)
    exact absurd hdata (by decide)
  · have hlast := congrArg List.getLast? h
    rw [← List.cons_append, List.getLast?_concat] at hlast
    exact absurd hlast (by decide)

end ProjectNight
