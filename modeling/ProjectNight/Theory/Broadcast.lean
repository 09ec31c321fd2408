import ProjectNight.Core.Broadcast
import ProjectNight.Theory.Farewell
import ProjectNight.Theory.Pooling
import ProjectNight.Theory.SessionTable

/-!
# Broadcast

A broadcast is a send to everyone. `broadcast` builds one frame and the posted
handler clones it for each session through the recycling pool; `send` builds a
frame of its own for each call. Neither the stack of the calling thread nor
that of the handler's thread can be told from the frames (`data_buildDataFrame`
and `data_cloneFrame`), so the loop of the handler is the handlers of as many
sends, one after the other.

That each session gets the frame once needs that no object is in the table
twice. An entry of the table names an object with the id of the entry
(`Listed`). This holds in every run, also after `next_id` has wrapped around
and during a shutdown, so two entries never share an object.

## Main definitions

* `Listed`: Every entry of the table names an object with its id.

## Theorems

* `listed_step`, `listed_run`: The table keeps its objects.
* `foldl_enqueueClone`: The loop without the pool.
* `objects_sendAll`: Every object once.
* `broadcast_is_sendAll`: A broadcast is a send to everyone.
-/

namespace ProjectNight

open Wire Std

namespace Server

/-! ### The objects of the table -/

def Listed (s : Server) : Prop :=
  ∀ (id : UInt32) (index : Nat), s.sessions[id]? = some index →
    ∃ session : Session, s.objects[index]? = some session ∧ session.id = id

/-- No object is in the table twice. -/
theorem Listed.unique {s : Server} (h : s.Listed) {id id' : UInt32} {index : Nat}
    (hid : s.sessions[id]? = some index) (hid' : s.sessions[id']? = some index) : id = id' := by
  rcases h id index hid with ⟨session, hobject, rfl⟩
  rcases h id' index hid' with ⟨session', hobject', rfl⟩
  rw [hobject, Option.some.injEq] at hobject'
  rw [hobject']

theorem Listed.mono {s t : Server} (h : s.Listed) (hprofile : t.profile = s.profile)
    (hsessions : ∀ (id : UInt32) (index : Nat),
      t.sessions[id]? = some index → s.sessions[id]? = some index) :
    t.Listed := by
  intro id index hindex
  rcases h id index (hsessions id index hindex) with ⟨session, hobject, rfl⟩
  have hentry := getElem?_profile hobject
  rw [← hprofile] at hentry
  unfold profile at hentry
  rw [List.getElem?_map, Option.map_eq_some_iff] at hentry
  rcases hentry with ⟨session', hobject', heq⟩
  exact ⟨session', hobject', congrArg Prod.fst heq⟩

theorem listed_onAccept {s : Server} (h : s.Listed) : s.onAccept.Listed := by
  unfold onAccept
  simp only
  split_ifs with hdown hpushed
  · exact h
  · intro id index hindex
    simp only at hindex ⊢
    rw [TreeMap.getElem?_insertIfNew_ite] at hindex
    -- A new entry names the object that is appended; with an id that is still
    -- in the table the entry stays, and the new object is in no table.
    have hold : s.sessions[id]? = some index →
        ∃ session, (s.objects ++ [Session.start { id := s.nextId }])[index]? = some session ∧
          session.id = id := by
      intro hlookup
      rcases h id index hlookup with ⟨session, hobject, hid⟩
      refine ⟨session, ?_, hid⟩
      rw [List.getElem?_append_left (List.getElem?_eq_some_iff.mp hobject).1]
      exact hobject
    split_ifs at hindex with hid
    · cases hlookup : s.sessions[id]? with
      | none =>
          rw [hlookup, Option.getD_none, Option.some.injEq] at hindex
          refine ⟨Session.start { id := s.nextId }, ?_, hid⟩
          rw [← hindex, List.getElem?_concat_length]
      | some entry =>
          rw [hlookup, Option.getD_some] at hindex
          exact hold (hlookup.trans hindex)
    · exact hold hindex
  · exact h

theorem sessions_onSession (s : Server) (index : Nat) (session : Session)
    (result : Session × List SessionEffect) :
    (s.onSession index session result).sessions = s.sessions := by
  have hfold : ∀ (effects : List SessionEffect) (u : Server),
      (effects.foldl (applyEffect session.id) u).sessions = u.sessions := by
    intro effects
    induction effects with
    | nil => exact fun u => rfl
    | cons effect effects ih =>
        intro u
        rw [List.foldl_cons, ih]
        cases effect <;> rfl
  exact hfold result.2 _

theorem listed_onSession {s : Server} (h : s.Listed) {index : Nat} {session session' : Session}
    {effects : List SessionEffect} (hobject : s.objects[index]? = some session)
    (hid : session'.id = session.id) :
    (s.onSession index session (session', effects)).Listed := by
  intro id other hother
  rw [sessions_onSession] at hother
  rcases h id other hother with ⟨found, hfound, rfl⟩
  rw [objects_onSession, List.getElem?_set]
  split_ifs with hindex hlt
  · rw [hindex, hfound, Option.some.injEq] at hobject
    exact ⟨session', rfl, hid.trans (congrArg Session.id hobject).symm⟩
  · exact absurd (hindex ▸ (List.getElem?_eq_some_iff.mp hfound).1) hlt
  · exact ⟨found, hfound, rfl⟩

theorem listed_onTask {s : Server} (h : s.Listed) (task : ServerTask) : (s.onTask task).Listed := by
  refine h.mono (profile_onTask s task).1 (fun id index hindex => ?_)
  by_cases herase : ∃ erased, task = .erase erased
  · rcases herase with ⟨erased, rfl⟩
    rw [onTask, TreeMap.getElem?_erase_ite] at hindex
    split_ifs at hindex
    exact hindex
  · rw [(table_onTask s task).2 (fun erased heq => herase ⟨erased, heq⟩)] at hindex
    exact hindex

theorem listed_step {s t : Server} {action : Server.Action} (h : s.Listed)
    (hstep : s.step action = some t) : t.Listed := by
  cases action with
  | io action =>
      cases action with
      | accept =>
          simp only [step, ioStep, Option.some.injEq] at hstep
          exact hstep ▸ listed_onAccept h
      | task =>
          simp only [step, ioStep] at hstep
          cases hstrand : s.strand with
          | nil => simp only [hstrand, reduceCtorEq] at hstep
          | cons task strand =>
              simp only [hstrand, Option.some.injEq] at hstep
              have hrest : ({ s with strand } : Server).Listed := h
              exact hstep ▸ listed_onTask hrest task
      | session index action =>
          simp only [step, ioStep] at hstep
          cases hobject : s.objects[index]? with
          | none => simp only [hobject, reduceCtorEq] at hstep
          | some session =>
              simp only [hobject, Option.map_eq_some_iff] at hstep
              rcases hstep with ⟨⟨session', effects⟩, hsession, rfl⟩
              exact listed_onSession h hobject (Session.step_outcome hsession).1
  | poll =>
      simp only [step, Option.map_eq_some_iff] at hstep
      rcases hstep with ⟨polled, _, rfl⟩
      exact h
  | send id data =>
      rcases send_eq s id data with ⟨strand, hsend⟩
      simp only [step, Option.some.injEq, hsend] at hstep
      exact hstep ▸ h
  | disconnect id =>
      rcases disconnect_eq s id with ⟨strand, hdisconnect⟩
      simp only [step, Option.some.injEq, hdisconnect] at hstep
      exact hstep ▸ h
  | shutdown =>
      simp only [step, Option.some.injEq, shutdown] at hstep
      rw [← hstep]
      split_ifs
      · exact h
      · exact h

/-! ### The loop of the handler -/

/-- The clones are the template, so the loop enqueues one frame after the
    other and the pool is not seen. -/
theorem foldl_enqueueClone {frameTemplate : Buffer} (hfits : frameTemplate.data.length ≤ blockSize)
    (ids : List UInt32) (s : Server) (pool : List Buffer) :
    (ids.foldl (enqueueClone frameTemplate) (s, pool)).1
      = ids.foldl (fun s id => s.withSession id
          (fun session => session.enqueueRawFrame frameTemplate.data)) s := by
  induction ids generalizing s pool with
  | nil => rfl
  | cons id ids ih =>
      rw [List.foldl_cons, List.foldl_cons]
      have hclone := BufferPool.data_cloneFrame pool hfits
      simp only [enqueueClone, hclone]
      exact ih _ _

/-- Calls on sessions change nothing but objects. -/
theorem withSession_eq (s : Server) (id : UInt32) (f : Session → Session) :
    s.withSession id f = { s with objects := (s.withSession id f).objects } := by
  unfold withSession
  cases s.sessions[id]? <;> rfl

theorem foldl_withSession_eq (f : Session → Session) (ids : List UInt32) (s : Server) :
    ids.foldl (fun s id => s.withSession id f) s
      = { s with objects := (ids.foldl (fun s id => s.withSession id f) s).objects } := by
  induction ids generalizing s with
  | nil => rfl
  | cons id ids ih =>
      rw [List.foldl_cons, ih, withSession_eq]

/-- A call on each of the sessions in a list of ids reaches each object once. -/
theorem objects_sendAll {s : Server} (h : s.Listed) (f : Session → Session)
    {ids : List UInt32} (hnodup : ids.Nodup) (index : Nat) :
    (ids.foldl (fun s id => s.withSession id f) s).objects[index]?
      = if ∃ id ∈ ids, s.sessions[id]? = some index then s.objects[index]?.map f
        else s.objects[index]? := by
  -- The table stays, so the id that leads to an object stays the same; once
  -- it has been visited it does not come again.
  have hfold : ∀ (ids : List UInt32) (t : Server), ids.Nodup → t.sessions = s.sessions →
      (ids.foldl (fun s id => s.withSession id f) t).objects[index]?
        = if ∃ id ∈ ids, s.sessions[id]? = some index then t.objects[index]?.map f
          else t.objects[index]? := by
    intro ids
    induction ids with
    | nil => intro t _ _; simp
    | cons id ids ih =>
        intro t hnodup htable
        rw [List.nodup_cons] at hnodup
        rw [List.foldl_cons, ih _ hnodup.2 ((table_withSession t id f).1.trans htable),
          objects_withSession, htable]
        by_cases hhead : s.sessions[id]? = some index
        · have hrest : ¬ ∃ other ∈ ids, s.sessions[other]? = some index := by
            rintro ⟨other, hmem, hother⟩
            exact hnodup.1 (h.unique hhead hother ▸ hmem)
          rw [if_neg hrest, if_pos hhead, if_pos ⟨id, List.mem_cons_self, hhead⟩]
        · rw [if_neg hhead]
          refine if_congr ?_ rfl rfl
          constructor
          · rintro ⟨other, hmem, hother⟩
            exact ⟨other, List.mem_cons_of_mem _ hmem, hother⟩
          · rintro ⟨other, hmem, hother⟩
            rcases List.mem_cons.mp hmem with rfl | hmem
            · exact absurd hother hhead
            · exact ⟨other, hmem, hother⟩
  exact hfold ids s hnodup rfl

/-- The ids the handler visits are those of the table. -/
theorem mem_visited (it : Iteration) (s : Server) (id : UInt32) :
    id ∈ it.order (UnorderedSet.ofKeys s.sessions.keys) ↔ ∃ index, s.sessions[id]? = some index := by
  rw [it.mem_order, UnorderedSet.mem_ofKeys, ExtTreeMap.mem_keys,
    ExtTreeMap.mem_iff_isSome_getElem?, Option.isSome_iff_exists]

theorem listed_onBroadcast {s : Server} (h : s.Listed) (it : Iteration) (pool : List Buffer)
    (frameTemplate : Buffer) : (s.onBroadcast it pool frameTemplate).1.Listed := by
  have hfold : ∀ (ids : List UInt32) (state : Server × List Buffer), state.1.Listed →
      (ids.foldl (enqueueClone frameTemplate) state).1.Listed := by
    intro ids
    induction ids with
    | nil => exact fun state h => h
    | cons id ids ih =>
        intro state hstate
        refine ih _ (hstate.mono ?_ ?_)
        · exact (profile_withSession state.1 id
            (fun session => session.enqueueRawFrame
              (BufferPool.cloneFrame state.2 frameTemplate.data).1.data)
            (fun session => ⟨rfl, rfl⟩)).1
        · intro other index hother
          simp only [enqueueClone] at hother
          rw [(table_withSession _ _ _).1] at hother
          exact hother
  unfold onBroadcast
  split_ifs
  · exact h
  · exact hfold _ (s, pool) h

theorem listed_run {actions : List BroadcastAction} {s : Server}
    (hrun : Machine.run broadcastStep {} actions = some s) : s.Listed := by
  refine Machine.invariant (P := Listed) ?_ hrun ?_
  · intro s action t h hstep
    cases action with
    | step action => exact listed_step h hstep
    | onBroadcast it pool frameTemplate =>
        simp only [broadcastStep, Option.some.injEq] at hstep
        exact hstep ▸ listed_onBroadcast h it pool frameTemplate
  · intro id index hindex
    exact absurd hindex (by simp)

/-! ### Broadcast and send -/

/-- `send` with the stack left out is the `send` of `Core.Server`. -/
theorem sendFrom_eq_send (pool : List Buffer) (s : Server) (id : UInt32) (data : Bytes) :
    (s.sendFrom pool id data).1 = s.send id data := by
  unfold sendFrom send
  by_cases hsend : Sendable data
  · have hguard := (refused_iff data).not.mpr (not_not.mpr hsend)
    have hframe := BufferPool.data_buildDataFrame pool hsend.2
    have hne := buildDataFrame_ne_nil hsend
    rw [if_neg hguard, if_neg hguard]
    simp only [hframe, List.isEmpty_iff, hne, if_false]
    split_ifs <;> rfl
  · rw [if_pos ((refused_iff data).mpr hsend), if_pos ((refused_iff data).mpr hsend)]

/-- `send` posts nothing when it rejects, and otherwise one handler with the
    frame. -/
theorem sendFrom_eq (pool : List Buffer) (s : Server) (id : UInt32) (data : Bytes)
    (hup : s.queue.shuttingDown = false) :
    (¬ Sendable data → (s.sendFrom pool id data).1 = s) ∧
    (Sendable data → (s.sendFrom pool id data).1
      = { s with strand := s.strand ++ [.send id (Wire.buildDataFrame data)] }) := by
  rw [sendFrom_eq_send, send_strand hup]
  refine ⟨fun hrejects => ?_, fun hsend => ?_⟩
  · rw [if_neg hrejects, List.append_nil]
  · rw [if_pos hsend]

theorem broadcast_eq (pool : List Buffer) (s : Server) (data : Bytes)
    (hup : s.queue.shuttingDown = false) :
    (¬ Sendable data → (s.broadcast pool data).1 = none) ∧
    (Sendable data → ∃ frameTemplate, (s.broadcast pool data).1 = some frameTemplate ∧
      frameTemplate.data = Wire.buildDataFrame data) := by
  unfold broadcast
  refine ⟨fun hrejects => ?_, fun hsend => ?_⟩
  · rw [if_pos ((refused_iff data).mpr hrejects)]
  · have hframe := BufferPool.data_buildDataFrame pool hsend.2
    have hne := buildDataFrame_ne_nil hsend
    rw [if_neg ((refused_iff data).not.mpr (not_not.mpr hsend)), hup, if_neg Bool.false_ne_true]
    refine ⟨(BufferPool.buildDataFrame pool data).1, ?_, hframe⟩
    simp only [hframe, List.isEmpty_iff, hne, if_false]

/-- While the server shuts down neither call posts anything. -/
theorem shuttingDown_rejects (pool pool' : List Buffer) (s : Server) (id : UInt32) (data : Bytes)
    (hdown : s.queue.shuttingDown = true) :
    (s.broadcast pool data).1 = none ∧ (s.sendFrom pool' id data).1 = s := by
  unfold broadcast sendFrom
  rw [hdown, if_pos rfl, if_pos rfl]
  constructor <;> split_ifs <;> rfl

theorem broadcast_eq_some {pool : List Buffer} {s : Server} {data : Bytes} {frameTemplate : Buffer}
    (h : (s.broadcast pool data).1 = some frameTemplate) :
    s.queue.shuttingDown = false ∧ Sendable data ∧
      frameTemplate.data = Wire.buildDataFrame data := by
  cases hdown : s.queue.shuttingDown with
  | true =>
      rw [(shuttingDown_rejects pool pool s 0 data hdown).1] at h
      exact absurd h (Option.some_ne_none _).symm
  | false =>
      by_cases hsend : Sendable data
      · rcases (broadcast_eq pool s data hdown).2 hsend with ⟨posted, hposted, hdata⟩
        rw [hposted, Option.some.injEq] at h
        exact ⟨rfl, hsend, h ▸ hdata⟩
      · rw [(broadcast_eq pool s data hdown).1 hsend] at h
        exact absurd h (Option.some_ne_none _).symm

/-- The handlers of sends to a list of sessions, one after the other. -/
theorem foldl_onTask_send (frame : Bytes) (ids : List UInt32) (s : Server) :
    ids.foldl (fun s id => s.onTask (.send id frame)) s
      = if s.queue.shuttingDown then s
        else ids.foldl (fun s id => s.withSession id
          (fun session => session.enqueueRawFrame frame)) s := by
  induction ids generalizing s with
  | nil => exact (ite_self s).symm
  | cons id ids ih =>
      rw [List.foldl_cons, List.foldl_cons, ih, onTask]
      cases hdown : s.queue.shuttingDown with
      | true => simp [hdown]
      | false =>
          have hqueue := (profile_withSession s id
            (fun session => session.enqueueRawFrame frame) (fun session => ⟨rfl, rfl⟩)).2.1
          simp [hqueue, hdown]

/-- The handler of a broadcast is the handlers of sends of its template to the
    sessions of the table. -/
theorem onBroadcast_eq {frameTemplate : Buffer} (hfits : frameTemplate.data.length ≤ blockSize)
    (it : Iteration) (pool : List Buffer) (s : Server) :
    (s.onBroadcast it pool frameTemplate).1
      = (it.order (UnorderedSet.ofKeys s.sessions.keys)).foldl
          (fun s id => s.onTask (.send id frameTemplate.data)) s := by
  rw [foldl_onTask_send]
  unfold onBroadcast
  split_ifs
  · rfl
  · exact foldl_enqueueClone hfits _ s pool

/-- `broadcast` and `send` reject the same payloads. A frame that is not
    rejected is not empty, and it is the one `send` posts for any session,
    whatever is on the stacks of the threads. When the handler runs, in any
    later or other state of any run and in any order over the table, it does
    what the handlers of sends to the sessions of the table would do: every
    session in the table gets the frame once, no other session gets anything,
    and nothing else changes. -/
theorem broadcast_is_sendAll (caller : Server) (data : Bytes) (actions : List BroadcastAction)
    (s : Server) (hrun : Machine.run broadcastStep {} actions = some s) :
    (∀ pool pool' id,
      ((caller.broadcast pool data).1 = none ↔ (caller.sendFrom pool' id data).1 = caller) ∧
      (caller.queue.shuttingDown = false →
        ((caller.broadcast pool data).1 = none ↔ data = [] ∨ 2048 < data.length))) ∧
    ∀ pool frameTemplate, (caller.broadcast pool data).1 = some frameTemplate →
      frameTemplate.data ≠ [] ∧
      (∀ pool' id, (caller.sendFrom pool' id data).1
        = { caller with strand := caller.strand ++ [.send id frameTemplate.data] }) ∧
      ∀ it pool',
        let s' := (s.onBroadcast it pool' frameTemplate).1
        s' = (it.order (UnorderedSet.ofKeys s.sessions.keys)).foldl
          (fun s id => s.onTask (.send id frameTemplate.data)) s ∧
        s' = { s with objects := s'.objects } ∧
        (s.queue.shuttingDown = false → ∀ (id : UInt32) (index : Nat),
          s.sessions[id]? = some index →
          ∃ session : Session, s.objects[index]? = some session ∧ session.id = id ∧
            s'.objects[index]? = some (session.enqueueRawFrame frameTemplate.data)) ∧
        (∀ index : Nat, (∀ id : UInt32, s.sessions[id]? ≠ some index) →
          s'.objects[index]? = s.objects[index]?) := by
  refine ⟨fun pool pool' id => ?_, fun pool frameTemplate hposted => ?_⟩
  · cases hdown : caller.queue.shuttingDown with
    | true =>
        rcases shuttingDown_rejects pool pool' caller id data hdown with ⟨hbroadcast, hsend⟩
        exact ⟨⟨fun _ => hsend, fun _ => hbroadcast⟩, fun h => absurd h Bool.false_ne_true.symm⟩
    | false =>
        have hbroadcast := broadcast_eq pool caller data hdown
        have hsend := sendFrom_eq pool' caller id data hdown
        have hrefused : (data = [] ∨ 2048 < data.length) ↔ ¬ Sendable data := by
          rw [← refused_iff, List.isEmpty_iff]
          exact Iff.rfl
        by_cases hsendable : Sendable data
        · rcases hbroadcast.2 hsendable with ⟨frameTemplate, hposted, _⟩
          rw [hposted, hsend.2 hsendable]
          have hstrand : ({ caller with
              strand := caller.strand ++ [.send id (Wire.buildDataFrame data)] } : Server)
                ≠ caller := by
            intro heq
            have hlength := congrArg (fun s : Server => s.strand.length) heq
            simp at hlength
          exact ⟨⟨fun h => absurd h (Option.some_ne_none _), fun h => absurd h hstrand⟩,
            fun _ => ⟨fun h => absurd h (Option.some_ne_none _),
              fun h => absurd hsendable (hrefused.mp h)⟩⟩
        · rw [hbroadcast.1 hsendable, hsend.1 hsendable]
          exact ⟨⟨fun _ => rfl, fun _ => rfl⟩,
            fun _ => ⟨fun _ => hrefused.mpr hsendable, fun _ => rfl⟩⟩
  · rcases broadcast_eq_some hposted with ⟨hup, hsendable, hdata⟩
    have hne : frameTemplate.data ≠ [] := by
      rw [hdata]
      exact buildDataFrame_ne_nil hsendable
    have hfits : frameTemplate.data.length ≤ blockSize := by
      rw [hdata]
      exact BufferPool.length_buildDataFrame_le hsendable
    refine ⟨hne, fun pool' id => ?_, fun it pool' => ?_⟩
    · rw [hdata]
      exact (sendFrom_eq pool' caller id data hup).2 hsendable
    have hhandler := onBroadcast_eq hfits it pool' s
    have hlisted := listed_run hrun
    have hnodup := it.nodup_order (UnorderedSet.ofKeys s.sessions.keys)
    refine ⟨hhandler, ?_, fun hrunning id index hindex => ?_, fun index hindex => ?_⟩
    · rw [hhandler, foldl_onTask_send]
      split_ifs
      · rfl
      · exact foldl_withSession_eq _ _ s
    · rcases hlisted id index hindex with ⟨session, hobject, hid⟩
      have hvisited := (mem_visited it s id).mpr ⟨index, hindex⟩
      refine ⟨session, hobject, hid, ?_⟩
      rw [hhandler, foldl_onTask_send, hrunning, if_neg Bool.false_ne_true,
        objects_sendAll hlisted _ hnodup, if_pos ⟨id, hvisited, hindex⟩, hobject, Option.map_some]
    · rw [hhandler, foldl_onTask_send]
      split_ifs
      · rfl
      · rw [objects_sendAll hlisted _ hnodup, if_neg]
        rintro ⟨id, _, hid⟩
        exact hindex id hid

/-- Two sessions, and a stack with a used buffer on it. -/
theorem broadcast_is_sendAll_two :
    ∃ s frameTemplate,
      Machine.run broadcastStep {} [.step (.io .accept), .step (.io .accept)] = some s ∧
      (({} : Server).broadcast [] [7]).1 = some frameTemplate ∧
      ∃ session : Session, s.objects[1]? = some session ∧ session.id = 2 ∧
        (s.onBroadcast .ascending [⟨[1, 2, 3], 2056, by decide⟩] frameTemplate).1.objects[1]?
          = some (session.enqueueRawFrame frameTemplate.data) := by
  have hrun : Machine.run broadcastStep {} [.step (.io .accept), .step (.io .accept)]
      = some ({} : Server).onAccept.onAccept := rfl
  have hmain := broadcast_is_sendAll {} [7] _ _ hrun
  rcases hposted : (({} : Server).broadcast [] [7]).1 with _ | frameTemplate
  · rcases ((hmain.1 [] [] 1).2 rfl).mp hposted with h | h
    · exact absurd h (List.cons_ne_nil _ _)
    · simp at h
  · refine ⟨_, frameTemplate, hrun, rfl, ?_⟩
    exact ((hmain.2 [] frameTemplate hposted).2.2 .ascending _).2.2.1 rfl 2 1 rfl

end Server

end ProjectNight
