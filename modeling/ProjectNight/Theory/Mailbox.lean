import ProjectNight.Core.Mailbox
import ProjectNight.Lib.Settle
import Mathlib.Tactic

/-!
# Packets Are Freed Once

The mailboxes use raw pointers across threads. This module shows that they do it
right, however the threads are interleaved: at any time every live packet is held
by exactly one of the handlers, the queue and the owner (`held`), so nobody reads
or deletes a packet that is gone; and the destructor comes to an end with every
packet deleted, also those that handlers pushed after `shutting_down` was set.
That it waits for the handlers before it empties the queue is what makes the last
part true.

The steps of a push are also too small to be seen. As long as the server is not
shutting down, the queue is the one of `Server.lean`, where a push is one step:
it takes place when the pointer enters the queue, or when the queue turns out to
be full. So a packet that was refused counts as dropped from then on, although
the counter is raised two accesses later.

## Main definitions

* `Pusher.pointers`, `Owner.pointers`, `held`: Who holds a packet.
* `Sound`: The invariant.
* `due`, `work`: The way through the destructor.
* `QueueOp`, `takesPlace`, `view`: The queue in which a push is one step.

## Theorems

* `sound_step`: Every access keeps the invariant.
* `work_step`: Every access of the destructor is one less to come.
* `view_step`: Every access is the pushes and polls that take place in it.
* `Mailbox.freed_once`: No access faults, and the destructor frees everything.
* `Mailbox.push_is_atomic`: The queue is the one of `Server.lean`.
-/

namespace ProjectNight

open Heap

variable {α : Type}

/-! ### Who holds a packet -/

def Pusher.pointers : Pusher α → List Nat
  | .holding pointer | .rechecked pointer | .dropping pointer | .refused pointer => [pointer]
  | _ => []

def Owner.pointers : Owner α → List Nat
  | .popped pointer | .moved pointer _ | .drained pointer => [pointer]
  | _ => []

namespace Mailbox

variable {kind : MailboxKind} {m m' : Mailbox α}

/-- All the pointers there are. -/
def held (m : Mailbox α) : List Nat :=
  m.pushers.flatMap Pusher.pointers ++ m.queue ++ m.owner.pointers

/-- What goes with where the owner stands. -/
def Fits (m : Mailbox α) : Owner α → Prop
  | .idle | .popped _ => m.shuttingDown = false
  | .moved pointer data => m.shuttingDown = false ∧ m.heap.read pointer = some data
  | .stopping => m.shuttingDown = true
  | .draining | .drained _ => m.shuttingDown = true ∧ ∀ pusher ∈ m.pushers, pusher = .done
  | .destroyed =>
    m.shuttingDown = true ∧ (∀ pusher ∈ m.pushers, pusher = .done) ∧ m.queue = []

structure Sound (m : Mailbox α) : Prop where
  owned : m.heap.Owned m.held
  safe : m.fault = false
  fits : m.Fits m.owner

theorem sound_initial : Sound ({} : Mailbox α) := ⟨owned_empty, rfl, rfl⟩

/-- The pointers, with those of one handler first. -/
theorem held_pusher {index : Nat} {pusher : Pusher α} (h : m.pushers[index]? = some pusher) :
    ∃ rest, m.held.Perm (pusher.pointers ++ (rest ++ m.queue ++ m.owner.pointers)) ∧
      ∀ pusher' queue, (((m.pushers.set index pusher').flatMap Pusher.pointers) ++ queue
        ++ m.owner.pointers).Perm
          (pusher'.pointers ++ (rest ++ queue ++ m.owner.pointers)) := by
  rcases flatMap_set_perm (f := Pusher.pointers) h with ⟨rest, hbefore, hafter⟩
  refine ⟨rest, ?_, fun pusher' queue => ?_⟩
  · have hperm := (hbefore.append_right m.queue).append_right m.owner.pointers
    simp only [held, List.append_assoc] at hperm ⊢
    exact hperm
  · have hperm := ((hafter pusher').append_right queue).append_right m.owner.pointers
    simp only [List.append_assoc] at hperm ⊢
    exact hperm

/-- A pointer moves to the end of the queue. -/
theorem perm_push (pointer : Nat) (rest queue last : List Nat) :
    ([pointer] ++ (rest ++ queue ++ last)).Perm
      ([] ++ (rest ++ (queue ++ [pointer]) ++ last)) := by
  rw [List.perm_iff_count]
  intro a
  simp only [List.count_append, List.count_nil]
  omega

/-! ### Handlers -/

theorem delete_of_free {heap : Heap α} {pointer : Nat} (h : m.heap.free pointer = some heap) :
    m.delete pointer = { m with heap } := by
  rw [delete, h]

/-- One handler gets on. The others, and the owner, hold what they held. -/
theorem Sound.onPusher (h : Sound m) {index : Nat} {pusher : Pusher α}
    (hindex : m.pushers[index]? = some pusher) (hbusy : pusher ≠ .done) (pusher' : Pusher α)
    {heap : Heap α} {queue : List Nat}
    (howned : ∀ rest, m.heap.Owned (pusher.pointers ++ (rest ++ m.queue ++ m.owner.pointers)) →
      heap.Owned (pusher'.pointers ++ (rest ++ queue ++ m.owner.pointers)))
    (hread : ∀ pointer ∈ m.owner.pointers, heap.read pointer = m.heap.read pointer)
    (dropped : Nat) (offered : List α) :
    Sound { m with
      heap, queue, offered
      pushers := m.pushers.set index pusher'
      droppedPackets := dropped } := by
  rcases held_pusher hindex with ⟨rest, hbefore, hafter⟩
  refine ⟨(howned rest (h.owned.perm hbefore)).perm (hafter pusher' queue).symm, h.safe, ?_⟩
  have hfits := h.fits
  have hmem := List.mem_of_getElem? hindex
  simp only
  cases howner : m.owner with
  | idle | popped | stopping =>
      rw [howner] at hfits
      exact hfits
  | moved pointer data =>
      rw [howner] at hfits
      refine ⟨hfits.1, ?_⟩
      simp only
      rw [hread pointer (by rw [howner]; exact List.mem_singleton.mpr rfl)]
      exact hfits.2
  | draining | drained =>
      -- The handlers have not been joined, for this one is still running.
      rw [howner] at hfits
      exact absurd (hfits.2 pusher hmem) hbusy
  | destroyed =>
      rw [howner] at hfits
      exact absurd (hfits.2.1 pusher hmem) hbusy

/-- The packet that a handler holds, before all others. -/
theorem Sound.holder (h : Sound m) {index pointer : Nat} {pusher : Pusher α}
    (hindex : m.pushers[index]? = some pusher) (hholds : pusher.pointers = [pointer]) :
    ∃ rest, m.heap.Owned (pointer :: (rest ++ (m.queue ++ m.owner.pointers))) := by
  rcases held_pusher hindex with ⟨rest, hbefore, _⟩
  rw [hholds, List.singleton_append, List.append_assoc] at hbefore
  exact ⟨rest, h.owned.perm hbefore⟩

/-- What is in the queue or with the owner is not what a handler holds. -/
theorem Sound.not_held (h : Sound m) {index pointer : Nat} {pusher : Pusher α}
    (hindex : m.pushers[index]? = some pusher) (hholds : pusher.pointers = [pointer]) :
    pointer ∉ m.queue ++ m.owner.pointers := by
  rcases h.holder hindex hholds with ⟨rest, howned⟩
  intro hmem
  exact (List.nodup_cons.mp howned.nodup).1 (List.mem_append_right _ hmem)

/-- Deleting a packet that a handler holds. -/
theorem Sound.onDelete (h : Sound m) {index pointer : Nat} {pusher pusher' : Pusher α}
    (hindex : m.pushers[index]? = some pusher) (hbusy : pusher ≠ .done)
    (hholds : pusher.pointers = [pointer]) (hdone : pusher'.pointers = []) :
    Sound ((m.delete pointer).setPusher index pusher') := by
  rcases h.holder hindex hholds with ⟨rest, hfirst⟩
  rcases hfirst.free with ⟨heap, hfree, _⟩
  rw [delete_of_free hfree]
  refine h.onPusher hindex hbusy pusher' (fun rest' howned => ?_) (fun other hother => ?_) _ _
  · rw [hholds, List.singleton_append] at howned
    rcases howned.free with ⟨heap', hfree', howned'⟩
    rw [← Option.some.inj (hfree'.symm.trans hfree), hdone, List.nil_append]
    exact howned'
  · -- The owner holds another packet, for this one is not held twice.
    rw [read_free hfree, if_neg]
    rintro rfl
    exact h.not_held hindex hholds (List.mem_append_right _ hother)

theorem Sound.push (h : Sound m) {index pointer : Nat} {pusher : Pusher α}
    (hindex : m.pushers[index]? = some pusher) (hbusy : pusher ≠ .done)
    (hholds : pusher.pointers = [pointer]) : Sound (m.push kind index pointer) := by
  unfold Mailbox.push
  split_ifs
  · refine h.onPusher hindex hbusy .done (fun rest howned => ?_) (fun _ _ => rfl) _ _
    rw [hholds] at howned
    exact howned.perm (perm_push pointer rest m.queue m.owner.pointers)
  · refine h.onPusher hindex hbusy (.refused pointer) (fun rest howned => ?_) (fun _ _ => rfl) _ _
    rw [hholds] at howned
    exact howned

theorem sound_onPush (h : Sound m) {index : Nat} {pusher : Pusher α}
    (hindex : m.pushers[index]? = some pusher) (hstep : m.onPush kind index pusher = some m') :
    Sound m' := by
  cases pusher with
  | checked data =>
      rw [onPush, Option.some.injEq] at hstep
      rw [← hstep]
      refine h.onPusher hindex (by simp only [ne_eq, reduceCtorEq, not_false_eq_true]) _
        (fun rest howned => ?_) (fun pointer hpointer => ?_) _ _
      · exact howned.alloc data
      · -- What the owner holds was live before.
        rw [read_alloc, if_neg]
        rintro rfl
        exact h.owned.fresh data (List.mem_append_right _ hpointer)
  | holding pointer =>
      -- Either flag leads to a handler that holds the packet, or to the push.
      have hstays : ∀ pusher' : Pusher α, pusher'.pointers = [pointer] →
          Sound (m.setPusher index pusher') := by
        intro pusher' hholds
        refine h.onPusher hindex (by simp only [ne_eq, reduceCtorEq, not_false_eq_true]) pusher'
          (fun rest howned => ?_) (fun _ _ => rfl) _ _
        rw [hholds]
        exact howned
      rw [onPush] at hstep
      split_ifs at hstep
      · rw [← Option.some.inj hstep]
        exact hstays _ rfl
      · rw [← Option.some.inj hstep]
        exact hstays _ rfl
      · rw [← Option.some.inj hstep]
        exact h.push hindex (by simp only [ne_eq, reduceCtorEq, not_false_eq_true]) rfl
  | rechecked pointer =>
      rw [onPush, Option.some.injEq] at hstep
      rw [← hstep]
      exact h.push hindex (by simp only [ne_eq, reduceCtorEq, not_false_eq_true]) rfl
  | dropping pointer | refused pointer =>
      rw [onPush, Option.some.injEq] at hstep
      rw [← hstep]
      exact h.onDelete hindex (by simp only [ne_eq, reduceCtorEq, not_false_eq_true]) rfl rfl
  | uncounted =>
      rw [onPush, Option.some.injEq] at hstep
      rw [← hstep]
      exact h.onPusher hindex (by simp only [ne_eq, reduceCtorEq, not_false_eq_true]) .done
        (fun _ howned => howned) (fun _ _ => rfl) _ _
  | done => exact absurd hstep (by simp only [onPush, reduceCtorEq, not_false_eq_true])

/-! ### The owner -/

/-- The owner takes the first pointer out of the queue. -/
theorem held_pop {pointer : Nat} {rest : List Nat} (hqueue : m.queue = pointer :: rest)
    (hidle : m.owner.pointers = []) :
    m.held.Perm (m.pushers.flatMap Pusher.pointers ++ rest ++ [pointer]) := by
  rw [held, hqueue, hidle, List.append_nil, List.append_assoc]
  exact (List.perm_append_left_iff _).mpr (List.perm_append_singleton pointer rest).symm

/-- The owner deletes the packet it holds. -/
theorem Sound.ownerFree (h : Sound m) {pointer : Nat} (hholds : m.owner.pointers = [pointer]) :
    ∃ heap, m.heap.free pointer = some heap ∧
      heap.Owned (m.pushers.flatMap Pusher.pointers ++ m.queue ++ []) := by
  have hperm : m.held.Perm (pointer :: (m.pushers.flatMap Pusher.pointers ++ m.queue ++ [])) := by
    rw [held, hholds, List.append_nil]
    exact List.perm_append_singleton pointer _
  exact (h.owned.perm hperm).free

theorem sound_onOwner (h : Sound m) (hstep : m.onOwner m.owner = some m') : Sound m' := by
  have howned := h.owned
  have hfits := h.fits
  rw [held] at howned
  cases howner : m.owner with
  | idle | destroyed =>
      rw [howner] at hstep
      exact absurd hstep (by simp only [onOwner, reduceCtorEq, not_false_eq_true])
  | popped pointer =>
      -- The owner holds the packet, so the read does not fault.
      rw [howner] at howned hfits
      rcases howned.read (List.mem_append_right _ (List.mem_singleton.mpr rfl)) with ⟨data, hdata⟩
      simp only [howner, onOwner, hdata, Option.some.injEq] at hstep
      rw [← hstep]
      exact ⟨howned, h.safe, hfits, hdata⟩
  | moved pointer data =>
      rcases h.ownerFree (by rw [howner]; rfl) with ⟨heap, hfree, hrest⟩
      simp only [howner, onOwner, delete_of_free hfree, Option.some.injEq] at hstep
      rw [howner] at hfits
      rw [← hstep]
      exact ⟨hrest, h.safe, hfits.1⟩
  | stopping =>
      simp only [howner, onOwner] at hstep
      split_ifs at hstep with hall
      rw [howner] at howned hfits
      rw [← Option.some.inj hstep]
      refine ⟨howned, h.safe, hfits, fun pusher hpusher => ?_⟩
      have hdone := List.all_eq_true.mp hall pusher hpusher
      cases pusher with
      | done => rfl
      | _ => exact absurd hdone Bool.false_ne_true
  | draining =>
      rw [howner] at howned hfits
      cases hqueue : m.queue with
      | nil =>
          simp only [howner, onOwner, hqueue, Option.some.injEq] at hstep
          rw [hqueue] at howned
          rw [← hstep]
          exact ⟨howned, h.safe, hfits.1, hfits.2, rfl⟩
      | cons pointer rest =>
          simp only [howner, onOwner, hqueue, Option.some.injEq] at hstep
          rw [← hstep]
          exact ⟨h.owned.perm (held_pop hqueue (by rw [howner]; rfl)), h.safe, hfits⟩
  | drained pointer =>
      rcases h.ownerFree (by rw [howner]; rfl) with ⟨heap, hfree, hrest⟩
      simp only [howner, onOwner, delete_of_free hfree, Option.some.injEq] at hstep
      rw [howner] at hfits
      rw [← hstep]
      exact ⟨hrest, h.safe, hfits⟩

/-- Every access keeps the invariant. -/
theorem sound_step (h : Sound m) {action : Action α} (hstep : m.step kind action = some m') :
    Sound m' := by
  cases action with
  | begin data =>
      rw [step] at hstep
      split_ifs at hstep with hjoined hdown
      · rw [← Option.some.inj hstep]
        exact h
      · rw [← Option.some.inj hstep]
        refine ⟨?_, h.safe, ?_⟩
        · -- The handler holds nothing yet.
          have hheld : held { m with pushers := m.pushers ++ [.checked data] } = m.held := by
            simp only [held, List.flatMap_append, List.flatMap_cons, List.flatMap_nil,
              Pusher.pointers, List.append_nil]
          rw [hheld]
          exact h.owned
        · have hfits := h.fits
          simp only
          cases howner : m.owner with
          | idle | popped | stopping | moved =>
              rw [howner] at hfits
              exact hfits
          | draining | drained | destroyed =>
              rw [howner] at hjoined
              exact absurd rfl hjoined
  | pusher index =>
      rcases Option.bind_eq_some_iff.mp hstep with ⟨pusher, hindex, hpush⟩
      exact sound_onPush h hindex hpush
  | poll =>
      have hfits := h.fits
      rw [step] at hstep
      split at hstep
      · next pointer rest howner hqueue =>
          rw [← Option.some.inj hstep]
          rw [howner] at hfits
          -- The pointer changes hands.
          exact ⟨h.owned.perm (held_pop hqueue (by rw [howner]; rfl)), h.safe, hfits⟩
      · rw [← Option.some.inj hstep]
        exact h
      · exact absurd hstep (by simp only [reduceCtorEq, not_false_eq_true])
  | owner => exact sound_onOwner h hstep
  | shutdown =>
      rw [step] at hstep
      split at hstep
      · next howner =>
          have howned := h.owned
          rw [held, howner] at howned
          rw [← Option.some.inj hstep]
          exact ⟨howned, h.safe, rfl⟩
      · exact absurd hstep (by simp only [reduceCtorEq, not_false_eq_true])

theorem sound_run {actions : List (Action α)}
    (hrun : Machine.run (step kind) {} actions = some m) : Sound m :=
  Machine.invariant (fun _ _ _ h hstep => sound_step h hstep) hrun sound_initial

end Mailbox

/-! ### The way through the destructor -/

/-- Accesses that are left to a handler, with those for the pointer it may still
    push. -/
def Pusher.work : Pusher α → Nat
  | .checked _ => 6
  | .holding _ => 5
  | .rechecked _ => 4
  | .refused _ => 2
  | .dropping _ | .uncounted => 1
  | .done => 0

def Owner.work : Owner α → Nat
  | .stopping | .drained _ => 2
  | .draining => 1
  | _ => 0

/-- A sum over a list of which one element changes. -/
theorem sum_map_set {β : Type} (f : β → Nat) {bs : List β} {k : Nat} {b : β}
    (hk : bs[k]? = some b) :
    ∃ rest, (bs.map f).sum = f b + rest ∧ ∀ b', ((bs.set k b').map f).sum = f b' + rest := by
  rcases List.getElem?_eq_some_iff.mp hk with ⟨hlt, heq⟩
  refine ⟨((bs.eraseIdx k).map f).sum, ?_, fun b' => ?_⟩
  · have hsum := ((List.getElem_cons_eraseIdx_perm hlt).symm.map f).sum_nat
    rw [heq, List.map_cons, List.sum_cons] at hsum
    exact hsum
  · have hsum := ((List.set_perm_cons_eraseIdx hlt b').map f).sum_nat
    rw [List.map_cons, List.sum_cons] at hsum
    exact hsum

namespace Mailbox

variable {kind : MailboxKind} {m m' : Mailbox α}

def work (m : Mailbox α) : Nat :=
  (m.pushers.map Pusher.work).sum + 2 * m.queue.length + m.owner.work

/-- Once the shutdown has begun, the handlers and the owner get on by
    themselves. -/
def due (m : Mailbox α) : Action α → Bool
  | .pusher _ | .owner => m.shuttingDown
  | _ => false

/-- What `delete` changes, fault or not. -/
theorem delete_eq (m : Mailbox α) (pointer : Nat) :
    ∃ heap fault, m.delete pointer = { m with heap, fault } := by
  unfold delete
  split
  · exact ⟨_, m.fault, rfl⟩
  · exact ⟨m.heap, true, rfl⟩

theorem work_onPush {index : Nat} {pusher : Pusher α} (hindex : m.pushers[index]? = some pusher)
    (hstep : m.onPush kind index pusher = some m') :
    m'.work < m.work ∧ m'.shuttingDown = m.shuttingDown := by
  rcases sum_map_set Pusher.work hindex with ⟨rest, hbefore, hafter⟩
  -- A push leaves at most two accesses of the handler, or two of the owner for the pointer.
  have hpush : ∀ pointer, 4 ≤ pusher.work →
      (m.push kind index pointer).work < m.work ∧
        (m.push kind index pointer).shuttingDown = m.shuttingDown := by
    intro pointer hweight
    have hdone : (Pusher.done : Pusher α).work = 0 := rfl
    have hrefused : (Pusher.refused pointer : Pusher α).work = 2 := rfl
    unfold push
    split_ifs
    · refine ⟨?_, rfl⟩
      simp only [work, setPusher, hbefore, hafter, hdone, List.length_append,
        List.length_singleton]
      omega
    · refine ⟨?_, rfl⟩
      simp only [work, setPusher, hbefore, hafter, hrefused]
      omega
  cases pusher with
  | checked data =>
      rw [onPush, Option.some.injEq] at hstep
      rw [← hstep]
      refine ⟨?_, rfl⟩
      simp only [work, setPusher, hbefore, hafter, Pusher.work]
      omega
  | holding pointer =>
      rw [onPush] at hstep
      split_ifs at hstep
      · rw [← Option.some.inj hstep]
        refine ⟨?_, rfl⟩
        simp only [work, setPusher, hbefore, hafter, Pusher.work]
        omega
      · rw [← Option.some.inj hstep]
        refine ⟨?_, rfl⟩
        simp only [work, setPusher, hbefore, hafter, Pusher.work]
        omega
      · rw [← Option.some.inj hstep]
        exact hpush pointer (Nat.le_succ 4)
  | rechecked pointer =>
      rw [onPush, Option.some.injEq] at hstep
      rw [← hstep]
      exact hpush pointer (Nat.le_refl 4)
  | dropping pointer | refused pointer =>
      rcases delete_eq m pointer with ⟨heap, fault, hdelete⟩
      rw [onPush, Option.some.injEq, hdelete] at hstep
      rw [← hstep]
      refine ⟨?_, rfl⟩
      simp only [work, setPusher, hbefore, hafter, Pusher.work]
      omega
  | uncounted =>
      rw [onPush, Option.some.injEq] at hstep
      rw [← hstep]
      refine ⟨?_, rfl⟩
      simp only [work, setPusher, hbefore, hafter, Pusher.work]
      omega
  | done => exact absurd hstep (by simp only [onPush, reduceCtorEq, not_false_eq_true])

theorem work_onOwner (h : Sound m) (hdown : m.shuttingDown = true)
    (hstep : m.onOwner m.owner = some m') : m'.work < m.work ∧ m'.shuttingDown = true := by
  have hfits := h.fits
  cases howner : m.owner with
  | idle | popped =>
      rw [howner] at hfits
      exact absurd (hfits.symm.trans hdown) Bool.false_ne_true
  | moved =>
      rw [howner] at hfits
      exact absurd (hfits.1.symm.trans hdown) Bool.false_ne_true
  | destroyed =>
      rw [howner] at hstep
      exact absurd hstep (by simp only [onOwner, reduceCtorEq, not_false_eq_true])
  | stopping =>
      simp only [howner, onOwner] at hstep
      split_ifs at hstep
      rw [← Option.some.inj hstep]
      refine ⟨?_, hdown⟩
      simp only [work, howner, Owner.work]
      omega
  | draining =>
      cases hqueue : m.queue with
      | nil =>
          simp only [howner, onOwner, hqueue, Option.some.injEq] at hstep
          rw [← hstep]
          refine ⟨?_, hdown⟩
          simp only [work, howner, hqueue, Owner.work]
          omega
      | cons pointer rest =>
          simp only [howner, onOwner, hqueue, Option.some.injEq] at hstep
          rw [← hstep]
          refine ⟨?_, hdown⟩
          simp only [work, howner, hqueue, Owner.work, List.length_cons]
          omega
  | drained pointer =>
      rcases delete_eq m pointer with ⟨heap, fault, hdelete⟩
      simp only [howner, onOwner, hdelete, Option.some.injEq] at hstep
      rw [← hstep]
      refine ⟨?_, hdown⟩
      simp only [work, howner, Owner.work]
      omega

/-- At rest the destructor has come to its end. -/
theorem destroyed_of_settled (h : Sound m) (hdown : m.shuttingDown = true)
    (hrest : Machine.Settled (step kind) due m) : m.owner = .destroyed := by
  -- A handler that is not done can always get on.
  have hdone : ∀ pusher ∈ m.pushers, pusher = .done := by
    intro pusher hpusher
    rcases List.getElem?_of_mem hpusher with ⟨index, hindex⟩
    have hnone := hrest (.pusher index) hdown
    rw [step, hindex, Option.bind_some] at hnone
    cases pusher with
    | done => rfl
    | holding pointer =>
        rw [onPush] at hnone
        split_ifs at hnone
    | _ => simp only [onPush, reduceCtorEq] at hnone
  have hnone := hrest .owner hdown
  have hfits := h.fits
  rw [step] at hnone
  cases howner : m.owner with
  | idle | popped =>
      rw [howner] at hfits
      exact absurd (hfits.symm.trans hdown) Bool.false_ne_true
  | moved =>
      rw [howner] at hfits
      exact absurd (hfits.1.symm.trans hdown) Bool.false_ne_true
  | destroyed => rfl
  | stopping =>
      have hall : m.pushers.all Pusher.isDone = true := by
        rw [List.all_eq_true]
        intro pusher hpusher
        rw [hdone pusher hpusher]
        rfl
      simp only [howner, onOwner, hall, if_true, reduceCtorEq] at hnone
  | draining =>
      rw [howner, onOwner] at hnone
      split at hnone <;> exact absurd hnone (Option.some_ne_none _)
  | drained pointer => simp only [howner, onOwner, reduceCtorEq] at hnone

/-- Every access on the way through the destructor is one less to come. -/
theorem work_step (m : Mailbox α) (action : Action α) (m' : Mailbox α)
    (h : Sound m ∧ m.shuttingDown = true) (hdue : due m action = true)
    (hstep : step kind m action = some m') :
    (Sound m' ∧ m'.shuttingDown = true) ∧ m'.work < m.work := by
  rcases h with ⟨hsound, hdown⟩
  have hsound' := sound_step hsound hstep
  cases action with
  | pusher index =>
      rcases Option.bind_eq_some_iff.mp hstep with ⟨pusher, hindex, hpush⟩
      rcases work_onPush hindex hpush with ⟨hless, hsame⟩
      exact ⟨⟨hsound', hsame.trans hdown⟩, hless⟩
  | owner =>
      rcases work_onOwner hsound hdown hstep with ⟨hless, hdown'⟩
      exact ⟨⟨hsound', hdown'⟩, hless⟩
  | begin | poll | shutdown => exact absurd hdue Bool.false_ne_true

/-- When the destructor is done, nobody holds a pointer. -/
theorem held_destroyed (h : Sound m) (hend : m.owner = .destroyed) : m.held = [] := by
  have hfits := h.fits
  rw [hend] at hfits
  have hnone : m.pushers.flatMap Pusher.pointers = [] := by
    rw [List.flatMap_eq_nil_iff]
    intro pusher hpusher
    rw [hfits.2.1 pusher hpusher]
    rfl
  rw [held, hnone, hfits.2.2, hend]
  rfl

/-- In every run, however the handlers and the owner are interleaved: no access
    faults; the pointers held anywhere are those of the live packets, each held
    once; and once the shutdown has begun, there are only so many accesses left,
    in whatever order they come, at the end of which the destructor is done. Then
    every packet has been deleted. -/
theorem freed_once (kind : MailboxKind) (actions : List (Action α)) (m : Mailbox α)
    (hrun : Machine.run (step kind) {} actions = some m) :
    (m.fault = false ∧ m.held.Nodup ∧ ∀ p, p ∈ m.held ↔ (m.heap.read p).isSome = true) ∧
    (m.shuttingDown = true →
      (∀ more m', Machine.run (step kind) m more = some m' →
        Machine.Respects (step kind) due m more = true →
        more.length ≤ m.work ∧
          (Machine.Settled (step kind) due m' → m'.owner = .destroyed)) ∧
      ∃ more m', Machine.run (step kind) m more = some m' ∧
        Machine.Respects (step kind) due m more = true ∧
        Machine.Settled (step kind) due m') ∧
    (m.owner = .destroyed → ∀ p, m.heap.read p = none) := by
  have h := sound_run hrun
  refine ⟨⟨h.safe, h.owned.nodup, h.owned.live⟩, fun hdown => ?_, fun hend p => ?_⟩
  · refine ⟨fun more m' hmore hdue => ⟨Machine.length_le_of_due work_step ⟨h, hdown⟩ hmore hdue,
      fun hrest => ?_⟩, Machine.settles work_step ⟨h, hdown⟩⟩
    rcases Machine.invariant_of_respects
      (fun m a m' h ha hs => (work_step m a m' h ha hs).1) hmore hdue ⟨h, hdown⟩
      with ⟨hsound, hdown'⟩
    exact destroyed_of_settled hsound hdown' hrest
  · have howned := h.owned
    rw [held_destroyed h hend] at howned
    exact howned.none_live p

/-- Two handlers push at once, and one of them gets to its push only after the
    shutdown has begun. -/
def lateHandler : List (Action Packet) :=
  [.begin ⟨.data, 1, [7]⟩, .begin ⟨.data, 2, [9]⟩, .pusher 0, .pusher 1, .pusher 1, .poll, .owner,
    .owner, .shutdown, .pusher 0, .owner, .owner, .owner, .owner]

theorem freed_once_lateHandler :
    ∃ m, Machine.run (step packetQueue) {} lateHandler = some m ∧
      m.offered = [⟨.data, 2, [9]⟩, ⟨.data, 1, [7]⟩] ∧ m.polled = [⟨.data, 2, [9]⟩] ∧
      m.owner = .destroyed ∧ m.fault = false ∧ ∀ p, m.heap.read p = none := by
  have hend : (Machine.run (step packetQueue) {} lateHandler).map (fun m => decide
      (m.offered = [⟨.data, 2, [9]⟩, ⟨.data, 1, [7]⟩] ∧ m.polled = [⟨.data, 2, [9]⟩] ∧
        m.owner = .destroyed)) = some true := by
    decide +kernel
  rcases Option.map_eq_some_iff.mp hend with ⟨m, hrun, hm⟩
  rcases of_decide_eq_true hm with ⟨hoffered, hpolled, howner⟩
  rcases freed_once packetQueue lateHandler m hrun with ⟨⟨hsafe, _⟩, _, hfreed⟩
  exact ⟨m, hrun, hoffered, hpolled, howner, hsafe, hfreed howner⟩

end Mailbox

/-! ### A push is one step -/

/-- A push or a poll, as one step. -/
inductive QueueOp where
  | push (packet : Packet)
  | poll
  deriving DecidableEq, Repr

/-- What it does to the queue and to the packets polled. -/
def QueueOp.apply (state : PacketQueue × List Packet) : QueueOp → PacketQueue × List Packet
  | .push packet => ((state.1.pushPacket packet).2, state.2)
  | .poll =>
    match state.1.pollPacket with
    | some (packet, queue) => (queue, state.2 ++ [packet])
    | none => state

/-- The packet was refused, and is not counted yet. -/
def Pusher.refusals : Pusher α → Nat
  | .refused _ | .uncounted => 1
  | _ => 0

namespace Mailbox

/-- The push that the next access of a handler amounts to. -/
def pushOp (heap : Heap Packet) : Pusher Packet → List QueueOp
  | .holding pointer | .rechecked pointer => (heap.read pointer).toList.map .push
  | _ => []

/-- The pushes and polls that take place in an access. -/
def takesPlace (m : Mailbox Packet) : Action Packet → List QueueOp
  | .pusher index => m.pushers[index]?.toList.flatMap (pushOp m.heap)
  | .poll => [.poll]
  | _ => []

/-- The queue as it looks from outside. -/
def abstract (m : Mailbox Packet) : PacketQueue where
  packets := m.queue.filterMap m.heap.read
  droppedPackets := m.droppedPackets + (m.pushers.map Pusher.refusals).sum
  pushed := m.offered

/-- The packets that were taken out of the queue. -/
def taken (m : Mailbox Packet) : List Packet :=
  m.polled ++ m.owner.pointers.filterMap m.heap.read

def view (m : Mailbox Packet) : PacketQueue × List Packet := (m.abstract, m.taken)

variable {m m' : Mailbox Packet}

/-- A handler gets on without a push. -/
theorem view_onPusher {index : Nat} {pusher pusher' : Pusher Packet}
    (hindex : m.pushers[index]? = some pusher) {heap : Heap Packet} {dropped : Nat}
    (hread : ∀ p ∈ m.queue ++ m.owner.pointers, heap.read p = m.heap.read p)
    (hcount : dropped + pusher'.refusals = m.droppedPackets + pusher.refusals) :
    m.view = view { m with
      heap
      pushers := m.pushers.set index pusher'
      droppedPackets := dropped } := by
  rcases sum_map_set Pusher.refusals hindex with ⟨rest, hbefore, hafter⟩
  have hqueue : m.queue.filterMap heap.read = m.queue.filterMap m.heap.read :=
    List.filterMap_congr fun p hp => hread p (List.mem_append_left _ hp)
  have howner : m.owner.pointers.filterMap heap.read = m.owner.pointers.filterMap m.heap.read :=
    List.filterMap_congr fun p hp => hread p (List.mem_append_right _ hp)
  have hdropped : dropped + (pusher'.refusals + rest) =
      m.droppedPackets + (pusher.refusals + rest) := by
    omega
  simp only [view, abstract, taken, hbefore, hafter, hqueue, howner, hdropped]

theorem view_onDelete (h : Sound m) {index pointer : Nat} {pusher pusher' : Pusher Packet}
    (hindex : m.pushers[index]? = some pusher) (hholds : pusher.pointers = [pointer])
    (hcount : pusher'.refusals = pusher.refusals) :
    m.view = view ((m.delete pointer).setPusher index pusher') := by
  rcases h.holder hindex hholds with ⟨rest, howned⟩
  rcases howned.free with ⟨heap, hfree, _⟩
  rw [delete_of_free hfree]
  refine view_onPusher hindex (fun p hp => ?_) (by rw [hcount])
  rw [read_free hfree, if_neg]
  rintro rfl
  exact h.not_held hindex hholds hp

/-- The queue holds live packets only. -/
theorem Sound.length_queue (h : Sound m) :
    (m.queue.filterMap m.heap.read).length = m.queue.length := by
  have hlive : ∀ p ∈ m.queue, (m.heap.read p).isSome = true := by
    intro p hp
    exact (h.owned.live p).mp (List.mem_append_left _ (List.mem_append_right _ hp))
  rw [List.length_filterMap_eq_countP, List.countP_eq_length]
  exact hlive

/-- The pointer enters the queue, or the queue is full. -/
theorem view_push (h : Sound m) {index pointer : Nat} {pusher : Pusher Packet}
    (hindex : m.pushers[index]? = some pusher) (hholds : pusher.pointers = [pointer])
    (hnew : pusher.refusals = 0) :
    ((m.heap.read pointer).toList.map QueueOp.push).foldl QueueOp.apply m.view =
      (m.push packetQueue index pointer).view := by
  rcases h.holder hindex hholds with ⟨rest, howned⟩
  rcases howned.read List.mem_cons_self with ⟨packet, hpacket⟩
  rcases sum_map_set Pusher.refusals hindex with ⟨others, hcount, hafter⟩
  rw [hnew, Nat.zero_add] at hcount
  have hlength := h.length_queue
  have hdone : (Pusher.done : Pusher Packet).refusals = 0 := rfl
  have hrefused : (Pusher.refused pointer : Pusher Packet).refusals = 1 := rfl
  rw [hpacket, Option.toList_some, List.map_singleton, List.foldl_cons, List.foldl_nil, push]
  by_cases hroom : m.queue.length < packetQueue.capacity
  · have hfits : m.queue.length < packetQueueCapacity := hroom
    rw [if_pos hroom]
    simp only [view, QueueOp.apply, PacketQueue.pushPacket, abstract, Bool.false_eq_true, if_false,
      hlength, hfits, if_true, setPusher, hcount, hafter, hdone, Nat.zero_add, taken,
      List.filterMap_append, List.filterMap_cons, List.filterMap_nil, hpacket, Option.toList_some]
  · have hfull : ¬m.queue.length < packetQueueCapacity := hroom
    rw [if_neg hroom]
    -- The packet counts as dropped already here, two accesses before the counter is raised.
    have hraised : m.droppedPackets + others + 1 = m.droppedPackets + (1 + others) := by
      omega
    simp only [view, QueueOp.apply, PacketQueue.pushPacket, abstract, Bool.false_eq_true, if_false,
      hlength, hfull, setPusher, hcount, hafter, hrefused, taken, hraised]

theorem view_onPush (h : Sound m) {index : Nat} {pusher : Pusher Packet}
    (hindex : m.pushers[index]? = some pusher)
    (hstep : m.onPush packetQueue index pusher = some m') :
    (pushOp m.heap pusher).foldl QueueOp.apply m.view = m'.view := by
  cases pusher with
  | checked data =>
      rw [onPush, Option.some.injEq] at hstep
      rw [← hstep]
      refine view_onPusher hindex (fun p hp => ?_) rfl
      -- The new packet is not in the queue yet.
      rw [read_alloc, if_neg]
      rintro rfl
      have howned := h.owned
      rw [held, List.append_assoc] at howned
      exact howned.fresh data (List.mem_append_right _ hp)
  | holding pointer =>
      rw [onPush, if_neg (by decide), Option.some.injEq] at hstep
      rw [← hstep]
      exact view_push h hindex rfl rfl
  | rechecked pointer =>
      rw [onPush, Option.some.injEq] at hstep
      rw [← hstep]
      exact view_push h hindex rfl rfl
  | dropping pointer | refused pointer =>
      rw [onPush, Option.some.injEq] at hstep
      rw [← hstep]
      exact view_onDelete h hindex rfl rfl
  | uncounted =>
      rw [onPush, Option.some.injEq] at hstep
      rw [← hstep]
      exact view_onPusher hindex (fun _ _ => rfl) rfl
  | done => exact absurd hstep (by simp only [onPush, reduceCtorEq, not_false_eq_true])

/-- Moving the packet out and deleting it is not seen. -/
theorem view_onOwner (h : Sound m) (hup : m.shuttingDown = false)
    (hstep : m.onOwner m.owner = some m') : m.view = m'.view := by
  have hfits := h.fits
  cases howner : m.owner with
  | idle | destroyed =>
      rw [howner] at hstep
      exact absurd hstep (by simp only [onOwner, reduceCtorEq, not_false_eq_true])
  | popped pointer =>
      have howned := h.owned
      rw [held, howner] at howned
      rcases howned.read (List.mem_append_right _ (List.mem_singleton.mpr rfl)) with ⟨data, hdata⟩
      simp only [howner, onOwner, hdata, Option.some.injEq] at hstep
      rw [← hstep]
      simp only [view, abstract, taken, howner, Owner.pointers]
  | moved pointer data =>
      rw [howner] at hfits
      rcases h.ownerFree (by rw [howner]; rfl) with ⟨heap, hfree, _⟩
      simp only [howner, onOwner, delete_of_free hfree, Option.some.injEq] at hstep
      have hnodup := h.owned.nodup
      rw [held, howner] at hnodup
      -- What is in the queue is not what the owner deletes.
      have hqueue : m.queue.filterMap heap.read = m.queue.filterMap m.heap.read := by
        refine List.filterMap_congr fun p hp => ?_
        rw [read_free hfree, if_neg]
        rintro rfl
        exact (List.nodup_append.mp hnodup).2.2 p (List.mem_append_right _ hp) p
          (List.mem_singleton.mpr rfl) rfl
      rw [← hstep]
      simp only [view, abstract, taken, howner, hqueue, Owner.pointers, List.filterMap_cons,
        hfits.2, List.filterMap_nil, List.append_nil]
  | stopping =>
      rw [howner] at hfits
      exact absurd (hup.symm.trans hfits) Bool.false_ne_true
  | draining | drained =>
      rw [howner] at hfits
      exact absurd (hup.symm.trans hfits.1) Bool.false_ne_true

theorem view_poll (h : Sound m) (hstep : m.step packetQueue .poll = some m') :
    QueueOp.poll.apply m.view = m'.view := by
  rw [step] at hstep
  split at hstep
  · next pointer rest howner hqueue =>
      -- The packet counts as taken out from the pop on.
      rw [← Option.some.inj hstep]
      have hmem : pointer ∈ m.held := by
        rw [held, hqueue]
        exact List.mem_append_left _ (List.mem_append_right _ List.mem_cons_self)
      rcases h.owned.read hmem with ⟨packet, hpacket⟩
      simp only [view, QueueOp.apply, PacketQueue.pollPacket, abstract, taken, hqueue, howner,
        List.filterMap_cons, hpacket, Owner.pointers, List.filterMap_nil, List.append_nil]
  · next howner hqueue =>
      rw [← Option.some.inj hstep]
      simp only [view, QueueOp.apply, PacketQueue.pollPacket, abstract, hqueue, List.filterMap_nil]
  · exact absurd hstep (by simp only [reduceCtorEq, not_false_eq_true])

/-- Every access is the pushes and polls that take place in it. -/
theorem view_step (h : Sound m) (hup : m.shuttingDown = false) {action : Action Packet}
    (hstep : m.step packetQueue action = some m') (hup' : m'.shuttingDown = false) :
    (m.takesPlace action).foldl QueueOp.apply m.view = m'.view := by
  cases action with
  | begin data =>
      rw [step] at hstep
      split_ifs at hstep
      · exact congrArg view (Option.some.inj hstep)
      · rw [← Option.some.inj hstep]
        simp only [takesPlace, List.foldl_nil, view, taken, abstract, List.map_append,
          List.map_cons, List.map_nil, List.sum_append, List.sum_cons, List.sum_nil,
          Pusher.refusals, Nat.add_zero]
  | pusher index =>
      rcases Option.bind_eq_some_iff.mp hstep with ⟨pusher, hindex, hpush⟩
      rw [takesPlace, hindex, Option.toList_some, List.flatMap_singleton]
      exact view_onPush h hindex hpush
  | poll => exact view_poll h hstep
  | owner => exact view_onOwner h hup hstep
  | shutdown =>
      rw [step] at hstep
      split at hstep
      · rw [← Option.some.inj hstep] at hup'
        exact absurd hup'.symm Bool.false_ne_true
      · exact absurd hstep (by simp only [reduceCtorEq, not_false_eq_true])

/-- The flag is never taken back. -/
theorem shuttingDown_step (h : Sound m) {action : Action Packet}
    (hstep : m.step packetQueue action = some m') (hdown : m.shuttingDown = true) :
    m'.shuttingDown = true := by
  cases action with
  | begin data =>
      rw [step] at hstep
      split_ifs at hstep
      rw [← Option.some.inj hstep]
      exact hdown
  | pusher index =>
      rcases Option.bind_eq_some_iff.mp hstep with ⟨pusher, hindex, hpush⟩
      exact (work_onPush hindex hpush).2.trans hdown
  | owner => exact (work_onOwner h hdown hstep).2
  | poll =>
      rw [step] at hstep
      split at hstep
      · rw [← Option.some.inj hstep]
        exact hdown
      · rw [← Option.some.inj hstep]
        exact hdown
      · exact absurd hstep (by simp only [reduceCtorEq, not_false_eq_true])
  | shutdown =>
      rw [step] at hstep
      split at hstep
      · rw [← Option.some.inj hstep]
      · exact absurd hstep (by simp only [reduceCtorEq, not_false_eq_true])

/-- The queue is what the pushes and polls so far make of it. -/
structure Atomic (past : List QueueOp) (m : Mailbox Packet) : Prop where
  sound : Sound m
  same : m.shuttingDown = false → past.foldl QueueOp.apply ({}, []) = m.view

theorem atomic_step (past : List QueueOp) (m : Mailbox Packet) (action : Action Packet)
    (m' : Mailbox Packet) (h : Atomic past m) (hstep : m.step packetQueue action = some m') :
    Atomic (past ++ m.takesPlace action) m' := by
  refine ⟨sound_step h.sound hstep, fun hup' => ?_⟩
  have hup : m.shuttingDown = false := by
    by_contra hdown
    rw [Bool.not_eq_false] at hdown
    exact Bool.false_ne_true (hup'.symm.trans (shuttingDown_step h.sound hstep hdown))
  rw [List.foldl_append, h.same hup]
  exact view_step h.sound hup hstep hup'

/-- In every run of the server's queue that has not begun to shut down, however
    many handlers are in the middle of a push: the packets in the queue, those
    that ever entered it, the count of the dropped ones and the packets taken out
    are those after the pushes and polls of the run, each of them one step and in
    the order in which they took place. -/
theorem push_is_atomic (actions : List (Action Packet)) (m : Mailbox Packet)
    (hrun : Machine.run (step packetQueue) {} actions = some m)
    (hup : m.shuttingDown = false) :
    (Machine.emitted (step packetQueue) takesPlace {} actions).foldl QueueOp.apply ({}, []) =
      (m.abstract, m.taken) := by
  have h : Atomic ([] ++ Machine.emitted (step packetQueue) takesPlace {} actions) m :=
    Machine.history atomic_step hrun [] ⟨sound_initial, fun _ => rfl⟩
  rw [List.nil_append] at h
  exact h.same hup

/-- A packet that was taken out and is about to be deleted, behind a handler that
    has allocated another. -/
def midPush : List (Action Packet) :=
  [.begin ⟨.data, 1, [7]⟩, .begin ⟨.data, 2, [9]⟩, .pusher 0, .pusher 1, .pusher 1, .poll, .owner]

theorem push_is_atomic_midPush :
    ∃ m, Machine.run (step packetQueue) {} midPush = some m ∧
      m.taken = [⟨.data, 2, [9]⟩] ∧ m.abstract.pushed = [⟨.data, 2, [9]⟩] ∧
      Machine.emitted (step packetQueue) takesPlace {} midPush =
        [.push ⟨.data, 2, [9]⟩, .poll] ∧
      (Machine.emitted (step packetQueue) takesPlace {} midPush).foldl QueueOp.apply ({}, []) =
        (m.abstract, m.taken) := by
  have hend : (Machine.run (step packetQueue) {} midPush).map (fun m => decide
      (m.taken = [⟨.data, 2, [9]⟩] ∧ m.abstract.pushed = [⟨.data, 2, [9]⟩] ∧
        m.shuttingDown = false)) = some true := by
    decide +kernel
  rcases Option.map_eq_some_iff.mp hend with ⟨m, hrun, hm⟩
  rcases of_decide_eq_true hm with ⟨htaken, hpushed, hup⟩
  exact ⟨m, hrun, htaken, hpushed, by decide +kernel, push_is_atomic midPush m hrun hup⟩

end Mailbox

end ProjectNight
