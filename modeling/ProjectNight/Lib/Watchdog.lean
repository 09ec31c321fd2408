import Mathlib.Data.List.Basic

/-!
# Watchdogs

One side of a connection beats: whenever its timer runs out, it puts a message
under way and sets the timer again. Messages are heard on the other side, in
order, and a watchdog there notes when it heard the last one. How long can it
have heard nothing, although the first side is alive?

Three delays add up. The timer is set for an interval; it may be served late,
by the delay; and a message takes up to the latency. The start may take the
latency once more, for the watchdog may have begun to wait before the other
side existed. Whoever waits longer than the sum knows that the other side is
gone (`Fresh.recent`).

Other messages may be put under way at any time. They only help: the messages
under way form a chain without long gaps, which ends where the timer was last
set, and the watchdog has heard everything before the chain.

## Main definitions

* `Linked`, `latest`: Chains without long gaps.
* `Watch`: What is under way from one side to the other.
* `Fresh`: What holds while both sides are alive.

## Theorems

* `Fresh.send`, `Fresh.beat`, `Fresh.hear`, `Fresh.advance`, `Fresh.raise`: It
  keeps holding.
* `Fresh.recent`: The watchdog has heard something recently.
-/

namespace Watchdog

/-! ### Chains -/

/-- Each time is at or after the one before, and no more than a gap after it. -/
def Linked (gap : Nat) : Nat → List Nat → Prop
  | _, [] => True
  | base, time :: times => base ≤ time ∧ time ≤ base + gap ∧ Linked gap time times

/-- The end of a chain. -/
def latest : Nat → List Nat → Nat
  | base, [] => base
  | _, time :: times => latest time times

variable {gap base now : Nat} {times : List Nat}

theorem latest_concat (base : Nat) (times : List Nat) (now : Nat) :
    latest base (times ++ [now]) = now := by
  induction times generalizing base with
  | nil => rfl
  | cons time times ih => exact ih time

theorem Linked.le_latest (h : Linked gap base times) : base ≤ latest base times := by
  induction times generalizing base with
  | nil => exact Nat.le_refl _
  | cons time times ih =>
      rcases h with ⟨hle, _, hrest⟩
      exact Nat.le_trans hle (ih hrest)

/-- A chain grows at its end. -/
theorem Linked.concat (h : Linked gap base times) (hle : latest base times ≤ now)
    (hgap : now ≤ latest base times + gap) : Linked gap base (times ++ [now]) := by
  induction times generalizing base with
  | nil => exact ⟨hle, hgap, trivial⟩
  | cons time times ih =>
      rcases h with ⟨hfirst, hnear, hrest⟩
      exact ⟨hfirst, hnear, ih hrest hle hgap⟩

/-! ### The watch -/

structure Watch where
  now : Nat
  /-- When the next beat is due. -/
  deadline : Nat
  /-- When the messages that have not been heard yet were put under way. -/
  underWay : List Nat
  /-- When the watchdog last heard something. -/
  heard : Nat

/-- The watchdog has heard everything up to `base`, and the chain of messages
    behind it has no long gap. -/
structure Fresh (interval delay latency : Nat) (w : Watch) (base : Nat) : Prop where
  caughtUp : base ≤ w.heard
  heard : w.heard ≤ w.now
  linked : Linked (interval + latency + delay) base w.underWay
  past : latest base w.underWay ≤ w.now
  due : w.deadline ≤ latest base w.underWay + interval + latency
  served : w.now ≤ w.deadline + delay
  swift : ∀ time, w.underWay.head? = some time → w.now ≤ time + latency

variable {interval delay latency : Nat} {w : Watch}

/-- A message is put under way. -/
theorem Fresh.send (h : Fresh interval delay latency w base) :
    Fresh interval delay latency { w with underWay := w.underWay ++ [w.now] } base := by
  have hpast := h.past
  have hdue := h.due
  have hserved := h.served
  refine ⟨h.caughtUp, h.heard, h.linked.concat hpast (by omega), ?_, ?_, hserved, ?_⟩
  · exact Nat.le_of_eq (latest_concat base w.underWay w.now)
  · rw [latest_concat]
    simp only
    omega
  · intro time htime
    cases hunder : w.underWay with
    | nil =>
        simp only [hunder, List.nil_append, List.head?_cons, Option.some.injEq] at htime
        simp only
        omega
    | cons first rest =>
        simp only [hunder, List.cons_append, List.head?_cons] at htime
        exact h.swift time (by rw [hunder]; exact htime)

/-- The timer is set again by a beat. -/
theorem Fresh.beat (h : Fresh interval delay latency w base) :
    Fresh interval delay latency
      { w with underWay := w.underWay ++ [w.now], deadline := w.now + interval } base := by
  have hsend := h.send
  refine ⟨hsend.caughtUp, hsend.heard, hsend.linked, hsend.past, ?_, ?_, hsend.swift⟩
  · rw [latest_concat]
    simp only
    omega
  · simp only
    omega

/-- The first message under way is heard. -/
theorem Fresh.hear (h : Fresh interval delay latency w base) :
    ∃ base', Fresh interval delay latency
      { w with underWay := w.underWay.tail, heard := w.now } base' := by
  have hcaught := h.caughtUp
  have hheard := h.heard
  have hlinked := h.linked
  have hpast := h.past
  have hdue := h.due
  cases hunder : w.underWay with
  | nil =>
      rw [hunder] at hlinked hpast hdue
      refine ⟨base, ?_, Nat.le_refl _, hlinked, hpast, hdue, h.served, ?_⟩
      · simp only
        omega
      · exact fun time htime => absurd htime.symm (Option.some_ne_none time)
  | cons first rest =>
      rw [hunder] at hlinked hpast hdue
      rcases hlinked with ⟨hle, _, hrest⟩
      have hfirst := hrest.le_latest
      simp only [latest] at hpast hdue
      refine ⟨first, ?_, Nat.le_refl _, hrest, hpast, hdue, h.served, fun time htime => ?_⟩
      · simp only
        omega
      · -- The next message was put under way later than the one that was swift.
        have hswift := h.swift first (by rw [hunder]; rfl)
        cases rest with
        | nil => exact absurd htime.symm (Option.some_ne_none time)
        | cons second rest =>
            rcases hrest with ⟨hsecond, _, _⟩
            simp only [List.tail_cons, List.head?_cons, Option.some.injEq] at htime
            simp only
            omega

/-- Time goes by, but not past what is due. -/
theorem Fresh.advance (h : Fresh interval delay latency w base) {time : Nat}
    (hlater : w.now ≤ time) (hserved : time ≤ w.deadline + delay)
    (hswift : ∀ first, w.underWay.head? = some first → time ≤ first + latency) :
    Fresh interval delay latency { w with now := time } base :=
  ⟨h.caughtUp, Nat.le_trans h.heard hlater, h.linked, Nat.le_trans h.past hlater, h.due, hserved,
    hswift⟩

/-- What was heard last may be more recent: the watchdog starts over. -/
theorem Fresh.raise (h : Fresh interval delay latency w base) {heard : Nat}
    (hlater : w.heard ≤ heard) (hpast : heard ≤ w.now) :
    Fresh interval delay latency { w with heard } base :=
  ⟨Nat.le_trans h.caughtUp hlater, hpast, h.linked, h.past, h.due, h.served, h.swift⟩

/-- Something was heard recently. -/
theorem Fresh.recent (h : Fresh interval delay latency w base) :
    w.now ≤ w.heard + (interval + delay + 2 * latency) := by
  have hcaught := h.caughtUp
  have hlinked := h.linked
  have hdue := h.due
  have hserved := h.served
  cases hunder : w.underWay with
  | nil =>
      -- Everything was heard; the next beat is not due for long.
      simp only [hunder, latest] at hdue
      omega
  | cons first rest =>
      rw [hunder] at hlinked
      rcases hlinked with ⟨_, hnear, _⟩
      have hswift := h.swift first (by rw [hunder]; rfl)
      omega

end Watchdog
