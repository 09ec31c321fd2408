import Mathlib.Data.List.Basic

/-!
# Loops That Read Exact Amounts

A read loop over a byte stream asks for a number of elements, waits until they
are there, handles them, and asks again. The stream comes in pieces whose
boundaries have nothing to do with what the loop asks for.

A `Loop` says how much a state waits for and what a full read does. `drain`
runs the loop on what is there until it has to wait or has ended, and leaves
over what it has not used. `feed` adds a piece to what was left over. The order
in which pieces arrive and reads complete does not matter: `feed_append` says
that two pieces are as good as one.

## Main definitions

* `Loop`: What a state waits for, and what a full read does.
* `Fed`: A state, the elements left over, and the outputs so far.
* `drain`, `feed`: Running the loop on a buffer, and on one more piece.

## Theorems

* `drain_append`, `feed_append`: Pieces may be joined.
* `drain_rec`: Induction over the reads of a drain.
* `drain_map`: Loops that correspond read by read correspond on every stream.
-/

namespace Feed

variable {β σ τ ω : Type}

/-- What a state waits for, 0 when the loop has ended, and what a full read
    does. -/
structure Loop (β σ ω : Type) where
  need : σ → Nat
  take : σ → List β → σ × List ω

/-- A loop that has to wait: its state, what it has not used, its outputs. -/
@[ext] structure Fed (β σ ω : Type) where
  state : σ
  pending : List β
  outputs : List ω

/-- Outputs that were made before. -/
def Fed.after (outputs : List ω) (f : Fed β σ ω) : Fed β σ ω :=
  { f with outputs := outputs ++ f.outputs }

@[simp] theorem Fed.after_nil (f : Fed β σ ω) : f.after [] = f := rfl

@[simp] theorem Fed.after_append (o1 o2 : List ω) (f : Fed β σ ω) :
    f.after (o1 ++ o2) = (f.after o2).after o1 := by
  simp only [Fed.after, List.append_assoc]

namespace Loop

/-- Read as often as there is enough for it. -/
def drain (l : Loop β σ ω) (s : σ) (pending : List β) : Fed β σ ω :=
  if 0 < l.need s ∧ l.need s ≤ pending.length then
    let read := l.take s (pending.take (l.need s))
    (l.drain read.1 (pending.drop (l.need s))).after read.2
  else ⟨s, pending, []⟩
termination_by pending.length
decreasing_by
  rename_i h
  rw [List.length_drop]
  omega

/-- One more piece of the stream. -/
def feed (l : Loop β σ ω) (f : Fed β σ ω) (piece : List β) : Fed β σ ω :=
  (l.drain f.state (f.pending ++ piece)).after f.outputs

variable (l : Loop β σ ω)

theorem drain_read {s : σ} {pending : List β} (hpos : 0 < l.need s)
    (hle : l.need s ≤ pending.length) :
    l.drain s pending = (l.drain (l.take s (pending.take (l.need s))).1
      (pending.drop (l.need s))).after (l.take s (pending.take (l.need s))).2 := by
  rw [drain, if_pos ⟨hpos, hle⟩]

theorem drain_wait {s : σ} {pending : List β} (h : l.need s = 0 ∨ pending.length < l.need s) :
    l.drain s pending = ⟨s, pending, []⟩ := by
  rw [drain, if_neg (by omega)]

/-- What arrives later is read later. -/
theorem drain_append (s : σ) (a b : List β) :
    l.drain s (a ++ b)
      = (l.drain (l.drain s a).state ((l.drain s a).pending ++ b)).after (l.drain s a).outputs := by
  fun_induction l.drain s a with
  | case1 s a h read ih =>
      have hlen : l.need s ≤ (a ++ b).length := by
        rw [List.length_append]
        omega
      rw [drain_read l h.1 hlen, List.take_append_of_le_length h.2,
        List.drop_append_of_le_length h.2, ih]
      exact (Fed.after_append _ _ _).symm
  | case2 s a h => rfl

/-- Two pieces are as good as one. -/
theorem feed_append (f : Fed β σ ω) (a b : List β) :
    l.feed (l.feed f a) b = l.feed f (a ++ b) := by
  unfold feed
  rw [← List.append_assoc, drain_append l f.state (f.pending ++ a) b]
  exact Fed.after_append _ _ _

/-- Induction over the reads of a drain. -/
theorem drain_rec {R : σ → List ω → σ → Prop} (hrefl : ∀ s, R s [] s)
    (hread : ∀ s bytes outputs t, bytes.length = l.need s → 0 < l.need s →
      R (l.take s bytes).1 outputs t → R s ((l.take s bytes).2 ++ outputs) t)
    (s : σ) (pending : List β) :
    R s (l.drain s pending).outputs (l.drain s pending).state := by
  fun_induction l.drain s pending with
  | case1 s a h read ih =>
      have hlen : (a.take (l.need s)).length = l.need s := by
        rw [List.length_take]
        omega
      exact hread s _ _ _ hlen h.1 ih
  | case2 s a h => exact hrefl s

/-- Loops that correspond read by read correspond on every stream. -/
theorem drain_map {m : Loop β τ ω} {φ : σ → τ} {P : σ → Prop}
    (hneed : ∀ s, P s → m.need (φ s) = l.need s)
    (htake : ∀ s bytes, P s → bytes.length = l.need s → 0 < l.need s →
      P (l.take s bytes).1 ∧ m.take (φ s) bytes = (φ (l.take s bytes).1, (l.take s bytes).2))
    {s : σ} (hs : P s) (pending : List β) :
    P (l.drain s pending).state ∧
      m.drain (φ s) pending
        = ⟨φ (l.drain s pending).state, (l.drain s pending).pending,
          (l.drain s pending).outputs⟩ := by
  fun_induction l.drain s pending with
  | case1 s a h read ih =>
      have hlen : (a.take (l.need s)).length = l.need s := by
        rw [List.length_take]
        omega
      rcases htake s _ hs hlen h.1 with ⟨hP, heq⟩
      rcases ih hP with ⟨hP', hdrain⟩
      refine ⟨hP', ?_⟩
      rw [drain_read m (by rw [hneed s hs]; exact h.1) (by rw [hneed s hs]; exact h.2),
        hneed s hs, heq, hdrain]
      rfl
  | case2 s a h => exact ⟨hs, drain_wait m (by rw [hneed s hs]; omega)⟩

end Loop

end Feed
