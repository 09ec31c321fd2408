import Mathlib.Data.List.Basic
import Mathlib.Logic.Function.Basic

/-!
# Boards

What a chat service is for, without sessions, messages or sockets: there are
rooms, in each room there is one log of lines, and whoever is in a room sees
the lines that were posted there since he entered. A reader is in at most one
room at a time; entering another one is leaving the first.

A reader's place is the room he is in and the length its log had when he
entered. Places never point past the end of a log, and a `Board` carries the
proof of it.

The point of the definition is `view_comparable`: two readers in one room see
ends of the same log, so that one of them sees everything the other sees, in
the same order, after what only he was there for.

## Main definitions

* `Board`: The logs and the places of the readers.
* `Board.post`, `Board.enter`, `Board.leave`: What happens on a board.
* `Board.roomOf`, `Board.view`: Where a reader is and what he sees.
* `Board.Act`, `Board.act`: The same as data.

## Theorems

* `roomOf_enter`, `roomOf_leave`: Who is where.
* `view_post`, `view_enter`, `view_leave`: What is seen after each act.
* `view_suffix`: A view is the end of a log.
* `view_comparable`: Two views of one room, compared.
-/

/-- Rooms with their logs, and readers with their places. -/
structure Board (σ ρ α : Type) where
  log : ρ → List α
  place : σ → Option (ρ × Nat)
  within : ∀ s r n, place s = some (r, n) → n ≤ (log r).length

namespace Board

variable {σ ρ α : Type}

/-- No lines and no readers. -/
def empty : Board σ ρ α where
  log := fun _ => []
  place := fun _ => none
  within := fun _ _ _ h => absurd h (Option.some_ne_none _).symm

/-- The room a reader is in. -/
def roomOf (b : Board σ ρ α) (s : σ) : Option ρ := (b.place s).map Prod.fst

/-- The lines posted in his room since he entered it. -/
def view (b : Board σ ρ α) (s : σ) : List α :=
  match b.place s with
  | none => []
  | some (r, n) => (b.log r).drop n

section Rooms

variable [DecidableEq ρ]

/-- A line is added to the log of room `r`. -/
def post (b : Board σ ρ α) (r : ρ) (line : α) : Board σ ρ α where
  log := Function.update b.log r (b.log r ++ [line])
  place := b.place
  within := by
    intro s q n h
    have hn := b.within s q n h
    by_cases hq : q = r
    · subst hq
      rw [Function.update_self, List.length_append]
      omega
    · rw [Function.update_of_ne hq]
      exact hn

/-- A line is seen in its room, and nowhere else. -/
theorem view_post (b : Board σ ρ α) (s : σ) (r : ρ) (line : α) :
    (b.post r line).view s = if b.roomOf s = some r then b.view s ++ [line] else b.view s := by
  unfold post view roomOf
  cases hplace : b.place s with
  | none =>
      rw [Option.map_none, if_neg (Option.some_ne_none r).symm]
  | some place =>
      rcases place with ⟨q, n⟩
      rw [Option.map_some]
      simp only [Option.some.injEq]
      by_cases hq : q = r
      · subst hq
        rw [if_pos rfl, Function.update_self,
          List.drop_append_of_le_length (b.within s q n hplace)]
      · rw [if_neg hq, Function.update_of_ne hq]

end Rooms

section Readers

variable [DecidableEq σ]

/-- Reader `s` enters room `r`, wherever he was before. -/
def enter (b : Board σ ρ α) (s : σ) (r : ρ) : Board σ ρ α where
  log := b.log
  place := Function.update b.place s (some (r, (b.log r).length))
  within := by
    intro t q n h
    by_cases hts : t = s
    · subst hts
      rw [Function.update_self, Option.some.injEq, Prod.mk.injEq] at h
      rcases h with ⟨rfl, rfl⟩
      exact Nat.le_refl _
    · rw [Function.update_of_ne hts] at h
      exact b.within t q n h

/-- Reader `s` leaves the room he is in, if any. -/
def leave (b : Board σ ρ α) (s : σ) : Board σ ρ α where
  log := b.log
  place := Function.update b.place s none
  within := by
    intro t q n h
    by_cases hts : t = s
    · subst hts
      rw [Function.update_self] at h
      exact absurd h (Option.some_ne_none _).symm
    · rw [Function.update_of_ne hts] at h
      exact b.within t q n h

variable (b : Board σ ρ α)

theorem roomOf_enter (s t : σ) (r : ρ) :
    (b.enter s r).roomOf t = if t = s then some r else b.roomOf t := by
  unfold enter roomOf
  by_cases hts : t = s
  · subst hts
    rw [if_pos rfl]
    simp only [Function.update_self, Option.map_some]
  · rw [if_neg hts]
    simp only [Function.update_of_ne hts]

theorem roomOf_leave (s t : σ) :
    (b.leave s).roomOf t = if t = s then none else b.roomOf t := by
  unfold leave roomOf
  by_cases hts : t = s
  · subst hts
    rw [if_pos rfl]
    simp only [Function.update_self, Option.map_none]
  · rw [if_neg hts]
    simp only [Function.update_of_ne hts]

/-- Whoever enters starts with nothing; nobody else notices. -/
theorem view_enter (s t : σ) (r : ρ) :
    (b.enter s r).view t = if t = s then [] else b.view t := by
  unfold enter view
  by_cases hts : t = s
  · subst hts
    rw [if_pos rfl]
    simp only [Function.update_self, List.drop_length]
  · rw [if_neg hts]
    simp only [Function.update_of_ne hts]

theorem view_leave (s t : σ) : (b.leave s).view t = if t = s then [] else b.view t := by
  unfold leave view
  by_cases hts : t = s
  · subst hts
    rw [if_pos rfl]
    simp only [Function.update_self]
  · rw [if_neg hts]
    simp only [Function.update_of_ne hts]

end Readers

/-- The acts as data. -/
inductive Act (σ ρ α : Type) where
  | post (r : ρ) (line : α)
  | enter (s : σ) (r : ρ)
  | leave (s : σ)

/-- One act, or none. -/
def act [DecidableEq σ] [DecidableEq ρ] (b : Board σ ρ α) : Option (Act σ ρ α) → Board σ ρ α
  | none => b
  | some (.post r line) => b.post r line
  | some (.enter s r) => b.enter s r
  | some (.leave s) => b.leave s

/-- A view is the end of the log of the room. -/
theorem view_suffix (b : Board σ ρ α) {s : σ} {r : ρ} (h : b.roomOf s = some r) :
    b.view s <:+ b.log r := by
  unfold roomOf at h
  unfold view
  cases hplace : b.place s with
  | none =>
      rw [hplace] at h
      exact absurd h (Option.some_ne_none r).symm
  | some place =>
      rcases place with ⟨q, n⟩
      rw [hplace, Option.map_some, Option.some.injEq] at h
      subst h
      exact List.drop_suffix n _

/-- Of two readers in one room, one sees all that the other sees, in the same
    order, after what was said before the other came. -/
theorem view_comparable (b : Board σ ρ α) {s t : σ} {r : ρ} (hs : b.roomOf s = some r)
    (ht : b.roomOf t = some r) : b.view s <:+ b.view t ∨ b.view t <:+ b.view s :=
  List.suffix_or_suffix_of_suffix (b.view_suffix hs) (b.view_suffix ht)

end Board
