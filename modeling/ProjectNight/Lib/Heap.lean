import Mathlib.Data.List.Perm.Basic

/-!
# A Heap and Who Owns It

Cells that are allocated with `new` and freed with `delete`, as raw pointers see
them. A pointer is the position of its cell, and positions are not used again,
so a pointer to a freed cell is told from every other. Reading or freeing a cell
that is not live is a fault.

Nothing in such a program says who is to free a cell. What keeps it right is
that at any time every live cell has exactly one owner. `Owned` says so of a
list of all the pointers that are held anywhere: it is free of repetitions, and
the cells it points to are the live ones. Handing a pointer over permutes the
list, so the rules for `alloc` and `free` are all that is needed. When nobody
holds a pointer any more, nothing has leaked.

## Main definitions

* `Heap`, `alloc`, `read`, `free`: The cells.
* `Owned`: The live cells and their owners.

## Theorems

* `owned_empty`, `Owned.alloc`, `Owned.free`, `Owned.perm`: How cells and owners
  change.
* `Owned.read`, `Owned.fresh`: Owners do not fault, and no two own one cell.
* `read_alloc`, `read_free`: Other cells stay as they are.
* `flatMap_set_perm`: Owners that are kept in a list.
-/

structure Heap (α : Type) where
  /-- `none` once the cell has been freed. -/
  cells : List (Option α) := []
  deriving DecidableEq, Repr

namespace Heap

variable {α : Type}

/-- `new`. -/
def alloc (h : Heap α) (a : α) : Nat × Heap α := (h.cells.length, ⟨h.cells ++ [some a]⟩)

/-- What the cell holds; `none` is a fault. -/
def read (h : Heap α) (p : Nat) : Option α := h.cells[p]?.join

/-- `delete`; `none` is a fault. -/
def free (h : Heap α) (p : Nat) : Option (Heap α) :=
  (h.read p).map (fun _ => ⟨h.cells.set p none⟩)

/-- The pointers are those to the live cells, each of them once. -/
structure Owned (h : Heap α) (ps : List Nat) : Prop where
  nodup : ps.Nodup
  live : ∀ p, p ∈ ps ↔ (h.read p).isSome = true

variable {h : Heap α} {ps qs : List Nat} {p q : Nat} {a : α}

theorem owned_empty : Owned ({} : Heap α) [] :=
  ⟨List.nodup_nil, fun p => by rw [read, List.getElem?_nil]; simp only [List.not_mem_nil,
    Option.join_none, Option.isSome_none, Bool.false_eq_true]⟩

/-- Pointers are handed over. -/
theorem Owned.perm (ho : Owned h ps) (hperm : ps.Perm qs) : Owned h qs :=
  ⟨hperm.nodup_iff.mp ho.nodup, fun p => (hperm.mem_iff).symm.trans (ho.live p)⟩

/-- The new cell holds what it was given, and the others what they held. -/
theorem read_alloc (h : Heap α) (a : α) (p : Nat) :
    (h.alloc a).2.read p = if p = (h.alloc a).1 then some a else h.read p := by
  have hread : (h.alloc a).2.read p = (h.cells ++ [some a])[p]?.join := rfl
  by_cases hp : p = (h.alloc a).1
  · rw [if_pos hp, hread, hp]
    exact congrArg Option.join List.getElem?_concat_length
  · rw [if_neg hp, hread, Heap.read]
    rcases Nat.lt_or_gt_of_ne hp with hlt | hgt
    · rw [List.getElem?_append_left hlt]
    · have hout : h.cells.length < p := hgt
      rw [List.getElem?_eq_none (by rw [List.length_append, List.length_singleton]; omega),
        List.getElem?_eq_none (by omega)]

/-- The new cell was not live before. -/
theorem read_fresh (h : Heap α) (a : α) : h.read (h.alloc a).1 = none := by
  rw [alloc, read, List.getElem?_eq_none (Nat.le_refl _)]
  rfl

/-- Nobody holds the pointer to the new cell yet. -/
theorem Owned.fresh (ho : Owned h ps) (a : α) : (h.alloc a).1 ∉ ps := by
  rw [ho.live, read_fresh]
  exact Bool.false_ne_true

theorem Owned.alloc (ho : Owned h ps) (a : α) :
    Owned (h.alloc a).2 ((h.alloc a).1 :: ps) := by
  refine ⟨List.nodup_cons.mpr ⟨ho.fresh a, ho.nodup⟩, fun p => ?_⟩
  rw [read_alloc, List.mem_cons]
  split_ifs with hp
  · exact ⟨fun _ => rfl, fun _ => Or.inl hp⟩
  · rw [← ho.live]
    exact ⟨fun h => h.resolve_left hp, Or.inr⟩

/-- An owner reads without a fault. -/
theorem Owned.read (ho : Owned h ps) (hp : p ∈ ps) : ∃ a, h.read p = some a :=
  Option.isSome_iff_exists.mp ((ho.live p).mp hp)

/-- A freed cell is not live, and the others hold what they held. -/
theorem read_free {h' : Heap α} (hfree : h.free p = some h') (q : Nat) :
    h'.read q = if q = p then none else h.read q := by
  rcases Option.map_eq_some_iff.mp hfree with ⟨a, _, rfl⟩
  unfold Heap.read
  split_ifs with hq
  · rw [hq, List.getElem?_set_self']
    cases h.cells[p]? <;> rfl
  · rw [List.getElem?_set_ne (Ne.symm hq)]

/-- An owner frees its cell without a fault, and owns it no more. -/
theorem Owned.free (ho : Owned h (p :: ps)) :
    ∃ h', h.free p = some h' ∧ Owned h' ps := by
  rcases ho.read List.mem_cons_self with ⟨a, ha⟩
  have hfree : h.free p = some ⟨h.cells.set p none⟩ := by rw [Heap.free, ha, Option.map_some]
  refine ⟨_, hfree, ⟨(List.nodup_cons.mp ho.nodup).2, fun q => ?_⟩⟩
  rw [read_free hfree]
  split_ifs with hq
  · rw [hq]
    exact ⟨fun h => absurd h (List.nodup_cons.mp ho.nodup).1,
      fun h => absurd h Bool.false_ne_true⟩
  · rw [← ho.live, List.mem_cons]
    exact ⟨Or.inr, fun h => h.resolve_left hq⟩

/-- Nobody owns anything: every cell has been freed. -/
theorem Owned.none_live (ho : Owned h []) (p : Nat) : h.read p = none := by
  rw [← Option.not_isSome_iff_eq_none, ← ho.live]
  exact List.not_mem_nil

/-- The owners are in a list, and one of them changes. -/
theorem flatMap_set_perm {β : Type} {f : β → List Nat} {bs : List β} {k : Nat} {b : β}
    (hk : bs[k]? = some b) :
    ∃ rest, (bs.flatMap f).Perm (f b ++ rest) ∧
      ∀ b', ((bs.set k b').flatMap f).Perm (f b' ++ rest) := by
  rcases List.getElem?_eq_some_iff.mp hk with ⟨hlt, heq⟩
  refine ⟨(bs.eraseIdx k).flatMap f, ?_, fun b' => ?_⟩
  · have hperm := (List.getElem_cons_eraseIdx_perm hlt).symm.flatMap_right f
    rw [heq, List.flatMap_cons] at hperm
    exact hperm
  · have hperm := (List.set_perm_cons_eraseIdx hlt b').flatMap_right f
    rw [List.flatMap_cons] at hperm
    exact hperm

end Heap
