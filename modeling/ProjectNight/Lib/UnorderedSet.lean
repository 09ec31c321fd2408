import ProjectNight.Lib.TreeMap

/-!
# Unordered Sets

A hash set shows its elements in an order of its own. The order is not a
function of the elements: it depends on which of them came first, on what was
there before and is gone, and on how large the table once was. What it does
depend on is the history of the set. So a set here is the insertions and
erasures that made it, together with the elements they lead to, and an order
of visiting it may be any function of the two.

Inserting an element that is there, or erasing one that is not, leaves a hash
set alone, and so it does here (`insert_eq_self`, `erase_eq_self`).

## Main definitions

* `SetChange`: An insertion or an erasure that took effect.
* `UnorderedSet`: A set with its history.
* `UnorderedSet.insert`, `UnorderedSet.erase`: The updates.
* `UnorderedSet.ofKeys`: The keys of a map, in place of its history.

## Theorems

* `mem_insert_iff`, `mem_erase_iff`, `mem_ofKeys`: Membership after an update.
* `size_insert`: The size after an insertion that takes effect.
-/

/-- A change of a set: an insertion of an element that was not there, or an
    erasure of one that was. -/
inductive SetChange (α : Type) where
  | inserted (a : α)
  | erased (a : α)
  deriving DecidableEq, Repr

def SetChange.apply {α : Type} [Ord α] [Std.TransOrd α] (elems : Std.ExtTreeSet α) :
    SetChange α → Std.ExtTreeSet α
  | .inserted a => elems.insert a
  | .erased a => elems.erase a

/-- A set with its history, the latest change first. -/
structure UnorderedSet (α : Type) [Ord α] [Std.TransOrd α] where
  elems : Std.ExtTreeSet α := ∅
  changes : List (SetChange α) := []
  elems_eq : elems = changes.foldr (fun change elems => change.apply elems) ∅ := by rfl

namespace UnorderedSet

variable {α : Type} [Ord α] [Std.TransOrd α]

instance : EmptyCollection (UnorderedSet α) := ⟨{}⟩

instance : Membership α (UnorderedSet α) := ⟨fun s a => a ∈ s.elems⟩

instance (s : UnorderedSet α) (a : α) : Decidable (a ∈ s) :=
  inferInstanceAs (Decidable (a ∈ s.elems))

def size (s : UnorderedSet α) : Nat := s.elems.size

/-- A set after one more change. -/
def changed (s : UnorderedSet α) (change : SetChange α) : UnorderedSet α where
  elems := change.apply s.elems
  changes := change :: s.changes
  elems_eq := by rw [List.foldr_cons, ← s.elems_eq]

def insert (s : UnorderedSet α) (a : α) : UnorderedSet α :=
  if a ∈ s then s else s.changed (.inserted a)

def erase (s : UnorderedSet α) (a : α) : UnorderedSet α :=
  if a ∈ s then s.changed (.erased a) else s

/-- The keys of a map, as if they had been inserted one after the other. -/
def ofKeys (keys : List α) : UnorderedSet α := keys.foldl insert ∅

theorem not_mem_empty {a : α} : a ∉ (∅ : UnorderedSet α) := Std.ExtTreeSet.not_mem_empty

theorem insert_eq_self {s : UnorderedSet α} {a : α} (h : a ∈ s) : s.insert a = s := if_pos h

theorem erase_eq_self {s : UnorderedSet α} {a : α} (h : a ∉ s) : s.erase a = s := if_neg h

theorem size_insert {s : UnorderedSet α} {a : α} (h : a ∉ s) :
    (s.insert a).size = s.size + 1 := by
  have hnew : ¬ s.elems.contains a = true := h
  rw [insert, if_neg h]
  exact Std.ExtTreeSet.size_insert.trans (if_neg hnew)

variable [Std.LawfulEqOrd α]

theorem mem_insert_iff (s : UnorderedSet α) (a b : α) : b ∈ s.insert a ↔ b = a ∨ b ∈ s := by
  by_cases ha : a ∈ s
  · -- It is there already, so nothing changes.
    rw [insert_eq_self ha]
    refine ⟨Or.inr, fun hb => hb.elim (fun hba => ?_) id⟩
    rw [hba]
    exact ha
  · rw [insert, if_neg ha]
    exact TreeMap.mem_insert_iff s.elems a b

theorem mem_erase_iff (s : UnorderedSet α) (a b : α) : b ∈ s.erase a ↔ b ≠ a ∧ b ∈ s := by
  by_cases ha : a ∈ s
  · rw [erase, if_pos ha]
    exact TreeMap.mem_erase_iff s.elems a b
  · -- It is not there, so whatever is there is something else.
    rw [erase_eq_self ha]
    refine ⟨fun hb => ⟨?_, hb⟩, And.right⟩
    rintro rfl
    exact ha hb

theorem mem_foldl_insert (keys : List α) (s : UnorderedSet α) (a : α) :
    a ∈ keys.foldl insert s ↔ a ∈ keys ∨ a ∈ s := by
  induction keys generalizing s with
  | nil => exact ⟨Or.inr, fun h => h.resolve_left List.not_mem_nil⟩
  | cons key keys ih =>
      rw [List.foldl_cons, ih, mem_insert_iff, List.mem_cons, or_left_comm, or_assoc]

theorem mem_ofKeys (keys : List α) (a : α) : a ∈ ofKeys keys ↔ a ∈ keys := by
  rw [ofKeys, mem_foldl_insert, or_iff_left not_mem_empty]

end UnorderedSet
