import Mathlib.Data.List.DropRight

/-!
# Lookups by Equality

The lookup lemmas of `ExtTreeMap` and the membership lemmas of `ExtTreeSet`
speak of the comparison function: a key is hit when `cmp k a = .eq`. Over a
key type whose comparison decides equality that is `k = a`, and the lemmas
here say it that way, so that a proof about a table splits on equality of keys
and never mentions an ordering.

## Theorems

* `getElem?_insert_ite`, `getElem?_insertIfNew_ite`, `getElem?_modify_ite`,
  `getElem?_erase_ite`: Lookup after an update of a map.
* `mem_insert_iff`, `mem_erase_iff`: Membership after an update of a set.
-/

namespace TreeMap

variable {α β : Type} [Ord α] [Std.TransOrd α] [Std.LawfulEqOrd α] [DecidableEq α]

theorem getElem?_insert_ite (m : Std.ExtTreeMap α β) (k a : α) (v : β) :
    (m.insert k v)[a]? = if k = a then some v else m[a]? := by
  rw [Std.ExtTreeMap.getElem?_insert]
  by_cases hka : k = a
  · rw [if_pos hka, if_pos (Std.compare_eq_iff_eq.mpr hka)]
  · rw [if_neg hka, if_neg (fun hc => hka (Std.compare_eq_iff_eq.mp hc))]

/-- Inserting where nothing was yet: a present value stays. -/
theorem getElem?_insertIfNew_ite (m : Std.ExtTreeMap α β) (k a : α) (v : β) :
    (m.insertIfNew k v)[a]? = if k = a then some (m[a]?.getD v) else m[a]? := by
  rw [Std.ExtTreeMap.getElem?_insertIfNew]
  by_cases hka : k = a
  · subst hka
    rw [if_pos rfl]
    cases hm : m[k]? with
    | none =>
        have hmem : ¬ k ∈ m := by
          rw [Std.ExtTreeMap.mem_iff_isSome_getElem?, hm]
          exact Bool.false_ne_true
        rw [if_pos ⟨Std.compare_eq_iff_eq.mpr rfl, hmem⟩, Option.getD_none]
    | some w =>
        have hmem : k ∈ m := by
          rw [Std.ExtTreeMap.mem_iff_isSome_getElem?, hm]
          rfl
        rw [if_neg (fun h => h.2 hmem), Option.getD_some]
  · rw [if_neg hka, if_neg (fun h => hka (Std.compare_eq_iff_eq.mp h.1))]

theorem getElem?_modify_ite (m : Std.ExtTreeMap α β) (k a : α) (f : β → β) :
    (m.modify k f)[a]? = if k = a then m[a]?.map f else m[a]? := by
  rw [Std.ExtTreeMap.getElem?_modify]
  by_cases hka : k = a
  · rw [if_pos hka, if_pos (Std.compare_eq_iff_eq.mpr hka), hka]
  · rw [if_neg hka, if_neg (fun hc => hka (Std.compare_eq_iff_eq.mp hc))]

theorem getElem?_erase_ite (m : Std.ExtTreeMap α β) (k a : α) :
    (m.erase k)[a]? = if k = a then none else m[a]? := by
  rw [Std.ExtTreeMap.getElem?_erase]
  by_cases hka : k = a
  · rw [if_pos hka, if_pos (Std.compare_eq_iff_eq.mpr hka)]
  · rw [if_neg hka, if_neg (fun hc => hka (Std.compare_eq_iff_eq.mp hc))]

omit [DecidableEq α] in
theorem mem_insert_iff (s : Std.ExtTreeSet α) (k a : α) : a ∈ s.insert k ↔ a = k ∨ a ∈ s := by
  rw [Std.ExtTreeSet.mem_insert, Std.compare_eq_iff_eq, eq_comm]

omit [DecidableEq α] in
theorem mem_erase_iff (s : Std.ExtTreeSet α) (k a : α) : a ∈ s.erase k ↔ a ≠ k ∧ a ∈ s := by
  rw [Std.ExtTreeSet.mem_erase, ne_eq, ne_eq, Std.compare_eq_iff_eq, eq_comm]

end TreeMap
