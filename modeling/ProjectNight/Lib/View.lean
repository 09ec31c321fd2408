import ProjectNight.Lib.TreeMap

/-!
# Views Rebuilt from Notices

An observer that is told of every arrival and every departure can rebuild who
is present. This is the general shape of that: a stream of notices over a key
type, replayed into a map from keys to the values they were announced with, or
into the bare set of keys.

A stream is `Proper` when no arrival names a key already present and no
departure one that is absent, and `Faithful` when a departure moreover carries
the value its key was announced with. Both are stated from a starting view, so
that a stream can be extended at its end (`proper_append`, `faithful_append`)
as messages arrive.

## Main definitions

* `Notice`: An arrival or a departure.
* `replayFrom`: The view after a stream, from a starting view.
* `Proper`, `Faithful`: Streams that fit the views they run through.
* `replayKeys`, `ProperKeys`: The same for the set of keys alone.

## Theorems

* `replayFrom_append`, `proper_append`, `faithful_append`: Extending a stream.
* `replayFrom_joins`, `proper_joins`, `faithful_joins`: A list of arrivals.
* `mem_replayKeys`, `properKeys_of_proper`: The set of keys is the domain of
  the view.
-/

namespace View

variable {κ ν : Type} [DecidableEq κ]

/-- One key arrives with a value, or departs with one. -/
inductive Notice (κ ν : Type) where
  | joined (key : κ) (value : ν)
  | left (key : κ) (value : ν)

/-- The view after one notice. -/
def Notice.apply (view : κ → Option ν) : Notice κ ν → κ → Option ν
  | .joined key value => fun k => if k = key then some value else view k
  | .left key _ => fun k => if k = key then none else view k

/-- The view after a stream of notices. -/
def replayFrom (view : κ → Option ν) (notices : List (Notice κ ν)) : κ → Option ν :=
  notices.foldl Notice.apply view

/-- An arrival names an absent key and a departure a present one. -/
def Notice.Fits (view : κ → Option ν) : Notice κ ν → Prop
  | .joined key _ => view key = none
  | .left key _ => (view key).isSome

/-- A departure carries the value its key was announced with. -/
def Notice.Matches (view : κ → Option ν) : Notice κ ν → Prop
  | .joined _ _ => True
  | .left key value => view key = some value

def Proper (view : κ → Option ν) : List (Notice κ ν) → Prop
  | [] => True
  | n :: ns => n.Fits view ∧ Proper (n.apply view) ns

def Faithful (view : κ → Option ν) : List (Notice κ ν) → Prop
  | [] => True
  | n :: ns => n.Matches view ∧ Faithful (n.apply view) ns

theorem replayFrom_append (view : κ → Option ν) (a b : List (Notice κ ν)) :
    replayFrom view (a ++ b) = replayFrom (replayFrom view a) b :=
  List.foldl_append

theorem proper_append (view : κ → Option ν) (a b : List (Notice κ ν)) :
    Proper view (a ++ b) ↔ Proper view a ∧ Proper (replayFrom view a) b := by
  induction a generalizing view with
  | nil => exact (and_iff_right trivial).symm
  | cons n ns ih =>
      rw [List.cons_append, Proper, Proper, ih, and_assoc]
      rfl

theorem faithful_append (view : κ → Option ν) (a b : List (Notice κ ν)) :
    Faithful view (a ++ b) ↔ Faithful view a ∧ Faithful (replayFrom view a) b := by
  induction a generalizing view with
  | nil => exact (and_iff_right trivial).symm
  | cons n ns ih =>
      rw [List.cons_append, Faithful, Faithful, ih, and_assoc]
      rfl

/-! ### A list of arrivals -/

variable {α : Type}

/-- After arrivals with distinct keys the view has exactly their values, over
    whatever it had before. -/
theorem replayFrom_joins (key : α → κ) (value : α → ν) (view : κ → Option ν) (l : List α)
    (hnd : (l.map key).Nodup) (k : κ) :
    replayFrom view (l.map (fun a => Notice.joined (key a) (value a))) k =
      ((l.find? (fun a => key a = k)).map value).or (view k) := by
  induction l generalizing view with
  | nil => rfl
  | cons a l ih =>
      rw [List.map_cons, List.nodup_cons] at hnd
      have hih := ih (Notice.apply view (Notice.joined (key a) (value a))) hnd.2
      rw [List.map_cons, replayFrom, List.foldl_cons]
      refine hih.trans ?_
      by_cases hk : key a = k
      · -- No later arrival repeats this key.
        have hfind : l.find? (fun b => key b = k) = none := by
          rw [List.find?_eq_none]
          intro b hb hkb
          rw [decide_eq_true_eq] at hkb
          exact hnd.1 (List.mem_map.mpr ⟨b, hb, hkb.trans hk.symm⟩)
        rw [hfind, List.find?_cons_of_pos (by simpa only [decide_eq_true_eq] using hk)]
        simp only [Option.map_none, Option.none_or, Notice.apply, if_pos hk.symm,
          Option.map_some, Option.some_or]
      · rw [List.find?_cons_of_neg (by simpa only [decide_eq_true_eq] using hk)]
        simp only [Notice.apply, if_neg (fun hc : k = key a => hk hc.symm)]

theorem proper_joins (key : α → κ) (value : α → ν) (view : κ → Option ν) (l : List α)
    (hnd : (l.map key).Nodup) (hnew : ∀ a ∈ l, view (key a) = none) :
    Proper view (l.map (fun a => Notice.joined (key a) (value a))) := by
  induction l generalizing view with
  | nil => exact trivial
  | cons a l ih =>
      rw [List.map_cons, List.nodup_cons] at hnd
      refine ⟨hnew a List.mem_cons_self, ih _ hnd.2 (fun b hb => ?_)⟩
      have hba : key b ≠ key a := fun hc => hnd.1 (List.mem_map.mpr ⟨b, hb, hc⟩)
      simp only [Notice.apply, if_neg hba]
      exact hnew b (List.mem_cons_of_mem a hb)

theorem faithful_joins (key : α → κ) (value : α → ν) (view : κ → Option ν) (l : List α) :
    Faithful view (l.map (fun a => Notice.joined (key a) (value a))) := by
  induction l generalizing view with
  | nil => exact trivial
  | cons a l ih => exact ⟨trivial, ih _⟩

/-! ### The set of keys alone -/

variable [Ord κ] [Std.TransOrd κ] [Std.LawfulEqOrd κ]

omit [DecidableEq κ] [Std.LawfulEqOrd κ] in
/-- The set of keys after one notice. -/
def Notice.applyKey (keys : Std.ExtTreeSet κ) : Notice κ ν → Std.ExtTreeSet κ
  | .joined key _ => keys.insert key
  | .left key _ => keys.erase key

/-- The set of keys after a stream of notices, from a starting set. -/
def replayKeys (keys : Std.ExtTreeSet κ) (notices : List (Notice κ ν)) : Std.ExtTreeSet κ :=
  notices.foldl Notice.applyKey keys

/-- No arrival adds a key already present and no departure removes an absent
    one. -/
def ProperKeys (keys : Std.ExtTreeSet κ) : List (Notice κ ν) → Prop
  | [] => True
  | .joined key value :: ns =>
      key ∉ keys ∧ ProperKeys (Notice.applyKey keys (.joined key value)) ns
  | .left key value :: ns =>
      key ∈ keys ∧ ProperKeys (Notice.applyKey keys (.left key value)) ns

/-- One notice keeps the set of keys the domain of the view. -/
theorem mem_applyKey (keys : Std.ExtTreeSet κ) (view : κ → Option ν)
    (h : ∀ k, k ∈ keys ↔ (view k).isSome) (n : Notice κ ν) (k : κ) :
    k ∈ n.applyKey keys ↔ (n.apply view k).isSome := by
  cases n with
  | joined key value =>
      simp only [Notice.applyKey, Notice.apply, TreeMap.mem_insert_iff]
      by_cases hk : k = key
      · rw [if_pos hk]
        exact ⟨fun _ => rfl, fun _ => Or.inl hk⟩
      · rw [if_neg hk]
        exact ⟨fun hc => (h k).mp (hc.resolve_left hk), fun hc => Or.inr ((h k).mpr hc)⟩
  | left key value =>
      simp only [Notice.applyKey, Notice.apply, TreeMap.mem_erase_iff]
      by_cases hk : k = key
      · rw [if_pos hk]
        exact ⟨fun hc => absurd hk hc.1, fun hc => absurd hc Bool.false_ne_true⟩
      · rw [if_neg hk]
        exact ⟨fun hc => (h k).mp hc.2, fun hc => ⟨hk, (h k).mpr hc⟩⟩

theorem mem_replayKeys (keys : Std.ExtTreeSet κ) (view : κ → Option ν)
    (h : ∀ k, k ∈ keys ↔ (view k).isSome) (notices : List (Notice κ ν)) (k : κ) :
    k ∈ replayKeys keys notices ↔ (replayFrom view notices k).isSome := by
  induction notices generalizing keys view with
  | nil => exact h k
  | cons n ns ih => exact ih _ _ (mem_applyKey keys view h n)

theorem properKeys_of_proper (keys : Std.ExtTreeSet κ) (view : κ → Option ν)
    (h : ∀ k, k ∈ keys ↔ (view k).isSome) (notices : List (Notice κ ν))
    (hp : Proper view notices) : ProperKeys keys notices := by
  induction notices generalizing keys view with
  | nil => exact trivial
  | cons n ns ih =>
      have hrest := ih _ _ (mem_applyKey keys view h n) hp.2
      cases n with
      | joined key value =>
          refine ⟨fun hc => ?_, hrest⟩
          have hnone : view key = none := hp.1
          rw [h, hnone] at hc
          exact absurd hc Bool.false_ne_true
      | left key value => exact ⟨(h key).mpr hp.1, hrest⟩

end View
