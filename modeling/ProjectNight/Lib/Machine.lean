import Mathlib.Data.List.Basic

/-!
# Machines Driven by Actions

A system of threads and event loops whose interleaving is decided from
outside: the scheduler, the network and the users together pick the next
action, and a step function says what it does, or that it is not possible
now. A run is a list of actions; quantifying over lists is quantifying over
interleavings.

Some properties hold only while the environment keeps away from certain
steps. `Respects` says that every action of a run meets a condition on the
state it is taken in, and `invariant_of_respects` is the induction for such
runs.

## Main definitions

* `run`: A list of actions, one after the other.
* `Respects`: Every action of a run meets a condition.
* `emitted`: What the steps of a run emit, one after the other.

## Theorems

* `run_cons`, `run_append`, `run_trans`: Taking runs apart and composing them.
* `respects_and`: Two conditions at once.
* `invariant`: What every step preserves, every run preserves.
* `invariant_of_respects`: What every step under the condition preserves,
  every run under it preserves.
* `history`: The same for a property of everything emitted so far and the
  state reached.
* `run_emitted`: When what is emitted are steps of another machine, a run drives
  a run of that one.
-/

namespace Machine

variable {σ α : Type}

/-- The state after a list of actions, if all of them are possible. -/
def run (step : σ → α → Option σ) (s : σ) : List α → Option σ
  | [] => some s
  | a :: as => (step s a).bind (fun t => run step t as)

/-- Every action of the run meets the condition in the state it is taken in. -/
def Respects (step : σ → α → Option σ) (cond : σ → α → Bool) (s : σ) : List α → Bool
  | [] => true
  | a :: as => cond s a && (step s a).all (fun t => Respects step cond t as)

/-- What the steps of a run emit, when a step that takes action `a` in state `s`
    emits `emit s a`. -/
def emitted {ω : Type} (step : σ → α → Option σ) (emit : σ → α → List ω) (s : σ) :
    List α → List ω
  | [] => []
  | a :: as => emit s a ++ ((step s a).map (fun t => emitted step emit t as)).getD []

variable {step : σ → α → Option σ}

theorem run_cons {s t : σ} {a : α} {as : List α} (h : run step s (a :: as) = some t) :
    ∃ u, step s a = some u ∧ run step u as = some t :=
  Option.bind_eq_some_iff.mp h

theorem run_append (s : σ) (as bs : List α) :
    run step s (as ++ bs) = (run step s as).bind (fun t => run step t bs) := by
  induction as generalizing s with
  | nil => rfl
  | cons a as ih =>
      rw [List.cons_append, run, run, Option.bind_assoc]
      exact congrArg _ (funext fun t => ih t)

/-- Two runs, one after the other. -/
theorem run_trans {s t u : σ} {as bs : List α} (h1 : run step s as = some t)
    (h2 : run step t bs = some u) : run step s (as ++ bs) = some u := by
  rw [run_append, h1]
  exact h2

theorem respects_cons {cond : σ → α → Bool} {s t : σ} {a : α} {as : List α}
    (h : Respects step cond s (a :: as) = true) (hstep : step s a = some t) :
    cond s a = true ∧ Respects step cond t as = true := by
  rw [Respects, Bool.and_eq_true, hstep, Option.all_some] at h
  exact h

/-- Two conditions at once. -/
theorem respects_and {c d : σ → α → Bool} {s : σ} {as : List α}
    (hc : Respects step c s as = true) (hd : Respects step d s as = true) :
    Respects step (fun s a => c s a && d s a) s as = true := by
  induction as generalizing s with
  | nil => rfl
  | cons a as ih =>
      rw [Respects, Bool.and_eq_true] at hc hd ⊢
      refine ⟨by rw [hc.1, hd.1]; rfl, ?_⟩
      cases hstep : step s a with
      | none => rfl
      | some t =>
          rw [hstep, Option.all_some] at hc hd
          exact ih hc.2 hd.2

theorem invariant_of_respects {P : σ → Prop} {cond : σ → α → Bool}
    (hstep : ∀ s a t, P s → cond s a = true → step s a = some t → P t) {s t : σ} {as : List α}
    (hrun : run step s as = some t) (hcond : Respects step cond s as = true) (h : P s) :
    P t := by
  induction as generalizing s with
  | nil =>
      rw [run, Option.some.injEq] at hrun
      exact hrun ▸ h
  | cons a as ih =>
      rcases run_cons hrun with ⟨u, hu, hrest⟩
      rcases respects_cons hcond hu with ⟨ha, has⟩
      exact ih hrest has (hstep s a u h ha hu)

theorem invariant {P : σ → Prop} (hstep : ∀ s a t, P s → step s a = some t → P t) {s t : σ}
    {as : List α} (hrun : run step s as = some t) (h : P s) : P t := by
  induction as generalizing s with
  | nil =>
      rw [run, Option.some.injEq] at hrun
      exact hrun ▸ h
  | cons a as ih =>
      rcases run_cons hrun with ⟨u, hu, hrest⟩
      exact ih hrest (hstep s a u h hu)

theorem emitted_cons {ω : Type} {emit : σ → α → List ω} {s t : σ} {a : α} {as : List α}
    (h : step s a = some t) :
    emitted step emit s (a :: as) = emit s a ++ emitted step emit t as := by
  rw [emitted, h, Option.map_some, Option.getD_some]

/-- A property of what was emitted before and of the state reached, kept by every
    step, is kept by every run. -/
theorem history {ω : Type} {emit : σ → α → List ω} {R : List ω → σ → Prop}
    (hstep : ∀ past s a t, R past s → step s a = some t → R (past ++ emit s a) t) {s t : σ}
    {as : List α} (hrun : run step s as = some t) (past : List ω) (h : R past s) :
    R (past ++ emitted step emit s as) t := by
  induction as generalizing s past with
  | nil =>
      rw [run, Option.some.injEq] at hrun
      rw [emitted, List.append_nil]
      exact hrun ▸ h
  | cons a as ih =>
      rcases run_cons hrun with ⟨u, hu, hrest⟩
      rw [emitted_cons hu, ← List.append_assoc]
      exact ih hrest _ (hstep past s a u h hu)

/-- What the steps emit are steps of a machine inside. -/
theorem run_emitted {τ β : Type} {inner : τ → β → Option τ} {part : σ → τ}
    {emit : σ → α → List β}
    (hstep : ∀ s a t, step s a = some t → run inner (part s) (emit s a) = some (part t)) {s t : σ}
    {as : List α} (hrun : run step s as = some t) :
    run inner (part s) (emitted step emit s as) = some (part t) := by
  induction as generalizing s with
  | nil =>
      rw [run, Option.some.injEq] at hrun
      rw [hrun]
      rfl
  | cons a as ih =>
      rcases run_cons hrun with ⟨u, hu, hrest⟩
      rw [emitted_cons hu]
      exact run_trans (hstep s a u hu) (ih hrest)

end Machine
