import ProjectNight.Lib.Machine

/-!
# Machines That Settle

Some actions of a machine are due: nobody has to ask for them, and if they are
possible they will be taken sooner or later, but nothing is said about their
order. If each of them takes a piece off the work that is left, then no order
of them goes on for ever, and the machine comes to rest in a state in which
nothing that is due is possible any more.

The conditions are asked of the states with a property that the due actions
keep, so that an invariant of the system can be used.

## Main definitions

* `Settled`: Nothing that is due is possible.

## Theorems

* `length_le_of_due`: A run of due actions is not longer than the work left.
* `settles`: Such a run leads to rest.
-/

namespace Machine

variable {σ α : Type}

/-- Nothing that is due is possible. -/
def Settled (step : σ → α → Option σ) (due : σ → α → Bool) (s : σ) : Prop :=
  ∀ a, due s a = true → step s a = none

variable {step : σ → α → Option σ} {due : σ → α → Bool} {P : σ → Prop} {work : σ → Nat}

/-- However the due actions are ordered, there are no more of them than there is
    work. -/
theorem length_le_of_due
    (hstep : ∀ s a t, P s → due s a = true → step s a = some t → P t ∧ work t < work s)
    {s t : σ} {as : List α} (h : P s) (hrun : run step s as = some t)
    (hdue : Respects step due s as = true) : as.length ≤ work s := by
  induction as generalizing s with
  | nil => exact Nat.zero_le _
  | cons a as ih =>
      rcases run_cons hrun with ⟨u, hu, hrest⟩
      rcases respects_cons hdue hu with ⟨ha, has⟩
      rcases hstep s a u h ha hu with ⟨hkept, hless⟩
      exact Nat.lt_of_le_of_lt (ih hkept hrest has) hless

/-- From every state the due actions lead to rest. -/
theorem settles
    (hstep : ∀ s a t, P s → due s a = true → step s a = some t → P t ∧ work t < work s)
    {s : σ} (h : P s) :
    ∃ as t, run step s as = some t ∧ Respects step due s as = true ∧ Settled step due t := by
  -- By induction on a bound for the work that is left.
  have hbound : ∀ n s, P s → work s ≤ n →
      ∃ as t, run step s as = some t ∧ Respects step due s as = true ∧ Settled step due t := by
    intro n
    induction n with
    | zero =>
        intro s h hn
        refine ⟨[], s, rfl, rfl, fun a ha => ?_⟩
        cases ht : step s a with
        | none => rfl
        | some t =>
            have hless := (hstep s a t h ha ht).2
            omega
    | succ n ih =>
        intro s h hn
        by_cases hsettled : Settled step due s
        · exact ⟨[], s, rfl, rfl, hsettled⟩
        · rw [Settled, not_forall] at hsettled
          rcases hsettled with ⟨a, ha⟩
          rw [Classical.not_imp] at ha
          rcases Option.ne_none_iff_exists'.mp ha.2 with ⟨u, hu⟩
          rcases hstep s a u h ha.1 hu with ⟨hkept, hless⟩
          rcases ih u hkept (by omega) with ⟨as, t, hrun, hdue, hrest⟩
          refine ⟨a :: as, t, ?_, ?_, hrest⟩
          · rw [run, hu]
            exact hrun
          · rw [Respects, ha.1, hu]
            exact hdue
  exact hbound (work s) s h (Nat.le_refl _)

end Machine
