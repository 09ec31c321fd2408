import Mathlib.Data.List.DropRight

/-!
# Runs with Outputs

A step relation that also names what the step emits, and the runs it makes.
An invariant of the state alone is the special case of a property of the
outputs so far and the state reached; `Run.history` is the induction for the
latter, and the one a claim about everything a run has emitted needs.

## Main definitions

* `Run`: A finite run and the outputs of its steps, in order.

## Theorems

* `Run.single`, `Run.append`: Building runs.
* `Run.history`: What every step preserves of past outputs and state, a run
  preserves.
* `Run.invariant`: The same for the state alone.
* `Run.outputs`: What every step's outputs satisfy, a run's outputs satisfy.
-/

namespace Trace

variable {σ ω : Type}

/-- A finite run of `step` from one state to another, with its outputs. -/
inductive Run (step : σ → List ω → σ → Prop) : σ → List ω → σ → Prop where
  | nil (s : σ) : Run step s [] s
  | cons {s t u : σ} {o os : List ω} (first : step s o t) (rest : Run step t os u) :
      Run step s (o ++ os) u

variable {step : σ → List ω → σ → Prop}

theorem Run.single {s t : σ} {o : List ω} (h : step s o t) : Run step s o t := by
  have hrun := Run.cons h (Run.nil t)
  rw [List.append_nil] at hrun
  exact hrun

theorem Run.append {s t u : σ} {o os : List ω} (h1 : Run step s o t) (h2 : Run step t os u) :
    Run step s (o ++ os) u := by
  induction h1 with
  | nil s => exact h2
  | cons first _ ih =>
      rw [List.append_assoc]
      exact Run.cons first (ih h2)

/-- A property of everything emitted so far and of the state reached holds
    after a run when every step preserves it. -/
theorem Run.history {R : List ω → σ → Prop} (hstep : ∀ past s o t, R past s → step s o t →
    R (past ++ o) t) {s t : σ} {os : List ω} (hrun : Run step s os t) :
    ∀ past, R past s → R (past ++ os) t := by
  induction hrun with
  | nil s =>
      intro past h
      rw [List.append_nil]
      exact h
  | cons first _ ih =>
      intro past h
      rw [← List.append_assoc]
      exact ih _ (hstep past _ _ _ h first)

theorem Run.invariant {P : σ → Prop} (hstep : ∀ s o t, P s → step s o t → P t)
    {s t : σ} {os : List ω} (hrun : Run step s os t) (h : P s) : P t :=
  Run.history (R := fun _ s => P s) (fun _ s o t => hstep s o t) hrun [] h

/-- With an invariant of the state in hand, what each step emits is what the
    run emits. -/
theorem Run.outputs {P : σ → Prop} {Q : ω → Prop} (hstep : ∀ s o t, P s → step s o t → P t)
    (hout : ∀ s o t, P s → step s o t → ∀ x ∈ o, Q x) {s t : σ} {os : List ω}
    (hrun : Run step s os t) (h : P s) : ∀ x ∈ os, Q x := by
  have hall : P t ∧ ∀ x ∈ [] ++ os, Q x := by
    refine Run.history (R := fun past s => P s ∧ ∀ x ∈ past, Q x) ?_ hrun []
      ⟨h, fun x hx => absurd hx List.not_mem_nil⟩
    intro past s o t hp hs
    refine ⟨hstep s o t hp.1 hs, fun x hx => ?_⟩
    rcases List.mem_append.mp hx with hx | hx
    · exact hp.2 x hx
    · exact hout s o t hp.1 hs x hx
  exact hall.2

end Trace
