/-
  WorkforceRisk.Lib.Rows — a store whose rows are added, and changed where they are.

  A step changes every row by what it does to a row (`aged`) and adds rows behind them
  (`added`). A run is its steps, the last one first.

  The rules are `Evolves.mem_run`: the rows after a run are those there were and those that
  a step added, each as the later steps left it; and `Evolves.survives`: no row is lost.
-/

import Mathlib.Data.List.Basic

namespace WorkforceRisk.Lib

/-- What a step does to the rows. -/
structure Evolves {σ ε ρ : Type} (rows : σ → List ρ) (step : ε → σ → σ) (aged : ε → ρ → ρ)
    (added : ε → σ → List ρ) : Prop where
  rows_step : ∀ e s, rows (step e s) = (rows s).map (aged e) ++ added e s

namespace Evolves

variable {σ ε ρ : Type} {rows : σ → List ρ} {step : ε → σ → σ} {aged : ε → ρ → ρ} {added : ε → σ → List ρ}
  (h : Evolves rows step aged added)

include h

theorem mem_step {e : ε} {s : σ} {r : ρ} :
    r ∈ rows (step e s) ↔ (∃ r₀ ∈ rows s, aged e r₀ = r) ∨ r ∈ added e s := by
  rw [h.rows_step, List.mem_append, List.mem_map]

/-- A row stays, as the later steps leave it. -/
theorem survives {later past : List ε} {s : σ} {r₀ : ρ} (hr : r₀ ∈ rows (past.foldr step s)) :
    later.foldr aged r₀ ∈ rows ((later ++ past).foldr step s) := by
  induction later with
  | nil => exact hr
  | cons e later ih => exact h.mem_step.mpr (.inl ⟨_, ih, rfl⟩)

theorem mem_run {es : List ε} {s : σ} {r : ρ} :
    r ∈ rows (es.foldr step s) ↔ (∃ r₀ ∈ rows s, es.foldr aged r₀ = r) ∨
      ∃ later e past, es = later ++ e :: past ∧ ∃ r₀ ∈ added e (past.foldr step s), later.foldr aged r₀ = r := by
  constructor
  · intro hr
    induction es generalizing r with
    | nil => exact .inl ⟨r, hr, rfl⟩
    | cons e es ih =>
      rcases h.mem_step.mp hr with ⟨r₁, hr₁, rfl⟩ | hadded
      · -- the row was there before the last step
        rcases ih hr₁ with ⟨r₀, hr₀, rfl⟩ | ⟨later, e₀, past, rfl, r₀, hr₀, rfl⟩
        · exact .inl ⟨r₀, hr₀, rfl⟩
        · exact .inr ⟨e :: later, e₀, past, rfl, r₀, hr₀, rfl⟩
      · exact .inr ⟨[], e, es, rfl, r, hadded, rfl⟩
  · intro hr
    rcases hr with ⟨r₀, hr₀, rfl⟩ | ⟨later, e, past, rfl, r₀, hr₀, rfl⟩
    · have hstart : r₀ ∈ rows (([] : List ε).foldr step s) := hr₀
      have hkept : es.foldr aged r₀ ∈ rows ((es ++ []).foldr step s) := h.survives hstart
      rwa [List.append_nil] at hkept
    · have hadded : r₀ ∈ rows ((e :: past).foldr step s) := h.mem_step.mpr (.inr hr₀)
      exact h.survives hadded

end Evolves

end WorkforceRisk.Lib
