import Mathlib.Data.Nat.Notation
import Mathlib.Logic.Relation

/-! Machines that go from one configuration to the next, and whose every step lowers a
measure, so that they halt. Proved: a machine halts where any chain of its steps leads to. -/

namespace StudyDB

/-- What a machine does next, if anything, and why it cannot go on for ever. -/
structure Machine (σ : Type*) where
  step : σ → Option σ
  measure : σ → ℕ
  lowers : ∀ {s s' : σ}, step s = some s' → measure s' < measure s

namespace Machine
variable {σ : Type*} (M : Machine σ)

/-- The configuration that the machine halts in. -/
def run (s : σ) : σ :=
  match _ : M.step s with
  | some s' => run s'
  | none => s
termination_by M.measure s
decreasing_by exact M.lowers (by assumption)

/-- Any number of steps. -/
abbrev Steps : σ → σ → Prop := Relation.ReflTransGen fun s s' => M.step s = some s'

variable {M} {s s' s'' : σ}

theorem run_of_step (h : M.step s = some s') : M.run s = M.run s' := by
  rw [run]
  split
  · rename_i s'' hs
    rw [Option.some.inj (h.symm.trans hs)]
  · rename_i hs
    cases h.symm.trans hs

theorem run_of_halted (h : M.step s = none) : M.run s = s := by
  rw [run]
  split
  · rename_i s'' hs
    cases h.symm.trans hs
  · rfl

theorem run_of_steps (h : M.Steps s s') : M.run s = M.run s' := by
  induction h with
  | refl => rfl
  | tail _ hstep ih => rw [ih, run_of_step hstep]

end Machine

end StudyDB
