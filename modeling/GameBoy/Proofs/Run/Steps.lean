import GameBoy.Cpu.Run
import Mathlib.Order.Bounds.Basic

/-!
# Steps in a row

A run is a loop that lets the machine step until something is the case, and what there is to say of
it is how many steps it makes: the least number of steps after which it is the case. This file has
what the loops share, the machine after a number of steps (`GameBoy.Machine.afterSteps`), the
outcome of the last of them (`GameBoy.Machine.lastOutcome?`), and the two ways in which a least
number comes about, that the loop ends at once or that it goes round once more.
-/

namespace GameBoy

/-! ### Least numbers -/

/-- **A loop that ends at once.** -/
theorem isLeast_zero {P : Nat → Prop} (now : P 0) : IsLeast {k | P k} 0 :=
  ⟨now, fun k _ => k.zero_le⟩

/-- **A loop that goes round once more** than it does from there on. -/
theorem isLeast_succ {P : Nat → Prop} {count : Nat} (notNow : ¬P 0)
    (later : IsLeast {k | P (k + 1)} count) : IsLeast {k | P k} (count + 1) := by
  refine ⟨later.1, fun k hk => ?_⟩
  cases k with
  | zero => exact absurd hk notNow
  | succ k => exact Nat.succ_le_succ (later.2 hk)

namespace Machine

variable {β : Type} [Bus β]

/-! ### The machine after some steps -/

/-- **The machine after a number of steps.** -/
def afterSteps (m : Machine β) (count : Nat) : Machine β := (steps count m).2

/-- **The outcome of the last of a number of steps**, if there are any. -/
def lastOutcome? (m : Machine β) (count : Nat) : Option StepOutcome :=
  (steps count m).1.getLast?.map (·.1)

@[simp] theorem afterSteps_zero (m : Machine β) : m.afterSteps 0 = m := rfl

/-- The first step comes first. -/
theorem afterSteps_succ (m : Machine β) (count : Nat) :
    m.afterSteps (count + 1) = m.step.2.afterSteps count := rfl

/-- **One step more** adds one outcome. -/
theorem steps_concat (m : Machine β) (count : Nat) :
    let last := (m.afterSteps count).step
    steps (count + 1) m =
      ((steps count m).1 ++ [(last.1, last.2.pc, last.2.cpu.clock)], last.2) := by
  induction count generalizing m with
  | zero => rfl
  | succ count ih =>
    rw [steps]
    dsimp only
    rw [ih m.step.2]
    rfl

/-- The last step comes last. -/
theorem afterSteps_concat (m : Machine β) (count : Nat) :
    m.afterSteps (count + 1) = (m.afterSteps count).step.2 :=
  congrArg (·.2) (m.steps_concat count)

@[simp] theorem lastOutcome?_zero (m : Machine β) : m.lastOutcome? 0 = none := rfl

/-- The last outcome is that of the last step. -/
theorem lastOutcome?_succ (m : Machine β) (count : Nat) :
    m.lastOutcome? (count + 1) = some (m.afterSteps count).step.1 := by
  rw [lastOutcome?, steps_concat, List.getLast?_concat]
  rfl

end Machine

end GameBoy
