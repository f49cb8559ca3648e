import GameBoy.Proofs.Run.Steps

/-!
# Running until the processor no longer runs

How many steps `GameBoy.Machine.runUntilHalt` makes: the least number after which something suspends
the processor or holds it, or as many as it may. The step in which that comes about is one of them.
Since the machine does not remember how far it was meant to go, a run can be cut in two anywhere and
comes to the same (`GameBoy.Machine.isLeast_runUntilHalt`).
-/

namespace GameBoy

/-- **Something keeps the processor from running**: a halt, a stop, the loss of the bus, or the
debugger. -/
def Cpu.Suspended (cpu : Cpu) : Prop :=
  cpu.core.halted = true ∨ cpu.core.stopped = true ∨ cpu.blocked = true ∨
    cpu.debugger.trapped = true

instance (cpu : Cpu) : Decidable cpu.Suspended := inferInstanceAs (Decidable (_ ∨ _ ∨ _ ∨ _))

/-- The processor runs unless something keeps it from running. -/
theorem Cpu.isRunning_iff (cpu : Cpu) : cpu.isRunning = true ↔ ¬cpu.Suspended := by
  simp [isRunning, Suspended, and_assoc]

namespace Machine

variable {β : Type} [Bus β] {m : Machine β}

/-- A run goes on while the processor runs. -/
theorem runUntilHalt_of_running (running : ¬m.cpu.Suspended) (limit : Nat) :
    m.runUntilHalt (limit + 1) =
      ((m.step.2.runUntilHalt limit).1 + 1, (m.step.2.runUntilHalt limit).2) := by
  rw [runUntilHalt, if_pos (m.cpu.isRunning_iff.mpr running)]

/-- A run does not begin where the processor does not run. -/
theorem runUntilHalt_of_suspended (suspended : m.cpu.Suspended) (limit : Nat) :
    m.runUntilHalt limit = (0, m) := by
  cases limit with
  | zero => rfl
  | succ limit => rw [runUntilHalt, if_neg fun h => m.cpu.isRunning_iff.mp h suspended]

/-- **A run is as many steps as it says.** -/
theorem afterSteps_runUntilHalt (m : Machine β) (limit : Nat) :
    (m.runUntilHalt limit).2 = m.afterSteps (m.runUntilHalt limit).1 := by
  induction limit generalizing m with
  | zero => rfl
  | succ limit ih =>
    by_cases suspended : m.cpu.Suspended
    · rw [runUntilHalt_of_suspended suspended, afterSteps_zero]
    · rw [runUntilHalt_of_running suspended]
      exact ih m.step.2

/-- **A run makes no more steps than it has to.** -/
theorem isLeast_runUntilHalt_fst (m : Machine β) (limit : Nat) :
    IsLeast {k | (m.afterSteps k).cpu.Suspended ∨ k = limit} (m.runUntilHalt limit).1 := by
  induction limit generalizing m with
  | zero => exact isLeast_zero (.inr rfl)
  | succ limit ih =>
    by_cases suspended : m.cpu.Suspended
    · rw [runUntilHalt_of_suspended suspended]
      exact isLeast_zero (.inl suspended)
    · rw [runUntilHalt_of_running suspended]
      refine isLeast_succ ?_ ?_
      · rintro (now | none)
        · exact suspended now
        · omega
      · simpa only [afterSteps_succ, Nat.add_right_cancel_iff] using ih m.step.2

/-- **A run cut in two.** -/
theorem runUntilHalt_add (m : Machine β) (limit more : Nat) :
    m.runUntilHalt (limit + more) =
      ((m.runUntilHalt limit).1 + ((m.runUntilHalt limit).2.runUntilHalt more).1,
        ((m.runUntilHalt limit).2.runUntilHalt more).2) := by
  induction limit generalizing m with
  | zero => simp [runUntilHalt]
  | succ limit ih =>
    by_cases suspended : m.cpu.Suspended
    · -- neither part makes a step
      simp only [runUntilHalt_of_suspended suspended, Nat.add_zero]
    · rw [Nat.add_right_comm, runUntilHalt_of_running suspended,
        runUntilHalt_of_running suspended, ih m.step.2]
      exact Prod.ext (Nat.add_right_comm _ _ 1) rfl

/-- **A run until the processor no longer runs.** It makes the least number of steps after which
something keeps the processor from running, or as many as it may, and says how many. If a step is
the first one after which something does, that step is counted. A run that goes on where another
one has ended comes to the same as one run with both limits together. -/
theorem isLeast_runUntilHalt (m : Machine β) (limit : Nat) :
    let count := (m.runUntilHalt limit).1
    let last := (m.runUntilHalt limit).2
    IsLeast {k | (m.afterSteps k).cpu.Suspended ∨ k = limit} count ∧ count ≤ limit ∧
    last = m.afterSteps count ∧
    (∀ k < limit, (∀ j ≤ k, ¬(m.afterSteps j).cpu.Suspended) →
      (m.afterSteps (k + 1)).cpu.Suspended → count = k + 1) ∧
    ∀ more, m.runUntilHalt (limit + more) =
      (count + (last.runUntilHalt more).1, (last.runUntilHalt more).2) := by
  intro count last
  have least := m.isLeast_runUntilHalt_fst limit
  refine ⟨least, least.2 (.inr rfl), m.afterSteps_runUntilHalt limit, ?_,
    m.runUntilHalt_add limit⟩
  intro k inside running suspended
  have first : IsLeast {k | (m.afterSteps k).cpu.Suspended ∨ k = limit} (k + 1) := by
    refine ⟨.inl suspended, fun j hj => ?_⟩
    rcases Nat.lt_or_ge k j with later | notLater
    · exact later
    · rcases hj with early | rfl
      · exact absurd early (running j notLater)
      · exact inside
  exact least.unique first

end Machine

end GameBoy
