import GameBoy.Proofs.Instruction.Switches
import GameBoy.Proofs.Step.Cases

/-!
# The core over a step

What a step makes of the core, by its outcome: an instruction that runs does what
`GameBoy.Instruction.switched` says to the switches (`GameBoy.Machine.sameSwitches_step`), the
dispatch of an interrupt ends in a core that takes no interrupts (`GameBoy.Machine.core_dispatch`),
and any other step leaves the core as it is but for a halt that may end
(`GameBoy.Machine.core_step_of_waits`).
-/

namespace GameBoy

/-- **An outcome without progress**: neither an instruction nor an interrupt. -/
def StepOutcome.waits : StepOutcome → Bool
  | .executed | .interrupted _ => false
  | .halted | .stopped | .blocked | .trapped => true

namespace Machine

variable {β : Type} [Bus β]

/-- **The instruction that a step fetches**, if it comes to fetch one. -/
def fetched (m : Machine β) : Instruction := m.alert.readInstruction.1

/-- **The core after an instruction has run.** What was decided about interrupts before comes into
force, and then the instruction changes the switches. -/
theorem sameSwitches_step (m : Machine β) (h : m.step.1 = .executed) :
    Core.SameSwitches
      (m.fetched.switched { m.alert.cpu.core with ime := m.alert.cpu.core.imeNext })
      m.step.2.cpu.core := by
  have hm := m.step_cases
  generalize m.step = s at hm h ⊢
  cases hm with
  | executed =>
    have read : m.alert.readInstruction.2.cpu.core = m.alert.cpu.core := rfl
    have hs := m.alert.readInstruction.2.sameSwitches_execute m.fetched
    rwa [read] at hs
  | _ => simp at h

/-- **The core after the dispatch of an interrupt** takes none, and is at the handler with the way
back on the stack. -/
theorem core_dispatch (m : Machine β) (i : Interrupt) :
    (m.dispatch i).cpu.core =
      (m.cpu.core.proceed { m.cpu.core.registers with sp := m.cpu.core.registers.sp - 2 }
        i.vector).setIme false := rfl

/-- **A step without progress** leaves the core as it is, but for a halt that may end. -/
theorem core_step_of_waits (m : Machine β) (h : m.step.1.waits = true) :
    m.step.2.cpu.core = { m.cpu.core with halted := m.step.2.cpu.core.halted } := by
  have hm := m.step_cases
  generalize m.step = s at hm h ⊢
  cases hm with
  | blocked | stopped | held => rfl
  | halted | caught | stalled => exact m.core_alert
  | interrupted | executed => simp [StepOutcome.waits] at h

end Machine

end GameBoy
