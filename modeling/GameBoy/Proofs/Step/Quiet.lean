import GameBoy.Proofs.Step.Cases
import Mathlib.Data.FinEnum

/-!
# Steps on a quiet bus

On a bus that does not notice being read, looking for interrupts and reading an opcode leave the bus
alone, and the conditions of `GameBoy.Machine.StepCase` become conditions on the machine as it
stands: which lines are both requested and enabled (`GameBoy.Machine.lines`), and which instruction
the program counter points to (`GameBoy.Machine.instruction`).

The interrupt that is heard is described without the search that finds it:
`GameBoy.Interrupt.IsLowest` says that a line is the lowest one set in a byte.
-/

namespace GameBoy

namespace Interrupt

/-! ### The line that is heard -/

/-- **The lowest line set in a byte**: its own bit is set and no lower one is. -/
def IsLowest (lines : UInt8) (i : Interrupt) : Prop :=
  lines.toNat.testBit i.index = true ∧ ∀ k < i.index, lines.toNat.testBit k = false

instance (lines : UInt8) (i : Interrupt) : Decidable (IsLowest lines i) :=
  inferInstanceAs (Decidable (_ ∧ _))

/-- **The line that is heard is the lowest one set.** -/
theorem highest_eq_some_iff {lines : UInt8} {i : Interrupt} :
    highest lines = some i ↔ IsLowest lines i := by
  revert lines
  cases i <;> decide +kernel

/-- No line is heard when none is set that exists. -/
theorem highest_eq_none_iff {lines : UInt8} : highest lines = none ↔ lines &&& lineMask = 0 := by
  revert lines
  decide +kernel

/-- Among the lines that exist, none is heard when none is set. -/
theorem highest_and_lineMask_eq_none_iff (lines : UInt8) :
    highest (lines &&& lineMask) = none ↔ lines &&& lineMask = 0 := by
  rw [highest_eq_none_iff, UInt8.and_assoc, UInt8.and_self]

variable {β : Type} [Bus β]

/-- The lines that are both requested and enabled, as peeking shows them. -/
def lines (bus : β) : UInt8 :=
  Bus.peek bus requestAddress &&& Bus.peek bus enableAddress &&& lineMask

/-- Only lines that exist are ever both requested and enabled. -/
theorem highest_lines_eq_none_iff (bus : β) : highest (lines bus) = none ↔ lines bus = 0 :=
  highest_and_lineMask_eq_none_iff _

/-- On a quiet bus the lines are found as peeking shows them, and looking leaves the bus alone. -/
theorem pending_eq [QuietBus β] (bus : β) : pending bus = (lines bus, bus) := by
  simp only [pending, QuietBus.read_eq, lines]

end Interrupt

namespace Machine

variable {β : Type} [Bus β]

/-- The lines that are both requested and enabled. -/
def lines (m : Machine β) : UInt8 := Interrupt.lines m.bus

/-- The instruction that the program counter points to. -/
def instruction (m : Machine β) : Instruction := .decode (Bus.peek m.bus m.pc)

variable [QuietBus β]

/-! ### Looking for interrupts -/

/-- Looking for interrupts finds the line that is heard, if anybody listens, and changes nothing. -/
theorem pollInterrupts_eq (m : Machine β) :
    m.pollInterrupts =
      (if m.cpu.core.ime || m.cpu.core.halted then Interrupt.highest m.lines else none, m) := by
  rw [pollInterrupts]
  split
  · simp only [Interrupt.pending_eq, lines]
  · rfl

/-- Looking for interrupts leaves a quiet bus alone. -/
@[simp] theorem bus_alert (m : Machine β) : m.alert.bus = m.bus := by
  have hpoll : m.pollInterrupts.2 = m := by rw [pollInterrupts_eq]
  rw [alert, hpoll]
  split
  · exact bus_wakeFromHalt m
  · rfl

/-- A machine that is not halted is the same after it has looked for interrupts. -/
theorem alert_eq_self (m : Machine β) (h : m.cpu.core.halted = false) : m.alert = m := by
  have hcpu : m.alert.cpu = m.cpu := by rw [cpu_alert, h, Bool.and_false, if_neg Bool.false_ne_true]
  exact congrArg₂ Machine.mk hcpu m.bus_alert

/-- **A machine goes on to an instruction** unless it takes an interrupt or stays halted. -/
theorem proceeds_iff (m : Machine β) :
    m.Proceeds ↔ ¬(m.cpu.core.ime = true ∧ m.lines ≠ 0) ∧
      ¬(m.cpu.core.halted = true ∧ m.lines = 0) := by
  have hnone := Interrupt.highest_lines_eq_none_iff m.bus
  change Interrupt.highest m.lines = none ↔ m.lines = 0 at hnone
  rw [Proceeds, pollInterrupts_eq]
  rcases m.cpu.core.ime <;> rcases m.cpu.core.halted <;>
    rcases hl : Interrupt.highest m.lines <;> simp_all

/-! ### Reading an opcode -/

/-- On a quiet bus, reading an opcode records the length of the instruction and nothing else. -/
theorem readInstruction_eq (m : Machine β) :
    m.readInstruction =
      (m.instruction,
        { m with
          cpu := { m.cpu with sizes := m.cpu.sizes.set m.pc (some m.instruction.length) } }) := by
  simp only [readInstruction, QuietBus.read_eq, instruction]

end Machine

end GameBoy
