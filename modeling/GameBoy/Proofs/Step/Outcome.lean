import GameBoy.Bus.Ram
import GameBoy.Proofs.Debugger.Hold
import GameBoy.Proofs.Instruction.Watched
import GameBoy.Proofs.Step.Quiet

/-!
# The outcome of a step

On a quiet bus the outcome of a step can be told from the machine before it, and this file says how.
The questions are asked in a fixed order, and the first one to be answered yes decides. In
`GameBoy.Machine.Verdict` each outcome stands with the answers that lead to it, and
`GameBoy.Machine.step_fst_eq_iff` says that a step comes out as the verdict does.

The last question is whether a breakpoint stops the instruction, `GameBoy.Machine.Caught`. It is put
in terms of opcodes: an opcode that is in neither `GameBoy.LoadsFrom` nor `GameBoy.StoresTo` is
never stopped by a breakpoint on a load or a store.
-/

namespace GameBoy.Machine

variable {β : Type} [Bus β]

/-- **A breakpoint stops the instruction at the program counter**: there is no leave to pass, and a
breakpoint waits for the fetch, or for an address that the opcode there loads from or stores to. -/
def Caught (m : Machine β) : Prop :=
  m.cpu.debugger.hold ≠ .pass ∧
    (⟨.execute, m.pc⟩ ∈ m.cpu.debugger.breakpoints ∨
      (∃ a, LoadsFrom m.cpu.registers (Bus.peek m.bus) (Bus.peek m.bus m.pc) a ∧
        ⟨.read, a⟩ ∈ m.cpu.debugger.breakpoints) ∨
      ∃ a, StoresTo m.cpu.registers (Bus.peek m.bus) (Bus.peek m.bus m.pc) a ∧
        ⟨.write, a⟩ ∈ m.cpu.debugger.breakpoints)

/-- **What a step comes to**, decided by the machine before it. -/
inductive Verdict (m : Machine β) : StepOutcome → Prop
  /-- The bus is in use by someone else. -/
  | blocked (h : m.cpu.blocked = true) : Verdict m .blocked
  /-- Otherwise, the processor is stopped. -/
  | stopped (hb : m.cpu.blocked = false) (h : m.cpu.core.stopped = true) : Verdict m .stopped
  /-- Otherwise, the debugger holds it. -/
  | held (hb : m.cpu.blocked = false) (hs : m.cpu.core.stopped = false)
    (h : m.cpu.debugger.trapped = true) : Verdict m .trapped
  /-- Otherwise, interrupts are taken and there is one. The lowest line is heard. -/
  | interrupted (i : Interrupt) (ready : m.Ready) (he : m.cpu.core.ime = true)
    (h : Interrupt.IsLowest m.lines i) : Verdict m (.interrupted i)
  /-- Otherwise, the processor is halted and there is nothing to wake it. -/
  | halted (ready : m.Ready) (hh : m.cpu.core.halted = true) (h : m.lines = 0) : Verdict m .halted
  /-- Otherwise, a breakpoint stops the instruction. -/
  | caught (ready : m.Ready) (he : ¬(m.cpu.core.ime = true ∧ m.lines ≠ 0))
    (hh : ¬(m.cpu.core.halted = true ∧ m.lines = 0)) (h : m.Caught) : Verdict m .trapped
  /-- Otherwise, the instruction runs. -/
  | executed (ready : m.Ready) (he : ¬(m.cpu.core.ime = true ∧ m.lines ≠ 0))
    (hh : ¬(m.cpu.core.halted = true ∧ m.lines = 0)) (h : ¬m.Caught) : Verdict m .executed

/-! ### Breakpoints, by decoding and by opcode -/

/-- The breakpoints that can stop an instruction, gathered from the two places where they are
looked for. -/
theorem not_caught_iff (m : Machine β) :
    ¬m.Caught ↔ m.fetchBreakpoint? = none ∧ m.accessBreakpoint? m.instruction = none := by
  rw [fetchBreakpoint?, accessBreakpoint?, Debugger.hit?_eq_none_iff, Debugger.hit?_eq_none_iff]
  by_cases hp : m.cpu.debugger.hold = .pass
  · -- with leave to pass, nothing stops an instruction in either way of putting it
    simp [Caught, hp]
  simp only [Caught, hp, ne_eq, not_false_eq_true, true_and, false_or, List.mem_singleton,
    forall_eq, not_or, not_exists, not_and]
  refine and_congr_right fun _ => ?_
  constructor
  · intro h b hb
    rcases b with ⟨_ | _ | _, a⟩
    · exact absurd hb (Instruction.execute_not_mem_accesses _)
    · exact h.1 a (Instruction.read_mem_accesses_decode.mp hb)
    · exact h.2 a (Instruction.write_mem_accesses_decode.mp hb)
  · intro h
    constructor
    · intro a ha
      exact h _ (Instruction.read_mem_accesses_decode.mpr ha)
    · intro a ha
      exact h _ (Instruction.write_mem_accesses_decode.mpr ha)

/-! ### The verdict -/

variable [QuietBus β] {m : Machine β}

/-- Looking for interrupts and reading the opcode do not change what breakpoints are in the way. -/
theorem accessBreakpoint?_readInstruction (m : Machine β) :
    m.alert.readInstruction.2.accessBreakpoint? m.alert.readInstruction.1 =
      m.accessBreakpoint? m.instruction := by
  have hi : m.alert.instruction = m.instruction := by
    rw [instruction, instruction, pc_alert, bus_alert]
  have hr : m.alert.cpu.registers = m.cpu.registers := registers_alert m
  rw [readInstruction_eq, hi]
  change m.alert.cpu.debugger.hit? (m.instruction.accesses m.alert.cpu.registers
    (Bus.peek m.alert.bus)) = _
  rw [hit?_alert, hr, bus_alert, accessBreakpoint?]

/-- **A step comes out as the verdict says.** -/
theorem verdict_step (m : Machine β) : Verdict m m.step.1 := by
  have h := m.step_cases
  generalize m.step = s at h ⊢
  cases h with
  | blocked hb => exact .blocked hb
  | stopped hb hs => exact .stopped hb hs
  | held hb hs ht => exact .held hb hs ht
  | halted ready hi hh =>
    rw [pollInterrupts_eq, hh, Bool.or_true, if_pos rfl] at hi
    exact .halted ready hh ((Interrupt.highest_lines_eq_none_iff m.bus).mp hi)
  | interrupted i ready hi he =>
    rw [pollInterrupts_eq, he, Bool.true_or, if_pos rfl] at hi
    exact .interrupted i ready he (Interrupt.highest_eq_some_iff.mp hi)
  | caught b ready hp hb =>
    obtain ⟨he, hh⟩ := m.proceeds_iff.mp hp
    refine .caught ready he hh ?_
    by_contra hc
    rw [fetchBreakpoint?_alert, (m.not_caught_iff.mp hc).1] at hb
    simp at hb
  | stalled b ready hp _ hb =>
    obtain ⟨he, hh⟩ := m.proceeds_iff.mp hp
    refine .caught ready he hh ?_
    by_contra hc
    rw [accessBreakpoint?_readInstruction, (m.not_caught_iff.mp hc).2] at hb
    simp at hb
  | executed ready hp hf ha =>
    obtain ⟨he, hh⟩ := m.proceeds_iff.mp hp
    rw [fetchBreakpoint?_alert] at hf
    rw [accessBreakpoint?_readInstruction] at ha
    exact .executed ready he hh (m.not_caught_iff.mpr ⟨hf, ha⟩)

/-- A fetch is trapped if a breakpoint stops the instruction. -/
theorem fetch_fst_of_caught (h : m.Caught) : m.alert.fetch.1 = .trapped := by
  rw [fetch_eq, fetchBreakpoint?_alert]
  cases hf : m.fetchBreakpoint? with
  | some b => rfl
  | none =>
    simp only [attempt_eq, accessBreakpoint?_readInstruction]
    cases ha : m.accessBreakpoint? m.instruction with
    | some b => rfl
    | none => exact absurd h (m.not_caught_iff.mpr ⟨hf, ha⟩)

/-- A fetch that no breakpoint stops runs the instruction. -/
theorem fetch_fst_of_not_caught (h : ¬m.Caught) : m.alert.fetch.1 = .executed := by
  obtain ⟨hf, ha⟩ := m.not_caught_iff.mp h
  rw [fetch_eq, fetchBreakpoint?_alert, hf]
  simp only [attempt_eq, accessBreakpoint?_readInstruction, ha]

/-- **The verdict comes true.** -/
theorem Verdict.step_fst {o : StepOutcome} (h : Verdict m o) : m.step.1 = o := by
  cases h with
  | blocked h => rw [step_eq, if_pos h]
  | stopped hb h => rw [step_eq, if_neg (Bool.eq_false_iff.mp hb), if_pos h]
  | held hb hs h =>
    rw [step_eq, if_neg (Bool.eq_false_iff.mp hb), if_neg (Bool.eq_false_iff.mp hs), if_pos h]
  | interrupted i ready he h =>
    have hi : m.pollInterrupts.1 = some i := by
      rw [pollInterrupts_eq, he, Bool.true_or, if_pos rfl]
      exact Interrupt.highest_eq_some_iff.mpr h
    simp only [step_eq, ready.blocked, ready.stopped, ready.trapped, hi, he, Bool.false_eq_true,
      if_false, if_true]
  | halted ready hh h =>
    have hi : m.pollInterrupts.1 = none := by
      rw [pollInterrupts_eq, hh, Bool.or_true, if_pos rfl]
      exact (Interrupt.highest_lines_eq_none_iff m.bus).mpr h
    simp only [step_eq, ready.blocked, ready.stopped, ready.trapped, hi, hh, Bool.false_eq_true,
      if_false, if_true]
  | caught ready he hh h =>
    rw [step_eq_fetch ready (m.proceeds_iff.mpr ⟨he, hh⟩), fetch_fst_of_caught h]
  | executed ready he hh h =>
    rw [step_eq_fetch ready (m.proceeds_iff.mpr ⟨he, hh⟩), fetch_fst_of_not_caught h]

/-- **The outcome of a step is decided by the machine before it**, in the order of priority that
`GameBoy.Machine.Verdict` lists. -/
theorem step_fst_eq_iff (m : Machine β) (o : StepOutcome) : m.step.1 = o ↔ Verdict m o := by
  constructor
  · rintro rfl
    exact verdict_step m
  · exact Verdict.step_fst

/-- A machine about to store its stack pointer at the top of memory, so that the high byte goes to
address zero, where a breakpoint waits for it. -/
def wrapping : Machine Ram where
  cpu := (Cpu.new .standard).withDebugger fun d => (d.addBreakpoint ⟨.write, 0x0000⟩).2
  bus := Ram.zero.load 0x0100 [0x08, 0xFF, 0xFF]

/-- The store that wraps around memory is trapped. -/
theorem step_wrapping : wrapping.step.1 = .trapped := by
  have opcode : Bus.peek wrapping.bus wrapping.pc = 0x08 := by decide +kernel
  have stores : StoresTo wrapping.cpu.registers (Bus.peek wrapping.bus) 0x08 0x0000 := .highByte
  refine (step_fst_eq_iff wrapping .trapped).mpr (.caught ⟨rfl, rfl, rfl⟩ ?_ ?_ ⟨?_, ?_⟩)
  · decide
  · decide
  · decide
  · exact .inr (.inr ⟨0x0000, opcode ▸ stores, by decide⟩)

end GameBoy.Machine
