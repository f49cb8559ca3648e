import GameBoy.Bus.Ram
import GameBoy.Proofs.Debugger.Hold
import GameBoy.Proofs.Step.Quiet
import GameBoy.Proofs.Step.Switches

/-!
# The dispatch of an interrupt

All that is different after the dispatch of an interrupt. `GameBoy.Machine.bus_dispatch` lists what
is done to the bus, whatever bus it is, and `GameBoy.Machine.step_interrupted` says what this comes
to in memory: one bit of the requests is lowered first, and then the way back is pushed, so that a
stack that has come to lie on the requests or the enables overwrites them. Which interrupt it is has
been decided by then, from the lines as they were before the step.
-/

namespace GameBoy

namespace Interrupt

/-- **Lowering a line** clears its bit and no other. -/
theorem testBit_and_not_mask (requested : UInt8) (i : Interrupt) (k : Nat) :
    (requested &&& ~~~i.mask).toNat.testBit k =
      (requested.toNat.testBit k && decide (k ≠ i.index)) := by
  rw [UInt8.toNat_and, Nat.testBit_and]
  rcases Nat.lt_or_ge k 8 with hk | hk
  · have lowered : ∀ k < 8, (~~~i.mask).toNat.testBit k = decide (k ≠ i.index) := by
      cases i <;> decide
    rw [lowered k hk]
  · -- a byte has no bits above the eighth
    have high : requested.toNat.testBit k = false :=
      Nat.testBit_lt_two_pow
        (Nat.lt_of_lt_of_le requested.toNat_lt (Nat.pow_le_pow_right (by decide) hk))
    rw [high, Bool.false_and, Bool.false_and]

end Interrupt

namespace Machine

variable {β : Type} [Bus β]

/-- **What a dispatch does to the bus**: the line is lowered, and among five cycles the way back is
stored, the high byte first. -/
theorem bus_dispatch (m : Machine β) (i : Interrupt) :
    let sp := m.cpu.core.registers.sp
    let lowered := Bus.tick (Bus.tick (Interrupt.acknowledge m.bus i) 4) 4
    let pushed := Bus.tick (Bus.write lowered (sp - 1) (highByte m.pc)) 4
    (m.dispatch i).bus =
      Bus.tick (Bus.tick (Bus.write pushed (sp - 2) (lowByte m.pc)) 4) 4 := rfl

/-- A dispatch takes five machine cycles. -/
theorem clock_dispatch (m : Machine β) (i : Interrupt) :
    (m.dispatch i).cpu.clock.cycles = m.cpu.clock.cycles + 20 := rfl

/-- A machine that has found an interrupt is not halted any more. -/
theorem halted_alert_of_isSome {m : Machine β} (h : m.pollInterrupts.1.isSome = true) :
    m.alert.cpu.core.halted = false := by
  rw [cpu_alert, h, Bool.true_and]
  cases hh : m.cpu.core.halted with
  | true => rfl
  | false => exact hh

/-- **The core after the dispatch of an interrupt**: at the handler, with the way back on the stack,
awake and taking no interrupts. -/
theorem core_step_interrupted {m : Machine β} {i : Interrupt} (h : m.step.1 = .interrupted i) :
    m.step.2.cpu.core =
      { registers :=
          { m.cpu.core.registers with sp := m.cpu.core.registers.sp - 2, pc := i.vector }
        ime := false, imeNext := false, halted := false, stopped := false } := by
  obtain ⟨ready, hi, -, hstep⟩ := eq_dispatch_of_step h
  have awake := halted_alert_of_isSome (Option.isSome_iff_exists.mpr ⟨i, hi⟩)
  rw [hstep, core_dispatch, m.core_alert, awake]
  simp only [Core.proceed, Core.setIme, ready.stopped]

variable [QuietBus β]

/-- **The interrupt that is dispatched** has the lowest line that is both requested and enabled. -/
theorem isLowest_of_interrupted {m : Machine β} {i : Interrupt} (h : m.step.1 = .interrupted i) :
    Interrupt.IsLowest m.lines i := by
  obtain ⟨-, hi, he, -⟩ := eq_dispatch_of_step h
  rw [pollInterrupts_eq, he, Bool.true_or, if_pos rfl] at hi
  exact Interrupt.highest_eq_some_iff.mp hi

omit [Bus β] [QuietBus β] in
/-- The lines as they are kept in memory. -/
theorem lines_ram (m : Machine Ram) :
    m.lines = m.bus.memory.get 0xFF0F &&& m.bus.memory.get 0xFFFF &&& 0x1F := rfl

omit [Bus β] [QuietBus β] in
/-- Memory after a dispatch. -/
theorem bus_dispatch_ram (m : Machine Ram) (i : Interrupt) :
    (m.dispatch i).bus =
      { memory := ((m.bus.memory.set 0xFF0F (m.bus.memory.get 0xFF0F &&& ~~~i.mask)).set
          (m.cpu.core.registers.sp - 1) (highByte m.pc)).set
          (m.cpu.core.registers.sp - 2) (lowByte m.pc)
        cycles := m.bus.cycles + 20 } := rfl

omit [Bus β] [QuietBus β] in
/-- **The dispatch of an interrupt, in full.** It is the lowest line requested and enabled before
the step that is dispatched. After it the processor is at the handler, and the bit of the line, and
the two bytes below the stack pointer, are all that is different in memory; where these lie on each
other, the bit was cleared first, and the high byte stored before the low one. -/
theorem step_interrupted (m : Machine Ram) (i : Interrupt) (h : m.step.1 = .interrupted i) :
    let r := m.cpu.registers
    let requested := m.bus.memory.get 0xFF0F
    let enabled := m.bus.memory.get 0xFFFF
    Interrupt.IsLowest (requested &&& enabled &&& 0x1F) i ∧
    m.step.2.cpu.core =
      { registers := { r with sp := r.sp - 2, pc := 0x40 + 8 * UInt16.ofNat i.index }
        ime := false, imeNext := false, halted := false, stopped := false } ∧
    m.step.2.cpu.debugger.hold = .free ∧
    m.step.2.cpu.clock.cycles = m.cpu.clock.cycles + 20 ∧
    ∃ lowered : UInt8,
      (∀ k, lowered.toNat.testBit k = (requested.toNat.testBit k && decide (k ≠ i.index))) ∧
      m.step.2.bus =
        { memory := ((m.bus.memory.set 0xFF0F lowered).set (r.sp - 1) (highByte r.pc)).set
            (r.sp - 2) (lowByte r.pc)
          cycles := m.bus.cycles + 20 } := by
  intro r requested enabled
  obtain ⟨-, -, -, hstep⟩ := eq_dispatch_of_step h
  have lowest := isLowest_of_interrupted h
  rw [lines_ram] at lowest
  refine ⟨lowest, core_step_interrupted h, ?_, ?_, ?_⟩
  · rw [hold_step, h]
  · rw [hstep, clock_dispatch, clock_alert]
  · refine ⟨_, Interrupt.testBit_and_not_mask _ i, ?_⟩
    rw [hstep, bus_dispatch_ram, bus_alert, registers_alert, pc_alert]
    rfl

/-- A halted processor whose stack has come to lie just above the requests, one of which is enabled
and waits to be taken. -/
def overwriting : Machine Ram where
  cpu :=
    { Cpu.new .standard with
      core :=
        { registers := { Registers.zero with sp := 0xFF10, pc := 0x1234 }
          ime := true, imeNext := true, halted := true, stopped := false } }
  bus := (Ram.zero.load 0xFF0F [0xEC]).load 0xFFFF [0x14]

omit [Bus β] [QuietBus β] in
/-- The way back overwrites the requests, after one of them has been chosen and lowered. -/
theorem step_interrupted_overwriting :
    overwriting.step.1 = .interrupted .timer ∧
      overwriting.step.2.bus.memory.get 0xFF0F = 0x12 := by
  have h : overwriting.step.1 = .interrupted .timer := by decide +kernel
  obtain ⟨-, -, -, -, lowered, -, hbus⟩ := step_interrupted overwriting .timer h
  refine ⟨h, ?_⟩
  rw [hbus, AddressMap.get_set, if_neg (by decide), AddressMap.get_set, if_pos (by decide)]
  decide

end Machine

end GameBoy
