import GameBoy.Proofs.Alu.Laws
import GameBoy.Proofs.Instruction.Loading
import GameBoy.Proofs.Instruction.SecondPage
import GameBoy.Proofs.Step.Memory

/-!
# What a step does to registers and memory

A machine with plain memory that runs an instruction holds afterwards what it held before, but for
the places that the instruction changes (`GameBoy.Machine.Effect`). Three groups of instructions are
gone through here: those that copy bytes (`GameBoy.Machine.effect_of_copies`), those that combine
them with the accumulator or count them (`GameBoy.Machine.effect_of_arithmetic`), and those that
move or look at their bits (`GameBoy.Machine.effect_of_bits`).

The instruction is named by its opcode, and all bytes are named as they were before the step: those
of the code, those in registers and those in memory. This is what has to be watched where the places
coincide, when an instruction changes the registers that hold its address, or its own code.
-/

namespace GameBoy.Machine

/-- What the registers and the memory of a machine hold. -/
def contents (m : Machine Ram) : Contents := GameBoy.contents m.cpu.registers m.bus.memory

/-- **The effect of a step** that runs an instruction of some length: it goes on at the next one,
some places hold other bytes and all others the same, and of the calls that go over the bus the
stores are those of the bytes that come to be in memory, in the order in which they are listed. -/
structure Effect (m : Machine Ram) (length : Nat) (changes : List (Place × UInt8)) : Prop where
  outcome : m.step.1 = .executed
  pc : m.step.2.pc = m.pc + UInt16.ofNat length
  changed : Changes m.contents m.step.2.contents changes
  stored : stores m.recorded.step.2.bus.calls = changes.filterMap Place.store?

variable {m : Machine Ram}

/-- A byte that comes to be in memory is there after the step. -/
theorem Effect.memory_eq {length : Nat} {changes : List (Place × UInt8)}
    (effect : m.Effect length changes) {address : UInt16} {value : UInt8}
    (h : (.memory address, value) ∈ changes) : m.step.2.bus.memory.get address = value :=
  effect.changed.changed h

/-- Flags that come to be in F are there after the step. -/
theorem Effect.f_eq {length : Nat} {changes : List (Place × UInt8)}
    (effect : m.Effect length changes) {value : UInt8} (h : (.flags, value) ∈ changes) :
    m.step.2.cpu.registers.f = value :=
  effect.changed.changed h

/-- **A step has the effect of the instruction that it runs**, if the instruction has this effect in
any core with the same registers. -/
theorem effect_of_executed {length : Nat} {changes : List (Place × UInt8)}
    (h : m.step.1 = .executed)
    (he : ∀ c : Core,
      m.fetched.Effect { c with registers := m.cpu.registers } m.bus.memory length changes) :
    m.Effect length changes := by
  obtain ⟨length_eq, stays, distinct, c', memory', yields, after⟩ := he m.begun
  obtain ⟨core, left, log⟩ := step_of_yields h yields
  have contents : m.step.2.contents = m.contents.put changes := by
    change GameBoy.contents m.step.2.cpu.core.registers m.step.2.bus.memory = _
    rw [core, left]
    exact after
  refine ⟨h, ?_, ?_, log⟩
  · have advance := pc_eq_next h fun transfers => absurd transfers (by simp [stays])
    rwa [next, Instruction.next, length_eq] at advance
  · rw [contents]
    exact changes_put m.contents distinct

/-- The same of an instruction of which it is known that it is the one. -/
theorem effect_of_fetched {i : Instruction} {length : Nat} {changes : List (Place × UInt8)}
    (h : m.step.1 = .executed) (fetched : m.fetched = i)
    (he : ∀ c : Core,
      i.Effect { c with registers := m.cpu.registers } m.bus.memory length changes) :
    m.Effect length changes := by
  refine effect_of_executed h fun c => ?_
  rw [fetched]
  exact he c

/-- The same of an instruction that has the opcode which is found. -/
theorem effect_of_opcode {i : Instruction} {length : Nat} {changes : List (Place × UInt8)}
    (h : m.step.1 = .executed) (opcode : m.bus.memory.get m.pc = i.opcode)
    (hi : i.hasOpcode = true)
    (he : ∀ c : Core,
      i.Effect { c with registers := m.cpu.registers } m.bus.memory length changes) :
    m.Effect length changes :=
  effect_of_fetched h (fetched_of_opcode opcode hi) he

/-- The same of an instruction of the second page, which has the opcode that is found next. -/
theorem effect_of_secondOpcode {i : PageInstruction} {changes : List (Place × UInt8)}
    (h : m.step.1 = .executed) (page : m.bus.memory.get m.pc = 0xCB)
    (opcode : m.bus.memory.get (m.pc + 1) = i.opcode)
    (he : i.Effect m.cpu.registers m.bus.memory changes) : m.Effect 2 changes :=
  effect_of_opcode h (i := .page) page rfl fun c =>
    Instruction.effect_page (c := { c with registers := m.cpu.registers }) opcode he

/-! ### Loads and stores -/

/-- **Loads and stores copy bytes, and do nothing else.** If nothing keeps a machine from running
its next instruction, and the opcode is one of those that copy bytes, then the step puts the bytes
that `GameBoy.Copies` lists into the places that it lists, and all other places hold what they held
before: every other register, F, and all the rest of memory. Sources and addresses are those from
before the step, even if the destination is part of the address, or if the instruction stores into
its own code; addresses wrap around. -/
theorem effect_of_copies {length : Nat} {changes : List (Place × UInt8)} (h : Verdict m .executed)
    (copies : Copies m.cpu.registers m.bus.memory (m.bus.memory.get m.pc) length changes) :
    m.Effect length changes := by
  refine effect_of_executed h.step_fst fun c => ?_
  rw [fetched_ram]
  exact Copies.effect (c := { c with registers := m.cpu.registers }) copies

/-- A machine about to store its stack pointer into the code that tells it to, which wraps around
memory. -/
def circular : Machine Ram where
  cpu :=
    { Cpu.new .standard with core := .start { Registers.zero with sp := 0xABCD, pc := 0xFFFE } }
  bus := (Ram.zero.load 0xFFFE [0x08, 0xFF]).load 0x0000 [0xFF]

/-- The address has been taken from the code before the code is overwritten, and the high byte goes
to address zero. -/
theorem effect_of_copies_circular :
    Verdict circular .executed ∧ circular.step.2.pc = 0x0001 ∧
      circular.step.2.bus.memory.get 0xFFFF = 0xCD ∧
      circular.step.2.bus.memory.get 0x0000 = 0xAB ∧
      stores circular.recorded.step.2.bus.calls = [(0xFFFF, 0xCD), (0x0000, 0xAB)] := by
  have h : Verdict circular .executed := verdict_of_unmarked ⟨rfl, rfl, rfl⟩ rfl rfl rfl
  have opcode : circular.bus.memory.get circular.pc = 0x08 := by decide +kernel
  have low : circular.bus.memory.get (circular.cpu.registers.pc + 1) = 0xFF := by decide +kernel
  have high : circular.bus.memory.get (circular.cpu.registers.pc + 2) = 0xFF := by decide +kernel
  have copies : Copies circular.cpu.registers circular.bus.memory 0x08 3 _ := .stackPointerTo
  rw [low, high, ← opcode] at copies
  have effect := effect_of_copies h copies
  exact ⟨h, effect.pc, effect.memory_eq (by decide), effect.memory_eq (by decide), effect.stored⟩

/-! ### Arithmetic -/

/-- **Arithmetic on bytes.** If nothing keeps a machine from running its next instruction, and the
opcode is one of those that combine the accumulator with an operand, or with the next byte, or that
count an operand up or down, then the step puts the byte that the operation gives into the
accumulator, or back into the operand, and its flags into F, and all other places hold what they
held before. The operation, which is what its law says, is applied to the byte in the place of the
operand and to nothing else that depends on which operand this is. -/
theorem effect_of_arithmetic (h : Verdict m .executed) :
    let r := m.cpu.registers
    let held (x : ByteOperand) := m.contents (x.place r)
    let opcode := m.bus.memory.get m.pc
    (∀ (op : Alu.AccumulatorOp) (x : ByteOperand), opcode = 0x80 + 8 * op.field + x.field →
      let result := op.apply r.a (held x) r.flags
      op.Law r.a (held x) r.flags.carry result ∧
        m.Effect 1 [(.register .a, result.value), (.flags, result.flags.toByte)]) ∧
    (∀ op : Alu.AccumulatorOp, opcode = 0xC6 + 8 * op.field →
      let value := m.bus.memory.get (m.pc + 1)
      let result := op.apply r.a value r.flags
      op.Law r.a value r.flags.carry result ∧
        m.Effect 2 [(.register .a, result.value), (.flags, result.flags.toByte)]) ∧
    (∀ x, opcode = 0x04 + 8 * x.field →
      let result := Alu.increment (held x) r.flags
      Alu.IsIncrement (held x) r.flags.carry result ∧
        m.Effect 1 [(x.place r, result.value), (.flags, result.flags.toByte)]) ∧
    ∀ x, opcode = 0x05 + 8 * x.field →
      let result := Alu.decrement (held x) r.flags
      Alu.IsDecrement (held x) r.flags.carry result ∧
        m.Effect 1 [(x.place r, result.value), (.flags, result.flags.toByte)] := by
  intro r held opcode
  have executed := h.step_fst
  refine ⟨?_, ?_, ?_, ?_⟩
  · intro op x hop result
    refine ⟨op.law_apply .., ?_⟩
    refine effect_of_opcode executed (i := .accumulate op x) hop rfl fun c => ?_
    exact Instruction.effect_accumulate { c with registers := r } m.bus.memory op x
  · intro op hop value result
    refine ⟨op.law_apply .., ?_⟩
    refine effect_of_opcode executed (i := .accumulateByte op) hop rfl fun c => ?_
    exact Instruction.effect_accumulateByte { c with registers := r } m.bus.memory op
  · intro x hop result
    refine ⟨Alu.isIncrement_increment .., ?_⟩
    refine effect_of_opcode executed (i := .increment x) hop rfl fun c => ?_
    exact Instruction.effect_increment { c with registers := r } m.bus.memory x
  · intro x hop result
    refine ⟨Alu.isDecrement_decrement .., ?_⟩
    refine effect_of_opcode executed (i := .decrement x) hop rfl fun c => ?_
    exact Instruction.effect_decrement { c with registers := r } m.bus.memory x

/-- A machine about to count up the opcode that tells it to. -/
def counting : Machine Ram where
  cpu :=
    { Cpu.new .standard with
      core := .start { Registers.zero with f := 0x10, h := 0x01, pc := 0x0100 } }
  bus := Ram.zero.load 0x0100 [0x34]

/-- The opcode becomes another one, and the carry is kept. -/
theorem effect_of_arithmetic_counting :
    Verdict counting .executed ∧ counting.step.2.pc = 0x0101 ∧
      counting.step.2.bus.memory.get 0x0100 = 0x35 ∧ counting.step.2.cpu.registers.f = 0x10 := by
  have h : Verdict counting .executed := verdict_of_unmarked ⟨rfl, rfl, rfl⟩ rfl rfl rfl
  have opcode : counting.bus.memory.get counting.pc = 0x34 := by decide +kernel
  obtain ⟨-, -, counts, -⟩ := effect_of_arithmetic h
  obtain ⟨-, effect⟩ := counts .atHL opcode
  have held : counting.contents (ByteOperand.place .atHL counting.cpu.registers) = 0x34 := opcode
  simp only [held] at effect
  exact ⟨h, effect.pc, effect.memory_eq (by decide), effect.f_eq (by decide)⟩

/-! ### Bits -/

/-- **Shifts, rotates and single bits.** If nothing keeps a machine from running its next
instruction, and the opcode leads to the second page, then the step does with an operand what the
next byte says. A shift or rotate, which is what its law says, goes back to the operand, with its
flags in F. Testing a bit changes F only, and stores nothing. Clearing or setting a bit changes the
operand only, and of the operand this one bit. The rotates of the accumulator are those of the
second page but for the zero flag, which they clear, and for the time of four clock cycles. In each
of these cases all other places hold what they held before. -/
theorem effect_of_bits (h : Verdict m .executed) :
    let r := m.cpu.registers
    let held (x : ByteOperand) := m.contents (x.place r)
    let opcode := m.bus.memory.get m.pc
    let second := m.bus.memory.get (m.pc + 1)
    (opcode = 0xCB →
      (∀ (op : Alu.ShiftOp) (x : ByteOperand), second = 8 * op.field + x.field →
        let result := op.apply (held x) r.flags
        op.Law (held x) r.flags.carry result ∧
          m.Effect 2 [(x.place r, result.value), (.flags, result.flags.toByte)]) ∧
      (∀ (n : Fin 8) x, second = 0x40 + 8 * UInt8.ofNat n + x.field →
        let flags := ⟨!(held x).toNat.testBit n, false, true, r.flags.carry⟩
        m.Effect 2 [(.flags, Flags.toByte flags)]) ∧
      (∀ (n : Fin 8) x, second = 0x80 + 8 * UInt8.ofNat n + x.field →
        let value := Alu.clearBit n (held x)
        (∀ k < 8, value.toNat.testBit k = ((held x).toNat.testBit k && !decide (k = n))) ∧
          m.Effect 2 [(x.place r, value)]) ∧
      ∀ (n : Fin 8) x, second = 0xC0 + 8 * UInt8.ofNat n + x.field →
        let value := Alu.setBit n (held x)
        (∀ k < 8, value.toNat.testBit k = ((held x).toNat.testBit k || decide (k = n))) ∧
          m.Effect 2 [(x.place r, value)]) ∧
    ∀ op : AccumulatorRotate, opcode = 0x07 + 8 * op.field →
      let result := op.shift.apply r.a r.flags
      let flags := { result.flags with zero := false }
      op.shift.Law r.a r.flags.carry result ∧
        m.Effect 1 [(.register .a, result.value), (.flags, flags.toByte)] ∧
        m.step.2.cpu.clock.cycles = m.cpu.clock.cycles + 4 := by
  intro r held opcode second
  have executed := h.step_fst
  constructor
  · intro page
    refine ⟨?_, ?_, ?_, ?_⟩
    · intro op x hop result
      refine ⟨op.law_apply .., ?_⟩
      refine effect_of_secondOpcode executed page (i := .shift op x) hop ?_
      exact PageInstruction.effect_shift x r m.bus.memory op
    · intro n x hop flags
      refine effect_of_secondOpcode executed page (i := .testBit n x) hop ?_
      have effect := PageInstruction.effect_testBit x r m.bus.memory n
      rwa [Alu.testBit_eq] at effect
    · intro n x hop value
      refine ⟨fun k => Alu.testBit_clearBit n (held x), ?_⟩
      refine effect_of_secondOpcode executed page (i := .clearBit n x) hop ?_
      exact PageInstruction.effect_clearBit x r m.bus.memory n
    · intro n x hop value
      refine ⟨fun k => Alu.testBit_setBit n (held x), ?_⟩
      refine effect_of_secondOpcode executed page (i := .setBit n x) hop ?_
      exact PageInstruction.effect_setBit x r m.bus.memory n
  · intro op hop result flags
    have rotate : m.fetched = .rotate op := fetched_of_opcode hop rfl
    refine ⟨op.shift.law_apply .., ?_, ?_⟩
    · refine effect_of_opcode executed (i := .rotate op) hop rfl fun c => ?_
      exact Instruction.effect_rotate { c with registers := r } m.bus.memory op
    · rw [clock_of_executed executed, dataBytes, idleCycles, rotate]
      rfl

/-- A machine about to rotate the byte that tells it to rotate, with a one coming in. -/
def rotating : Machine Ram where
  cpu :=
    { Cpu.new .standard with
      core := .start { Registers.zero with f := 0x10, h := 0x01, l := 0x01, pc := 0x0100 } }
  bus := Ram.zero.load 0x0100 [0xCB, 0x16]

/-- The byte becomes another one, and the carry is the bit that has been shifted out. -/
theorem effect_of_bits_rotating :
    Verdict rotating .executed ∧ rotating.step.2.pc = 0x0102 ∧
      rotating.step.2.bus.memory.get 0x0101 = 0x2D ∧ rotating.step.2.cpu.registers.f = 0x00 := by
  have h : Verdict rotating .executed := verdict_of_unmarked ⟨rfl, rfl, rfl⟩ rfl rfl rfl
  have page : rotating.bus.memory.get rotating.pc = 0xCB := by decide +kernel
  have second : rotating.bus.memory.get (rotating.pc + 1) = 0x16 := by decide +kernel
  obtain ⟨bits, -⟩ := effect_of_bits h
  obtain ⟨shifts, -⟩ := bits page
  obtain ⟨-, effect⟩ := shifts .rl .atHL second
  have held : rotating.contents (ByteOperand.place .atHL rotating.cpu.registers) = 0x16 := second
  simp only [held] at effect
  exact ⟨h, effect.pc, effect.memory_eq (by decide), effect.f_eq (by decide)⟩

end GameBoy.Machine
