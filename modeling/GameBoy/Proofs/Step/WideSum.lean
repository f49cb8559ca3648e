import GameBoy.Proofs.Alu.Wide
import GameBoy.Proofs.Instruction.Contents
import GameBoy.Proofs.Step.Advance

/-!
# Steps that add words

Three kinds of instruction put a sum of words into a pair: a pair is added to HL, and the sum of the
stack pointer and a signed byte goes to the stack pointer or to HL. They are one as far as the
registers go (`GameBoy.Instruction.AddsWords`): there is a sum, its value goes into a pair and its
flags into F, and of the other registers only the program counter changes
(`GameBoy.Machine.registers_of_addsWords`).

What these sums are is said by sums of bytes (`GameBoy.Machine.registers_of_wideSums`).
-/

namespace GameBoy

namespace Instruction

/-- **The instructions that add words**, for given registers and a byte after the opcode: which pair
a sum goes into, and which sum. -/
inductive AddsWords (r : Registers) (offset : UInt8) :
    Instruction → RegisterPair → Alu.WideResult → Prop
  | addPair (pair : RegisterPair) :
    AddsWords r offset (.addPair pair) .hl (Alu.addWords r.hl (r.pair pair) r.flags)
  | addStackPointer : AddsWords r offset .addStackPointer .sp (Alu.addOffset r.sp offset)
  | loadStackAddress : AddsWords r offset .loadStackAddress .hl (Alu.addOffset r.sp offset)

/-- Such an instruction leaves the sum in the pair and its flags in F, and goes on at the next one,
whatever the bus does. -/
theorem AddsWords.remainder_ensures {i : Instruction} {c : Core} {found : UInt16 → UInt8}
    {pair : RegisterPair} {sum : Alu.WideResult}
    (h : i.AddsWords c.registers (found (c.pc + 1)) pair sum) :
    (i.remainder c found).Ensures fun c' =>
      c'.registers =
        { (c.registers.setPair pair sum.value).setFlags sum.flags with pc := i.next c.pc } := by
  cases h with
  | addPair => exact .idle (.done rfl)
  | addStackPointer => exact .idle (.idle (.done rfl))
  | loadStackAddress => exact .idle (.done rfl)

end Instruction

namespace Machine

section

variable {β : Type} [Bus β] {m : Machine β}

/-- **A step that adds words.** -/
theorem registers_of_addsWords (h : m.step.1 = .executed) {pair : RegisterPair}
    {sum : Alu.WideResult}
    (adds : m.fetched.AddsWords m.cpu.registers (m.found (m.pc + 1)) pair sum) :
    m.step.2.cpu.registers =
      { m.cpu.registers.setPair pair sum.value with f := sum.flags.toByte, pc := m.next } := by
  obtain ⟨-, r, c, -, registers, -, -, core⟩ := exists_remainder_of_executed h
  have pc : c.pc = m.pc := congrArg Registers.pc registers
  rw [← registers, ← pc] at adds
  have result := adds.remainder_ensures.result r
  rw [Cpu.registers, core, result, Registers.setFlags, Registers.setF, Flags.toByte_and_mask,
    registers, pc]
  rfl

/-- The same of an instruction that has the opcode which is found. -/
theorem registers_of_opcode {i : Instruction} (h : m.step.1 = .executed)
    (opcode : m.opcode = i.opcode) (hi : i.hasOpcode = true) {pair : RegisterPair}
    {sum : Alu.WideResult} (adds : i.AddsWords m.cpu.registers (m.found (m.pc + 1)) pair sum) :
    m.step.2.cpu.registers =
      { m.cpu.registers.setPair pair sum.value with
        f := sum.flags.toByte, pc := m.pc + UInt16.ofNat i.length } := by
  have fetched : m.fetched = i := by rw [fetched_eq, opcode, Instruction.decode_opcode hi]
  rw [← fetched] at adds
  rw [registers_of_addsWords h adds, next, fetched]
  rfl

end

open Alu (AccumulatorOp)

/-- **Sums of words are sums of bytes.** The sum of two words is that of their low bytes and then
that of their high bytes and the carry; its half-carry and carry are those of the latter, it is not
a subtraction, and the zero flag is the one that came in. The sum of a word and a signed byte is that
of the word and the byte extended to a word; its half-carry and carry are those of the low byte and
the byte as it is, whatever the sign, and the other two flags are clear. On any bus, a step that adds
a pair to HL, which may be HL itself, or the next byte to the stack pointer, or that puts the sum of
the stack pointer and the next byte into HL, leaves this sum there and its flags in F, and changes no
other register but the program counter. -/
theorem registers_of_wideSums :
    (∀ (a b : UInt16) (flags : Flags),
      let low := AccumulatorOp.add.apply (lowByte a) (lowByte b) flags
      let high := AccumulatorOp.adc.apply (highByte a) (highByte b) low.flags
      Alu.addWords a b flags =
        ⟨word high.value low.value, ⟨flags.zero, false, high.flags.half, high.flags.carry⟩⟩) ∧
    (∀ (w : UInt16) (e : Int8) (flags : Flags),
      let low := AccumulatorOp.add.apply (lowByte w) e.toUInt8 flags
      Alu.addOffset w e.toUInt8 =
        ⟨(Alu.addWords w e.toInt16.toUInt16 flags).value,
          ⟨false, false, low.flags.half, low.flags.carry⟩⟩) ∧
    ∀ {β : Type} [Bus β] (m : Machine β), m.step.1 = .executed →
      let r := m.cpu.registers
      let moved := Alu.addOffset r.sp (m.found (m.pc + 1))
      (∀ pair : RegisterPair, m.opcode = 0x09 + 16 * pair.field →
        let sum := Alu.addWords r.hl (r.pair pair) r.flags
        m.step.2.cpu.registers =
          { r with
            h := highByte sum.value, l := lowByte sum.value, f := sum.flags.toByte
            pc := m.pc + 1 }) ∧
      (m.opcode = 0xE8 → m.step.2.cpu.registers =
        { r with sp := moved.value, f := moved.flags.toByte, pc := m.pc + 2 }) ∧
      (m.opcode = 0xF8 → m.step.2.cpu.registers =
        { r with
          h := highByte moved.value, l := lowByte moved.value, f := moved.flags.toByte
          pc := m.pc + 2 }) := by
  refine ⟨Alu.addWords_eq_bytes, Alu.addOffset_eq_bytes, fun m h => ⟨?_, ?_, ?_⟩⟩
  · intro pair opcode
    exact registers_of_opcode h (i := .addPair pair) opcode rfl (.addPair pair)
  · intro opcode
    exact registers_of_opcode h (i := .addStackPointer) opcode rfl .addStackPointer
  · intro opcode
    exact registers_of_opcode h (i := .loadStackAddress) opcode rfl .loadStackAddress

/-- A machine about to run some code, with a word in HL that is too large to be doubled, and the
stack pointer close to the end of a page. -/
def summing (code : List UInt8) : Machine Ram where
  cpu :=
    { Cpu.new .standard with
      core := .start
        { Registers.zero with f := 0x80, h := 0x8F, l := 0xFF, sp := 0x00F8, pc := 0x0100 } }
  bus := Ram.zero.load 0x0100 code

/-- The word is doubled, with the zero flag still set although the sum is not zero. The stack pointer
is moved down by eight, and carries are there all the same. -/
theorem registers_of_wideSums_doubling :
    (summing [0x29]).step.1 = .executed ∧
      (summing [0x29]).step.2.cpu.registers =
        { (summing [0x29]).cpu.registers with h := 0x1F, l := 0xFE, f := 0xB0, pc := 0x0101 } ∧
      (summing [0xF8, 0xF8]).step.1 = .executed ∧
      (summing [0xF8, 0xF8]).step.2.cpu.registers =
        { (summing [0xF8, 0xF8]).cpu.registers with
          h := 0x00, l := 0xF0, f := 0x30, pc := 0x0102 } := by
  have h (code : List UInt8) : (summing code).step.1 = .executed :=
    step_fst_of_unmarked ⟨rfl, rfl, rfl⟩ rfl rfl rfl
  obtain ⟨-, -, steps⟩ := registers_of_wideSums
  obtain ⟨doubles, -, -⟩ := steps (summing [0x29]) (h _)
  obtain ⟨-, -, moves⟩ := steps (summing [0xF8, 0xF8]) (h _)
  have opcode : (summing [0x29]).opcode = 0x09 + 16 * RegisterPair.hl.field := by decide +kernel
  have opcode' : (summing [0xF8, 0xF8]).opcode = 0xF8 := by decide +kernel
  have offset : (summing [0xF8, 0xF8]).found ((summing [0xF8, 0xF8]).pc + 1) = 0xF8 := by
    decide +kernel
  rw [offset] at moves
  refine ⟨h _, (doubles .hl opcode).trans ?_, h _, (moves opcode').trans ?_⟩
  · decide
  · decide

end Machine

end GameBoy
