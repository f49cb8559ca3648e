import GameBoy.Instruction.Opcode
import Mathlib.Data.FinEnum

/-!
# Encoding instructions

The rules of `GameBoy.Instruction.rules` say which instruction an opcode means. This file says it
the other way round, which opcode stands for an instruction, and proves that the two agree:
`GameBoy.Instruction.opcode_decode` and `GameBoy.Instruction.decode_opcode` make decoding and
encoding inverse to each other.

In between stands the page itself, `GameBoy.Instruction.firstPage`, the instructions in the order of
their opcodes. The rules are compiled by the kernel once, to see that they give this page
(`GameBoy.Instruction.table_toList`); what comes after looks the instruction up in the page.

Two instructions have no opcode of their own. Memory copied to itself is one, its opcode being that
of `GameBoy.Instruction.halt`, and an illegal opcode that is legal is the other, so encoding is
undone by decoding only for the instructions with `GameBoy.Instruction.hasOpcode`.
-/

namespace GameBoy

/-! ### The numbers of operands

The number by which the field of an opcode names an operand. -/

/-- The field that names a register. -/
def ByteRegister.field : ByteRegister → UInt8
  | .b => 0
  | .c => 1
  | .d => 2
  | .e => 3
  | .h => 4
  | .l => 5
  | .a => 7

/-- The field that names an operand. Memory takes the number that the registers leave free. -/
def ByteOperand.field : ByteOperand → UInt8
  | .register r => r.field
  | .atHL => 6

/-- The field that names a pair. -/
def RegisterPair.field : RegisterPair → UInt8
  | .bc => 0
  | .de => 1
  | .hl => 2
  | .sp => 3

/-- The field that names a pair on the stack. -/
def StackPair.field : StackPair → UInt8
  | .bc => 0
  | .de => 1
  | .hl => 2
  | .af => 3

/-- The field that names a pointer. -/
def Pointer.field : Pointer → UInt8
  | .bc => 0
  | .de => 1
  | .hlIncrement => 2
  | .hlDecrement => 3

/-- The field that names a condition. -/
def Condition.field : Condition → UInt8
  | .notZero => 0
  | .zero => 1
  | .notCarry => 2
  | .carry => 3

/-- The field that names a rotate of the accumulator. -/
def AccumulatorRotate.field : AccumulatorRotate → UInt8
  | .rlca => 0
  | .rrca => 1
  | .rla => 2
  | .rra => 3

/-- The field that names an operation on the accumulator. -/
def Alu.AccumulatorOp.field : Alu.AccumulatorOp → UInt8
  | .add => 0
  | .adc => 1
  | .sub => 2
  | .sbc => 3
  | .and => 4
  | .xor => 5
  | .or => 6
  | .cp => 7

namespace Instruction

/-! ### Opcodes -/

/-- **The opcode of an instruction.** -/
def opcode : Instruction → UInt8
  | .nop => 0x00
  | .stop => 0x10
  | .halt => 0x76
  | .disableInterrupts => 0xF3
  | .enableInterrupts => 0xFB
  | .illegal opcode => opcode
  | .page => 0xCB
  | .load target source => 0x40 + 8 * target.field + source.field
  | .loadByte target => 0x06 + 8 * target.field
  | .loadWord target => 0x01 + 16 * target.field
  | .storeIndirect pointer => 0x02 + 16 * pointer.field
  | .loadIndirect pointer => 0x0A + 16 * pointer.field
  | .storeHigh => 0xE0
  | .loadHigh => 0xF0
  | .storeHighC => 0xE2
  | .loadHighC => 0xF2
  | .storeAbsolute => 0xEA
  | .loadAbsolute => 0xFA
  | .storeStackPointer => 0x08
  | .loadStackPointer => 0xF9
  | .loadStackAddress => 0xF8
  | .push source => 0xC5 + 16 * source.field
  | .pop target => 0xC1 + 16 * target.field
  | .accumulate op operand => 0x80 + 8 * op.field + operand.field
  | .accumulateByte op => 0xC6 + 8 * op.field
  | .increment operand => 0x04 + 8 * operand.field
  | .decrement operand => 0x05 + 8 * operand.field
  | .incrementPair pair => 0x03 + 16 * pair.field
  | .decrementPair pair => 0x0B + 16 * pair.field
  | .addPair pair => 0x09 + 16 * pair.field
  | .addStackPointer => 0xE8
  | .rotate op => 0x07 + 8 * op.field
  | .decimalAdjust => 0x27
  | .complement => 0x2F
  | .setCarry => 0x37
  | .complementCarry => 0x3F
  | .jump => 0xC3
  | .jumpIf condition => 0xC2 + 8 * condition.field
  | .jumpHL => 0xE9
  | .jumpRelative => 0x18
  | .jumpRelativeIf condition => 0x20 + 8 * condition.field
  | .call => 0xCD
  | .callIf condition => 0xC4 + 8 * condition.field
  | .ret => 0xC9
  | .retIf condition => 0xC0 + 8 * condition.field
  | .retInterrupt => 0xD9
  | .restart index => 0xC7 + 8 * UInt8.ofNat index

/-- Whether an instruction has an opcode of its own. -/
def hasOpcode : Instruction → Bool
  | .load .atHL .atHL => false
  | .illegal opcode => decide (opcode ∈ illegalOpcodes)
  | _ => true

/-! ### The page -/

/-- Every operand of one byte, in the order of the fields that name them. -/
def operands : List ByteOperand :=
  [.register .b, .register .c, .register .d, .register .e, .register .h, .register .l, .atHL,
    .register .a]

/-- Every operation on the accumulator, in the order of the fields that name them. -/
def operations : List Alu.AccumulatorOp := [.add, .adc, .sub, .sbc, .and, .xor, .or, .cp]

/-- The opcodes below 64, in rows of eight. -/
def lowQuarter : List Instruction :=
  [.nop, .loadWord .bc, .storeIndirect .bc, .incrementPair .bc,
    .increment (.register .b), .decrement (.register .b), .loadByte (.register .b), .rotate .rlca,
   .storeStackPointer, .addPair .bc, .loadIndirect .bc, .decrementPair .bc,
    .increment (.register .c), .decrement (.register .c), .loadByte (.register .c), .rotate .rrca,
   .stop, .loadWord .de, .storeIndirect .de, .incrementPair .de,
    .increment (.register .d), .decrement (.register .d), .loadByte (.register .d), .rotate .rla,
   .jumpRelative, .addPair .de, .loadIndirect .de, .decrementPair .de,
    .increment (.register .e), .decrement (.register .e), .loadByte (.register .e), .rotate .rra,
   .jumpRelativeIf .notZero, .loadWord .hl, .storeIndirect .hlIncrement, .incrementPair .hl,
    .increment (.register .h), .decrement (.register .h), .loadByte (.register .h), .decimalAdjust,
   .jumpRelativeIf .zero, .addPair .hl, .loadIndirect .hlIncrement, .decrementPair .hl,
    .increment (.register .l), .decrement (.register .l), .loadByte (.register .l), .complement,
   .jumpRelativeIf .notCarry, .loadWord .sp, .storeIndirect .hlDecrement, .incrementPair .sp,
    .increment .atHL, .decrement .atHL, .loadByte .atHL, .setCarry,
   .jumpRelativeIf .carry, .addPair .sp, .loadIndirect .hlDecrement, .decrementPair .sp,
    .increment (.register .a), .decrement (.register .a), .loadByte (.register .a),
    .complementCarry]

/-- The opcodes from 192 on, in rows of eight, each of which ends with a restart. -/
def highQuarter : List Instruction :=
  let rows :=
     [[.retIf .notZero, .pop .bc, .jumpIf .notZero, .jump,
        .callIf .notZero, .push .bc, .accumulateByte .add],
      [.retIf .zero, .ret, .jumpIf .zero, .page,
        .callIf .zero, .call, .accumulateByte .adc],
      [.retIf .notCarry, .pop .de, .jumpIf .notCarry, .illegal 0xD3,
        .callIf .notCarry, .push .de, .accumulateByte .sub],
      [.retIf .carry, .retInterrupt, .jumpIf .carry, .illegal 0xDB,
        .callIf .carry, .illegal 0xDD, .accumulateByte .sbc],
      [.storeHigh, .pop .hl, .storeHighC, .illegal 0xE3,
        .illegal 0xE4, .push .hl, .accumulateByte .and],
      [.addStackPointer, .jumpHL, .storeAbsolute, .illegal 0xEB,
        .illegal 0xEC, .illegal 0xED, .accumulateByte .xor],
      [.loadHigh, .pop .af, .loadHighC, .disableInterrupts,
        .illegal 0xF4, .push .af, .accumulateByte .or],
      [.loadStackAddress, .loadStackPointer, .loadAbsolute, .enableInterrupts,
        .illegal 0xFC, .illegal 0xFD, .accumulateByte .cp]]
  (rows.zip (List.finRange 8)).flatMap fun row => row.1 ++ [.restart row.2]

/-- **The first page**, in the order of opcodes: two blocks that combine operands, the halt sitting
in the first of them, between two quarters that follow no single scheme. -/
def firstPage : List Instruction :=
  lowQuarter ++
    (operands.flatMap fun target => operands.map fun source => .load target source).set 54 .halt ++
    (operations.flatMap fun op => operands.map fun operand => .accumulate op operand) ++
    highQuarter

/-- **The rules compile to the page.** This is where they are run; nothing below runs them again. -/
theorem table_toList : table.toList = firstPage := by decide +kernel

/-- The page lists the instructions in the order of their opcodes. -/
theorem map_opcode_firstPage : firstPage.map opcode = (List.range 256).map UInt8.ofNat := by
  decide +kernel

/-! ### Decoding and encoding -/

/-- Decoding looks the opcode up in the page. -/
theorem firstPage_getElem? (opcode : UInt8) : firstPage[opcode.toNat]? = some (decode opcode) := by
  have h : opcode.toNat < table.size := by
    rw [size_table]
    exact opcode.toNat_lt
  rw [← table_toList, Array.getElem?_toList, Array.getElem?_eq_getElem h, decode]

/-- What the page has at an opcode is what the opcode means. -/
theorem decode_eq_of_firstPage {opcode : UInt8} {i : Instruction}
    (h : firstPage[opcode.toNat]? = some i) : decode opcode = i :=
  Option.some.inj ((firstPage_getElem? opcode).symm.trans h)

/-- **Every opcode is the opcode of what it means.** -/
@[simp] theorem opcode_decode (opcode : UInt8) : (decode opcode).opcode = opcode := by
  have h := congrArg (·[opcode.toNat]?) map_opcode_firstPage
  simp only [List.getElem?_map, firstPage_getElem?, Option.map_some,
    List.getElem?_range opcode.toNat_lt, UInt8.ofNat_toNat] at h
  exact Option.some.inj h

/-- Whatever an opcode means has an opcode of its own. -/
@[simp] theorem hasOpcode_decode (opcode : UInt8) : (decode opcode).hasOpcode = true := by
  have h : firstPage.all hasOpcode = true := by decide +kernel
  exact List.all_eq_true.mp h _ (List.mem_of_getElem? (firstPage_getElem? opcode))

/-- **An instruction with an opcode of its own is what this opcode means.** -/
theorem decode_opcode {i : Instruction} (h : i.hasOpcode = true) : decode i.opcode = i := by
  apply decode_eq_of_firstPage
  cases i with
  | illegal opcode =>
    have h : opcode ∈ illegalOpcodes := of_decide_eq_true h
    simp only [illegalOpcodes, List.mem_cons, List.not_mem_nil, or_false] at h
    rcases h with rfl | rfl | rfl | rfl | rfl | rfl | rfl | rfl | rfl | rfl | rfl <;> rfl
  | load target source =>
    rcases target with t | _ <;> rcases source with s | _
    · cases t <;> cases s <;> rfl
    · cases t <;> rfl
    · cases s <;> rfl
    · exact absurd h Bool.false_ne_true
  | loadByte operand | increment operand | decrement operand =>
    rcases operand with r | _
    · cases r <;> rfl
    · rfl
  | accumulate op operand =>
    rcases operand with r | _
    · cases op <;> cases r <;> rfl
    · cases op <;> rfl
  | accumulateByte op | rotate op => cases op <;> rfl
  | loadWord pair | incrementPair pair | decrementPair pair | addPair pair => cases pair <;> rfl
  | push pair | pop pair => cases pair <;> rfl
  | storeIndirect pointer | loadIndirect pointer => cases pointer <;> rfl
  | jumpIf condition | jumpRelativeIf condition | callIf condition | retIf condition =>
    cases condition <;> rfl
  | restart index =>
    clear h
    revert index
    decide
  | _ => rfl

end Instruction

end GameBoy
