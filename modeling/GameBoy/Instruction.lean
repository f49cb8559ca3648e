import GameBoy.Alu.Arithmetic
import GameBoy.Alu.Shift
import GameBoy.Condition
import GameBoy.Operand

/-!
# Instructions

What the processor can be told to do, as data. Operands that an opcode names are part of the
instruction; bytes that follow the opcode in memory, and are read when it runs, are not, so an
instruction is what one opcode means and there are no more of them than opcodes.

One opcode leads to a second page of instructions, chosen by the byte that follows it. That opcode
is the instruction `GameBoy.Instruction.page`, and the instructions of the second page have the type
`GameBoy.PageInstruction`.
-/

namespace GameBoy

/-- The rotates that apply to the accumulator without going through the second page. -/
inductive AccumulatorRotate where
  | rlca
  | rrca
  | rla
  | rra
  deriving DecidableEq, Repr

namespace AccumulatorRotate

/-- The rotate a field of two bits names. -/
def ofField (field : Nat) : AccumulatorRotate :=
  match field % 4 with
  | 0 => .rlca
  | 1 => .rrca
  | 2 => .rla
  | _ => .rra

/-- The rotate of the second page that does the same to the bits. -/
def shift : AccumulatorRotate → Alu.ShiftOp
  | .rlca => .rlc
  | .rrca => .rrc
  | .rla => .rl
  | .rra => .rr

end AccumulatorRotate

/-- **The instructions of the second page**: shifts and rotates, and operations on single bits. -/
inductive PageInstruction where
  | shift (op : Alu.ShiftOp) (operand : ByteOperand)
  | testBit (bit : Fin 8) (operand : ByteOperand)
  | clearBit (bit : Fin 8) (operand : ByteOperand)
  | setBit (bit : Fin 8) (operand : ByteOperand)
  deriving DecidableEq, Repr

/-- **The instructions of the first page.** -/
inductive Instruction where
  /-- Does nothing. -/
  | nop
  /-- Suspends the processor until the machine wakes it. -/
  | stop
  /-- Suspends the processor until an interrupt asks for it. -/
  | halt
  /-- Interrupts are no longer taken. -/
  | disableInterrupts
  /-- Interrupts are taken after the instruction that follows. -/
  | enableInterrupts
  /-- An opcode that means nothing, and is passed over. -/
  | illegal (opcode : UInt8)
  /-- The next byte is an instruction of the second page. -/
  | page
  /-- A byte copied from one operand to another. -/
  | load (target source : ByteOperand)
  /-- The next byte copied to an operand. -/
  | loadByte (target : ByteOperand)
  /-- The next word copied to a pair. -/
  | loadWord (target : RegisterPair)
  /-- The accumulator stored where a pointer points. -/
  | storeIndirect (pointer : Pointer)
  /-- The accumulator loaded from where a pointer points. -/
  | loadIndirect (pointer : Pointer)
  /-- The accumulator stored on the topmost page of memory, at the next byte. -/
  | storeHigh
  /-- The accumulator loaded from the topmost page of memory, at the next byte. -/
  | loadHigh
  /-- The accumulator stored on the topmost page of memory, at C. -/
  | storeHighC
  /-- The accumulator loaded from the topmost page of memory, at C. -/
  | loadHighC
  /-- The accumulator stored at the next word. -/
  | storeAbsolute
  /-- The accumulator loaded from the next word. -/
  | loadAbsolute
  /-- The stack pointer stored at the next word. -/
  | storeStackPointer
  /-- HL copied to the stack pointer. -/
  | loadStackPointer
  /-- The stack pointer, moved by the next byte, copied to HL. -/
  | loadStackAddress
  | push (source : StackPair)
  | pop (target : StackPair)
  /-- The accumulator combined with an operand. -/
  | accumulate (op : Alu.AccumulatorOp) (operand : ByteOperand)
  /-- The accumulator combined with the next byte. -/
  | accumulateByte (op : Alu.AccumulatorOp)
  | increment (operand : ByteOperand)
  | decrement (operand : ByteOperand)
  | incrementPair (pair : RegisterPair)
  | decrementPair (pair : RegisterPair)
  /-- A pair added to HL. -/
  | addPair (pair : RegisterPair)
  /-- The stack pointer moved by the next byte. -/
  | addStackPointer
  | rotate (op : AccumulatorRotate)
  | decimalAdjust
  | complement
  | setCarry
  | complementCarry
  /-- Continues at the next word. -/
  | jump
  | jumpIf (condition : Condition)
  /-- Continues at HL. -/
  | jumpHL
  /-- Continues at a distance given by the next byte. -/
  | jumpRelative
  | jumpRelativeIf (condition : Condition)
  /-- Continues at the next word, with the way back on the stack. -/
  | call
  | callIf (condition : Condition)
  /-- Continues where the stack says. -/
  | ret
  | retIf (condition : Condition)
  /-- Continues where the stack says, and interrupts are taken again at once. -/
  | retInterrupt
  /-- Continues at one of eight fixed addresses, with the way back on the stack. -/
  | restart (index : Fin 8)
  deriving DecidableEq, Repr

namespace Instruction

/-- **The length of an instruction in bytes**, the bytes it reads after its opcode included. -/
def length : Instruction → Nat
  | .loadWord _ | .storeAbsolute | .loadAbsolute | .storeStackPointer | .jump | .jumpIf _ | .call
  | .callIf _ => 3
  | .stop | .page | .loadByte _ | .storeHigh | .loadHigh | .loadStackAddress | .accumulateByte _
  | .addStackPointer | .jumpRelative | .jumpRelativeIf _ => 2
  | _ => 1

end Instruction

/-- Where an eighth of the lowest 64 bytes begins, to which a restart goes. -/
def restartAddress (index : Fin 8) : UInt16 := 8 * UInt16.ofNat index

end GameBoy
