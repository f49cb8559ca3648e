/-!
# Operands

Opcodes name their operands with fields of three or two bits. Each field has a type of its own here,
so that an instruction can only be built with an operand it can have.

* `GameBoy.ByteOperand` – a byte register, or the byte in memory that HL points to;
* `GameBoy.RegisterPair` – the pairs that arithmetic on words and immediate loads name;
* `GameBoy.StackPair` – the pairs that are pushed and popped;
* `GameBoy.Pointer` – the pairs through which the accumulator is loaded and stored.

The functions called `ofField` read an operand off the number in its field, of which only the bits
that the field has count.
-/

namespace GameBoy

/-- The registers of one byte that instructions can name. -/
inductive ByteRegister where
  | b
  | c
  | d
  | e
  | h
  | l
  | a
  deriving DecidableEq, Repr

/-- How assembly text names a register. -/
def ByteRegister.name : ByteRegister → String
  | .b => "b"
  | .c => "c"
  | .d => "d"
  | .e => "e"
  | .h => "h"
  | .l => "l"
  | .a => "a"

/-- **An operand of one byte**: a register, or the byte in memory that HL points to, every access
to which takes a machine cycle. -/
inductive ByteOperand where
  | register (r : ByteRegister)
  | atHL
  deriving DecidableEq, Repr

namespace ByteOperand

/-- The operand a field of three bits names. -/
def ofField (field : Nat) : ByteOperand :=
  match field % 8 with
  | 0 => .register .b
  | 1 => .register .c
  | 2 => .register .d
  | 3 => .register .e
  | 4 => .register .h
  | 5 => .register .l
  | 6 => .atHL
  | _ => .register .a

/-- Whether the operand lies in memory. -/
def isMemory : ByteOperand → Bool
  | .register _ => false
  | .atHL => true

/-- How assembly text names the operand. -/
def name : ByteOperand → String
  | .register r => r.name
  | .atHL => "(hl)"

end ByteOperand

/-- **A pair that holds a word to compute with.** -/
inductive RegisterPair where
  | bc
  | de
  | hl
  | sp
  deriving DecidableEq, Repr

namespace RegisterPair

/-- The pair a field of two bits names. -/
def ofField (field : Nat) : RegisterPair :=
  match field % 4 with
  | 0 => .bc
  | 1 => .de
  | 2 => .hl
  | _ => .sp

/-- How assembly text names the pair. -/
def name : RegisterPair → String
  | .bc => "bc"
  | .de => "de"
  | .hl => "hl"
  | .sp => "sp"

end RegisterPair

/-- **A pair that can be pushed and popped**: the accumulator and the flags take the place of the
stack pointer. -/
inductive StackPair where
  | bc
  | de
  | hl
  | af
  deriving DecidableEq, Repr

namespace StackPair

/-- The pair a field of two bits names. -/
def ofField (field : Nat) : StackPair :=
  match field % 4 with
  | 0 => .bc
  | 1 => .de
  | 2 => .hl
  | _ => .af

/-- How assembly text names the pair. -/
def name : StackPair → String
  | .bc => "bc"
  | .de => "de"
  | .hl => "hl"
  | .af => "af"

end StackPair

/-- **A pair that points to memory.** The last two are HL, moved up or down by one after the
access. -/
inductive Pointer where
  | bc
  | de
  | hlIncrement
  | hlDecrement
  deriving DecidableEq, Repr

namespace Pointer

/-- The pointer a field of two bits names. -/
def ofField (field : Nat) : Pointer :=
  match field % 4 with
  | 0 => .bc
  | 1 => .de
  | 2 => .hlIncrement
  | _ => .hlDecrement

/-- How assembly text names the pointer. -/
def name : Pointer → String
  | .bc => "bc"
  | .de => "de"
  | .hlIncrement => "hl+"
  | .hlDecrement => "hl-"

end Pointer

end GameBoy
