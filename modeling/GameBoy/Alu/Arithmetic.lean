import GameBoy.Flags

/-!
# Byte arithmetic

Sums, differences and bitwise combinations of two bytes, as the arithmetic unit computes them: each
operation gives a byte and the flags that go with it. Values wrap; the flags record what the
wrapping lost, and are computed from the exact sums so that no carry is missed.

* `GameBoy.Alu.add`, `GameBoy.Alu.subtract` – with an incoming carry or borrow;
* `GameBoy.Alu.AccumulatorOp` – the eight operations between the accumulator and an operand;
* `GameBoy.Alu.increment`, `GameBoy.Alu.decrement` – by one, leaving the carry flag alone.
-/

namespace GameBoy.Alu

/-- A byte and the flags of the operation that gave it. -/
structure Result where
  value : UInt8
  flags : Flags
  deriving DecidableEq, Repr

/-- The value of the lower four bits of a byte. -/
def lowNibble (b : UInt8) : Nat := b.toNat % 16

/-- **The sum of two bytes and a carry.** -/
def add (a b : UInt8) (carry : Bool) : Result :=
  let value := a + b + carry.toUInt8
  { value
    flags :=
      { zero := value == 0
        subtract := false
        half := lowNibble a + lowNibble b + carry.toNat > 0x0F
        carry := a.toNat + b.toNat + carry.toNat > 0xFF } }

/-- **The difference of two bytes, less a borrow.** -/
def subtract (a b : UInt8) (borrow : Bool) : Result :=
  let value := a - b - borrow.toUInt8
  { value
    flags :=
      { zero := value == 0
        subtract := true
        half := lowNibble a < lowNibble b + borrow.toNat
        carry := a.toNat < b.toNat + borrow.toNat } }

/-- A bitwise combination: no carry and no subtraction, whatever the bits. -/
def bitwise (value : UInt8) (half : Bool) : Result :=
  { value, flags := { zero := value == 0, subtract := false, half, carry := false } }

/-- The flags of the difference, with the first byte left as it was. -/
def compare (a b : UInt8) : Result := { value := a, flags := (subtract a b false).flags }

/-- One more than a byte. The carry flag is the one that came in. -/
def increment (b : UInt8) (flags : Flags) : Result :=
  { value := b + 1
    flags :=
      { zero := b + 1 == 0, subtract := false, half := lowNibble b == 0x0F, carry := flags.carry } }

/-- One less than a byte. The carry flag is the one that came in. -/
def decrement (b : UInt8) (flags : Flags) : Result :=
  { value := b - 1
    flags :=
      { zero := b - 1 == 0, subtract := true, half := lowNibble b == 0, carry := flags.carry } }

/-! ### The operations on the accumulator -/

/-- **The operations between the accumulator and an operand**, in the order in which opcodes
number them. -/
inductive AccumulatorOp where
  | add
  | adc
  | sub
  | sbc
  | and
  | xor
  | or
  | cp
  deriving DecidableEq, Repr

namespace AccumulatorOp

/-- The operation an opcode field names; only the lowest three bits of the field count. -/
def ofField (field : Nat) : AccumulatorOp :=
  match field % 8 with
  | 0 => .add
  | 1 => .adc
  | 2 => .sub
  | 3 => .sbc
  | 4 => .and
  | 5 => .xor
  | 6 => .or
  | _ => .cp

/-- **The operation applied** to the accumulator `a` and the operand `b`. Only the carry of the
incoming flags matters, and only to the two operations that carry on from an earlier one. The
conjunction always sets the half-carry flag. -/
def apply (op : AccumulatorOp) (a b : UInt8) (flags : Flags) : Result :=
  match op with
  | .add => Alu.add a b false
  | .adc => Alu.add a b flags.carry
  | .sub => Alu.subtract a b false
  | .sbc => Alu.subtract a b flags.carry
  | .and => bitwise (a &&& b) true
  | .xor => bitwise (a ^^^ b) false
  | .or => bitwise (a ||| b) false
  | .cp => compare a b

/-- How assembly text starts, with the accumulator spelt out where it is customary. -/
def mnemonic : AccumulatorOp → String
  | .add => "add a,"
  | .adc => "adc a,"
  | .sub => "sub"
  | .sbc => "sbc a,"
  | .and => "and"
  | .xor => "xor"
  | .or => "or"
  | .cp => "cp"

end AccumulatorOp

end GameBoy.Alu
