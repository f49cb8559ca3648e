import GameBoy.Alu.Arithmetic

/-!
# Shifts, rotates and single bits

The eight shifts and rotates move every bit of a byte by one place, and the bit that falls off the
end goes to the carry flag; swapping the nibbles is counted among them and drops no bit. Three
further operations look at, clear and set one bit of a byte.
-/

namespace GameBoy.Alu

/-- **The shifts and rotates**, in the order in which opcodes number them. -/
inductive ShiftOp where
  | rlc
  | rrc
  | rl
  | rr
  | sla
  | sra
  | swap
  | srl
  deriving DecidableEq, Repr

namespace ShiftOp

/-- The operation an opcode field names; only the lowest three bits of the field count. -/
def ofField (field : Nat) : ShiftOp :=
  match field % 8 with
  | 0 => .rlc
  | 1 => .rrc
  | 2 => .rl
  | 3 => .rr
  | 4 => .sla
  | 5 => .sra
  | 6 => .swap
  | _ => .srl

/-- The byte an operation leaves. The carry comes in only where the rotate goes through it. -/
def value (op : ShiftOp) (b : UInt8) (carry : Bool) : UInt8 :=
  match op with
  | .rlc => b <<< 1 ||| b >>> 7
  | .rrc => b >>> 1 ||| b <<< 7
  | .rl => b <<< 1 ||| carry.toUInt8
  | .rr => b >>> 1 ||| carry.toUInt8 <<< 7
  | .sla => b <<< 1
  | .sra => b >>> 1 ||| b &&& 0x80
  | .swap => b <<< 4 ||| b >>> 4
  | .srl => b >>> 1

/-- The bit that falls off the end: the top one to the left, the bottom one to the right. -/
def carryOut (op : ShiftOp) (b : UInt8) : Bool :=
  match op with
  | .rlc | .rl | .sla => b &&& 0x80 != 0
  | .rrc | .rr | .sra | .srl => b &&& 0x01 != 0
  | .swap => false

/-- **The operation applied** to a byte under the incoming flags. -/
def apply (op : ShiftOp) (b : UInt8) (flags : Flags) : Result :=
  let value := op.value b flags.carry
  { value
    flags := { zero := value == 0, subtract := false, half := false, carry := op.carryOut b } }

/-- How assembly text names the operation. -/
def mnemonic : ShiftOp → String
  | .rlc => "rlc"
  | .rrc => "rrc"
  | .rl => "rl"
  | .rr => "rr"
  | .sla => "sla"
  | .sra => "sra"
  | .swap => "swap"
  | .srl => "srl"

end ShiftOp

/-! ### Single bits -/

/-- The byte in which exactly the bit numbered `n` is set. -/
def bitMask (n : Fin 8) : UInt8 := 1 <<< UInt8.ofNat n

/-- The flags that tell of one bit: the zero flag is its complement, the carry is the one that
came in. -/
def testBit (n : Fin 8) (b : UInt8) (flags : Flags) : Flags :=
  { zero := b &&& bitMask n == 0, subtract := false, half := true, carry := flags.carry }

/-- The byte with one bit set. -/
def setBit (n : Fin 8) (b : UInt8) : UInt8 := b ||| bitMask n

/-- The byte with one bit cleared. -/
def clearBit (n : Fin 8) (b : UInt8) : UInt8 := b &&& ~~~bitMask n

end GameBoy.Alu
