import GameBoy.Alu.Arithmetic

/-!
# Adjusting the accumulator and the carry

The operations that take no operand: the decimal adjustment, the complement, and setting or
complementing the carry flag.

`GameBoy.Alu.decimalAdjust` turns the binary sum or difference of two packed decimal bytes into
their decimal one. It reads off the flags which of the two operations went before and where it
carried, and adds or takes away six in each nibble that left the decimal range.
-/

namespace GameBoy.Alu

/-- **The decimal adjustment.** After a sum, a nibble that carried or that exceeds nine is moved on
by six, and a carry in the upper nibble is recorded; the carry flag can be set here and never
cleared. After a difference, the nibbles that borrowed are moved back by six. -/
def decimalAdjust (a : UInt8) (flags : Flags) : Result :=
  let high := flags.carry || !flags.subtract && a > 0x99
  let low := flags.half || !flags.subtract && a &&& 0x0F > 0x09
  let correction : UInt8 := (if high then 0x60 else 0) + (if low then 0x06 else 0)
  let value := if flags.subtract then a - correction else a + correction
  { value
    flags := { zero := value == 0, subtract := flags.subtract, half := false, carry := high } }

/-- Every bit of the accumulator complemented. Zero and carry are the ones that came in. -/
def complement (a : UInt8) (flags : Flags) : Result :=
  { value := ~~~a, flags := { flags with subtract := true, half := true } }

/-- The flags with the carry set. Zero is the one that came in. -/
def setCarry (flags : Flags) : Flags :=
  { zero := flags.zero, subtract := false, half := false, carry := true }

/-- The flags with the carry complemented. Zero is the one that came in. -/
def complementCarry (flags : Flags) : Flags :=
  { zero := flags.zero, subtract := false, half := false, carry := !flags.carry }

end GameBoy.Alu
