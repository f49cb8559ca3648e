/-!
# The flags

The processor remembers four facts about its last computation: whether the result was zero, whether
it was a subtraction, and whether there was a carry out of the lower nibble and out of the top bit.
They live in the upper nibble of the register F; the lower nibble does not exist and reads as zero.

`GameBoy.Flags.ofByte` reads the four from any byte, and `GameBoy.Flags.toByte` writes them to a
byte whose lower nibble is clear.
-/

namespace GameBoy

/-- **The four flags.** -/
structure Flags where
  /-- The result was zero. -/
  zero : Bool
  /-- The last operation was a subtraction. -/
  subtract : Bool
  /-- There was a carry or borrow between the nibbles; between bits 11 and 12 for a sum of words. -/
  half : Bool
  /-- There was a carry or borrow out of the top bit, or a set bit was shifted out. -/
  carry : Bool
  deriving DecidableEq, Repr

namespace Flags

/-- The bit of F that holds the zero flag. -/
def zeroMask : UInt8 := 0x80

/-- The bit of F that holds the subtract flag. -/
def subtractMask : UInt8 := 0x40

/-- The bit of F that holds the half-carry flag. -/
def halfMask : UInt8 := 0x20

/-- The bit of F that holds the carry flag. -/
def carryMask : UInt8 := 0x10

/-- The bits of F that exist. -/
def mask : UInt8 := 0xF0

/-- The flags a byte holds. Its lower nibble is not looked at. -/
def ofByte (b : UInt8) : Flags where
  zero := b &&& zeroMask != 0
  subtract := b &&& subtractMask != 0
  half := b &&& halfMask != 0
  carry := b &&& carryMask != 0

/-- **The flags as a byte**, with the lower nibble clear. -/
def toByte (f : Flags) : UInt8 :=
  (if f.zero then zeroMask else 0) ||| (if f.subtract then subtractMask else 0) |||
    (if f.half then halfMask else 0) ||| (if f.carry then carryMask else 0)

/-- The flags as four characters: a letter for a flag that is set, a dash for one that is not. -/
def text (f : Flags) : String :=
  String.ofList [if f.zero then 'z' else '-', if f.subtract then 'n' else '-',
    if f.half then 'h' else '-', if f.carry then 'c' else '-']

@[simp] theorem ofByte_toByte (f : Flags) : ofByte f.toByte = f := by
  cases f with
  | mk z n h c => revert z n h c; decide

end Flags

end GameBoy
