import GameBoy.Flags
import GameBoy.Word

/-!
# Word arithmetic

Two sums of words: the sum of two register pairs, whose half-carry is the one between bits 11 and
12, and the sum of the stack pointer and a signed byte, whose flags are those of the unsigned sum of
the low bytes whatever the sign.
-/

namespace GameBoy.Alu

/-- A word and the flags of the operation that gave it. -/
structure WideResult where
  value : UInt16
  flags : Flags
  deriving DecidableEq, Repr

/-- **The sum of two words.** The zero flag is the one that came in. -/
def addWords (a b : UInt16) (flags : Flags) : WideResult :=
  { value := a + b
    flags :=
      { zero := flags.zero
        subtract := false
        half := a.toNat % 0x1000 + b.toNat % 0x1000 > 0x0FFF
        carry := a.toNat + b.toNat > 0xFFFF } }

/-- **The sum of a word and a signed byte.** Half-carry and carry are those of the unsigned sum of
the word's low byte and the offset. -/
def addOffset (w : UInt16) (offset : UInt8) : WideResult :=
  { value := w + signExtend offset
    flags :=
      { zero := false
        subtract := false
        half := w.toNat % 0x10 + offset.toNat % 0x10 > 0x0F
        carry := w.toNat % 0x100 + offset.toNat > 0xFF } }

end GameBoy.Alu
