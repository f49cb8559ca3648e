/-!
# Bytes and words

The processor moves bytes and addresses with words of two bytes. This file says how a word is put
together from its bytes, how it is taken apart, and how a byte is read as a signed offset.

* `GameBoy.word` – the word with given high and low bytes;
* `GameBoy.highByte`, `GameBoy.lowByte` – its two halves;
* `GameBoy.signExtend` – the word that, added to an address, moves it by a signed byte.

All arithmetic on bytes and words wraps, as it does in the registers that hold them.
-/

namespace GameBoy

/-- The word whose upper eight bits are `high` and whose lower eight bits are `low`. -/
def word (high low : UInt8) : UInt16 := high.toUInt16 <<< 8 ||| low.toUInt16

/-- The upper eight bits of a word. -/
def highByte (w : UInt16) : UInt8 := (w >>> 8).toUInt8

/-- The lower eight bits of a word. -/
def lowByte (w : UInt16) : UInt8 := w.toUInt8

@[simp] theorem highByte_word (high low : UInt8) : highByte (word high low) = high := by
  rw [← UInt8.toBitVec_inj]
  ext i hi
  have inside : 8 + i < 16 := by omega
  simp [highByte, word, inside, Nat.lt_of_lt_of_le hi]

@[simp] theorem lowByte_word (high low : UInt8) : lowByte (word high low) = low := by
  rw [← UInt8.toBitVec_inj]
  ext i hi
  simp [lowByte, word]

/-- **A word is put together again from its two halves.** -/
@[simp] theorem word_highByte_lowByte (w : UInt16) : word (highByte w) (lowByte w) = w := by
  rw [← UInt16.toNat_inj]
  have bound := w.toNat_lt
  have upper : w.toNat / 256 % 256 * 256 % 65536 = 256 * (w.toNat / 256) := by omega
  have lower : w.toNat % 256 < 256 := Nat.mod_lt _ (by decide)
  have parts : 256 * (w.toNat / 256) ||| w.toNat % 256 = w.toNat :=
    (Nat.two_pow_add_eq_or_of_lt (i := 8) lower _).symm.trans (Nat.div_add_mod ..)
  simp [word, highByte, lowByte, Nat.shiftLeft_eq, Nat.shiftRight_eq_div_pow, upper, parts]

/-- Words with the same halves are the same. -/
theorem eq_of_bytes {w w' : UInt16} (high : highByte w = highByte w')
    (low : lowByte w = lowByte w') : w = w' := by
  rw [← word_highByte_lowByte w, high, low, word_highByte_lowByte]

/-- A byte read in two's complement is negative when its top bit is set. -/
def isNegative (b : UInt8) : Bool := b &&& 0x80 != 0

/-- **The two's complement reading of a byte, as a word**: adding it to an address moves the
address by the signed value of the byte. -/
def signExtend (b : UInt8) : UInt16 := if isNegative b then 0xFF00 ||| b.toUInt16 else b.toUInt16

/-- The distance from zero of a byte read in two's complement; `-128` has distance `128`. -/
def magnitude (b : UInt8) : UInt8 := if isNegative b then -b else b

end GameBoy
