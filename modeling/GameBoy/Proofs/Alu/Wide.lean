import GameBoy.Alu.Wide
import GameBoy.Proofs.Alu.Binary

/-!
# Words as numbers of two bytes

The sums of words are computed at once, each carry being found at a bit of its own. A word is also a
number of two bytes (`GameBoy.Alu.value_bytes`), and so the sum of two words is the sum of the low
bytes followed by the sum of the high bytes and the carry, with the flags of the latter
(`GameBoy.Alu.addWords_eq_bytes`): the carry out of twelve bits is the half-carry of the high bytes,
as it is for numbers of any length.

The sum of a word and a signed byte has the flags of the low bytes instead, whatever the sign
(`GameBoy.Alu.addOffset_eq_bytes`). The sign matters to its value alone, for which the byte is
extended to a word.
-/

namespace GameBoy

theorem toNat_lowByte (w : UInt16) : (lowByte w).toNat = w.toNat % 256 := UInt16.toNat_toUInt8 w

theorem toNat_highByte (w : UInt16) : (highByte w).toNat = w.toNat / 256 := by
  have shifted : (w >>> 8).toNat = w.toNat / 256 := Nat.shiftRight_eq_div_pow w.toNat 8
  have room := w.toNat_lt
  rw [highByte, UInt16.toNat_toUInt8, shifted]
  omega

/-- **A byte is extended to a word** as a signed number is. -/
theorem signExtend_toUInt8 (e : Int8) : signExtend e.toUInt8 = e.toInt16.toUInt16 := by
  have bytes : ∀ n < 256, signExtend (UInt8.ofNat n) = (UInt8.ofNat n).toInt8.toInt16.toUInt16 := by
    decide +kernel
  have signed := bytes e.toUInt8.toNat e.toUInt8.toNat_lt
  rwa [UInt8.ofNat_toNat] at signed

namespace Alu

/-- **A word is a number of two bytes.** -/
theorem value_bytes (w : UInt16) : binary.value [lowByte w, highByte w] = w.toNat := by
  simp only [Numerals.value_cons, Numerals.value_nil, binary, toNat_lowByte, toNat_highByte]
  omega

/-- **The sum of two words is the sum of their bytes**, the low ones first. Half-carry and carry are
those of the high bytes. -/
theorem addWords_eq_bytes (a b : UInt16) (flags : Flags) :
    let low := AccumulatorOp.add.apply (lowByte a) (lowByte b) flags
    let high := AccumulatorOp.adc.apply (highByte a) (highByte b) low.flags
    addWords a b flags =
      ⟨word high.value low.value, ⟨flags.zero, false, high.flags.half, high.flags.carry⟩⟩ := by
  intro low high
  -- the first sum takes no carry in, as if the flag had been clear
  let cleared : Flags := { flags with carry := false }
  have bytes : along (AccumulatorOp.apply .adc) [lowByte a, highByte a] [lowByte b, highByte b]
      cleared = ([low.value, high.value], high.flags) := rfl
  have valid (bytes : List UInt8) : ∀ c ∈ bytes, binary.Valid c := fun _ _ => trivial
  have same : [lowByte a, highByte a].length = [lowByte b, highByte b].length := rfl
  have same' : [lowByte a].length = [lowByte b].length := rfl
  obtain ⟨sum, carry⟩ := step_add.sum cleared same (valid _) (valid _)
  have half := half_along_add (highByte a) (highByte b) cleared same'
  have room : binary.base ^ [lowByte a, highByte a].length = 65536 := by norm_num [binary]
  have twelveBits : 2 ^ (8 * ([lowByte a].length + 1) - 4) = 4096 := by norm_num
  have nothing : cleared.carry.toNat = 0 := rfl
  simp only [List.singleton_append, bytes, value_bytes, room, twelveBits, nothing, Nat.add_zero]
    at sum carry half
  have value : a + b = word high.value low.value := by
    rw [← UInt16.toNat_inj, ← value_bytes (word _ _), lowByte_word, highByte_word, sum]
    exact UInt16.toNat_add a b
  have half' : decide (a.toNat % 0x1000 + b.toNat % 0x1000 > 0x0FFF) = high.flags.half := by
    rw [← Bool.coe_iff_coe, decide_eq_true_iff, half, gt_iff_lt, Nat.succ_le_iff]
  have carry' : decide (a.toNat + b.toNat > 0xFFFF) = high.flags.carry := by
    rw [← Bool.coe_iff_coe, decide_eq_true_iff, carry, gt_iff_lt, Nat.succ_le_iff]
  rw [addWords, value, half', carry']

/-- **The sum of a word and a signed byte** is that of the word and the byte extended to a word, with
the flags of the sum of the low byte and the byte as it is. -/
theorem addOffset_eq_bytes (w : UInt16) (e : Int8) (flags : Flags) :
    let low := AccumulatorOp.add.apply (lowByte w) e.toUInt8 flags
    addOffset w e.toUInt8 =
      ⟨(addWords w e.toInt16.toUInt16 flags).value,
        ⟨false, false, low.flags.half, low.flags.carry⟩⟩ := by
  intro low
  have nibble : lowNibble (lowByte w) = w.toNat % 0x10 := by
    rw [lowNibble, toNat_lowByte]
    omega
  have half : low.flags.half = decide (w.toNat % 0x10 + e.toUInt8.toNat % 0x10 > 0x0F) := by
    rw [← nibble]
    rfl
  have carry : low.flags.carry = decide (w.toNat % 0x100 + e.toUInt8.toNat > 0xFF) := by
    rw [← toNat_lowByte]
    rfl
  rw [addOffset, addWords, signExtend_toUInt8, half, carry]

end Alu

end GameBoy
