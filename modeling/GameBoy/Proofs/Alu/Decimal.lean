import GameBoy.Alu.Adjust
import GameBoy.Proofs.Alu.Numerals

/-!
# Decimal arithmetic

A byte is a packed decimal one if both of its nibbles are digits of base ten
(`GameBoy.Alu.IsDecimal`). The processor adds and subtracts such bytes in two instructions, the
binary operation and the adjustment after it (`GameBoy.Alu.decimalOp`), and this file says that the
two together are decimal addition and subtraction: of bytes (`GameBoy.Alu.step_decimalAdd`,
`GameBoy.Alu.step_decimalSubtract`), and so of numbers of any length
(`GameBoy.Alu.along_decimalOp`).

The adjustment is not shown the bytes, only what the binary operation has made of them. For the sum
of two packed decimal bytes this depends on the sum of their upper nibbles and that of their lower
ones alone, which are below 19 and 20, so that the cases can be gone through
(`GameBoy.Alu.decimalAdjust_sum`). For a difference it depends on the two differences in the same
way; sixteen is lent to each of them, lest they fall below zero.
-/

namespace GameBoy.Alu

/-- **A packed decimal byte**: each of its nibbles is a digit of base ten. -/
def IsDecimal (b : UInt8) : Prop := b.toNat / 16 ≤ 9 ∧ b.toNat % 16 ≤ 9

instance (b : UInt8) : Decidable (IsDecimal b) := inferInstanceAs (Decidable (_ ∧ _))

/-- **Packed decimal bytes as the digits of base one hundred.** -/
def decimal : Numerals where
  base := 100
  digit b := 10 * (b.toNat / 16) + b.toNat % 16
  Valid := IsDecimal
  one_lt_base := by decide
  digit_lt h := by
    obtain ⟨high, low⟩ := h
    omega

/-- **An operation on the accumulator followed by the decimal adjustment.** -/
def decimalOp (op : AccumulatorOp) (a b : UInt8) (flags : Flags) : Result :=
  let binary := op.apply a b flags
  decimalAdjust binary.value binary.flags

/-! ### The adjustment -/

/-- **The adjustment after a sum**, of which only the sums of the nibbles matter. -/
theorem decimalAdjust_sum : ∀ high < 19, ∀ low < 20, ∀ zero,
    let result := decimalAdjust (UInt8.ofNat (16 * high + low))
      { zero, subtract := false, half := low > 0x0F, carry := 16 * high + low > 0xFF }
    IsDecimal result.value ∧
      decimal.digit result.value + 100 * result.flags.carry.toNat = 10 * high + low := by
  decide +kernel

/-- **The adjustment after a difference**, of which only the differences of the nibbles matter. Each
of them is given with sixteen added to it. -/
theorem decimalAdjust_difference : ∀ high < 26, 7 ≤ high → ∀ low < 26, 6 ≤ low → ∀ zero,
    let result := decimalAdjust (UInt8.ofNat (16 * high + low + 240))
      { zero, subtract := true, half := low < 16, carry := 16 * high + low < 272 }
    IsDecimal result.value ∧
      decimal.digit result.value + 176 = 10 * high + low + 100 * result.flags.carry.toNat := by
  decide +kernel

/-! ### The binary operations -/

/-- The sum of two bytes, by the sums of their nibbles. -/
theorem add_eq_nibbles (a b : UInt8) (c : Bool) :
    let high := a.toNat / 16 + b.toNat / 16
    let low := lowNibble a + lowNibble b + c.toNat
    ∃ zero, add a b c =
      { value := UInt8.ofNat (16 * high + low)
        flags :=
          { zero, subtract := false, half := low > 0x0F, carry := 16 * high + low > 0xFF } } := by
  intro high low
  have total : a.toNat + b.toNat + c.toNat = 16 * high + low := by
    simp only [high, low, lowNibble]
    omega
  have value : a + b + c.toUInt8 = UInt8.ofNat (16 * high + low) := by
    rw [← UInt8.toNat_inj, UInt8.toNat_add, UInt8.toNat_add, toNat_toUInt8, UInt8.toNat_ofNat',
      ← total]
    omega
  exact ⟨a + b + c.toUInt8 == 0, by simp only [add, value, total, low]⟩

/-- The difference of two bytes, by the differences of their nibbles. -/
theorem subtract_eq_nibbles (a b : UInt8) (c : Bool) :
    let high := 16 + a.toNat / 16 - b.toNat / 16
    let low := 16 + lowNibble a - (lowNibble b + c.toNat)
    ∃ zero, subtract a b c =
      { value := UInt8.ofNat (16 * high + low + 240)
        flags := { zero, subtract := true, half := low < 16, carry := 16 * high + low < 272 } } := by
  intro high low
  have := a.toNat_lt
  have := b.toNat_lt
  have := c.toNat_le
  have total : 16 * high + low + b.toNat + c.toNat = 272 + a.toNat := by
    simp only [high, low, lowNibble]
    omega
  have value : a - b - c.toUInt8 = UInt8.ofNat (16 * high + low + 240) := by
    rw [← UInt8.toNat_inj, UInt8.toNat_sub, UInt8.toNat_sub, toNat_toUInt8, UInt8.toNat_ofNat']
    omega
  have half : lowNibble a < lowNibble b + c.toNat ↔ low < 16 := by omega
  have carry : a.toNat < b.toNat + c.toNat ↔ 16 * high + low < 272 := by omega
  exact ⟨a - b - c.toUInt8 == 0, by simp only [subtract, value, half, carry]⟩

/-! ### Bytes -/

/-- **Decimal addition of bytes.** -/
theorem step_decimalAdd : decimal.Step 1 (decimalOp .adc) := by
  refine .of_sum fun a b flags ⟨ha, ha'⟩ ⟨hb, hb'⟩ => ?_
  have hc := flags.carry.toNat_le
  obtain ⟨zero, binary⟩ := add_eq_nibbles a b flags.carry
  have low : lowNibble a + lowNibble b + flags.carry.toNat < 20 := by
    simp only [lowNibble]
    omega
  obtain ⟨valid, digits⟩ := decimalAdjust_sum (a.toNat / 16 + b.toNat / 16) (by omega) _ low zero
  simp only [decimalOp, AccumulatorOp.apply, binary]
  refine ⟨valid, digits.trans ?_⟩
  simp only [decimal, lowNibble]
  omega

/-- **Decimal subtraction of bytes.** -/
theorem step_decimalSubtract : decimal.Step (-1) (decimalOp .sbc) := by
  refine .of_difference fun a b flags ⟨ha, ha'⟩ ⟨hb, hb'⟩ => ?_
  have hc := flags.carry.toNat_le
  obtain ⟨zero, binary⟩ := subtract_eq_nibbles a b flags.carry
  have low : 16 + lowNibble a - (lowNibble b + flags.carry.toNat) < 26 ∧
      6 ≤ 16 + lowNibble a - (lowNibble b + flags.carry.toNat) := by
    simp only [lowNibble]
    omega
  obtain ⟨valid, digits⟩ := decimalAdjust_difference (16 + a.toNat / 16 - b.toNat / 16)
    (by omega) (by omega) _ low.1 low.2 zero
  simp only [decimalOp, AccumulatorOp.apply, binary]
  refine ⟨valid, ?_⟩
  simp only [decimal, lowNibble] at digits ⊢
  omega

/-! ### Numbers -/

/-- **Decimal arithmetic on numbers of any length.** Two numbers of equally many packed decimal
bytes are added, or subtracted, byte by byte from the least significant one up, each binary
operation being followed by the adjustment. The bytes that come out are packed decimal ones, and
they are the sum, or the difference, of the numbers and the carry before the first byte, modulo the
power of one hundred that goes with the length. The carry flag in the end says whether the sum
reaches that power, or whether the difference is below zero. -/
theorem along_decimalOp {as bs : List UInt8} (flags : Flags) (same : as.length = bs.length)
    (ha : ∀ a ∈ as, IsDecimal a) (hb : ∀ b ∈ bs, IsDecimal b) :
    let c := flags.carry.toNat
    let sum := along (decimalOp .adc) as bs flags
    let difference := along (decimalOp .sbc) as bs flags
    ((sum.1.length = as.length ∧ ∀ r ∈ sum.1, IsDecimal r) ∧
      decimal.value sum.1 = (decimal.value as + decimal.value bs + c) % 100 ^ as.length ∧
      (sum.2.carry = true ↔ 100 ^ as.length ≤ decimal.value as + decimal.value bs + c)) ∧
    (difference.1.length = as.length ∧ ∀ r ∈ difference.1, IsDecimal r) ∧
      (decimal.value difference.1 : ℤ) =
        (decimal.value as - decimal.value bs - c) % 100 ^ as.length ∧
      (difference.2.carry = true ↔ decimal.value as < decimal.value bs + c) := by
  intro c sum difference
  obtain ⟨sum_length, sum_valid, -⟩ := step_decimalAdd.along flags same ha hb
  obtain ⟨length, valid, -⟩ := step_decimalSubtract.along flags same ha hb
  exact ⟨⟨⟨sum_length, sum_valid⟩, step_decimalAdd.sum flags same ha hb⟩, ⟨length, valid⟩,
    step_decimalSubtract.difference flags same ha hb⟩

/-- The numbers 9958 and 41 with a carry, whose sum goes through both bytes and out, and 9958 less
itself and the carry, which is below zero. The other flags before the first byte do not matter. -/
theorem along_decimalOp_wrapping :
    let flags : Flags := ⟨true, true, true, true⟩
    decimal.value [0x58, 0x99] = 9958 ∧ decimal.value [0x41, 0x00] = 41 ∧
    (along (decimalOp .adc) [0x58, 0x99] [0x41, 0x00] flags).1 = [0x00, 0x00] ∧
    (along (decimalOp .adc) [0x58, 0x99] [0x41, 0x00] flags).2.carry = true ∧
    (along (decimalOp .sbc) [0x58, 0x99] [0x58, 0x99] flags).1 = [0x99, 0x99] ∧
    (along (decimalOp .sbc) [0x58, 0x99] [0x58, 0x99] flags).2.carry = true := by
  intro flags
  have valid : ∀ a ∈ ([0x58, 0x99] : List UInt8), IsDecimal a := by simp [IsDecimal]
  have valid' : ∀ b ∈ ([0x41, 0x00] : List UInt8), IsDecimal b := by simp [IsDecimal]
  have same : ([0x58, 0x99] : List UInt8).length = ([0x41, 0x00] : List UInt8).length := rfl
  obtain ⟨⟨-, -, reached⟩, -⟩ := along_decimalOp flags same valid valid'
  obtain ⟨-, -, -, below⟩ := along_decimalOp flags rfl valid valid
  refine ⟨by decide, by decide, by decide, reached.mpr ?_, by decide, below.mpr ?_⟩
  · decide
  · decide

end GameBoy.Alu
