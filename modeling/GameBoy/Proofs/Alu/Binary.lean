import GameBoy.Proofs.Alu.Numerals

/-!
# Binary arithmetic

Bytes are the digits of base 256 (`GameBoy.Alu.binary`), and in this base the operations that carry
on from an earlier one add and subtract as they are (`GameBoy.Alu.step_add`,
`GameBoy.Alu.step_subtract`). So they add, subtract and compare numbers of any length, as
`GameBoy.Alu.along_binary` says.

The half-carry that is left in the end is that of the last byte, the most significant one. It is the
carry out of all bits but the four topmost ones, since the bytes below have sent theirs up to the
last one (`GameBoy.Alu.along_concat`).

Flags are defined by sums of natural numbers, which have no bounds. A machine works them out in
registers, which have: `GameBoy.Alu.add?` and `GameBoy.Alu.subtract?` do so, and fail where a sum
does not fit. They never fail, and so nothing is lost on the way (`GameBoy.Alu.add?_eq_some`,
`GameBoy.Alu.subtract?_eq_some`).
-/

namespace GameBoy.Alu

/-- **Bytes as the digits of base 256.** Every byte is one. -/
def binary : Numerals where
  base := 256
  digit b := b.toNat
  Valid _ := True
  one_lt_base := by decide
  digit_lt _ := UInt8.toNat_lt _

/-! ### Bytes -/

/-- **The sum of bytes is exact**, the carry flag being a ninth bit. -/
theorem toNat_add (a b : UInt8) (c : Bool) :
    (add a b c).value.toNat + 256 * (add a b c).flags.carry.toNat =
      a.toNat + b.toNat + c.toNat := by
  have ha := a.toNat_lt
  have hb := b.toNat_lt
  have hc := c.toNat_le
  have value : (a + b + c.toUInt8).toNat = (a.toNat + b.toNat + c.toNat) % 256 := by
    rw [UInt8.toNat_add, UInt8.toNat_add, toNat_toUInt8, Nat.mod_add_mod]
  by_cases exceeds : 255 < a.toNat + b.toNat + c.toNat
  · simp only [add, value, exceeds, decide_true, Bool.toNat_true]
    omega
  · simp only [add, value, exceeds, decide_false, Bool.toNat_false]
    omega

/-- **The difference of bytes is exact**, the carry flag being what was lent to it. -/
theorem toNat_subtract (a b : UInt8) (c : Bool) :
    (subtract a b c).value.toNat + b.toNat + c.toNat =
      a.toNat + 256 * (subtract a b c).flags.carry.toNat := by
  have ha := a.toNat_lt
  have hb := b.toNat_lt
  have hc := c.toNat_le
  have value : (a - b - c.toUInt8).toNat = (512 + a.toNat - b.toNat - c.toNat) % 256 := by
    rw [UInt8.toNat_sub, UInt8.toNat_sub, toNat_toUInt8]
    omega
  by_cases short : a.toNat < b.toNat + c.toNat
  · simp only [subtract, value, short, decide_true, Bool.toNat_true]
    omega
  · simp only [subtract, value, short, decide_false, Bool.toNat_false]
    omega

/-- **Addition of bytes**, with the carry of the flags. -/
theorem step_add : binary.Step 1 (AccumulatorOp.apply .adc) :=
  .of_sum fun a b flags _ _ => ⟨trivial, toNat_add a b flags.carry⟩

/-- **Subtraction of bytes**, with the carry of the flags. -/
theorem step_subtract : binary.Step (-1) (AccumulatorOp.apply .sbc) :=
  .of_difference fun a b flags _ _ => ⟨trivial, toNat_subtract a b flags.carry⟩

/-! ### The last byte -/

/-- **The last pair of bytes** is combined under the flags that all others have left. -/
theorem along_concat (step : UInt8 → UInt8 → Flags → Result) {as bs : List UInt8} (a b : UInt8)
    (flags : Flags) (same : as.length = bs.length) :
    along step (as ++ [a]) (bs ++ [b]) flags =
      let rest := along step as bs flags
      let result := step a b rest.2
      (rest.1 ++ [result.value], result.flags) := by
  induction as generalizing bs flags with
  | nil =>
    obtain rfl := List.length_eq_zero_iff.mp same.symm
    rfl
  | cons a' as ih =>
    obtain ⟨b', bs, rfl⟩ := List.exists_cons_of_length_eq_add_one same.symm
    simp only [List.cons_append, along, ih _ (Nat.succ.inj same)]

/-- Numbers of equally many bytes have as many bytes before the last one. -/
theorem exists_concat {as bs : List UInt8} (same : as.length = bs.length) (nonempty : as ≠ []) :
    ∃ as' a bs' b, as = as' ++ [a] ∧ bs = bs' ++ [b] ∧ as'.length = bs'.length := by
  have nonempty' : bs ≠ [] := by
    rintro rfl
    exact nonempty (List.length_eq_zero_iff.mp same)
  refine ⟨as.dropLast, as.getLast nonempty, bs.dropLast, bs.getLast nonempty', ?_, ?_, ?_⟩
  · exact (List.dropLast_concat_getLast nonempty).symm
  · exact (List.dropLast_concat_getLast nonempty').symm
  · rw [List.length_dropLast, List.length_dropLast, same]

/-- All bits but the four topmost ones are sixteen units of the last byte. -/
theorem two_pow_nibbles (length : Nat) :
    2 ^ (8 * (length + 1) - 4) = 256 ^ length * 16 := by
  have exponent : 8 * (length + 1) - 4 = 8 * length + 4 := by omega
  rw [exponent, pow_add, pow_mul]
  rfl

/-- **What is left of a number without the four topmost bits** is the lower nibble of its last byte,
and all bytes before it. -/
theorem value_concat_mod (as : List UInt8) (a : UInt8) :
    binary.value (as ++ [a]) % 2 ^ (8 * (as.length + 1) - 4) =
      binary.value as + 256 ^ as.length * lowNibble a := by
  have valid : ∀ b ∈ as, binary.Valid b := fun _ _ => trivial
  have small : binary.value as < 256 ^ as.length := binary.value_lt valid
  have whole : binary.value (as ++ [a]) = binary.value as + 256 ^ as.length * a.toNat := by
    simp [Numerals.value, Nat.ofDigits_append, binary]
  rw [whole, two_pow_nibbles, Nat.mod_mul, Nat.add_mul_mod_self_left, Nat.mod_eq_of_lt small,
    Nat.add_mul_div_left _ _ (by positivity), Nat.div_eq_of_lt small, Nat.zero_add]
  rfl

/-! ### Registers with room for one byte or for one word -/

/-- A sum of bytes, if it fits a byte. -/
def byteSum? (a b : UInt8) : Option UInt8 :=
  if a.toNat + b.toNat < UInt8.size then some (a + b) else none

/-- A sum of words, if it fits a word. -/
def wordSum? (a b : UInt16) : Option UInt16 :=
  if a.toNat + b.toNat < UInt16.size then some (a + b) else none

/-- **The sum of two bytes and a carry, worked out in registers**: that of the lower nibbles in a
byte, and the whole sum in a word, whose lower byte is the result. -/
def add? (a b : UInt8) (carry : Bool) : Option Result := do
  let total ← wordSum? (← wordSum? a.toUInt16 b.toUInt16) carry.toUInt16
  let low ← byteSum? (← byteSum? (a &&& 0x0F) (b &&& 0x0F)) carry.toUInt8
  let value := total.toUInt8
  some
    { value
      flags :=
        { zero := value == 0, subtract := false, half := low > 0x0F, carry := total > 0xFF } }

/-- **The difference of two bytes, less a borrow, worked out in registers**: what is taken away from
the lower nibble in a byte, and what is taken away in all in a word. The result itself may wrap. -/
def subtract? (a b : UInt8) (borrow : Bool) : Option Result := do
  let low ← byteSum? (b &&& 0x0F) borrow.toUInt8
  let total ← wordSum? b.toUInt16 borrow.toUInt16
  let value := a - b - borrow.toUInt8
  some
    { value
      flags :=
        { zero := value == 0, subtract := true, half := a &&& 0x0F < low,
          carry := a.toUInt16 < total } }

/-- An operation that may fail, carried along two numbers. -/
def along? (step : UInt8 → UInt8 → Flags → Option Result) :
    List UInt8 → List UInt8 → Flags → Option (List UInt8 × Flags)
  | a :: as, b :: bs, flags => do
    let result ← step a b flags
    let rest ← along? step as bs result.flags
    some (result.value :: rest.1, rest.2)
  | _, _, flags => some ([], flags)

/-- A sum of bytes that fits is exact. -/
theorem exists_byteSum? {a b : UInt8} (h : a.toNat + b.toNat < 256) :
    ∃ s, byteSum? a b = some s ∧ s.toNat = a.toNat + b.toNat :=
  ⟨a + b, if_pos h, by rw [UInt8.toNat_add, Nat.mod_eq_of_lt h]⟩

/-- A sum of words that fits is exact. -/
theorem exists_wordSum? {a b : UInt16} (h : a.toNat + b.toNat < 65536) :
    ∃ s, wordSum? a b = some s ∧ s.toNat = a.toNat + b.toNat :=
  ⟨a + b, if_pos h, by rw [UInt16.toNat_add, Nat.mod_eq_of_lt h]⟩

theorem toNat_and_lowNibble (b : UInt8) : (b &&& 0x0F).toNat = lowNibble b :=
  (UInt8.toNat_and b 0x0F).trans (Nat.and_two_pow_sub_one_eq_mod b.toNat 4)

/-- A carry as a word. -/
theorem toNat_toUInt16 (c : Bool) : c.toUInt16.toNat = c.toNat := by cases c <;> rfl

theorem lowNibble_lt (b : UInt8) : lowNibble b < 16 := Nat.mod_lt _ (by decide)

/-- **No register overflows in a sum**, and it comes out as it should. -/
theorem add?_eq_some (a b : UInt8) (c : Bool) : add? a b c = some (add a b c) := by
  have ha := a.toNat_lt
  have hb := b.toNat_lt
  have hc := c.toNat_le
  have ha' := lowNibble_lt a
  have hb' := lowNibble_lt b
  obtain ⟨total, htotal, total_eq⟩ :=
    exists_wordSum? (a := a.toUInt16) (b := b.toUInt16) (by simp only [UInt8.toNat_toUInt16]; omega)
  rw [UInt8.toNat_toUInt16, UInt8.toNat_toUInt16] at total_eq
  obtain ⟨total', htotal', total_eq'⟩ :=
    exists_wordSum? (a := total) (b := c.toUInt16) (by rw [total_eq, toNat_toUInt16]; omega)
  rw [total_eq, toNat_toUInt16] at total_eq'
  obtain ⟨low, hlow, low_eq⟩ :=
    exists_byteSum? (a := a &&& 0x0F) (b := b &&& 0x0F)
      (by simp only [toNat_and_lowNibble]; omega)
  rw [toNat_and_lowNibble, toNat_and_lowNibble] at low_eq
  obtain ⟨low', hlow', low_eq'⟩ :=
    exists_byteSum? (a := low) (b := c.toUInt8) (by rw [low_eq, toNat_toUInt8]; omega)
  rw [low_eq, toNat_toUInt8] at low_eq'
  have value : total'.toUInt8 = a + b + c.toUInt8 := by
    rw [← UInt8.toNat_inj, UInt16.toNat_toUInt8, total_eq', UInt8.toNat_add, UInt8.toNat_add,
      toNat_toUInt8, Nat.mod_add_mod]
  simp only [add?, htotal, htotal', hlow, hlow', Option.bind_eq_bind, Option.bind_some, value, add,
    gt_iff_lt, UInt8.lt_iff_toNat_lt, UInt16.lt_iff_toNat_lt, low_eq', total_eq']
  rfl

/-- **No register overflows in a difference**, and it comes out as it should. -/
theorem subtract?_eq_some (a b : UInt8) (c : Bool) :
    subtract? a b c = some (subtract a b c) := by
  have hb := b.toNat_lt
  have hc := c.toNat_le
  have hb' := lowNibble_lt b
  obtain ⟨low, hlow, low_eq⟩ :=
    exists_byteSum? (a := b &&& 0x0F) (b := c.toUInt8)
      (by rw [toNat_and_lowNibble, toNat_toUInt8]; omega)
  rw [toNat_and_lowNibble, toNat_toUInt8] at low_eq
  obtain ⟨total, htotal, total_eq⟩ :=
    exists_wordSum? (a := b.toUInt16) (b := c.toUInt16)
      (by rw [UInt8.toNat_toUInt16, toNat_toUInt16]; omega)
  rw [UInt8.toNat_toUInt16, toNat_toUInt16] at total_eq
  simp only [subtract?, htotal, hlow, Option.bind_eq_bind, Option.bind_some, subtract,
    UInt8.lt_iff_toNat_lt, UInt16.lt_iff_toNat_lt, toNat_and_lowNibble, UInt8.toNat_toUInt16,
    low_eq, total_eq]

/-- **An operation that never fails** does not fail along numbers either. -/
theorem along?_eq_some {step? : UInt8 → UInt8 → Flags → Option Result}
    {step : UInt8 → UInt8 → Flags → Result}
    (h : ∀ a b flags, step? a b flags = some (step a b flags)) (as bs : List UInt8)
    (flags : Flags) : along? step? as bs flags = some (along step as bs flags) := by
  induction as generalizing bs flags with
  | nil => rfl
  | cons a as ih =>
    cases bs with
    | nil => rfl
    | cons b bs => simp only [along?, along, h, ih, Option.bind_eq_bind, Option.bind_some]

/-! ### Numbers -/

/-- Below the digit that a number ends with there is less than one unit of it. -/
theorem add_mul_lt_iff {unit rest digit bound : Nat} (h : rest < unit) :
    rest + unit * digit < unit * bound ↔ digit < bound := by
  have quotient : (rest + unit * digit) / unit = digit := by
    rw [Nat.add_mul_div_left _ _ (Nat.zero_lt_of_lt h), Nat.div_eq_of_lt h, Nat.zero_add]
  rw [← quotient, Nat.div_lt_iff_lt_mul (Nat.zero_lt_of_lt h), Nat.mul_comm bound, quotient]

section Half

variable {as bs : List UInt8} (a b : UInt8) (flags : Flags) (same : as.length = bs.length)

include same

/-- **The half-carry of a sum** is the carry out of all bits but the four topmost ones. -/
theorem half_along_add :
    let low := 2 ^ (8 * (as.length + 1) - 4)
    (along (AccumulatorOp.apply .adc) (as ++ [a]) (bs ++ [b]) flags).2.half = true ↔
      low ≤ binary.value (as ++ [a]) % low + binary.value (bs ++ [b]) % low +
        flags.carry.toNat := by
  have room := step_add.value_along_lt flags same (fun _ _ => trivial) fun _ _ => trivial
  have total := step_add.exact_sum flags same (fun _ _ => trivial) fun _ _ => trivial
  rw [along_concat _ _ _ _ same]
  dsimp only
  rw [value_concat_mod, same, value_concat_mod, ← same, two_pow_nibbles]
  generalize along (AccumulatorOp.apply .adc) as bs flags = rest at room total ⊢
  change binary.value rest.1 < 256 ^ as.length at room
  change binary.value rest.1 + 256 ^ as.length * rest.2.carry.toNat = _ at total
  have digits : binary.value as + 256 ^ as.length * lowNibble a +
      (binary.value bs + 256 ^ as.length * lowNibble b) + flags.carry.toNat =
        binary.value rest.1 +
          256 ^ as.length * (lowNibble a + lowNibble b + rest.2.carry.toNat) := by
    linarith only [total]
  simp only [AccumulatorOp.apply, add, decide_eq_true_eq]
  rw [digits, ← Nat.not_lt, add_mul_lt_iff room, Nat.not_lt]
  rfl

/-- **The half-carry of a difference** is what is lent to all bits but the four topmost ones. -/
theorem half_along_subtract :
    let low := 2 ^ (8 * (as.length + 1) - 4)
    (along (AccumulatorOp.apply .sbc) (as ++ [a]) (bs ++ [b]) flags).2.half = true ↔
      binary.value (as ++ [a]) % low <
        binary.value (bs ++ [b]) % low + flags.carry.toNat := by
  have room := step_subtract.value_along_lt flags same (fun _ _ => trivial) fun _ _ => trivial
  have total := step_subtract.exact_difference flags same (fun _ _ => trivial) fun _ _ => trivial
  rw [along_concat _ _ _ _ same]
  dsimp only
  rw [value_concat_mod, same, value_concat_mod, ← same]
  generalize along (AccumulatorOp.apply .sbc) as bs flags = rest at room total ⊢
  change binary.value rest.1 < 256 ^ as.length at room
  change _ = binary.value as + 256 ^ as.length * rest.2.carry.toNat at total
  have digits : binary.value as + 256 ^ as.length * lowNibble a <
      binary.value bs + 256 ^ as.length * lowNibble b + flags.carry.toNat ↔
        binary.value rest.1 + 256 ^ as.length * lowNibble a <
          256 ^ as.length * (lowNibble b + rest.2.carry.toNat) := by
    rw [Nat.mul_add]
    omega
  simp only [AccumulatorOp.apply, subtract, decide_eq_true_eq]
  rw [digits, add_mul_lt_iff room]

end Half

/-- **Binary arithmetic on numbers of any length.** Two numbers of equally many bytes, at least one,
are added, or subtracted, byte by byte from the least significant one up. The bytes that come out
are those of the sum, or the difference, of the numbers and the carry before the first byte, modulo
the power of 256 that goes with the length. The carry flag in the end says whether the sum reaches
that power, or whether the difference is below zero, and the half-carry flag says the same of the
numbers without their four topmost bits. All this can be worked out in registers that have room for
one byte or for one word, without any of them overflowing. -/
theorem along_binary {as bs : List UInt8} (flags : Flags) (same : as.length = bs.length)
    (nonempty : as ≠ []) :
    let a := binary.value as
    let b := binary.value bs
    let c := flags.carry.toNat
    let low := 2 ^ (8 * as.length - 4)
    let sum := along (AccumulatorOp.apply .adc) as bs flags
    let difference := along (AccumulatorOp.apply .sbc) as bs flags
    (sum.1.length = as.length ∧ binary.value sum.1 = (a + b + c) % 256 ^ as.length ∧
      (sum.2.carry = true ↔ 256 ^ as.length ≤ a + b + c) ∧
      (sum.2.half = true ↔ low ≤ a % low + b % low + c)) ∧
    (difference.1.length = as.length ∧
      (binary.value difference.1 : ℤ) = (a - b - c) % 256 ^ as.length ∧
      (difference.2.carry = true ↔ a < b + c) ∧
      (difference.2.half = true ↔ a % low < b % low + c)) ∧
    along? (fun a b flags => add? a b flags.carry) as bs flags = some sum ∧
    along? (fun a b flags => subtract? a b flags.carry) as bs flags = some difference := by
  intro a b c low sum difference
  have all (bytes : List UInt8) : ∀ b ∈ bytes, binary.Valid b := fun _ _ => trivial
  obtain ⟨sum_value, sum_carry⟩ := step_add.sum flags same (all as) (all bs)
  obtain ⟨value, carry⟩ := step_subtract.difference flags same (all as) (all bs)
  have halves : (sum.2.half = true ↔ low ≤ a % low + b % low + c) ∧
      (difference.2.half = true ↔ a % low < b % low + c) := by
    obtain ⟨as', a', bs', b', rfl, rfl, same'⟩ := exists_concat same nonempty
    have length : (as' ++ [a']).length = as'.length + 1 := List.length_append
    simp only [a, b, c, low, sum, difference, length]
    exact ⟨half_along_add a' b' flags same', half_along_subtract a' b' flags same'⟩
  refine ⟨⟨?_, sum_value, sum_carry, halves.1⟩, ⟨?_, value, carry, halves.2⟩, ?_, ?_⟩
  · exact (step_add.along flags same (all as) (all bs)).1
  · exact (step_subtract.along flags same (all as) (all bs)).1
  · exact along?_eq_some (fun a b flags => add?_eq_some a b flags.carry) as bs flags
  · exact along?_eq_some (fun a b flags => subtract?_eq_some a b flags.carry) as bs flags

/-- The numbers 4095 and 240 with a carry, whose sum carries out of the four bits below the topmost
ones, and 4095 less itself and the carry, which is below zero. -/
theorem along_binary_borrowing :
    let flags : Flags := ⟨true, true, false, true⟩
    binary.value [0xFF, 0x0F] = 4095 ∧ binary.value [0xF0, 0x00] = 240 ∧
    (along (AccumulatorOp.apply .adc) [0xFF, 0x0F] [0xF0, 0x00] flags).1 = [0xF0, 0x10] ∧
    (along (AccumulatorOp.apply .adc) [0xFF, 0x0F] [0xF0, 0x00] flags).2.half = true ∧
    (along (AccumulatorOp.apply .sbc) [0xFF, 0x0F] [0xFF, 0x0F] flags).1 = [0xFF, 0xFF] ∧
    (along (AccumulatorOp.apply .sbc) [0xFF, 0x0F] [0xFF, 0x0F] flags).2.carry = true := by
  intro flags
  have same : ([0xFF, 0x0F] : List UInt8).length = ([0xF0, 0x00] : List UInt8).length := rfl
  have same' : ([0xFF, 0x0F] : List UInt8).length = ([0xFF, 0x0F] : List UInt8).length := rfl
  obtain ⟨⟨-, -, -, half⟩, -⟩ := along_binary flags same (List.cons_ne_nil _ _)
  obtain ⟨-, ⟨-, -, below, -⟩, -⟩ := along_binary flags same' (List.cons_ne_nil _ _)
  refine ⟨by decide, by decide, by decide, half.mpr ?_, by decide, below.mpr ?_⟩
  · decide
  · decide

end GameBoy.Alu
