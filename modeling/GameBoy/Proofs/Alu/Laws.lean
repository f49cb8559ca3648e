import GameBoy.Alu.Shift
import GameBoy.Proofs.Alu.Binary
import Mathlib.Data.Nat.Bitwise
import Mathlib.Tactic.IntervalCases

/-!
# What the operations on bytes are

The laws of the operations on bytes, said without the operations: sums and differences by numbers,
everything else bit by bit (`GameBoy.Alu.AccumulatorOp.Law`, `GameBoy.Alu.IsIncrement`,
`GameBoy.Alu.IsDecrement`, `GameBoy.Alu.ShiftOp.Law`). A law determines the byte that comes out and
all four flags. That the operations obey their laws is proved next to each of them.

In a number a carry out of some bits is that the sum of these bits is too large for them, and a
borrow that what is taken away is larger than what it is taken from.
-/

namespace GameBoy.Alu

/-! ### Sums and differences -/

/-- **The sum of two bytes and a carry**, with its flags. -/
structure IsSum (a b : UInt8) (c : Nat) (result : Result) : Prop where
  value : result.value.toNat = (a.toNat + b.toNat + c) % 256
  zero : result.flags.zero = true ↔ result.value = 0
  subtract : result.flags.subtract = false
  half : result.flags.half = true ↔ 15 < a.toNat % 16 + b.toNat % 16 + c
  carry : result.flags.carry = true ↔ 255 < a.toNat + b.toNat + c

/-- **The difference of two bytes, less a borrow**, with its flags. -/
structure IsDifference (a b : UInt8) (c : Nat) (result : Result) : Prop where
  value : (result.value.toNat : ℤ) = (a.toNat - b.toNat - c) % 256
  zero : result.flags.zero = true ↔ result.value = 0
  subtract : result.flags.subtract = true
  half : result.flags.half = true ↔ a.toNat % 16 < b.toNat % 16 + c
  carry : result.flags.carry = true ↔ a.toNat < b.toNat + c

/-- **Two bytes combined bit by bit**, with the flags of the combination. -/
structure IsCombination (f : Bool → Bool → Bool) (half : Bool) (a b : UInt8) (result : Result) :
    Prop where
  bits (k : Nat) : result.value.toNat.testBit k = f (a.toNat.testBit k) (b.toNat.testBit k)
  zero : result.flags.zero = true ↔ result.value = 0
  subtract : result.flags.subtract = false
  half : result.flags.half = half
  carry : result.flags.carry = false

/-- **What an operation on the accumulator is to give**, for an incoming carry `c`. A comparison has
the flags of the difference, which itself is forgotten. -/
def AccumulatorOp.Law (op : AccumulatorOp) (a b : UInt8) (c : Bool) (result : Result) : Prop :=
  match op with
  | .add => IsSum a b 0 result
  | .adc => IsSum a b c.toNat result
  | .sub => IsDifference a b 0 result
  | .sbc => IsDifference a b c.toNat result
  | .and => IsCombination Bool.and true a b result
  | .xor => IsCombination Bool.xor false a b result
  | .or => IsCombination Bool.or false a b result
  | .cp => result.value = a ∧ ∃ difference, IsDifference a b 0 ⟨difference, result.flags⟩

theorem isSum_add (a b : UInt8) (c : Bool) : IsSum a b c.toNat (add a b c) where
  value := by
    have total := toNat_add a b c
    have room := (add a b c).value.toNat_lt
    omega
  zero := beq_iff_eq
  subtract := rfl
  half := decide_eq_true_iff
  carry := decide_eq_true_iff

theorem isDifference_subtract (a b : UInt8) (c : Bool) :
    IsDifference a b c.toNat (subtract a b c) where
  value := by
    have total := toNat_subtract a b c
    have room := (subtract a b c).value.toNat_lt
    omega
  zero := beq_iff_eq
  subtract := rfl
  half := decide_eq_true_iff
  carry := decide_eq_true_iff

/-- A bitwise combination is one if its bits are. -/
theorem isCombination_bitwise {f : Bool → Bool → Bool} {a b value : UInt8} (half : Bool)
    (h : ∀ k, value.toNat.testBit k = f (a.toNat.testBit k) (b.toNat.testBit k)) :
    IsCombination f half a b (bitwise value half) :=
  ⟨h, beq_iff_eq, rfl, rfl, rfl⟩

/-- **The operations on the accumulator obey their laws.** -/
theorem AccumulatorOp.law_apply (op : AccumulatorOp) (a b : UInt8) (flags : Flags) :
    op.Law a b flags.carry (op.apply a b flags) := by
  cases op with
  | add => exact isSum_add a b false
  | adc => exact isSum_add a b flags.carry
  | sub => exact isDifference_subtract a b false
  | sbc => exact isDifference_subtract a b flags.carry
  | and => exact isCombination_bitwise true fun k => by rw [UInt8.toNat_and, Nat.testBit_and]
  | xor => exact isCombination_bitwise false fun k => by rw [UInt8.toNat_xor, Nat.testBit_xor]
  | or => exact isCombination_bitwise false fun k => by rw [UInt8.toNat_or, Nat.testBit_or]
  | cp => exact ⟨rfl, _, isDifference_subtract a b false⟩

/-- **One more than a byte**, with the flags of that; the carry `c` is the one that came in. -/
structure IsIncrement (b : UInt8) (c : Bool) (result : Result) : Prop where
  value : result.value.toNat = (b.toNat + 1) % 256
  zero : result.flags.zero = true ↔ result.value = 0
  subtract : result.flags.subtract = false
  half : result.flags.half = true ↔ b.toNat % 16 = 15
  carry : result.flags.carry = c

/-- **One less than a byte**, with the flags of that; the carry `c` is the one that came in. -/
structure IsDecrement (b : UInt8) (c : Bool) (result : Result) : Prop where
  value : (result.value.toNat : ℤ) = (b.toNat - 1) % 256
  zero : result.flags.zero = true ↔ result.value = 0
  subtract : result.flags.subtract = true
  half : result.flags.half = true ↔ b.toNat % 16 = 0
  carry : result.flags.carry = c

theorem isIncrement_increment (b : UInt8) (flags : Flags) :
    IsIncrement b flags.carry (increment b flags) where
  value := UInt8.toNat_add b 1
  zero := beq_iff_eq
  subtract := rfl
  half := beq_iff_eq
  carry := rfl

theorem isDecrement_decrement (b : UInt8) (flags : Flags) :
    IsDecrement b flags.carry (decrement b flags) where
  value := by
    have value : (b - 1).toNat = (255 + b.toNat) % 256 := UInt8.toNat_sub b 1
    simp only [decrement, value]
    omega
  zero := beq_iff_eq
  subtract := rfl
  half := beq_iff_eq
  carry := rfl

/-! ### Shifts and rotates -/

/-- **The bit that a shift or rotate puts at a place**, `c` being the carry that comes in. -/
def ShiftOp.bit (op : ShiftOp) (b : UInt8) (c : Bool) (k : Nat) : Bool :=
  match op with
  | .rlc => b.toNat.testBit ((k + 7) % 8)
  | .rrc => b.toNat.testBit ((k + 1) % 8)
  | .rl => if k = 0 then c else b.toNat.testBit (k - 1)
  | .rr => if k = 7 then c else b.toNat.testBit (k + 1)
  | .sla => if k = 0 then false else b.toNat.testBit (k - 1)
  | .sra => if k = 7 then b.toNat.testBit 7 else b.toNat.testBit (k + 1)
  | .swap => b.toNat.testBit ((k + 4) % 8)
  | .srl => if k = 7 then false else b.toNat.testBit (k + 1)

/-- **The bit that is shifted out.** A swap shifts none out. -/
def ShiftOp.bitOut (op : ShiftOp) (b : UInt8) : Bool :=
  match op with
  | .rlc | .rl | .sla => b.toNat.testBit 7
  | .rrc | .rr | .sra | .srl => b.toNat.testBit 0
  | .swap => false

/-- **What a shift or rotate is to give**, for an incoming carry `c`. -/
structure ShiftOp.Law (op : ShiftOp) (b : UInt8) (c : Bool) (result : Result) : Prop where
  bits {k : Nat} (hk : k < 8) : result.value.toNat.testBit k = op.bit b c k
  zero : result.flags.zero = true ↔ result.value = 0
  subtract : result.flags.subtract = false
  half : result.flags.half = false
  carry : result.flags.carry = op.bitOut b

/-- A byte has eight bits. -/
theorem testBit_toNat_of_le (b : UInt8) {k : Nat} (h : 8 ≤ k) : b.toNat.testBit k = false :=
  Nat.testBit_lt_two_pow
    (Nat.lt_of_lt_of_le b.toNat_lt (Nat.pow_le_pow_right (by decide) h))

/-- The bits of a byte shifted to the left. -/
theorem testBit_shiftLeft (b n : UInt8) (hn : n.toNat < 8) {k : Nat} (hk : k < 8) :
    (b <<< n).toNat.testBit k = (decide (n.toNat ≤ k) && b.toNat.testBit (k - n.toNat)) := by
  rw [UInt8.toNat_shiftLeft, Nat.testBit_mod_two_pow, Nat.mod_eq_of_lt hn, Nat.testBit_shiftLeft]
  simp [hk]

/-- The bits of a byte shifted to the right. -/
theorem testBit_shiftRight (b n : UInt8) (hn : n.toNat < 8) (k : Nat) :
    (b >>> n).toNat.testBit k = b.toNat.testBit (n.toNat + k) := by
  rw [UInt8.toNat_shiftRight, Nat.mod_eq_of_lt hn, Nat.testBit_shiftRight]

/-- A carry as a byte has it in its lowest bit. -/
theorem testBit_toUInt8 (c : Bool) (k : Nat) :
    c.toUInt8.toNat.testBit k = (decide (k = 0) && c) := by
  rw [toNat_toUInt8]
  cases c with
  | false => simp
  | true => cases k <;> simp [Nat.testBit_succ]

/-- **The bits that the shifts and rotates leave.** -/
theorem ShiftOp.testBit_value (op : ShiftOp) (b : UInt8) (c : Bool) {k : Nat} (hk : k < 8) :
    (op.value b c).toNat.testBit k = op.bit b c k := by
  have high (k : Nat) (h : 8 ≤ k) := testBit_toNat_of_le b h
  have left (a n : UInt8) (hn : n.toNat < 8) := testBit_shiftLeft a n hn hk
  have right (n : UInt8) (hn : n.toNat < 8) := testBit_shiftRight b n hn k
  have left₁ := left b 1 (by decide)
  have right₁ := right 1 (by decide)
  cases op with
  | rlc =>
    rw [value, bit, UInt8.toNat_or, Nat.testBit_or, left₁, right 7 (by decide)]
    interval_cases k <;> simp [high]
  | rrc =>
    rw [value, bit, UInt8.toNat_or, Nat.testBit_or, left b 7 (by decide), right₁]
    interval_cases k <;> simp [high]
  | rl =>
    rw [value, bit, UInt8.toNat_or, Nat.testBit_or, left₁, testBit_toUInt8]
    cases k <;> simp
  | rr =>
    rw [value, bit, UInt8.toNat_or, Nat.testBit_or, right₁, left _ 7 (by decide), testBit_toUInt8]
    interval_cases k <;> simp [high]
  | sla =>
    rw [value, bit, left₁]
    cases k <;> simp
  | sra =>
    have top : (0x80 : UInt8).toNat.testBit k = decide (k = 7) := by
      interval_cases k <;> rfl
    rw [value, bit, UInt8.toNat_or, Nat.testBit_or, right₁, UInt8.toNat_and, Nat.testBit_and, top]
    interval_cases k <;> simp [high]
  | swap =>
    rw [value, bit, UInt8.toNat_or, Nat.testBit_or, left b 4 (by decide), right 4 (by decide)]
    interval_cases k <;> simp [high]
  | srl =>
    rw [value, bit, right₁]
    interval_cases k <;> simp [high]

/-- A bit of a byte, found by masking. -/
theorem and_ne_zero_eq_testBit (b : UInt8) (n : Fin 8) :
    (b &&& bitMask n != 0) = b.toNat.testBit n := by
  have mask : (bitMask n).toNat = 2 ^ n.val := by
    revert n
    decide
  have bit : (b &&& bitMask n).toNat = (b.toNat.testBit n).toNat * 2 ^ n.val := by
    rw [UInt8.toNat_and, mask, Nat.and_two_pow]
  cases h : b.toNat.testBit n with
  | false =>
    rw [h, Bool.toNat_false, Nat.zero_mul] at bit
    exact bne_eq_false_iff_eq.mpr (UInt8.toNat_inj.mp bit)
  | true =>
    rw [h, Bool.toNat_true, Nat.one_mul] at bit
    refine bne_iff_ne.mpr fun zero => ?_
    rw [zero] at bit
    exact absurd bit.symm (Nat.two_pow_pos n).ne'

/-- **The shifts and rotates obey their laws.** -/
theorem ShiftOp.law_apply (op : ShiftOp) (b : UInt8) (flags : Flags) :
    op.Law b flags.carry (op.apply b flags) where
  bits hk := op.testBit_value b flags.carry hk
  zero := beq_iff_eq
  subtract := rfl
  half := rfl
  carry := by
    cases op with
    | rlc | rl | sla => exact and_ne_zero_eq_testBit b 7
    | rrc | rr | sra | srl => exact and_ne_zero_eq_testBit b 0
    | swap => rfl

/-! ### Single bits -/

/-- **Testing a bit** sets the zero flag if it is clear. -/
theorem testBit_eq (n : Fin 8) (b : UInt8) (flags : Flags) :
    testBit n b flags = ⟨!b.toNat.testBit n, false, true, flags.carry⟩ := by
  rw [testBit, ← and_ne_zero_eq_testBit, bne, Bool.not_not]

/-- The mask of a bit has that bit alone. -/
theorem testBit_bitMask (n : Fin 8) {k : Nat} (hk : k < 8) :
    (bitMask n).toNat.testBit k = decide (k = n) := by
  revert n
  interval_cases k <;> decide

/-- **Setting a bit** leaves all others. -/
theorem testBit_setBit (n : Fin 8) (b : UInt8) {k : Nat} (hk : k < 8) :
    (setBit n b).toNat.testBit k = (b.toNat.testBit k || decide (k = n)) := by
  rw [setBit, UInt8.toNat_or, Nat.testBit_or, testBit_bitMask n hk]

/-- **Clearing a bit** leaves all others. -/
theorem testBit_clearBit (n : Fin 8) (b : UInt8) {k : Nat} (hk : k < 8) :
    (clearBit n b).toNat.testBit k = (b.toNat.testBit k && !decide (k = n)) := by
  have mask : (~~~bitMask n).toNat.testBit k = !decide (k = n) := by
    revert n
    interval_cases k <;> decide
  rw [clearBit, UInt8.toNat_and, Nat.testBit_and, mask]

end GameBoy.Alu
