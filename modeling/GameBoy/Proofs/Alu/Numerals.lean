import GameBoy.Alu.Arithmetic
import Mathlib.Data.Nat.Digits.Defs
import Mathlib.Tactic.Linarith
import Mathlib.Tactic.Ring

/-!
# Numbers of many bytes

A number that does not fit a byte is kept in several, the least significant one first, and programs
add and subtract such numbers byte by byte: the flags that one byte leaves are there when the next
one is worked out (`GameBoy.Alu.along`).

What a byte stands for is a matter of convention. `GameBoy.Alu.Numerals` is such a convention, bytes
as the digits of some base, and `GameBoy.Alu.Numerals.Step` says that an operation adds or subtracts
single digits in it, with the carry flag for what is left over. From this it follows that the
operation adds or subtracts numbers of any length (`GameBoy.Alu.Numerals.Step.sum`,
`GameBoy.Alu.Numerals.Step.difference`).

Addition and subtraction are one argument, in which the sign of the second number is left open
(`GameBoy.Alu.Numerals.Step.along`). The induction runs over the bytes for all flags at once, since
it is with different ones that it comes to the rest of them.
-/

namespace GameBoy.Alu

/-! ### Bytes as digits -/

/-- **A way to read bytes as digits.** Not every byte has to be one. -/
structure Numerals where
  base : Nat
  /-- The digit that a byte stands for. -/
  digit : UInt8 → Nat
  /-- The bytes that stand for a digit. -/
  Valid : UInt8 → Prop
  one_lt_base : 1 < base
  digit_lt {b : UInt8} (h : Valid b) : digit b < base

namespace Numerals

variable (n : Numerals)

/-- **The number that bytes stand for**, the least significant one being the first. -/
def value (bytes : List UInt8) : Nat := Nat.ofDigits n.base (bytes.map n.digit)

@[simp] theorem value_nil : n.value [] = 0 := rfl

@[simp] theorem value_cons (b : UInt8) (bytes : List UInt8) :
    n.value (b :: bytes) = n.digit b + n.base * n.value bytes :=
  Nat.ofDigits_cons ..

/-- **There are only so many numbers** of a given length. -/
theorem value_lt {bytes : List UInt8} (h : ∀ b ∈ bytes, n.Valid b) :
    n.value bytes < n.base ^ bytes.length := by
  rw [← List.length_map n.digit]
  exact Nat.ofDigits_lt_base_pow_length n.one_lt_base
    (List.forall_mem_map.mpr fun b hb => n.digit_lt (h b hb))

end Numerals

/-! ### Byte after byte -/

/-- A carry as a byte. -/
theorem toNat_toUInt8 (c : Bool) : c.toUInt8.toNat = c.toNat := by cases c <;> rfl

/-- **An operation on bytes carried along two numbers.** Each pair of bytes is combined under the
flags that the pair before it has left. The results come with the flags left by the last pair. -/
def along (step : UInt8 → UInt8 → Flags → Result) :
    List UInt8 → List UInt8 → Flags → List UInt8 × Flags
  | a :: as, b :: bs, flags =>
    let result := step a b flags
    let rest := along step as bs result.flags
    (result.value :: rest.1, rest.2)
  | _, _, flags => ([], flags)

namespace Numerals

/-- **An operation that is right for single digits**: it adds the second digit and the carry to the
first one, or takes both away, according to the sign. What this comes to beyond a digit, or short of
one, is in the carry flag afterwards. -/
structure Step (n : Numerals) (sign : ℤ) (step : UInt8 → UInt8 → Flags → Result) : Prop where
  valid {a b : UInt8} (flags : Flags) (ha : n.Valid a) (hb : n.Valid b) :
    n.Valid (step a b flags).value
  digit_eq {a b : UInt8} (flags : Flags) (ha : n.Valid a) (hb : n.Valid b) :
    (n.digit (step a b flags).value : ℤ) = n.digit a + sign *
      (n.digit b + flags.carry.toNat - n.base * (step a b flags).flags.carry.toNat)

namespace Step

variable {n : Numerals} {sign : ℤ} {step : UInt8 → UInt8 → Flags → Result} {as bs : List UInt8}

/-- An operation that adds digits. -/
theorem of_sum (h : ∀ (a b : UInt8) (flags : Flags), n.Valid a → n.Valid b →
    n.Valid (step a b flags).value ∧
      n.digit (step a b flags).value + n.base * (step a b flags).flags.carry.toNat =
        n.digit a + n.digit b + flags.carry.toNat) : n.Step 1 step where
  valid {a b} flags ha hb := (h a b flags ha hb).1
  digit_eq {a b} flags ha hb := by
    have digits := (h a b flags ha hb).2
    zify at digits
    linarith only [digits]

/-- An operation that subtracts digits. -/
theorem of_difference (h : ∀ (a b : UInt8) (flags : Flags), n.Valid a → n.Valid b →
    n.Valid (step a b flags).value ∧
      n.digit (step a b flags).value + n.digit b + flags.carry.toNat =
        n.digit a + n.base * (step a b flags).flags.carry.toNat) : n.Step (-1) step where
  valid {a b} flags ha hb := (h a b flags ha hb).1
  digit_eq {a b} flags ha hb := by
    have digits := (h a b flags ha hb).2
    zify at digits
    linarith only [digits]

/-- **What is right for single digits is right for numbers.** The carry that is left in the end
counts as much as the digit that there is no room for. -/
theorem along (h : n.Step sign step) (flags : Flags) (same : as.length = bs.length)
    (ha : ∀ a ∈ as, n.Valid a) (hb : ∀ b ∈ bs, n.Valid b) :
    let result := Alu.along step as bs flags
    result.1.length = as.length ∧ (∀ r ∈ result.1, n.Valid r) ∧
      (n.value result.1 : ℤ) = n.value as + sign *
        (n.value bs + flags.carry.toNat - n.base ^ as.length * result.2.carry.toNat) := by
  induction as generalizing bs flags with
  | nil =>
    obtain rfl := List.length_eq_zero_iff.mp same.symm
    simp [Alu.along]
  | cons a as ih =>
    obtain ⟨b, bs, rfl⟩ := List.exists_cons_of_length_eq_add_one same.symm
    have same : as.length = bs.length := Nat.succ.inj same
    obtain ⟨ha, has⟩ := List.forall_mem_cons.mp ha
    obtain ⟨hb, hbs⟩ := List.forall_mem_cons.mp hb
    have first := h.digit_eq flags ha hb
    obtain ⟨length, valid, rest⟩ := ih (step a b flags).flags same has hbs
    refine ⟨congrArg Nat.succ length, List.forall_mem_cons.mpr ⟨h.valid flags ha hb, valid⟩, ?_⟩
    -- the carry between the first digit and the rest is in both equations, and drops out
    simp only [Alu.along, value_cons, Nat.cast_add, Nat.cast_mul, rest, first, List.length_cons,
      pow_succ]
    ring

/-- What comes out has room in as many bytes as went in. -/
theorem value_along_lt (h : n.Step sign step) (flags : Flags) (same : as.length = bs.length)
    (ha : ∀ a ∈ as, n.Valid a) (hb : ∀ b ∈ bs, n.Valid b) :
    n.value (Alu.along step as bs flags).1 < n.base ^ as.length := by
  obtain ⟨length, valid, -⟩ := h.along flags same ha hb
  rw [← length]
  exact n.value_lt valid

/-- **The sum of two numbers is exact**, the carry flag being one more digit. -/
theorem exact_sum (h : n.Step 1 step) (flags : Flags) (same : as.length = bs.length)
    (ha : ∀ a ∈ as, n.Valid a) (hb : ∀ b ∈ bs, n.Valid b) :
    let result := Alu.along step as bs flags
    n.value result.1 + n.base ^ as.length * result.2.carry.toNat =
      n.value as + n.value bs + flags.carry.toNat := by
  obtain ⟨-, -, value⟩ := h.along flags same ha hb
  zify
  linarith only [value]

/-- **The difference of two numbers is exact**, the carry flag being what was lent to it. -/
theorem exact_difference (h : n.Step (-1) step) (flags : Flags) (same : as.length = bs.length)
    (ha : ∀ a ∈ as, n.Valid a) (hb : ∀ b ∈ bs, n.Valid b) :
    let result := Alu.along step as bs flags
    n.value result.1 + n.value bs + flags.carry.toNat =
      n.value as + n.base ^ as.length * result.2.carry.toNat := by
  obtain ⟨-, -, value⟩ := h.along flags same ha hb
  zify
  linarith only [value]

/-- **The sum of two numbers**, modulo what there is room for. The carry flag says whether there was
room. -/
theorem sum (h : n.Step 1 step) (flags : Flags) (same : as.length = bs.length)
    (ha : ∀ a ∈ as, n.Valid a) (hb : ∀ b ∈ bs, n.Valid b) :
    let result := Alu.along step as bs flags
    let total := n.value as + n.value bs + flags.carry.toNat
    n.value result.1 = total % n.base ^ as.length ∧
      (result.2.carry = true ↔ n.base ^ as.length ≤ total) := by
  intro result total
  have room : n.value result.1 < n.base ^ as.length := h.value_along_lt flags same ha hb
  have exact_total : n.value result.1 + n.base ^ as.length * result.2.carry.toNat = total :=
    h.exact_sum flags same ha hb
  cases carry : result.2.carry with
  | false =>
    rw [carry, Bool.toNat_false, Nat.mul_zero, Nat.add_zero] at exact_total
    rw [← exact_total, Nat.mod_eq_of_lt room]
    exact ⟨rfl, iff_of_false Bool.false_ne_true (Nat.not_le.mpr room)⟩
  | true =>
    rw [carry, Bool.toNat_true, Nat.mul_one] at exact_total
    rw [← exact_total, Nat.add_mod_right, Nat.mod_eq_of_lt room]
    exact ⟨rfl, iff_of_true rfl (Nat.le_add_left _ _)⟩

/-- **The difference of two numbers**, modulo what there is room for. The carry flag says whether it
is below zero. -/
theorem difference (h : n.Step (-1) step) (flags : Flags) (same : as.length = bs.length)
    (ha : ∀ a ∈ as, n.Valid a) (hb : ∀ b ∈ bs, n.Valid b) :
    let result := Alu.along step as bs flags
    (n.value result.1 : ℤ) =
        (n.value as - n.value bs - flags.carry.toNat) % (n.base : ℤ) ^ as.length ∧
      (result.2.carry = true ↔ n.value as < n.value bs + flags.carry.toNat) := by
  intro result
  have room : n.value result.1 < n.base ^ as.length := h.value_along_lt flags same ha hb
  have small := n.value_lt ha
  have exact_total : n.value result.1 + n.value bs + flags.carry.toNat =
      n.value as + n.base ^ as.length * result.2.carry.toNat :=
    h.exact_difference flags same ha hb
  constructor
  · have room' : (n.value result.1 : ℤ) < (n.base : ℤ) ^ as.length := by exact_mod_cast room
    have total : (n.value as - n.value bs - flags.carry.toNat : ℤ) =
        n.value result.1 - (n.base : ℤ) ^ as.length * result.2.carry.toNat := by
      zify at exact_total
      linarith only [exact_total]
    rw [total, Int.sub_mul_emod_self_left, Int.emod_eq_of_lt (Int.natCast_nonneg _) room']
  · cases carry : result.2.carry with
    | false =>
      rw [carry, Bool.toNat_false, Nat.mul_zero, Nat.add_zero] at exact_total
      exact iff_of_false Bool.false_ne_true (by omega)
    | true =>
      rw [carry, Bool.toNat_true, Nat.mul_one] at exact_total
      exact iff_of_true rfl (by omega)

end Step

end Numerals

end GameBoy.Alu
