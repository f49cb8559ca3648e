import GameBoy.Proofs.Alu.Laws
import Mathlib.Data.FinEnum

/-!
# Shifting numbers of many bytes

A number of many bytes is shifted byte by byte, each rotate through the carry taking in the bit that
the one before it has pushed out. To the left the least significant byte is the first
(`GameBoy.Alu.upward`), to the right it is the last (`GameBoy.Alu.downward`). What is taken in at
the open end is up to the first operation, which need not be a rotate.

All of this is one fact in each direction. A rotate of a byte to the left doubles it, with one bit
coming in below and one going out above, and so does a pass of rotates to a number
(`GameBoy.Alu.value_upward`); to the right, each halves what the other has doubled
(`GameBoy.Alu.value_downward`). A shift is a rotate with another carry coming in, and so the passes
that begin with a shift are passes of rotates too. `GameBoy.Alu.shift_binary` has it all together.

To the left the induction runs over the bytes for all flags at once, since the rest of them is
rotated with the carry of the first. To the right it is the rest that comes before.
-/

namespace GameBoy.Alu

/-! ### Passes over bytes -/

/-- **A pass from the least significant byte up**, under flags that are handed on from each byte to
the next. The first byte has an operation of its own. -/
def upward (first rest : ShiftOp) : List UInt8 → Flags → List UInt8 × Flags
  | [], flags => ([], flags)
  | b :: bs, flags =>
    let result := first.apply b flags
    let others := upward rest rest bs result.flags
    (result.value :: others.1, others.2)

/-- **A pass from the most significant byte down**, which has an operation of its own. The bytes are
in the same order as for the other pass, the least significant one being the first. -/
def downward (first rest : ShiftOp) : List UInt8 → Flags → List UInt8 × Flags
  | [], flags => ([], flags)
  | [b], flags =>
    let result := first.apply b flags
    ([result.value], result.flags)
  | b :: b' :: bs, flags =>
    let others := downward first rest (b' :: bs) flags
    let result := rest.apply b others.2
    (result.value :: others.1, result.flags)

section Passes

variable (first rest : ShiftOp)

@[simp] theorem length_upward (bytes : List UInt8) (flags : Flags) :
    (upward first rest bytes flags).1.length = bytes.length := by
  induction bytes generalizing first flags with
  | nil => rfl
  | cons b bs ih => exact congrArg Nat.succ (ih rest _)

/-- With one operation for all bytes, the least significant byte comes after all others. -/
theorem downward_cons (b : UInt8) (bs : List UInt8) (flags : Flags) :
    downward rest rest (b :: bs) flags =
      let others := downward rest rest bs flags
      let result := rest.apply b others.2
      (result.value :: others.1, result.flags) := by
  cases bs <;> rfl

@[simp] theorem length_downward (bytes : List UInt8) (flags : Flags) :
    (downward first rest bytes flags).1.length = bytes.length := by
  fun_induction downward first rest bytes flags with
  | case1 | case2 => rfl
  | case3 b b' bs flags others result ih => exact congrArg Nat.succ ih

variable {first rest} {b : UInt8} {flags flags' : Flags}

/-- The first operation may be replaced by another one that does the same to the first byte. -/
theorem upward_eq_of_apply_eq (h : first.apply b flags = rest.apply b flags') (bs : List UInt8) :
    upward first rest (b :: bs) flags = upward rest rest (b :: bs) flags' := by
  rw [upward, upward, h]

/-- The same for a pass downward. -/
theorem downward_eq_of_apply_eq (h : first.apply b flags = rest.apply b flags')
    (bs : List UInt8) :
    downward first rest (bs ++ [b]) flags = downward rest rest (bs ++ [b]) flags' := by
  induction bs with
  | nil => simp only [List.nil_append, downward, h]
  | cons a bs ih =>
    rw [List.cons_append, downward_cons, ← ih]
    cases bs <;> rfl

end Passes

/-! ### Bytes -/

/-- **A byte is rotated to the left**: it is doubled, with the carry below it and a ninth bit above
it. -/
theorem toNat_rl (b : UInt8) (flags : Flags) :
    let result := ShiftOp.rl.apply b flags
    result.value.toNat + 256 * result.flags.carry.toNat = 2 * b.toNat + flags.carry.toNat := by
  have bytes : ∀ (b : UInt8) (c : Bool), (ShiftOp.rl.value b c).toNat +
      256 * (ShiftOp.rl.carryOut b).toNat = 2 * b.toNat + c.toNat := by
    decide +kernel
  exact bytes b flags.carry

/-- **A byte is rotated to the right**: with the carry above it, it is halved, and the carry is what
is left over. -/
theorem toNat_rr (b : UInt8) (flags : Flags) :
    let result := ShiftOp.rr.apply b flags
    2 * result.value.toNat + result.flags.carry.toNat = b.toNat + 256 * flags.carry.toNat := by
  have bytes : ∀ (b : UInt8) (c : Bool), 2 * (ShiftOp.rr.value b c).toNat +
      (ShiftOp.rr.carryOut b).toNat = b.toNat + 256 * c.toNat := by
    decide +kernel
  exact bytes b flags.carry

section Shifts

variable (b : UInt8) (flags : Flags)

/-- A shift to the left is a rotate without a carry. -/
theorem apply_sla : ShiftOp.sla.apply b flags =
    ShiftOp.rl.apply b { flags with carry := false } := by
  have value : b <<< 1 = b <<< 1 ||| Bool.toUInt8 false := UInt8.or_zero.symm
  simp only [ShiftOp.apply, ShiftOp.value, ShiftOp.carryOut, ← value]

/-- A logical shift to the right is a rotate without a carry. -/
theorem apply_srl : ShiftOp.srl.apply b flags =
    ShiftOp.rr.apply b { flags with carry := false } := by
  have value : b >>> 1 = b >>> 1 ||| Bool.toUInt8 false <<< 7 := UInt8.or_zero.symm
  simp only [ShiftOp.apply, ShiftOp.value, ShiftOp.carryOut, ← value]

/-- An arithmetic shift to the right is a rotate with the topmost bit for a carry. -/
theorem apply_sra : ShiftOp.sra.apply b flags =
    ShiftOp.rr.apply b { flags with carry := decide (128 ≤ b.toNat) } := by
  have value : ∀ b : UInt8, (b >>> 1 ||| b &&& (0x80 : UInt8)) =
      (b >>> 1 ||| (decide (128 ≤ b.toNat)).toUInt8 <<< 7) := by
    decide +kernel
  simp only [ShiftOp.apply, ShiftOp.value, ShiftOp.carryOut, value b]

end Shifts

/-! ### Numbers -/

theorem eq_of_toNat_eq {c c' : Bool} (h : c.toNat = c'.toNat) : c = c' := by
  cases c <;> cases c' <;> first | rfl | exact absurd h (by decide)

/-- The lowest bit of a number says whether it is odd. -/
theorem eq_testBit_zero {number : Nat} {c : Bool} (h : c.toNat = number % 2) :
    c = number.testBit 0 :=
  eq_of_toNat_eq (by rw [Nat.toNat_testBit, pow_zero, Nat.div_one, h])

section Numbers

variable (bytes : List UInt8) (flags : Flags)

theorem binary_value_cons (b : UInt8) (bs : List UInt8) :
    binary.value (b :: bs) = b.toNat + 256 * binary.value bs :=
  Numerals.value_cons ..

theorem binary_value_concat (bs : List UInt8) (b : UInt8) :
    binary.value (bs ++ [b]) = binary.value bs + 256 ^ bs.length * b.toNat := by
  simp [Numerals.value, Nat.ofDigits_append, binary]

theorem binary_value_lt : binary.value bytes < 256 ^ bytes.length :=
  binary.value_lt fun _ _ => trivial

/-- **A number is rotated to the left**: it is doubled, with the carry below it and another bit
above it. -/
theorem value_upward :
    let result := upward .rl .rl bytes flags
    binary.value result.1 + 256 ^ bytes.length * result.2.carry.toNat =
      2 * binary.value bytes + flags.carry.toNat := by
  induction bytes generalizing flags with
  | nil => simp [upward]
  | cons b bs ih =>
    have first := toNat_rl b flags
    have others := ih (ShiftOp.rl.apply b flags).flags
    dsimp only at first others
    -- the carry between the first byte and the others is in both equations, and drops out
    simp only [upward, binary_value_cons, List.length_cons, pow_succ]
    linarith only [first, others]

/-- **A number is rotated to the right**: with the carry above it, it is halved, and the carry is
what is left over. -/
theorem value_downward :
    let result := downward .rr .rr bytes flags
    2 * binary.value result.1 + result.2.carry.toNat =
      binary.value bytes + 256 ^ bytes.length * flags.carry.toNat := by
  induction bytes with
  | nil => simp [downward]
  | cons b bs ih =>
    -- here the others come first, and the least significant byte takes in what they leave
    have last := toNat_rr b (downward .rr .rr bs flags).2
    dsimp only at last ih
    simp only [downward_cons, binary_value_cons, List.length_cons, pow_succ]
    linarith only [last, ih]

variable {bytes}

/-- **Bytes are told by their number**, once there are equally many. -/
theorem eq_of_binary_value_eq {bytes' : List UInt8} (same : bytes.length = bytes'.length)
    (h : binary.value bytes = binary.value bytes') : bytes = bytes' := by
  have digits : bytes.map UInt8.toNat = bytes'.map UInt8.toNat := by
    refine Nat.ofDigits_inj_of_len_eq (b := 256) (by decide) (by simpa using same) ?_ ?_ h
    · exact List.forall_mem_map.mpr fun b _ => b.toNat_lt
    · exact List.forall_mem_map.mpr fun b _ => b.toNat_lt
  exact List.map_injective_iff.mpr (fun _ _ => UInt8.toNat_inj.mp) digits

/-! ### Topmost bits -/

theorem two_pow_bits (n : Nat) : 2 ^ (8 * n) = 256 ^ n := pow_mul 2 8 n

/-- **The topmost bit of a number** says whether its double is too large for the bytes. -/
def topBit (bytes : List UInt8) : Bool := decide (256 ^ bytes.length ≤ 2 * binary.value bytes)

/-- It is the bit at the highest place that the bytes have room for. -/
theorem testBit_binary_value (nonempty : bytes ≠ []) :
    (binary.value bytes).testBit (8 * bytes.length - 1) = topBit bytes := by
  have room := binary_value_lt bytes
  have positive := List.length_pos_iff.mpr nonempty
  obtain ⟨k, bits⟩ : ∃ k, 8 * bytes.length = k + 1 := ⟨8 * bytes.length - 1, by omega⟩
  rw [← two_pow_bits, bits] at room
  rw [topBit, ← two_pow_bits, bits, Nat.add_sub_cancel]
  by_cases large : 2 ^ k ≤ binary.value bytes
  · rw [Nat.testBit_of_two_pow_le_and_two_pow_add_one_gt large room, pow_succ]
    exact (decide_eq_true (by omega)).symm
  · rw [Nat.testBit_lt_two_pow (Nat.not_le.mp large), pow_succ]
    exact (decide_eq_false (by omega)).symm

/-- The number that bytes stand for with a sign, in two's complement. -/
def signedValue (bytes : List UInt8) : ℤ :=
  (BitVec.ofNat (8 * bytes.length) (binary.value bytes)).toInt

/-- **A number with a sign** is the number without one, less as much as there is room for if the
topmost bit is set. -/
theorem signedValue_eq (bytes : List UInt8) :
    signedValue bytes = binary.value bytes - 256 ^ bytes.length * (topBit bytes).toNat := by
  have room := binary_value_lt bytes
  rw [signedValue, topBit, BitVec.toInt_eq_toNat_cond, BitVec.toNat_ofNat, two_pow_bits,
    Nat.mod_eq_of_lt room]
  by_cases large : 256 ^ bytes.length ≤ 2 * binary.value bytes
  · simp [large, Nat.not_lt.mpr large]
  · simp [large, Nat.not_le.mp large]

/-- The topmost bit is in the last byte. -/
theorem topBit_concat (bs : List UInt8) (b : UInt8) :
    topBit (bs ++ [b]) = decide (128 ≤ b.toNat) := by
  have room := binary_value_lt bs
  have half : 256 ^ (bs ++ [b]).length = 2 * (256 ^ bs.length * 128) := by
    rw [List.length_append, List.length_singleton, pow_succ]
    ring
  rw [topBit, decide_eq_decide, half, binary_value_concat, Nat.mul_le_mul_left_iff (by decide),
    ← Nat.not_lt, add_mul_lt_iff room, Nat.not_lt]

/-! ### Shifts -/

/-- **A number is shifted to the left**: it is doubled, with a further bit above it. -/
theorem value_upward_sla (nonempty : bytes ≠ []) :
    let result := upward .sla .rl bytes flags
    binary.value result.1 + 256 ^ bytes.length * result.2.carry.toNat =
      2 * binary.value bytes := by
  obtain ⟨b, bs, rfl⟩ := List.exists_cons_of_ne_nil nonempty
  rw [upward_eq_of_apply_eq (apply_sla b flags) bs]
  exact value_upward (b :: bs) { flags with carry := false }

/-- **A number is shifted to the right**: it is halved, and the carry is what is left over. -/
theorem value_downward_srl (nonempty : bytes ≠ []) :
    let result := downward .srl .rr bytes flags
    2 * binary.value result.1 + result.2.carry.toNat = binary.value bytes := by
  obtain rfl | ⟨bs, b, rfl⟩ := bytes.eq_nil_or_concat'
  · contradiction
  rw [downward_eq_of_apply_eq (apply_srl b flags) bs]
  exact value_downward (bs ++ [b]) { flags with carry := false }

/-- **A number is shifted to the right under its topmost bit**: it is halved, with that bit put in
above it. -/
theorem value_downward_sra (nonempty : bytes ≠ []) :
    let result := downward .sra .rr bytes flags
    2 * binary.value result.1 + result.2.carry.toNat =
      binary.value bytes + 256 ^ bytes.length * (topBit bytes).toNat := by
  obtain rfl | ⟨bs, b, rfl⟩ := bytes.eq_nil_or_concat'
  · contradiction
  rw [downward_eq_of_apply_eq (apply_sra b flags) bs, topBit_concat]
  exact value_downward (bs ++ [b]) { flags with carry := decide (128 ≤ b.toNat) }

/-- So the number with a sign is halved too, its topmost bit being what it was. -/
theorem signedValue_downward_sra (nonempty : bytes ≠ []) :
    let result := downward .sra .rr bytes flags
    2 * signedValue result.1 + result.2.carry.toNat = signedValue bytes := by
  intro result
  have halved := value_downward_sra flags nonempty
  change 2 * binary.value result.1 + result.2.carry.toNat = _ at halved
  have length : result.1.length = bytes.length := length_downward ..
  have small := result.2.carry.toNat_le
  have top : topBit result.1 = topBit bytes := by
    have unit : 0 < 256 ^ bytes.length := Nat.pow_pos (by decide)
    -- with that bit put in again, twice the half is too large just if the number has it
    rw [topBit] at halved
    rw [topBit, topBit, length, decide_eq_decide]
    by_cases large : 256 ^ bytes.length ≤ 2 * binary.value bytes
    · rw [decide_eq_true large, Bool.toNat_true] at halved
      omega
    · rw [decide_eq_false large, Bool.toNat_false] at halved
      omega
  rw [signedValue_eq, signedValue_eq, top, length]
  zify at halved
  linarith only [halved]

/-! ### What is left, and what is shifted out -/

/-- **A shift to the left** leaves the double, modulo what there is room for, and has shifted out
the topmost bit. -/
theorem double_upward_sla (nonempty : bytes ≠ []) :
    let left := upward .sla .rl bytes flags
    binary.value left.1 = 2 * binary.value bytes % 256 ^ bytes.length ∧
      left.2.carry = (binary.value bytes).testBit (8 * bytes.length - 1) := by
  intro left
  have doubled : binary.value left.1 + 256 ^ bytes.length * left.2.carry.toNat =
      2 * binary.value bytes := value_upward_sla flags nonempty
  have room : binary.value left.1 < 256 ^ bytes.length := by
    have room := binary_value_lt left.1
    rwa [length_upward] at room
  constructor
  · rw [← doubled, Nat.add_mul_mod_self_left, Nat.mod_eq_of_lt room]
  · rw [testBit_binary_value nonempty, topBit]
    cases carry : left.2.carry with
    | false =>
      rw [carry, Bool.toNat_false] at doubled
      exact (decide_eq_false (by omega)).symm
    | true =>
      rw [carry, Bool.toNat_true] at doubled
      exact (decide_eq_true (by omega)).symm

/-- **A logical shift to the right** leaves the half, and has shifted out the lowest bit. -/
theorem half_downward_srl (nonempty : bytes ≠ []) :
    let right := downward .srl .rr bytes flags
    binary.value right.1 = binary.value bytes / 2 ∧
      right.2.carry = (binary.value bytes).testBit 0 := by
  intro right
  have halved : 2 * binary.value right.1 + right.2.carry.toNat = binary.value bytes :=
    value_downward_srl flags nonempty
  have small := right.2.carry.toNat_le
  exact ⟨by omega, eq_testBit_zero (by omega)⟩

/-- **An arithmetic shift to the right** leaves the half of the number with its sign, and has
shifted out the lowest bit. -/
theorem half_downward_sra (nonempty : bytes ≠ []) :
    let signed := downward .sra .rr bytes flags
    signedValue signed.1 = signedValue bytes / 2 ∧
      signed.2.carry = (binary.value bytes).testBit 0 := by
  intro signed
  have halved : 2 * signedValue signed.1 + signed.2.carry.toNat = signedValue bytes :=
    signedValue_downward_sra flags nonempty
  have halved' : 2 * binary.value signed.1 + signed.2.carry.toNat =
      binary.value bytes + 256 ^ bytes.length * (topBit bytes).toNat :=
    value_downward_sra flags nonempty
  -- what is put in on top is even, there being at least one byte
  have even : 2 ∣ 256 ^ bytes.length * (topBit bytes).toNat :=
    dvd_mul_of_dvd_left (dvd_pow (by decide) (List.length_pos_iff.mpr nonempty).ne') _
  have small := signed.2.carry.toNat_le
  exact ⟨by omega, eq_testBit_zero (by omega)⟩

/-- **A rotate to the left is undone by one to the right**, under the carry that it has left. -/
theorem downward_upward (bytes : List UInt8) {flags' : Flags}
    (carry : flags'.carry = (upward .rl .rl bytes flags).2.carry) :
    let back := downward .rr .rr (upward .rl .rl bytes flags).1 flags'
    back.1 = bytes ∧ back.2.carry = flags.carry := by
  intro back
  have length : (upward .rl .rl bytes flags).1.length = bytes.length := length_upward ..
  have doubled := value_upward bytes flags
  have halved := value_downward (upward .rl .rl bytes flags).1 flags'
  rw [length, carry] at halved
  have same : 2 * binary.value back.1 + back.2.carry.toNat =
      2 * binary.value bytes + flags.carry.toNat := halved.trans doubled
  have small := flags.carry.toNat_le
  have small' := back.2.carry.toNat_le
  refine ⟨eq_of_binary_value_eq ?_ (by omega), eq_of_toNat_eq (by omega)⟩
  rw [length_downward, length]

end Numbers

/-- **Shifting numbers of any length.** A number of at least one byte is shifted to the left by a
shift of its least significant byte, and rotates of the bytes above it, one after the other: it is
doubled, modulo the power of 256 that goes with the length, and what was its topmost bit is in the
carry flag. To the right it is shifted by a shift of its most significant byte and rotates of those
below it. With a logical shift it is halved as it is, with an arithmetic one as the number with a
sign that it stands for, rounded down, and what was its lowest bit is in the carry flag. When all
bytes are rotated to the left, and then all to the right under the carry that this has left,
whatever the other flags may be, the bytes and the carry are those of the beginning. -/
theorem shift_binary {bytes : List UInt8} (flags : Flags) (nonempty : bytes ≠ []) :
    let n := bytes.length
    let number := binary.value bytes
    let left := upward .sla .rl bytes flags
    let right := downward .srl .rr bytes flags
    let signed := downward .sra .rr bytes flags
    let around := upward .rl .rl bytes flags
    (left.1.length = n ∧ binary.value left.1 = 2 * number % 256 ^ n ∧
      left.2.carry = number.testBit (8 * n - 1)) ∧
    (right.1.length = n ∧ binary.value right.1 = number / 2 ∧
      right.2.carry = number.testBit 0) ∧
    (signed.1.length = n ∧ signedValue signed.1 = signedValue bytes / 2 ∧
      signed.2.carry = number.testBit 0) ∧
    ∀ flags' : Flags, flags'.carry = around.2.carry →
      let back := downward .rr .rr around.1 flags'
      back.1 = bytes ∧ back.2.carry = flags.carry := by
  intro n number left right signed around
  refine ⟨⟨length_upward .., ?_⟩, ⟨length_downward .., ?_⟩, ⟨length_downward .., ?_⟩, ?_⟩
  · exact double_upward_sla flags nonempty
  · exact half_downward_srl flags nonempty
  · exact half_downward_sra flags nonempty
  · exact fun flags' carry => downward_upward flags bytes carry

/-- The bytes of 32897, which is -32639 with a sign: its topmost bit and its lowest one are both
shifted out, and the sign is kept. -/
theorem shift_binary_negative :
    let bytes : List UInt8 := [0x81, 0x80]
    let flags : Flags := ⟨true, true, false, false⟩
    let around := upward .rl .rl bytes flags
    binary.value bytes = 32897 ∧ signedValue bytes = -32639 ∧
    binary.value (upward .sla .rl bytes flags).1 = 258 ∧
    (upward .sla .rl bytes flags).2.carry = true ∧
    binary.value (downward .srl .rr bytes flags).1 = 16448 ∧
    signedValue (downward .sra .rr bytes flags).1 = -16320 ∧
    around.1 = [0x02, 0x01] ∧ (downward .rr .rr around.1 ⟨true, true, true, true⟩).1 = bytes := by
  intro bytes flags around
  obtain ⟨⟨-, left, out⟩, ⟨-, right, -⟩, ⟨-, signed, -⟩, back⟩ :=
    shift_binary flags (List.cons_ne_nil 0x81 [0x80])
  refine ⟨by decide, by decide, left.trans (by decide), out.trans (by decide),
    right.trans (by decide), signed.trans (by decide), by decide, ?_⟩
  exact (back ⟨true, true, true, true⟩ (by decide)).1

end GameBoy.Alu
