import GameBoy.Decoder.Table
import Mathlib.Algebra.Group.Nat.Defs
import Mathlib.Data.List.Forall2
import Mathlib.Data.List.Induction

/-!
# What a pattern matches

The numbers a pattern matches, and the fields of each, said without enumerating them. The binary
form of a number (`GameBoy.Decoder.bits`) is laid under the pattern. The pattern matches if the
fixed bits are what they should be (`GameBoy.Decoder.Matches`), and then the value of a field is the
number whose binary form stands under the occurrences of its letter
(`GameBoy.Decoder.get_fieldsOf`).

That the enumeration arrives at the same is `GameBoy.Decoder.Rule.mem_targets`. It is proved by
induction along the pattern for an arbitrary beginning, both of the number and of the fields, with a
list of bits in place of the number: each character takes one bit off the list, and no arithmetic is
needed. The list and the number are exchanged for each other only at the end.
-/

namespace GameBoy.Decoder

/-! ### Numbers and their bits -/

/-- **The binary form of a number** with a given width, the most significant bit first. -/
def bits (width number : Nat) : List Bool :=
  (List.range width).map fun i => number.testBit (width - 1 - i)

/-- **The number that goes on from `high` with further bits**, the most significant one first. From
zero on, it is the number with these bits. -/
def extend (high : Nat) (bs : List Bool) : Nat := bs.foldl (fun n b => 2 * n + b.toNat) high

@[simp] theorem extend_nil (high : Nat) : extend high [] = high := rfl

@[simp] theorem extend_cons (high : Nat) (b : Bool) (bs : List Bool) :
    extend high (b :: bs) = extend (2 * high + b.toNat) bs := rfl

theorem extend_concat (high : Nat) (bs : List Bool) (b : Bool) :
    extend high (bs ++ [b]) = 2 * extend high bs + b.toNat :=
  List.foldl_concat ..

/-- The last bit of a binary form is the lowest one. -/
theorem bits_succ (width number : Nat) :
    bits (width + 1) number = bits width (number / 2) ++ [number.testBit 0] := by
  rw [bits, List.range_succ, List.map_append, List.map_singleton]
  congr 1
  · refine List.map_congr_left fun i hi => ?_
    have hi := List.mem_range.mp hi
    rw [show width + 1 - 1 - i = width - 1 - i + 1 by omega, Nat.testBit_succ]
  · rw [Nat.add_sub_cancel, Nat.sub_self]

/-- A number with given bits has these bits. -/
theorem bits_extend (high : Nat) (bs : List Bool) : bits bs.length (extend high bs) = bs := by
  induction bs using List.reverseRecOn with
  | nil => rfl
  | append_singleton bs b ih =>
    have half : (2 * extend high bs + b.toNat) / 2 = extend high bs := by
      cases b
      · simp
      · rw [Bool.toNat_true]
        omega
    have low : (2 * extend high bs + b.toNat).testBit 0 = b := by cases b <;> simp
    rw [List.length_append, List.length_singleton, bits_succ, extend_concat, half, low, ih]

/-- A number that fits the width has the number of its bits. -/
theorem extend_bits {width number : Nat} (h : number < 2 ^ width) :
    extend 0 (bits width number) = number := by
  induction width generalizing number with
  | zero => exact (Nat.lt_one_iff.mp h).symm
  | succ width ih =>
    have low : (number.testBit 0).toNat = number % 2 := by
      rw [Nat.toNat_testBit, Nat.pow_zero, Nat.div_one]
    rw [bits_succ, extend_concat, ih (by omega)]
    omega

/-- A number with given bits fits their width. -/
theorem extend_lt (bs : List Bool) : extend 0 bs < 2 ^ bs.length := by
  induction bs using List.reverseRecOn with
  | nil => exact Nat.one_pos
  | append_singleton bs b ih =>
    have := b.toNat_le
    rw [extend_concat, List.length_append, List.length_singleton, Nat.pow_succ]
    omega

/-! ### Matching -/

/-- **What a character asks of the bit under it**: a fixed bit has to be what it says, and a letter
takes either. -/
def Allows (c : Char) (b : Bool) : Prop := (c = '0' → b = false) ∧ (c = '1' → b = true)

/-- **A pattern matches a number** that is no wider than the pattern and whose binary form has what
is asked for under every character. -/
def Matches (pattern : List Char) (number : Nat) : Prop :=
  number < 2 ^ pattern.length ∧ List.Forall₂ Allows pattern (bits pattern.length number)

/-- Whether a character stands for a fixed bit and not for a field. -/
def isFixed (c : Char) : Bool := c == '0' || c == '1'

/-- **The bits under the occurrences of a letter**, wherever in the pattern they are. -/
def bitsUnder (letter : Char) (pattern : List Char) (bs : List Bool) : List Bool :=
  (pattern.zip bs).filterMap fun (c, b) => if c = letter ∧ isFixed c = false then some b else none

/-! ### Fields -/

namespace Fields

/-- The fields with the bits under a pattern put into them. -/
def pushAll (f : Fields) (pattern : List Char) (bs : List Bool) : Fields :=
  (pattern.zip bs).foldl (fun f (c, b) => if isFixed c then f else f.push c b.toNat) f

/-- The value found for a letter after a bit has been appended to a field. -/
theorem lookup_append (letter c : Char) (bit : Nat) (l : List (Char × Nat)) :
    ((append letter bit l).lookup c).getD 0 =
      if letter = c then 2 * (l.lookup c).getD 0 + bit else (l.lookup c).getD 0 := by
  induction l with
  | nil =>
    by_cases h : letter = c
    · subst h
      simp [append]
    · have hc : (c == letter) = false := beq_false_of_ne (Ne.symm h)
      simp [append, h, List.lookup_cons, hc]
  | cons entry rest ih =>
    obtain ⟨l, value⟩ := entry
    by_cases hl : l = letter
    · subst hl
      by_cases h : l = c
      · subst h
        simp [append]
      · have hc : (c == l) = false := beq_false_of_ne (Ne.symm h)
        simp [append, h, List.lookup_cons, hc]
    · by_cases h : l = c
      · subst h
        simp [append, hl, Ne.symm hl]
      · have hc : (c == l) = false := beq_false_of_ne (Ne.symm h)
        simpa [append, hl, List.lookup_cons, hc] using ih

/-- **A further bit goes to the field of its letter** and to no other. -/
theorem get_push (f : Fields) (letter c : Char) (bit : Nat) :
    (f.push letter bit).get c = if letter = c then 2 * f.get c + bit else f.get c :=
  lookup_append letter c bit f.entries

/-- **The bits under the occurrences of a letter continue its field.** -/
theorem get_pushAll (f : Fields) (pattern : List Char) (bs : List Bool) (letter : Char) :
    (f.pushAll pattern bs).get letter = extend (f.get letter) (bitsUnder letter pattern bs) := by
  induction pattern generalizing f bs with
  | nil => rfl
  | cons c pattern ih =>
    cases bs with
    | nil => rfl
    | cons b bs =>
      have hcons : f.pushAll (c :: pattern) (b :: bs) =
        (if isFixed c then f else f.push c b.toNat).pushAll pattern bs := rfl
      rw [hcons, ih]
      by_cases hfix : isFixed c = true
      · -- a fixed bit belongs to no field
        simp [bitsUnder, hfix]
      · by_cases hc : c = letter
        · -- the bit goes below those that the field has by now
          subst hc
          simp [bitsUnder, hfix, get_push]
        · simp [bitsUnder, hfix, get_push, hc]

end Fields

/-- **The fields of a number** under a pattern. -/
def fieldsOf (pattern : List Char) (number : Nat) : Fields :=
  Fields.empty.pushAll pattern (bits pattern.length number)

/-- **A field is the number whose bits stand under its letter.** -/
theorem get_fieldsOf (pattern : List Char) (number : Nat) (letter : Char) :
    (fieldsOf pattern number).get letter =
      extend 0 (bitsUnder letter pattern (bits pattern.length number)) :=
  Fields.get_pushAll ..

/-- A letter that the pattern lacks has no bits under it. -/
theorem bitsUnder_eq_nil {letter : Char} {pattern : List Char} (h : letter ∉ pattern)
    (bs : List Bool) : bitsUnder letter pattern bs = [] := by
  refine List.filterMap_eq_nil_iff.mpr ?_
  intro x hx
  have hc : x.1 ≠ letter := fun heq => h (heq ▸ (List.of_mem_zip hx).1)
  exact if_neg fun hx => hc hx.1

/-! ### The enumeration -/

/-- The bits a pattern allows, its first character apart. -/
theorem exists_allowed_cons {c : Char} {pattern : List Char} {high number : Nat}
    {f fields : Fields} :
    (∃ bs, List.Forall₂ Allows (c :: pattern) bs ∧ number = extend high bs ∧
        fields = f.pushAll (c :: pattern) bs) ↔
      ∃ b, Allows c b ∧ ∃ bs, List.Forall₂ Allows pattern bs ∧
        number = extend (2 * high + b.toNat) bs ∧
        fields = (if isFixed c then f else f.push c b.toNat).pushAll pattern bs := by
  constructor
  · rintro ⟨_, hbs, rfl, rfl⟩
    cases hbs with
    | cons hb hbs => exact ⟨_, hb, _, hbs, rfl, rfl⟩
  · rintro ⟨b, hb, bs, hbs, rfl, rfl⟩
    exact ⟨b :: bs, .cons hb hbs, rfl, rfl⟩

/-- **The enumeration, by lists of bits**: the numbers that go on from `high` with bits the pattern
allows, each with these bits put into the fields. -/
theorem mem_expansions {pattern : List Char} {high number : Nat} {f fields : Fields} :
    (number, fields) ∈ expansions pattern high f ↔
      ∃ bs, List.Forall₂ Allows pattern bs ∧ number = extend high bs ∧
        fields = f.pushAll pattern bs := by
  fun_induction expansions pattern high f with
  | case1 high f => simp [Fields.pushAll]
  | case2 rest high f ih =>
    -- a fixed bit allows one bit only, and leaves the fields alone
    have allows (b : Bool) : Allows '0' b ↔ b = false := by simp [Allows]
    simp only [ih, exists_allowed_cons, allows, exists_eq_left]
    rfl
  | case3 rest high f ih =>
    have allows (b : Bool) : Allows '1' b ↔ b = true := by simp [Allows]
    simp only [ih, exists_allowed_cons, allows, exists_eq_left]
    rfl
  | case4 c rest high f h0 h1 ih₀ ih₁ =>
    have allows (b : Bool) : Allows c b := ⟨fun h => absurd h h0, fun h => absurd h h1⟩
    -- a letter allows both bits, and each goes to its field
    have letter : isFixed c = false := by simpa [isFixed] using And.intro h0 h1
    simp only [List.mem_append, ih₀, ih₁, exists_allowed_cons, allows, true_and, Bool.exists_bool,
      letter]
    rfl

/-- **The numbers a rule is run for** are those its pattern matches, each with its fields. -/
theorem Rule.mem_targets {m : Type → Type} {α : Type} {rule : Rule m α} {number : Nat}
    {fields : Fields} :
    (number, fields) ∈ rule.targets ↔
      Matches rule.pattern.toList number ∧ fields = fieldsOf rule.pattern.toList number := by
  rw [targets, mem_expansions]
  constructor
  · rintro ⟨bs, hbs, rfl, rfl⟩
    have hlen := hbs.length_eq
    have hbits : bits rule.pattern.toList.length (extend 0 bs) = bs := by rw [hlen, bits_extend]
    refine ⟨⟨?_, ?_⟩, ?_⟩
    · rw [hlen]
      exact extend_lt bs
    · rwa [hbits]
    · rw [fieldsOf, hbits]
  · rintro ⟨⟨hlt, hbits⟩, rfl⟩
    exact ⟨_, hbits, (extend_bits hlt).symm, rfl⟩

end GameBoy.Decoder
