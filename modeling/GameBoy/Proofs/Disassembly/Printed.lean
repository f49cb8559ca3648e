import GameBoy.Proofs.Disassembly.Faithful

/-!
# What is printed

The other direction of disassembly: the text of an instruction with an operand, read for what it
says. `GameBoy.Printed` lists these texts, with the operand as it is printed, an address that a
relative jump leads to rather than its distance, and a whole address on the topmost page.

A text is that of an instruction in memory exactly if the instruction has the same outline and the
same digits (`GameBoy.Printed.textAt_eq_text_iff`), so it tells the instruction
(`GameBoy.Printed.eq_of_outline`). Every operand is printed in one of these ways
(`GameBoy.Printed.exists_text_eq`).
-/

namespace GameBoy

/-- The text of a condition, in front of an address. -/
def conditionText : Option Condition → String
  | none => ""
  | some condition => condition.name ++ ", "

/-- **An instruction with an operand, as it is printed.** -/
inductive Printed where
  /-- A jump to an address. -/
  | jump (condition : Option Condition) (target : UInt16)
  /-- A relative jump, which is printed with the address as well. -/
  | jumpRelative (condition : Option Condition) (target : UInt16)
  | call (condition : Option Condition) (target : UInt16)
  /-- A restart, whose target is on the first page. -/
  | restart (target : UInt8)
  | storeHigh (address : UInt16)
  | loadHigh (address : UInt16)
  | storeAbsolute (address : UInt16)
  | loadAbsolute (address : UInt16)
  | storeStackPointer (address : UInt16)
  | loadByte (target : ByteOperand) (value : UInt8)
  | loadWord (target : RegisterPair) (value : UInt16)
  | accumulateByte (op : Alu.AccumulatorOp) (value : UInt8)
  /-- A signed byte is printed as its sign and its distance from zero. -/
  | addStackPointer (negative : Bool) (distance : UInt8)
  | loadStackAddress (negative : Bool) (distance : UInt8)
  deriving DecidableEq, Repr

namespace Printed

/-- The text up to the digits. -/
def opening : Printed → String
  | .jump condition _ => "jp " ++ conditionText condition ++ "$"
  | .jumpRelative condition _ => "jr " ++ conditionText condition ++ "$"
  | .call condition _ => "call " ++ conditionText condition ++ "$"
  | .restart _ => "rst $"
  | .storeHigh _ => "ldh ($"
  | .loadHigh _ => "ldh a, ($"
  | .storeAbsolute _ | .storeStackPointer _ => "ld ($"
  | .loadAbsolute _ => "ld a, ($"
  | .loadByte target _ => "ld " ++ target.name ++ ", $"
  | .loadWord target _ => "ld " ++ target.name ++ ", $"
  | .accumulateByte op _ => op.mnemonic ++ " $"
  | .addStackPointer negative _ => if negative then "add sp, -$" else "add sp, $"
  | .loadStackAddress negative _ => if negative then "ld hl, sp-$" else "ld hl, sp+$"

/-- The digits of the operand. -/
def digits : Printed → String
  | .jump _ word | .jumpRelative _ word | .call _ word | .storeHigh word | .loadHigh word
  | .storeAbsolute word | .loadAbsolute word | .storeStackPointer word | .loadWord _ word =>
    wordHex word
  | .restart byte | .loadByte _ byte | .accumulateByte _ byte | .addStackPointer _ byte
  | .loadStackAddress _ byte => byteHex byte

/-- The text after the digits. -/
def closing : Printed → String
  | .storeHigh _ | .storeAbsolute _ => "), a"
  | .storeStackPointer _ => "), sp"
  | .loadHigh _ | .loadAbsolute _ => ")"
  | _ => ""

/-- **The text that is printed.** -/
def text (p : Printed) : String := p.opening ++ p.digits ++ p.closing

/-! ### The instruction that is printed -/

/-- The instruction, or in place of a restart any of its kind. -/
def instruction : Printed → Instruction
  | .jump none _ => .jump
  | .jump (some condition) _ => .jumpIf condition
  | .jumpRelative none _ => .jumpRelative
  | .jumpRelative (some condition) _ => .jumpRelativeIf condition
  | .call none _ => .call
  | .call (some condition) _ => .callIf condition
  | .restart _ => .restart Instruction.firstIndex
  | .storeHigh _ => .storeHigh
  | .loadHigh _ => .loadHigh
  | .storeAbsolute _ => .storeAbsolute
  | .loadAbsolute _ => .loadAbsolute
  | .storeStackPointer _ => .storeStackPointer
  | .loadByte target _ => .loadByte target
  | .loadWord target _ => .loadWord target
  | .accumulateByte op _ => .accumulateByte op
  | .addStackPointer .. => .addStackPointer
  | .loadStackAddress .. => .loadStackAddress

/-- Whether there is a minus sign. -/
def negative : Printed → Bool
  | .addStackPointer negative _ | .loadStackAddress negative _ => negative
  | _ => false

/-- What is printed apart from the digits. -/
def outline (p : Printed) : Outline := .first p.instruction p.negative

/-- This is its line. -/
theorem line_outline (p : Printed) :
    ∃ before, p.opening = before ++ "$" ∧ p.outline.line = ⟨before, some "", p.closing⟩ := by
  refine ⟨p.outline.line.before, ?_, ?_⟩
  · cases p with
    | jump condition | jumpRelative condition | call condition =>
      rcases condition with _ | condition
      · rfl
      · cases condition <;> rfl
    | loadByte target =>
      rcases target with r | _
      · cases r <;> rfl
      · rfl
    | loadWord target => cases target <;> rfl
    | accumulateByte op => cases op <;> rfl
    | addStackPointer negative | loadStackAddress negative => cases negative <;> rfl
    | _ => rfl
  · cases p with
    | jump condition | jumpRelative condition | call condition => cases condition <;> rfl
    | _ => rfl

/-- **What is printed is the outline with the digits put in.** -/
theorem text_eq (p : Printed) : p.text = (p.outline.line.fill p.digits).text := by
  obtain ⟨before, opening, line⟩ := p.line_outline
  rw [line, text, opening]
  change _ = before ++ ("$" ++ p.digits) ++ p.closing
  simp only [String.append_assoc]

/-- It is one of the outlines that there are. -/
theorem outline_mem_all (p : Printed) : p.outline ∈ Outline.all := by
  have opcode : p.instruction.hasOpcode = true := by
    cases p with
    | jump condition | jumpRelative condition | call condition => cases condition <;> rfl
    | _ => rfl
  have sign : ∀ negative : Bool, isNegative (if negative then 0x80 else 0) = negative := by decide
  have signed : p.outline = p.instruction.outline (if p.negative then 0x80 else 0) := by
    cases p with
    | jump condition | jumpRelative condition | call condition => cases condition <;> rfl
    | addStackPointer negative | loadStackAddress negative =>
      exact congrArg (Outline.first _) (sign negative).symm
    | _ => rfl
  rw [signed]
  exact Outline.mem_all opcode _

theorem mem_digits (p : Printed) : ∀ d ∈ p.digits.toList, d ∈ LetterCase.lower.digits := by
  intro d hd
  cases p with
  | restart | loadByte | accumulateByte | addStackPointer | loadStackAddress =>
    exact mem_digits_of_mem_byteHex hd
  | _ => exact mem_digits_of_mem_wordHex hd

variable {p : Printed} {i : Instruction} {peek : UInt16 → UInt8} {pc : UInt16}

/-- **The text of an instruction is what is printed** exactly if outline and digits are the same. -/
theorem textAt_eq_text_iff (hi : i.hasOpcode = true) :
    i.textAt peek pc = p.text ↔
      i.outline (peek (pc + 1)) = p.outline ∧
        i.digits pc (peek (pc + 1)) (peek (pc + 2)) = p.digits := by
  rw [Instruction.textAt_eq, text_eq]
  constructor
  · intro h
    obtain ⟨outline, digits⟩ := Outline.eq_of_text (Outline.mem_all hi _) p.outline_mem_all
      (i.mem_digits _ _ _) p.mem_digits h
    obtain ⟨before, -, line⟩ := p.line_outline
    refine ⟨outline, digits ?_⟩
    rw [outline, line]
    exact Option.some_ne_none _
  · rintro ⟨outline, digits⟩
    rw [outline, digits]

/-- It is of the same kind. -/
theorem kind_of_outline {first : UInt8} (h : i.outline first = p.outline) :
    i.kind = p.instruction := by
  rw [← i.kind_outline first, h]
  rfl

/-- **It is the instruction that is printed.** -/
theorem eq_of_outline {first : UInt8} (h : i.outline first = p.outline)
    (hp : p.instruction.isNumbered = false) : i = p.instruction := by
  have kind := kind_of_outline h
  rw [← Instruction.kind_eq_self hp] at kind
  exact (Instruction.eq_of_kind kind.symm hp).symm

/-- A restart is printed as one, with its target. -/
theorem exists_restart_of_outline {first : UInt8} {target : UInt8}
    (h : i.outline first = (restart target).outline) : ∃ index, i = .restart index := by
  have kind := kind_of_outline h
  cases i with
  | restart index => exact ⟨index, rfl⟩
  | _ => cases kind

/-- **The digits of a word** are those of its two halves. -/
theorem wordHex_eq (w : UInt16) : wordHex w = byteHex (highByte w) ++ byteHex (lowByte w) := by
  have bound := w.toNat_lt
  have high : (highByte w).toNat = w.toNat / 256 := by
    simp [highByte, Nat.shiftRight_eq_div_pow]
    omega
  have low : (lowByte w).toNat = w.toNat % 256 := by simp [lowByte]
  -- a digit is that of the remainder
  have digit (k : Nat) : LetterCase.lower.digit (k % 16) = LetterCase.lower.digit k := by
    rw [LetterCase.digit, LetterCase.digit, Nat.mod_mod]
  have third : w.toNat % 256 / 16 % 16 = w.toNat / 16 % 16 := by omega
  have fourth : w.toNat % 256 % 16 = w.toNat % 16 := by omega
  rw [wordHex, byteHex, byteHex, high, low, ← String.ofList_append]
  simp only [hexDigits, List.nil_append, List.append_assoc]
  rw [← digit (w.toNat % 256 / 16), ← digit (w.toNat % 256), third, fourth, digit, digit]
  have half : w.toNat / 16 / 16 = w.toNat / 256 := Nat.div_div_eq_div_mul ..
  rw [half]

/-- The digits of an address on the topmost page. -/
theorem wordHex_highPage (low : UInt8) : wordHex (highPage low) = "ff" ++ byteHex low := by
  have high : byteHex 0xFF = "ff" := by decide
  rw [wordHex_eq, highPage, highByte_word, lowByte_word, high]

/-- **Every operand is printed**, and so is the target of every restart. -/
theorem exists_text_eq (hi : i.hasOpcode = true) (h : i.template.gap ≠ none ∨ i.calls = true) :
    ∃ p : Printed, i.textAt peek pc = p.text := by
  suffices printed : ∃ p : Printed, i.outline (peek (pc + 1)) = p.outline ∧
      i.digits pc (peek (pc + 1)) (peek (pc + 2)) = p.digits by
    obtain ⟨p, same⟩ := printed
    exact ⟨p, (textAt_eq_text_iff hi).mpr same⟩
  cases i with
  | jump => exact ⟨.jump none _, rfl, rfl⟩
  | jumpIf condition => exact ⟨.jump (some condition) _, rfl, rfl⟩
  | jumpRelative => exact ⟨.jumpRelative none _, rfl, rfl⟩
  | jumpRelativeIf condition => exact ⟨.jumpRelative (some condition) _, rfl, rfl⟩
  | call => exact ⟨.call none _, rfl, rfl⟩
  | callIf condition => exact ⟨.call (some condition) _, rfl, rfl⟩
  | restart => exact ⟨.restart _, rfl, rfl⟩
  | storeHigh => exact ⟨.storeHigh _, rfl, (wordHex_highPage _).symm⟩
  | loadHigh => exact ⟨.loadHigh _, rfl, (wordHex_highPage _).symm⟩
  | storeAbsolute => exact ⟨.storeAbsolute _, rfl, rfl⟩
  | loadAbsolute => exact ⟨.loadAbsolute _, rfl, rfl⟩
  | storeStackPointer => exact ⟨.storeStackPointer _, rfl, rfl⟩
  | loadByte target => exact ⟨.loadByte target _, rfl, rfl⟩
  | loadWord target => exact ⟨.loadWord target _, rfl, rfl⟩
  | accumulateByte op => exact ⟨.accumulateByte op _, rfl, rfl⟩
  | addStackPointer => exact ⟨.addStackPointer _ _, rfl, rfl⟩
  | loadStackAddress => exact ⟨.loadStackAddress _ _, rfl, rfl⟩
  | _ => exact absurd h (by simp [Instruction.template, Template.plain, Instruction.calls])

end Printed

end GameBoy
