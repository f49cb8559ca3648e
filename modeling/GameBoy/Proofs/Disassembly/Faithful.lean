import GameBoy.Proofs.Disassembly.Outline

/-!
# Disassembly is faithful

The text of an instruction, with the address at which it stands, tells which instruction it is and
by which bytes it is followed, and these bytes tell the text. So two memories disassemble to the same
text at an address exactly if they hold the same bytes of code there
(`GameBoy.disassemble_eq_iff`). The second byte of a stop is not code in this sense: it is passed
over, by the processor as well as by the text.

The reason is that each of the parts into which a text can be cut tells its own part of the
instruction. The outline tells everything but the digits (`GameBoy.Outline.eq_of_text`), and the
digits tell the bytes (`GameBoy.Gap.digits_inj`), an address that a distance leads to as well as
a magnitude whose sign is known.
-/

namespace GameBoy

/-! ### The bytes that digits tell -/

theorem lowByte_signExtend (b : UInt8) : lowByte (signExtend b) = b := by
  revert b
  decide +kernel

/-- A signed byte is told by its magnitude and its sign. -/
theorem magnitude_inj {a b : UInt8} (sign : isNegative a = isNegative b)
    (h : magnitude a = magnitude b) : a = b := by
  rw [magnitude, magnitude, sign] at h
  split at h
  · exact UInt8.neg_inj.mp h
  · exact h

/-- A restart is told by the low byte of its target. -/
theorem lowByte_restartAddress_inj {a b : Fin 8}
    (h : lowByte (restartAddress a) = lowByte (restartAddress b)) : a = b := by
  revert a b
  decide

namespace Gap

/-- The gaps that take two bytes. -/
def isWide : Gap → Bool
  | .word | .address => true
  | _ => false

/-- The gaps with a sign before the dollar sign. -/
def isSigned : Gap → Bool
  | .offset | .addedOffset => true
  | _ => false

/-- **The digits of an operand tell its bytes.** -/
theorem digits_inj {gap : Gap} {pc : UInt16} {first second first' second' : UInt8}
    (sign : gap.isSigned = true → isNegative first = isNegative first')
    (h : gap.digits pc first second = gap.digits pc first' second') :
    first = first' ∧ (gap.isWide = true → second = second') := by
  have narrow {P : Prop} (wide : false = true) : P := absurd wide Bool.false_ne_true
  cases gap with
  | byte => exact ⟨byteHex_inj.mp h, narrow⟩
  | highAddress =>
    refine ⟨byteHex_inj.mp (String.toList_inj.mp ?_), narrow⟩
    have letters := congrArg String.toList h
    rw [digits, digits, String.toList_append, String.toList_append] at letters
    exact List.append_cancel_left letters
  | word | address =>
    have same := wordHex_inj.mp h
    exact ⟨by simpa using congrArg lowByte same, fun _ => by simpa using congrArg highByte same⟩
  | distance =>
    have same := (UInt16.add_right_inj _).mp (wordHex_inj.mp h)
    have low := congrArg lowByte same
    rw [lowByte_signExtend, lowByte_signExtend] at low
    exact ⟨low, narrow⟩
  | offset | addedOffset => exact ⟨magnitude_inj (sign rfl) (byteHex_inj.mp h), narrow⟩

/-- **The bytes tell the digits**, as many of them as are used. -/
theorem digits_congr {gap : Gap} {pc : UInt16} {first second second' : UInt8}
    (h : gap.isWide = true → second = second') :
    gap.digits pc first second = gap.digits pc first second' := by
  cases gap with
  | word | address => rw [h rfl]
  | _ => rfl

end Gap

/-- The instruction of the first page that an outline shows. -/
def Outline.kind : Outline → Instruction
  | .first i _ => i
  | .second _ => .page

namespace Instruction

variable {i j : Instruction} {pc : UInt16} {first second first' second' : UInt8}

/-! ### The instruction that outline and digits tell -/

/-- The instructions that only their digits tell from others of their kind. -/
def isNumbered : Instruction → Bool
  | .illegal _ | .restart _ => true
  | _ => false

/-- The instruction that an outline shows in place of any of its kind. -/
def kind (i : Instruction) : Instruction :=
  match i with
  | .illegal _ => .illegal 0xD3
  | .restart _ => .restart firstIndex
  | i => i

theorem kind_outline (i : Instruction) (first : UInt8) : (i.outline first).kind = i.kind := by
  cases i <;> rfl

theorem kind_eq_self (h : i.isNumbered = false) : i.kind = i := by
  cases i with
  | illegal | restart => cases h
  | _ => rfl

theorem isNumbered_kind (i : Instruction) : i.kind.isNumbered = i.isNumbered := by
  cases i <;> rfl

/-- Instructions of one kind are numbered or the same. -/
theorem eq_of_kind (h : i.kind = j.kind) (hi : i.isNumbered = false) : i = j := by
  have hj : j.isNumbered = false := by rw [← isNumbered_kind, ← h, isNumbered_kind, hi]
  rwa [kind_eq_self hi, kind_eq_self hj] at h

/-- **Outline and digits tell the instruction.** -/
theorem eq_of_outline (outline : i.outline first = j.outline first')
    (digits : (i.outline first).line.digits ≠ none →
      i.digits pc first second = j.digits pc first' second') : i = j := by
  have kind : i.kind = j.kind := by rw [← kind_outline i first, outline, kind_outline]
  cases i with
  | illegal a =>
    cases j with
    | illegal b => rw [byteHex_inj.mp (digits (Option.some_ne_none _))]
    | _ => cases kind
  | restart a =>
    cases j with
    | restart b =>
      rw [lowByte_restartAddress_inj (byteHex_inj.mp (digits (Option.some_ne_none _)))]
    | _ => cases kind
  | _ => exact eq_of_kind kind rfl

/-! ### The bytes that outline and digits tell -/

/-- As many bytes belong to the code of an instruction as its gap is wide, after the opcode. -/
theorem codeBytes_eq (h : i.ordinary = true) :
    i.codeBytes =
      match i.template.gap with
      | none => 1
      | some gap => if gap.isWide then 3 else 2 := by
  cases i with
  | page | illegal | restart => cases h
  | _ => rfl

/-- The sign of an operand is in the outline. -/
theorem sign_eq_of_outline {gap : Gap} (hg : i.template.gap = some gap)
    (signed : gap.isSigned = true) (h : i.outline first = i.outline first') :
    isNegative first = isNegative first' := by
  cases i with
  | addStackPointer | loadStackAddress => exact (Outline.first.inj h).2
  | _ => cases hg <;> cases signed

/-- **Outline and digits tell the bytes of code** after the opcode. -/
theorem bytes_eq_of_outline (outline : i.outline first = i.outline first')
    (digits : (i.outline first).line.digits ≠ none →
      i.digits pc first second = i.digits pc first' second') :
    (1 < i.codeBytes → first = first') ∧ (2 < i.codeBytes → second = second') := by
  by_cases h : i.ordinary = true
  · rw [codeBytes_eq h]
    rw [line_outline h, Template.line, digits_eq h, digits_eq h, Template.digits,
      Template.digits] at digits
    cases hg : i.template.gap with
    | none => simp
    | some gap =>
      simp only [hg] at digits
      obtain ⟨low, high⟩ := Gap.digits_inj (fun signed => sign_eq_of_outline hg signed outline)
        (digits (Option.some_ne_none _))
      refine ⟨fun _ => low, fun wide => high ?_⟩
      by_contra narrow
      simp [narrow] at wide
  · cases i with
    | page =>
      have same := congrArg PageInstruction.opcode (Outline.second.inj outline)
      rw [PageInstruction.opcode_decode, PageInstruction.opcode_decode] at same
      exact ⟨fun _ => same, fun more => absurd more (Nat.lt_irrefl 2)⟩
    | illegal | restart => simp [codeBytes, length]
    | _ => exact absurd rfl h

/-- **The bytes of code tell the text.** -/
theorem textAt_congr {peek peek' : UInt16 → UInt8}
    (low : 1 < i.codeBytes → peek (pc + 1) = peek' (pc + 1))
    (high : 2 < i.codeBytes → peek (pc + 2) = peek' (pc + 2)) :
    i.textAt peek pc = i.textAt peek' pc := by
  by_cases h : i.ordinary = true
  · rw [textAt_of_ordinary h, textAt_of_ordinary h, Template.fill, Template.fill]
    rw [codeBytes_eq h] at low high
    cases hg : i.template.gap with
    | none => rfl
    | some gap =>
      simp only [hg] at low high ⊢
      have first : peek (pc + 1) = peek' (pc + 1) := low (by split <;> decide)
      rw [Gap.render_eq, Gap.render_eq, first, Gap.digits_congr fun wide => high (by simp [wide])]
  · cases i with
    | page => rw [textAt_page, textAt_page, low (by decide)]
    | illegal | restart => rfl
    | _ => exact absurd rfl h

/-- **Two texts at an address are the same** exactly if they are of the same instruction, with the
same bytes of code. -/
theorem textAt_eq_iff (hi : i.hasOpcode = true) (hj : j.hasOpcode = true)
    {peek peek' : UInt16 → UInt8} :
    i.textAt peek pc = j.textAt peek' pc ↔
      i = j ∧ (1 < i.codeBytes → peek (pc + 1) = peek' (pc + 1)) ∧
        (2 < i.codeBytes → peek (pc + 2) = peek' (pc + 2)) := by
  constructor
  · intro h
    rw [textAt_eq, textAt_eq] at h
    obtain ⟨outline, digits⟩ := Outline.eq_of_text (Outline.mem_all hi _) (Outline.mem_all hj _)
      (i.mem_digits _ _ _) (j.mem_digits _ _ _) h
    obtain rfl := eq_of_outline outline digits
    exact ⟨rfl, bytes_eq_of_outline outline digits⟩
  · rintro ⟨rfl, low, high⟩
    exact textAt_congr low high

/-- The bytes of code are those of the instruction, but for the second one of a stop. -/
theorem lt_codeBytes_iff (i : Instruction) (k : Nat) :
    k < i.codeBytes ↔ k < i.length ∧ ¬(i = .stop ∧ k = 1) := by
  cases i with
  | stop =>
    simp only [codeBytes, length, true_and]
    omega
  | _ => simp [codeBytes]

/-- There are one, two or three of them. -/
theorem forall_lt_codeBytes_iff (i : Instruction) (P : Nat → Prop) :
    (∀ k < i.length, ¬(i = .stop ∧ k = 1) → P k) ↔
      P 0 ∧ (1 < i.codeBytes → P 1) ∧ (2 < i.codeBytes → P 2) := by
  obtain ⟨pos, -, bound⟩ := i.codeBytes_bounds
  simp only [← and_imp, ← lt_codeBytes_iff]
  constructor
  · exact fun h => ⟨h 0 pos, h 1, h 2⟩
  · rintro ⟨zero, one, two⟩ k hk
    match k with
    | 0 => exact zero
    | 1 => exact one hk
    | 2 => exact two hk
    | k + 3 => omega

end Instruction

theorem disassemble_fst {β : Type} [Bus β] (bus : β) (a : UInt16) :
    (disassemble bus a).1 = (Instruction.decode (Bus.peek bus a)).textAt (Bus.peek bus) a := by
  rw [disassemble]

theorem disassemble_snd {β : Type} [Bus β] (bus : β) (a : UInt16) :
    (disassemble bus a).2 = (Instruction.decode (Bus.peek bus a)).length := by
  rw [disassemble]

/-- **Disassembly is faithful.** At an address, wherever it is, two buses disassemble to the same
text and length, or only to the same text, exactly if they show the same bytes there, as many of them
as the instruction is long; except that the second byte of a stop may be any. So the text tells the
opcode, on both pages and if it means nothing, and every byte of the operand. -/
theorem disassemble_eq_iff {β γ : Type} [Bus β] [Bus γ] (b : β) (c : γ) (a : UInt16) :
    let i := Instruction.decode (Bus.peek b a)
    let agree := ∀ k < i.length, ¬(i = .stop ∧ k = 1) →
      Bus.peek c (a + UInt16.ofNat k) = Bus.peek b (a + UInt16.ofNat k)
    (disassemble c a = disassemble b a ↔ agree) ∧
      ((disassemble c a).1 = (disassemble b a).1 ↔ agree) := by
  intro i agree
  have opcode : Instruction.decode (Bus.peek c a) = i ↔ Bus.peek c a = Bus.peek b a := by
    constructor
    · intro same
      rw [← Instruction.opcode_decode (Bus.peek c a), same, Instruction.opcode_decode]
    · intro same
      rw [same]
  have bytes : agree ↔ Instruction.decode (Bus.peek c a) = i ∧
      (1 < i.codeBytes → Bus.peek c (a + 1) = Bus.peek b (a + 1)) ∧
      (2 < i.codeBytes → Bus.peek c (a + 2) = Bus.peek b (a + 2)) := by
    rw [opcode]
    have first : a + UInt16.ofNat 0 = a := UInt16.add_zero a
    have all := i.forall_lt_codeBytes_iff fun k =>
      Bus.peek c (a + UInt16.ofNat k) = Bus.peek b (a + UInt16.ofNat k)
    rwa [first] at all
  have text : (disassemble c a).1 = (disassemble b a).1 ↔ agree := by
    rw [disassemble_fst, disassemble_fst, bytes,
      Instruction.textAt_eq_iff (Instruction.hasOpcode_decode _) (Instruction.hasOpcode_decode _)]
    exact and_congr_right fun same => by rw [same]
  refine ⟨⟨fun h => text.mp (congrArg Prod.fst h), fun h => Prod.ext (text.mpr h) ?_⟩, text⟩
  rw [disassemble_snd, disassemble_snd, (bytes.mp h).1]

end GameBoy
