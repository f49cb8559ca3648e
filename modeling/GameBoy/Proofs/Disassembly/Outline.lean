import GameBoy.Disassembly
import GameBoy.Proofs.Disassembly.Line
import GameBoy.Proofs.Instruction.SecondPage

/-!
# The outlines of disassembled text

What is left of a disassembled text when its digits are taken out is its *outline*
(`GameBoy.Outline`): the text of the instruction with a sign in front of the digits, if there is
one. There are only some five hundred outlines, `GameBoy.Outline.all`, which are few enough to be
compared with one another. No two of them read the same (`GameBoy.Outline.line_inj`), and a text can
be cut into its outline and its digits in one way only. So both of them can be told from the text,
`GameBoy.Outline.eq_of_text`, and whatever a text says can be asked of the two parts by themselves.

Two groups of instructions are shown by one outline each, the opcodes that mean nothing and the
restarts, because their numbers are written as digits too.
-/

namespace GameBoy

/-- The line with digits put in, if there is a place for them. -/
def Line.fill (l : Line) (digits : String) : Line :=
  { l with digits := l.digits.map fun _ => digits }

theorem Line.fill_fill (l : Line) (digits digits' : String) :
    (l.fill digits).fill digits' = l.fill digits' := by
  simp [fill, Function.comp_def]

namespace Gap

/-- The sign that stands before the dollar sign of an operand. -/
def sign (gap : Gap) (negative : Bool) : String :=
  match gap with
  | .offset => if negative then "-" else ""
  | .addedOffset => if negative then "-" else "+"
  | _ => ""

/-- The digits of an operand. -/
def digits (gap : Gap) (pc : UInt16) (first second : UInt8) : String :=
  match gap with
  | .byte => byteHex first
  | .word | .address => wordHex (GameBoy.word second first)
  | .highAddress => "ff" ++ byteHex first
  | .distance => wordHex (pc + 2 + signExtend first)
  | .offset | .addedOffset => byteHex (magnitude first)

/-- **An operand is shown** as its sign, the dollar sign and its digits. -/
theorem render_eq (gap : Gap) (pc : UInt16) (first second : UInt8) :
    gap.render pc first second =
      gap.sign (isNegative first) ++ ("$" ++ gap.digits pc first second) := by
  cases gap with
  | byte | word | address | distance => exact String.empty_append.symm
  | highAddress =>
    change "$ff" ++ byteHex first = "" ++ ("$" ++ ("ff" ++ byteHex first))
    rw [String.empty_append, ← String.append_assoc]
    rfl
  | offset | addedOffset =>
    rw [render, sign, digits, ← String.append_assoc]
    split <;> rfl

end Gap

namespace Template

/-- The line of a template, with no digits in its gap. -/
def line (t : Template) (negative : Bool) : Line :=
  match t.gap with
  | none => ⟨t.before, none, ""⟩
  | some gap => ⟨t.before ++ gap.sign negative, some "", t.after⟩

/-- The digits that go into its gap. -/
def digits (t : Template) (pc : UInt16) (first second : UInt8) : String :=
  match t.gap with
  | none => ""
  | some gap => gap.digits pc first second

/-- A template with its gap filled is its line with the digits put in. -/
theorem fill_eq (t : Template) (pc : UInt16) (first second : UInt8) :
    t.fill pc first second =
      ((t.line (isNegative first)).fill (t.digits pc first second)).text := by
  rw [fill, line, digits]
  cases t.gap with
  | none => rfl
  | some gap =>
    simp only [Gap.render_eq]
    change _ = t.before ++ gap.sign (isNegative first) ++ ("$" ++ gap.digits pc first second) ++
      t.after
    simp only [String.append_assoc]

end Template

/-- **What a text shows apart from the digits.** -/
inductive Outline where
  /-- An instruction of the first page, with the sign of its operand. -/
  | first (i : Instruction) (negative : Bool)
  /-- An instruction of the second page. -/
  | second (i : PageInstruction)
  deriving DecidableEq

/-- **The text of an outline**, with no digits in the place where there are some. Opcodes that mean
nothing differ in their digits only, and so do restarts. -/
def Outline.line : Outline → Line
  | .first (.illegal _) _ => ⟨"illegal ", some "", ""⟩
  | .first (.restart _) _ => ⟨"rst ", some "", ""⟩
  | .first i negative => i.template.line negative
  | .second i => ⟨i.mnemonic, none, ""⟩

/-- There is no place for digits in the text of an instruction of the second page. -/
theorem Outline.text_fill_second (i : PageInstruction) (digits : String) :
    ((Outline.second i).line.fill digits).text = i.mnemonic := rfl

namespace Instruction

/-- The number of the restart that stands for all of them. -/
def firstIndex : Fin 8 := ⟨0, by decide⟩

/-- **The outline of the text of an instruction**, which is followed by a byte. -/
def outline (i : Instruction) (first : UInt8) : Outline :=
  match i with
  | .page => .second (.decode first)
  | .illegal _ => .first (.illegal 0xD3) false
  | .restart _ => .first (.restart firstIndex) false
  | .addStackPointer => .first .addStackPointer (isNegative first)
  | .loadStackAddress => .first .loadStackAddress (isNegative first)
  | i => .first i false

/-- **The digits in the text of an instruction** at an address, which is followed by two bytes. -/
def digits (i : Instruction) (pc : UInt16) (first second : UInt8) : String :=
  match i with
  | .illegal opcode => byteHex opcode
  | .restart index => byteHex (lowByte (restartAddress index))
  | i => i.template.digits pc first second

theorem textAt_page (peek : UInt16 → UInt8) (pc : UInt16) :
    page.textAt peek pc = (PageInstruction.decode (peek (pc + 1))).mnemonic := rfl

/-- The instructions whose text follows their template. -/
def ordinary : Instruction → Bool
  | .page | .illegal _ | .restart _ => false
  | _ => true

theorem line_outline {i : Instruction} (h : i.ordinary = true) (first : UInt8) :
    (i.outline first).line = i.template.line (isNegative first) := by
  cases i with
  | page | illegal | restart => cases h
  | _ => rfl

theorem digits_eq {i : Instruction} (h : i.ordinary = true) (pc : UInt16) (first second : UInt8) :
    i.digits pc first second = i.template.digits pc first second := by
  cases i with
  | page | illegal | restart => cases h
  | _ => rfl

theorem textAt_of_ordinary {i : Instruction} (h : i.ordinary = true) (peek : UInt16 → UInt8)
    (pc : UInt16) :
    i.textAt peek pc = i.template.fill pc (peek (pc + 1)) (peek (pc + 2)) := by
  cases i with
  | page | illegal | restart => cases h
  | _ => rfl

/-- **The text of an instruction** is its outline with the digits put in. -/
theorem textAt_eq (i : Instruction) (peek : UInt16 → UInt8) (pc : UInt16) :
    i.textAt peek pc =
      ((i.outline (peek (pc + 1))).line.fill
        (i.digits pc (peek (pc + 1)) (peek (pc + 2)))).text := by
  by_cases h : i.ordinary = true
  · rw [textAt_of_ordinary h, line_outline h, digits_eq h, Template.fill_eq]
  -- what is left has no gap for its digits
  have number (before opening : String) (h : opening = before ++ "$") (digits : String) :
      opening ++ digits = (Line.fill ⟨before, some "", ""⟩ digits).text := by
    change _ = before ++ ("$" ++ digits) ++ ""
    rw [h, String.append_empty, String.append_assoc]
  cases i with
  | page => exact (textAt_page peek pc).trans (Outline.text_fill_second _ _).symm
  | illegal opcode => exact number "illegal " "illegal $" (by decide) (byteHex opcode)
  | restart index => exact number "rst " "rst $" (by decide) (byteHex _)
  | _ => exact absurd rfl h

end Instruction

/-! ### The outlines, all different -/

namespace Outline

/-- The outlines that begin with an instruction of the first page, if it has some of its own. -/
def ofInstruction (i : Instruction) : List Outline :=
  match i with
  | .page | .illegal _ | .restart _ => []
  | .addStackPointer | .loadStackAddress => [.first i false, .first i true]
  | i => [.first i false]

/-- **All outlines** that there are. -/
def all : List Outline :=
  .first (.illegal 0xD3) false :: .first (.restart Instruction.firstIndex) false ::
    (Instruction.firstPage.flatMap ofInstruction ++ PageInstruction.secondPage.map .second)

/-- **The outline of an instruction is among them.** -/
theorem mem_all {i : Instruction} (hi : i.hasOpcode = true) (first : UInt8) :
    i.outline first ∈ all := by
  have listed : i ∈ Instruction.firstPage := by
    rw [← Instruction.decode_opcode hi]
    exact List.mem_of_getElem? (Instruction.firstPage_getElem? _)
  have own (h : i.outline first ∈ ofInstruction i) : i.outline first ∈ all :=
    List.mem_cons_of_mem _ (List.mem_cons_of_mem _
      (List.mem_append_left _ (List.mem_flatMap.mpr ⟨i, listed, h⟩)))
  cases i with
  | page =>
    refine List.mem_cons_of_mem _ (List.mem_cons_of_mem _ (List.mem_append_right _ ?_))
    exact List.mem_map_of_mem (PageInstruction.mem_secondPage _)
  | illegal => exact List.mem_cons_self
  | restart => exact List.mem_cons_of_mem _ List.mem_cons_self
  | addStackPointer | loadStackAddress =>
    refine own ?_
    change Outline.first _ (isNegative first) ∈ [.first _ false, .first _ true]
    cases isNegative first <;> simp
  | _ => exact own List.mem_cons_self

end Outline

/-- The bytes of a text. -/
def utf8 (text : String) : List UInt8 := text.toByteArray.data.toList

/-- A line as a number, in base 256. -/
def Line.code (l : Line) : Nat :=
  (utf8 l.before ++ (if l.digits.isSome then [36] else []) ++ utf8 l.after).foldl
    (fun code (byte : UInt8) => 256 * code + byte.toNat) 0

/-- Whether the numbers in a list differ from one another and from those that have been seen, which
are the bits of `seen`. -/
def differ (seen : Nat) : List Nat → Bool
  | [] => true
  | n :: ns => !seen.testBit n && differ (seen ||| 1 <<< n) ns

theorem nodup_of_differ {seen : Nat} {ns : List Nat} (h : differ seen ns = true) :
    ns.Nodup ∧ ∀ n ∈ ns, seen.testBit n = false := by
  induction ns generalizing seen with
  | nil => exact ⟨List.nodup_nil, fun _ hn => absurd hn List.not_mem_nil⟩
  | cons n ns ih =>
    rw [differ, Bool.and_eq_true, Bool.not_eq_true'] at h
    obtain ⟨distinct, unseen⟩ := ih h.2
    have bits (k : Nat) (hk : k ∈ ns) : seen.testBit k = false ∧ n ≠ k := by
      have clear := unseen k hk
      rw [Nat.testBit_or, Bool.or_eq_false_iff, Nat.one_shiftLeft, Nat.testBit_two_pow] at clear
      exact ⟨clear.1, of_decide_eq_false clear.2⟩
    constructor
    · exact List.nodup_cons.mpr ⟨fun hn => (bits n hn).2 rfl, distinct⟩
    · intro k hk
      rcases List.mem_cons.mp hk with rfl | hk
      · exact h.1
      · exact (bits k hk).1

namespace Outline

/-- **The lines of all outlines are different.** Their numbers are too large to be compared one by
one, but their remainders by some number differ already. -/
theorem nodup_codes : (all.map fun o => o.line.code % 1000003).Nodup := by
  have distinct : differ 0 (all.map fun o => o.line.code % 1000003) = true := by decide +kernel
  exact (nodup_of_differ distinct).1

/-- **An outline can be told from its line.** -/
theorem line_inj {o o' : Outline} (ho : o ∈ all) (ho' : o' ∈ all) (h : o.line = o'.line) :
    o = o' := by
  refine List.inj_on_of_nodup_map nodup_codes ho ho' ?_
  rw [h]

/-- A letter of one byte is among the bytes of a text in which it is. -/
theorem mem_utf8 {text : String} (h : '$' ∈ text.toList) : 36 ∈ utf8 text := by
  rw [utf8, ← String.utf8Encode_toList, List.utf8Encode]
  simpa using ⟨'$', h, by decide⟩

/-- There is no dollar sign in an outline. -/
theorem dollar_notMem {o : Outline} (ho : o ∈ all) : '$' ∉ o.line.before.toList := by
  have bytes : (all.all fun o => !(utf8 o.line.before).contains 36) = true := by decide +kernel
  intro dollar
  have none := List.all_eq_true.mp bytes o ho
  simp [mem_utf8 dollar] at none

/-- After the digits comes a bracket, or nothing. -/
theorem after_line (o : Outline) : o.line.after ∈ ["", ")", "), a", "), sp"] := by
  cases o with
  | second => exact List.mem_cons_self
  | first i negative =>
    cases i <;> simp [line, Template.line, Instruction.template, Template.plain, Template.ending]

theorem fill_line (o : Outline) : o.line.fill "" = o.line := by
  cases o with
  | second => rfl
  | first i negative => cases i <;> rfl

/-- Without a place for digits there is nothing after it. -/
theorem after_eq_of_digits_eq_none {o : Outline} (h : o.line.digits = none) :
    o.line.after = "" := by
  cases o with
  | second => rfl
  | first i negative => cases i <;> first | rfl | cases h

/-- **With digits put in, an outline can still be told apart from them.** -/
theorem clear_fill {o : Outline} (ho : o ∈ all) {digits : String}
    (hd : ∀ d ∈ digits.toList, d ∈ LetterCase.lower.digits) : (o.line.fill digits).Clear where
  before := dollar_notMem ho
  digits := by
    intro shown hs bracket
    obtain ⟨-, -, rfl⟩ := Option.map_eq_some_iff.mp hs
    exact absurd (hd _ bracket) (by decide)
  after := by
    have after := o.after_line
    simp only [List.mem_cons, List.not_mem_nil, or_false] at after
    intro c hc
    change c ∈ o.line.after.toList.head? at hc
    rcases after with h | h | h | h <;> rw [h] at hc <;> simpa using hc.symm
  plain := fun h => after_eq_of_digits_eq_none (Option.map_eq_none_iff.mp h)

/-- **Outline and digits can be told from the text.** -/
theorem eq_of_text {o o' : Outline} (ho : o ∈ all) (ho' : o' ∈ all) {digits digits' : String}
    (hd : ∀ d ∈ digits.toList, d ∈ LetterCase.lower.digits)
    (hd' : ∀ d ∈ digits'.toList, d ∈ LetterCase.lower.digits)
    (h : (o.line.fill digits).text = (o'.line.fill digits').text) :
    o = o' ∧ (o.line.digits ≠ none → digits = digits') := by
  have lines := (clear_fill ho hd).eq_of_text (clear_fill ho' hd') h
  have same : o = o' := by
    refine line_inj ho ho' ?_
    have emptied := congrArg (Line.fill · "") lines
    simpa only [Line.fill_fill, fill_line] using emptied
  subst same
  refine ⟨rfl, fun shown => ?_⟩
  obtain ⟨place, hp⟩ := Option.ne_none_iff_exists'.mp shown
  have filled := congrArg Line.digits lines
  simpa [Line.fill, hp] using filled

end Outline

/-! ### Digits of operands -/

theorem mem_digits_of_mem_byteHex {b : UInt8} {d : Char} (h : d ∈ (byteHex b).toList) :
    d ∈ LetterCase.lower.digits := by
  rw [byteHex, String.toList_ofList] at h
  exact mem_digits_of_mem_hexDigits h

theorem mem_digits_of_mem_wordHex {w : UInt16} {d : Char} (h : d ∈ (wordHex w).toList) :
    d ∈ LetterCase.lower.digits := by
  rw [wordHex, String.toList_ofList] at h
  exact mem_digits_of_mem_hexDigits h

theorem Gap.mem_digits {gap : Gap} {pc : UInt16} {first second : UInt8} :
    ∀ d ∈ (gap.digits pc first second).toList, d ∈ LetterCase.lower.digits := by
  intro d hd
  cases gap with
  | byte | offset | addedOffset => exact mem_digits_of_mem_byteHex hd
  | word | address | distance => exact mem_digits_of_mem_wordHex hd
  | highAddress =>
    rw [digits, String.toList_append] at hd
    rcases List.mem_append.mp hd with page | low
    · have letters : "ff".toList = ['f', 'f'] := rfl
      rw [letters] at page
      have letter : d = 'f' := by simpa using page
      rw [letter]
      decide
    · exact mem_digits_of_mem_byteHex low

/-- **The digits in a text** are digits. -/
theorem Instruction.mem_digits (i : Instruction) (pc : UInt16) (first second : UInt8) :
    ∀ d ∈ (i.digits pc first second).toList, d ∈ LetterCase.lower.digits := by
  by_cases h : i.ordinary = true
  · rw [digits_eq h, Template.digits]
    cases i.template.gap with
    | none => exact fun d hd => absurd hd List.not_mem_nil
    | some gap => exact Gap.mem_digits
  · cases i with
    | page => exact fun d hd => absurd hd List.not_mem_nil
    | illegal | restart => exact fun d hd => mem_digits_of_mem_byteHex hd
    | _ => exact absurd rfl h

end GameBoy
