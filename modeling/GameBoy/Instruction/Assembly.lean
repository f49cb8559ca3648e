import GameBoy.Hex
import GameBoy.Instruction
import GameBoy.Word

/-!
# Assembly text

How instructions are written down. An instruction of the first page has a *template*: fixed text
with at most one gap, where a byte or a word that follows the opcode goes. The template itself shows
the gap as a placeholder; the disassembly of an instruction in memory shows the operand.

* `GameBoy.Instruction.template` – the template of an instruction;
* `GameBoy.Template.mnemonic` – the template as text, with its placeholder;
* `GameBoy.Template.fill` – the text of an instruction at an address, followed by given bytes;
* `GameBoy.PageInstruction.mnemonic` – the text of an instruction of the second page, which has no
  gap.
-/

namespace GameBoy

/-- **What goes into the gap of a template.** -/
inductive Gap where
  /-- A byte. -/
  | byte
  /-- A word. -/
  | word
  /-- The low byte of an address on the topmost page. -/
  | highAddress
  /-- An address. -/
  | address
  /-- The distance to an address, from the instruction that follows. -/
  | distance
  /-- A signed byte. -/
  | offset
  /-- A signed byte that is added to what stands before it. -/
  | addedOffset
  deriving DecidableEq, Repr

namespace Gap

/-- The placeholder of a gap. -/
def placeholder : Gap → String
  | .byte => "d8"
  | .word => "d16"
  | .highAddress => "a8"
  | .address => "a16"
  | .distance => "r8"
  | .offset => "e8"
  | .addedOffset => "+e8"

/-- **The operand as text**, for an instruction at the address `pc` whose opcode is followed by the
bytes `first` and `second`. A distance is shown as the address it leads to. -/
def render (gap : Gap) (pc : UInt16) (first second : UInt8) : String :=
  match gap with
  | .byte => "$" ++ byteHex first
  | .word | .address => "$" ++ wordHex (GameBoy.word second first)
  | .highAddress => "$ff" ++ byteHex first
  | .distance => "$" ++ wordHex (pc + 2 + signExtend first)
  | .offset => (if isNegative first then "-$" else "$") ++ byteHex (magnitude first)
  | .addedOffset => (if isNegative first then "-$" else "+$") ++ byteHex (magnitude first)

end Gap

/-- **Text with at most one gap.** -/
structure Template where
  /-- The text up to the gap. -/
  before : String
  gap : Option Gap
  /-- The text after the gap. -/
  after : String
  deriving DecidableEq, Repr

namespace Template

/-- Text without a gap. -/
def plain (text : String) : Template := ⟨text, none, ""⟩

/-- Text that ends in a gap. -/
def ending (before : String) (gap : Gap) : Template := ⟨before, some gap, ""⟩

/-- The template as text, with the placeholder in its gap. -/
def mnemonic (t : Template) : String :=
  match t.gap with
  | none => t.before
  | some gap => t.before ++ gap.placeholder ++ t.after

/-- The template as text, with the operand in its gap. -/
def fill (t : Template) (pc : UInt16) (first second : UInt8) : String :=
  match t.gap with
  | none => t.before
  | some gap => t.before ++ gap.render pc first second ++ t.after

end Template

/-- How assembly text names a rotate of the accumulator. -/
def AccumulatorRotate.mnemonic (op : AccumulatorRotate) : String := op.shift.mnemonic ++ "a"

/-- **The text of an instruction of the second page.** -/
def PageInstruction.mnemonic : PageInstruction → String
  | .shift op operand => op.mnemonic ++ " " ++ operand.name
  | .testBit bit operand => "bit " ++ toString bit.val ++ ", " ++ operand.name
  | .clearBit bit operand => "res " ++ toString bit.val ++ ", " ++ operand.name
  | .setBit bit operand => "set " ++ toString bit.val ++ ", " ++ operand.name

/-- **The template of an instruction.** -/
def Instruction.template : Instruction → Template
  | .nop => .plain "nop"
  | .stop => .plain "stop"
  | .halt => .plain "halt"
  | .disableInterrupts => .plain "di"
  | .enableInterrupts => .plain "ei"
  | .illegal opcode => .plain ("illegal $" ++ byteHex opcode)
  | .page => .plain "prefix cb"
  | .load target source => .plain ("ld " ++ target.name ++ ", " ++ source.name)
  | .loadByte target => .ending ("ld " ++ target.name ++ ", ") .byte
  | .loadWord target => .ending ("ld " ++ target.name ++ ", ") .word
  | .storeIndirect pointer => .plain ("ld (" ++ pointer.name ++ "), a")
  | .loadIndirect pointer => .plain ("ld a, (" ++ pointer.name ++ ")")
  | .storeHigh => ⟨"ldh (", some .highAddress, "), a"⟩
  | .loadHigh => ⟨"ldh a, (", some .highAddress, ")"⟩
  | .storeHighC => .plain "ld (c), a"
  | .loadHighC => .plain "ld a, (c)"
  | .storeAbsolute => ⟨"ld (", some .address, "), a"⟩
  | .loadAbsolute => ⟨"ld a, (", some .address, ")"⟩
  | .storeStackPointer => ⟨"ld (", some .address, "), sp"⟩
  | .loadStackPointer => .plain "ld sp, hl"
  | .loadStackAddress => .ending "ld hl, sp" .addedOffset
  | .push source => .plain ("push " ++ source.name)
  | .pop target => .plain ("pop " ++ target.name)
  | .accumulate op operand => .plain (op.mnemonic ++ " " ++ operand.name)
  | .accumulateByte op => .ending (op.mnemonic ++ " ") .byte
  | .increment operand => .plain ("inc " ++ operand.name)
  | .decrement operand => .plain ("dec " ++ operand.name)
  | .incrementPair pair => .plain ("inc " ++ pair.name)
  | .decrementPair pair => .plain ("dec " ++ pair.name)
  | .addPair pair => .plain ("add hl, " ++ pair.name)
  | .addStackPointer => .ending "add sp, " .offset
  | .rotate op => .plain op.mnemonic
  | .decimalAdjust => .plain "daa"
  | .complement => .plain "cpl"
  | .setCarry => .plain "scf"
  | .complementCarry => .plain "ccf"
  | .jump => .ending "jp " .address
  | .jumpIf condition => .ending ("jp " ++ condition.name ++ ", ") .address
  | .jumpHL => .plain "jp hl"
  | .jumpRelative => .ending "jr " .distance
  | .jumpRelativeIf condition => .ending ("jr " ++ condition.name ++ ", ") .distance
  | .call => .ending "call " .address
  | .callIf condition => .ending ("call " ++ condition.name ++ ", ") .address
  | .ret => .plain "ret"
  | .retIf condition => .plain ("ret " ++ condition.name)
  | .retInterrupt => .plain "reti"
  | .restart index => .plain ("rst $" ++ byteHex (lowByte (restartAddress index)))

/-- The template of an instruction as text. -/
def Instruction.mnemonic (i : Instruction) : String := i.template.mnemonic

end GameBoy
