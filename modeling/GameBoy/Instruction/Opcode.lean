import GameBoy.Decoder.Table
import GameBoy.Instruction

/-!
# Opcodes

The two pages of opcodes, each given by rules over bit patterns and compiled into a table of 256
entries. Some rules of the first page are exceptions to an earlier one: copying memory to itself,
for instance, is not an instruction, and its opcode halts the processor.

* `GameBoy.Instruction.decode` – the instruction an opcode means;
* `GameBoy.PageInstruction.decode` – the same on the second page;
* `GameBoy.validateTables` – compiles both pages anew and reports what is wrong with them.
-/

namespace GameBoy

open Decoder (Rule Fields TableError)

/-- A field of three bits that numbers a bit of a byte, or one of the restart addresses. -/
def bitField (f : Fields) (letter : Char) : Fin 8 := Fin.ofNat 8 (f.get letter)

/-- The pattern that matches one opcode and no other. -/
def exactPattern (opcode : UInt8) : String :=
  String.ofList ((List.range 8).reverse.map fun k => if opcode.toNat.testBit k then '1' else '0')

namespace Instruction

/-- The opcodes that mean nothing. -/
def illegalOpcodes : List UInt8 :=
  [0xD3, 0xDB, 0xDD, 0xE3, 0xE4, 0xEB, 0xEC, 0xED, 0xF4, 0xFC, 0xFD]

/-- The rules for the opcodes that mean something. -/
def definedRules : List (Rule Id Instruction) :=
  -- the opcodes below 64
  [⟨"00000000", fun _ => .nop⟩,
   ⟨"00001000", fun _ => .storeStackPointer⟩,
   ⟨"00010000", fun _ => .stop⟩,
   ⟨"00011000", fun _ => .jumpRelative⟩,
   ⟨"001cc000", fun f => .jumpRelativeIf (.ofField (f.get 'c'))⟩,
   ⟨"00rr0001", fun f => .loadWord (.ofField (f.get 'r'))⟩,
   ⟨"00rr1001", fun f => .addPair (.ofField (f.get 'r'))⟩,
   ⟨"00rr0011", fun f => .incrementPair (.ofField (f.get 'r'))⟩,
   ⟨"00rr1011", fun f => .decrementPair (.ofField (f.get 'r'))⟩,
   ⟨"00rr0010", fun f => .storeIndirect (.ofField (f.get 'r'))⟩,
   ⟨"00rr1010", fun f => .loadIndirect (.ofField (f.get 'r'))⟩,
   ⟨"00rrr100", fun f => .increment (.ofField (f.get 'r'))⟩,
   ⟨"00rrr101", fun f => .decrement (.ofField (f.get 'r'))⟩,
   ⟨"00rrr110", fun f => .loadByte (.ofField (f.get 'r'))⟩,
   ⟨"000oo111", fun f => .rotate (.ofField (f.get 'o'))⟩,
   ⟨"00100111", fun _ => .decimalAdjust⟩,
   ⟨"00101111", fun _ => .complement⟩,
   ⟨"00110111", fun _ => .setCarry⟩,
   ⟨"00111111", fun _ => .complementCarry⟩,
   -- the two blocks of 64 that combine operands
   ⟨"01dddsss", fun f => .load (.ofField (f.get 'd')) (.ofField (f.get 's'))⟩,
   -- memory copied to itself would be this opcode
   ⟨"01110110", fun _ => .halt⟩,
   ⟨"10ooorrr", fun f => .accumulate (.ofField (f.get 'o')) (.ofField (f.get 'r'))⟩,
   -- control, the stack and the accesses to fixed places, from 192 on
   ⟨"110cc000", fun f => .retIf (.ofField (f.get 'c'))⟩,
   ⟨"110cc010", fun f => .jumpIf (.ofField (f.get 'c'))⟩,
   ⟨"110cc100", fun f => .callIf (.ofField (f.get 'c'))⟩,
   ⟨"11000011", fun _ => .jump⟩,
   ⟨"11001001", fun _ => .ret⟩,
   ⟨"11011001", fun _ => .retInterrupt⟩,
   ⟨"11001011", fun _ => .page⟩,
   ⟨"11001101", fun _ => .call⟩,
   ⟨"11rr0001", fun f => .pop (.ofField (f.get 'r'))⟩,
   ⟨"11rr0101", fun f => .push (.ofField (f.get 'r'))⟩,
   ⟨"11ooo110", fun f => .accumulateByte (.ofField (f.get 'o'))⟩,
   ⟨"11nnn111", fun f => .restart (bitField f 'n')⟩,
   ⟨"11100000", fun _ => .storeHigh⟩,
   ⟨"11110000", fun _ => .loadHigh⟩,
   ⟨"11100010", fun _ => .storeHighC⟩,
   ⟨"11110010", fun _ => .loadHighC⟩,
   ⟨"11101000", fun _ => .addStackPointer⟩,
   ⟨"11111000", fun _ => .loadStackAddress⟩,
   ⟨"11101001", fun _ => .jumpHL⟩,
   ⟨"11111001", fun _ => .loadStackPointer⟩,
   ⟨"11101010", fun _ => .storeAbsolute⟩,
   ⟨"11111010", fun _ => .loadAbsolute⟩,
   ⟨"11110011", fun _ => .disableInterrupts⟩,
   ⟨"11111011", fun _ => .enableInterrupts⟩]

/-- **The rules of the first page.** -/
def rules : List (Rule Id Instruction) :=
  definedRules ++ illegalOpcodes.map fun opcode => ⟨exactPattern opcode, fun _ => .illegal opcode⟩

/-- The first page as compiled. -/
def compiled : Except TableError (Array Instruction) := Id.run (Decoder.compile 256 rules)

/-- The instructions of the first page, in the order of their opcodes. -/
def table : Array Instruction := compiled.toOption.getD #[]

theorem size_table : table.size = 256 := by decide +kernel

/-- **The instruction an opcode means.** -/
def decode (opcode : UInt8) : Instruction :=
  have inBounds : opcode.toNat < table.size := by rw [size_table]; exact opcode.toNat_lt
  table[opcode.toNat]

end Instruction

namespace PageInstruction

/-- **The rules of the second page.** -/
def rules : List (Rule Id PageInstruction) :=
  [⟨"00ooorrr", fun f => .shift (.ofField (f.get 'o')) (.ofField (f.get 'r'))⟩,
   ⟨"01nnnrrr", fun f => .testBit (bitField f 'n') (.ofField (f.get 'r'))⟩,
   ⟨"10nnnrrr", fun f => .clearBit (bitField f 'n') (.ofField (f.get 'r'))⟩,
   ⟨"11nnnrrr", fun f => .setBit (bitField f 'n') (.ofField (f.get 'r'))⟩]

/-- The second page as compiled. -/
def compiled : Except TableError (Array PageInstruction) := Id.run (Decoder.compile 256 rules)

/-- The instructions of the second page, in the order of their opcodes. -/
def table : Array PageInstruction := compiled.toOption.getD #[]

theorem size_table : table.size = 256 := by decide +kernel

/-- **The instruction an opcode means on the second page.** -/
def decode (opcode : UInt8) : PageInstruction :=
  have inBounds : opcode.toNat < table.size := by rw [size_table]; exact opcode.toNat_lt
  table[opcode.toNat]

end PageInstruction

/-- Compiles the rules of both pages, the first page first, and reports the first thing wrong with
them. -/
def validateTables : Except TableError Unit := do
  let _ ← Id.run (Decoder.compile 256 Instruction.rules)
  let _ ← Id.run (Decoder.compile 256 PageInstruction.rules)

end GameBoy
