import GameBoy.Debugger.Breakpoint
import GameBoy.Instruction
import GameBoy.Registers

/-!
# The memory an instruction is about to touch

The debugger stops a load or a store before it happens, so it has to know beforehand where in memory
an instruction is going to load from or store to. Only the instructions that copy a byte from memory,
or a byte or the stack pointer to it, are watched; those that compute on memory or use the stack are
not.
-/

namespace GameBoy

/-- An address on the topmost page of memory. -/
def highPage (low : UInt8) : UInt16 := word 0xFF low

/-- **The loads and stores that breakpoints can stop**, in the order in which the instruction makes
them. The bytes that follow the opcode are taken from `peek`. -/
def Instruction.accesses (i : Instruction) (r : Registers) (peek : UInt16 → UInt8) :
    List Breakpoint :=
  let first := peek (r.pc + 1)
  let immediate := word (peek (r.pc + 2)) first
  match i with
  | .load target source =>
    (if source.isMemory then [⟨.read, r.hl⟩] else []) ++
      (if target.isMemory then [⟨.write, r.hl⟩] else [])
  | .loadByte target => if target.isMemory then [⟨.write, r.hl⟩] else []
  | .storeIndirect pointer => [⟨.write, r.pointer pointer⟩]
  | .loadIndirect pointer => [⟨.read, r.pointer pointer⟩]
  | .storeHigh => [⟨.write, highPage first⟩]
  | .loadHigh => [⟨.read, highPage first⟩]
  | .storeHighC => [⟨.write, highPage r.c⟩]
  | .loadHighC => [⟨.read, highPage r.c⟩]
  | .storeAbsolute => [⟨.write, immediate⟩]
  | .loadAbsolute => [⟨.read, immediate⟩]
  | .storeStackPointer => [⟨.write, immediate⟩, ⟨.write, immediate + 1⟩]
  | _ => []

end GameBoy
