import GameBoy.Bus
import GameBoy.Instruction.Assembly
import GameBoy.Instruction.Opcode

/-!
# Disassembly

The text of the instruction at an address, with its operand filled in. Bytes are only peeked at, so
disassembling has no effect on any device behind the bus.

* `GameBoy.Instruction.textAt` – the text of an instruction already known;
* `GameBoy.disassemble` – the text and the length of whatever instruction lies at an address;
* `GameBoy.listing` – the same for instructions that follow one another.
-/

namespace GameBoy

/-- **The text of an instruction at an address.** The bytes that follow its opcode are taken from
`peek`. On the second page the next byte says what the instruction is. -/
def Instruction.textAt (i : Instruction) (peek : UInt16 → UInt8) (pc : UInt16) : String :=
  match i with
  | .page => (PageInstruction.decode (peek (pc + 1))).mnemonic
  | i => i.template.fill pc (peek (pc + 1)) (peek (pc + 2))

variable {β : Type} [Bus β]

/-- **The text and the length of the instruction at an address.** -/
def disassemble (bus : β) (address : UInt16) : String × Nat :=
  let i := Instruction.decode (Bus.peek bus address)
  (i.textAt (Bus.peek bus) address, i.length)

/-- The address, text and length of `count` instructions, the first of them at `address` and each
after the one before. -/
def listing (bus : β) (address : UInt16) : (count : Nat) → List (UInt16 × String × Nat)
  | 0 => []
  | count + 1 =>
    let (text, length) := disassemble bus address
    (address, text, length) :: listing bus (address + UInt16.ofNat length) count

end GameBoy
