import GameBoy.Bus
import GameBoy.Clock
import GameBoy.Word

/-!
# Microcode

Whatever the processor does takes whole machine cycles, and in each of them at most one byte goes
over the bus. A *microcode* program is a computation laid out over machine cycles: each cycle is
idle, reads a byte on which the rest may depend, or stores one; in the end there is a result.

Microcode has no access to a bus of its own. `GameBoy.Microcode.run` runs it on one, and does so in
the only way there is: the access of a cycle comes first, then the bus is told that the cycle has
passed.

* `GameBoy.Microcode` – the programs, which form a monad;
* `GameBoy.Microcode.fetchByte`, `GameBoy.Microcode.fetchWord` – what follows an opcode;
* `GameBoy.Microcode.pushWord`, `GameBoy.Microcode.popWord` – the two halves of a word on the stack;
* `GameBoy.Microcode.run` – what becomes of a bus.
-/

namespace GameBoy

/-- **A computation over machine cycles.** -/
inductive Microcode (α : Type) where
  /-- No cycles are left, and this is the result. -/
  | done (result : α)
  /-- A cycle without access to the bus. -/
  | idle (next : Microcode α)
  /-- A cycle that reads a byte. -/
  | read (address : UInt16) (next : UInt8 → Microcode α)
  /-- A cycle that stores a byte. -/
  | write (address : UInt16) (value : UInt8) (next : Microcode α)

namespace Microcode

variable {α γ : Type}

/-- One program after another, the second made from the result of the first. -/
def andThen : Microcode α → (α → Microcode γ) → Microcode γ
  | done result, next => next result
  | idle rest, next => idle (rest.andThen next)
  | read address rest, next => read address fun value => (rest value).andThen next
  | write address value rest, next => write address value (rest.andThen next)

instance : Monad Microcode where
  pure := done
  bind := andThen

/-! ### Single cycles -/

/-- One cycle without access to the bus. -/
def pause : Microcode Unit := idle (done ())

/-- One cycle that reads a byte. -/
def readByte (address : UInt16) : Microcode UInt8 := read address done

/-- One cycle that stores a byte. -/
def writeByte (address : UInt16) (value : UInt8) : Microcode Unit := write address value (done ())

/-! ### Words -/

/-- The byte that follows the opcode at `pc`. -/
def fetchByte (pc : UInt16) : Microcode UInt8 := readByte (pc + 1)

/-- The word that follows the opcode at `pc`, its low byte first. -/
def fetchWord (pc : UInt16) : Microcode UInt16 := do
  let low ← readByte (pc + 1)
  let high ← readByte (pc + 2)
  pure (word high low)

/-- **A word pushed on the stack**, which grows downwards: the high byte goes below the stack
pointer and the low byte below that. The result is the new stack pointer. -/
def pushWord (sp value : UInt16) : Microcode UInt16 := do
  writeByte (sp - 1) (highByte value)
  writeByte (sp - 2) (lowByte value)
  pure (sp - 2)

/-- **A word popped from the stack**, its low byte first, and the new stack pointer. -/
def popWord (sp : UInt16) : Microcode (UInt16 × UInt16) := do
  let low ← readByte sp
  let high ← readByte (sp + 1)
  pure (word high low, sp + 2)

/-! ### Running -/

/-- What a program has led to. -/
structure Outcome (α β : Type) where
  result : α
  /-- How many machine cycles it took. -/
  cycles : Nat
  bus : β

/-- **The program run on a bus.** -/
def run {β : Type} [Bus β] : Microcode α → β → Outcome α β
  | done result, bus => ⟨result, 0, bus⟩
  | idle next, bus => spend (next.run (Bus.tick bus machineCycle))
  | read address next, bus =>
    let (value, bus) := Bus.read bus address
    spend ((next value).run (Bus.tick bus machineCycle))
  | write address value next, bus =>
    spend (next.run (Bus.tick (Bus.write bus address value) machineCycle))
where
  /-- One more cycle. -/
  spend (outcome : Outcome α β) : Outcome α β := { outcome with cycles := outcome.cycles + 1 }

end Microcode

end GameBoy
