import GameBoy.Registers

/-!
# The core

The part of the processor that instructions act on: the registers, whether interrupts are taken, and
whether the processor has suspended itself. Instructions see nothing else of the processor, neither
the clock nor the debugger.
-/

namespace GameBoy

/-- **What instructions act on.** -/
structure Core where
  registers : Registers
  /-- Interrupts are taken now. -/
  ime : Bool
  /-- Interrupts are taken once the next instruction has run, unless that one decides otherwise. -/
  imeNext : Bool
  /-- Suspended until an interrupt asks for the processor. -/
  halted : Bool
  /-- Suspended until the machine wakes the processor. -/
  stopped : Bool
  deriving DecidableEq, Repr

namespace Core

/-- **A core that starts afresh** with given registers, whose F is cleaned on the way in. -/
def start (registers : Registers) : Core := ⟨registers.masked, false, false, false, false⟩

/-- The address of the next instruction. -/
def pc (c : Core) : UInt16 := c.registers.pc

/-- The core about to go on at another address. -/
def goto (c : Core) (address : UInt16) : Core :=
  { c with registers := { c.registers with pc := address } }

/-- The core with other registers, about to go on at an address. -/
def proceed (c : Core) (registers : Registers) (address : UInt16) : Core :=
  { c with registers := { registers with pc := address } }

/-- Interrupts taken or not taken, from now on. -/
def setIme (c : Core) (enabled : Bool) : Core := { c with ime := enabled, imeNext := enabled }

end Core

end GameBoy
