import GameBoy.Cpu
import GameBoy.Interrupt.Lines

/-!
# Machines

A machine is a processor together with the bus it is attached to. Whatever involves both of them is
a function on machines.
-/

namespace GameBoy

/-- **A processor and its bus.** -/
structure Machine (β : Type) where
  cpu : Cpu
  bus : β

namespace Machine

variable {β : Type}

/-- The address of the next instruction. -/
def pc (m : Machine β) : UInt16 := m.cpu.core.pc

/-- The machine with a change to its processor. -/
def withCpu (m : Machine β) (f : Cpu → Cpu) : Machine β := { m with cpu := f m.cpu }

variable [Bus β]

/-- The state of the interrupt system, and the machine after the requests and then the enables have
been read. -/
def interruptState (m : Machine β) : InterruptState × Machine β :=
  let (requested, bus) := Bus.read m.bus Interrupt.requestAddress
  let (enabled, bus) := Bus.read bus Interrupt.enableAddress
  ({ ime := m.cpu.core.ime
     imeNext := m.cpu.core.imeNext
     requested := requested &&& Interrupt.lineMask
     enabled := enabled &&& Interrupt.lineMask },
    { m with bus })

/-- Whether an enabled interrupt is requested, which ends a halt when the processor next looks for
interrupts. While the processor is stopped the answer is no, and the bus is not asked. -/
def acceptsInterrupt (m : Machine β) : Bool × Machine β :=
  if m.cpu.core.stopped then (false, m)
  else
    let (lines, bus) := Interrupt.pending m.bus
    (lines != 0, { m with bus })

end Machine

end GameBoy
