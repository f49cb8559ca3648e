import GameBoy.Bus
import GameBoy.Hex
import GameBoy.Interrupt

/-!
# The interrupt lines

Two bytes in memory hold the interrupt lines: one is set bit by bit by the devices that ask for an
interrupt, the other by the program that is willing to be interrupted. The processor owns neither of
them and looks at both through the bus.

* `GameBoy.Interrupt.pending` – the lines both requested and enabled;
* `GameBoy.Interrupt.request`, `GameBoy.Interrupt.acknowledge` – one line raised, one line lowered;
* `GameBoy.InterruptState` – what a debugger shows of all this.
-/

namespace GameBoy

namespace Interrupt

/-- The address of the byte of requested lines. -/
def requestAddress : UInt16 := 0xFF0F

/-- The address of the byte of enabled lines. -/
def enableAddress : UInt16 := 0xFFFF

variable {β : Type} [Bus β]

/-- **The lines that are both requested and enabled**, and the bus after the requests and then the
enables have been read. -/
def pending (bus : β) : UInt8 × β :=
  let (requested, bus) := Bus.read bus requestAddress
  let (enabled, bus) := Bus.read bus enableAddress
  (requested &&& enabled &&& lineMask, bus)

/-- One line raised, the others left as they are. -/
def request (bus : β) (i : Interrupt) : β :=
  let (requested, bus) := Bus.read bus requestAddress
  Bus.write bus requestAddress (requested ||| i.mask)

/-- One line lowered, the others left as they are. -/
def acknowledge (bus : β) (i : Interrupt) : β :=
  let (requested, bus) := Bus.read bus requestAddress
  Bus.write bus requestAddress (requested &&& ~~~i.mask)

end Interrupt

/-- **The state of the interrupt system at one moment.** -/
structure InterruptState where
  /-- Interrupts are taken now. -/
  ime : Bool
  /-- Interrupts are taken once the next instruction has run, unless that one decides otherwise. -/
  imeNext : Bool
  /-- The lines requested. -/
  requested : UInt8
  /-- The lines enabled. -/
  enabled : UInt8
  deriving DecidableEq, Repr

/-- The state in one line, with a remark where interrupts are about to be taken. -/
def InterruptState.text (s : InterruptState) : String :=
  "IME=" ++ (if s.ime then "1" else "0") ++ " IF=" ++ byteHexUpper s.requested ++
    " IE=" ++ byteHexUpper s.enabled ++ (if s.imeNext && !s.ime then " (EI pending)" else "")

end GameBoy
