import GameBoy.Debugger.Breakpoint
import GameBoy.Debugger.Trace

/-!
# The debugger

The debugger watches the processor run: it keeps a trace when asked to, and it holds the processor
at breakpoints. A processor that is held makes no progress until it is resumed. The next instruction
then runs unchecked, unless an interrupt is dispatched before it.

* `GameBoy.Hold` – whether the processor is held, or on its way past what held it;
* `GameBoy.Debugger` – all that the debugger knows;
* `GameBoy.Debugger.hit?` – the breakpoint that stops the processor, if one does.
-/

namespace GameBoy

/-- **The hold of the debugger on the processor.** -/
inductive Hold where
  /-- The processor runs, and every instruction is checked. -/
  | free
  /-- The processor is held at a breakpoint. -/
  | trapped
  /-- The processor was resumed, and the next instruction is not checked, unless an interrupt is
  dispatched first. -/
  | pass
  deriving DecidableEq, Repr

/-- **What the debugger knows.** -/
structure Debugger where
  /-- Whether the trace is kept. -/
  tracing : Bool
  trace : Trace
  breakpoints : Breakpoints
  hold : Hold
  deriving DecidableEq

namespace Debugger

/-- A debugger with nothing to do yet. -/
def new (tracing : Bool) : Debugger := ⟨tracing, .empty, .empty, .free⟩

/-! ### Tracing -/

/-- Tracing switched on or off. What has been recorded stays. -/
def setTracing (d : Debugger) (tracing : Bool) : Debugger := { d with tracing }

/-- The trace forgotten. -/
def clearTrace (d : Debugger) : Debugger := { d with trace := .empty }

/-- An entry recorded, if tracing is on. -/
def record (d : Debugger) (e : TraceEntry) : Debugger :=
  if d.tracing then { d with trace := d.trace.record e } else d

/-- An event recorded, if tracing is on. -/
def event (d : Debugger) (address : UInt16) (text : String) : Debugger :=
  d.record { kind := .event, address := some address, text, comment := none }

/-! ### Breakpoints -/

/-- A breakpoint added, and whether it was missing before. -/
def addBreakpoint (d : Debugger) (b : Breakpoint) : Bool × Debugger :=
  (!decide (b ∈ d.breakpoints), { d with breakpoints := d.breakpoints.insert b })

/-- A breakpoint taken away, and whether it was there before. -/
def removeBreakpoint (d : Debugger) (b : Breakpoint) : Bool × Debugger :=
  (decide (b ∈ d.breakpoints), { d with breakpoints := d.breakpoints.erase b })

/-- Every breakpoint taken away. -/
def clearBreakpoints (d : Debugger) : Debugger := { d with breakpoints := .empty }

/-! ### Holding the processor -/

/-- Whether the processor is held. -/
def trapped (d : Debugger) : Bool := d.hold == .trapped

/-- The processor let go, with leave to run the next instruction unchecked. -/
def resume (d : Debugger) : Debugger := { d with hold := .pass }

/-- **The breakpoint that an instruction runs into**, the first in the order in which it would touch
these places. With leave to run unchecked there is none. -/
def hit? (d : Debugger) (places : List Breakpoint) : Option Breakpoint :=
  if d.hold = .pass then none else places.find? fun b => decide (b ∈ d.breakpoints)

/-- The processor held at a breakpoint. -/
def trap (d : Debugger) (b : Breakpoint) : Debugger :=
  { d with hold := .trapped }.event b.address b.hitText

/-- **The leave used up**, by an instruction that ran or by an interrupt that led away from it. -/
def spendPass (d : Debugger) : Debugger := if d.hold = .pass then { d with hold := .free } else d

end Debugger

end GameBoy
