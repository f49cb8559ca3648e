import GameBoy.Cpu.Step

/-!
# Sessions

A driver attaches to a machine and does things to it, one after another: it lets the machine step,
gives orders to the processor and to its debugger, and uses the bus as a device would. An *action*
is one such thing and a *session* is a list of them, so that whatever can happen to a machine from
its creation on is a value that can be written down.

* `GameBoy.Action` – what a driver can do;
* `GameBoy.Machine.act` – one action, with the reply to it;
* `GameBoy.Machine.session` – actions one after another, with all their replies.

Runs of many steps need no actions of their own, since they are steps in a row.
-/

namespace GameBoy

/-- **One thing that a driver does to a machine.** -/
inductive Action where
  /-- Lets the machine make one step. -/
  | step
  /-- Starts the processor afresh, as it was set up. -/
  | reset
  /-- Starts the processor afresh, with given registers. -/
  | resetTo (registers : Registers)
  /-- Makes the processor go on at another address. -/
  | jump (address : UInt16)
  /-- Takes the bus from the processor, or gives it back. -/
  | setBlocked (blocked : Bool)
  /-- Wakes a stopped processor. -/
  | wakeFromStop
  /-- Changes a part of the core directly. -/
  | assign (assignment : Assignment)
  | addBreakpoint (breakpoint : Breakpoint)
  | removeBreakpoint (breakpoint : Breakpoint)
  | clearBreakpoints
  /-- Lets go of a processor that is held at a breakpoint. -/
  | resume
  /-- Switches tracing on or off. -/
  | setTracing (tracing : Bool)
  | clearTrace
  /-- Reads a byte over the bus. -/
  | read (address : UInt16)
  /-- Stores a byte over the bus. -/
  | write (address : UInt16) (value : UInt8)
  /-- Tells the bus of time that passes without the processor. -/
  | tick (cycles : Nat)
  /-- Raises an interrupt line. -/
  | request (source : Interrupt)
  /-- Asks which lines are both requested and enabled. -/
  | pendingLines
  /-- Asks whether an enabled interrupt is requested, which would end a halt. -/
  | acceptsInterrupt
  /-- Asks for the state of the interrupt system. -/
  | interruptState
  deriving DecidableEq, Repr

/-- **What comes back from an action.** -/
inductive Reply where
  /-- Nothing but that it is done. -/
  | done
  | outcome (outcome : StepOutcome)
  | truth (b : Bool)
  | byte (b : UInt8)
  | interrupts (state : InterruptState)
  deriving DecidableEq, Repr

namespace Machine

variable {β : Type}

/-- A change to the processor that has no reply. -/
def control (m : Machine β) (f : Cpu → Cpu) : Reply × Machine β := (.done, m.withCpu f)

/-- An order to the debugger that has a truth value for a reply. -/
def consult (m : Machine β) (f : Debugger → Bool × Debugger) : Reply × Machine β :=
  let (b, debugger) := f m.cpu.debugger
  (.truth b, m.withCpu ({ · with debugger }))

variable [Bus β]

/-- **One action**, and the reply to it. -/
def act (m : Machine β) : Action → Reply × Machine β
  | .step =>
    let (outcome, m) := m.step
    (.outcome outcome, m)
  | .reset => m.control (·.reset)
  | .resetTo registers => m.control (·.resetTo registers)
  | .jump address => m.control (·.jump address)
  | .setBlocked blocked => m.control (·.setBlocked blocked)
  | .wakeFromStop => m.control (·.wakeFromStop)
  | .assign assignment => m.control (·.assign assignment)
  | .addBreakpoint breakpoint => m.consult (·.addBreakpoint breakpoint)
  | .removeBreakpoint breakpoint => m.consult (·.removeBreakpoint breakpoint)
  | .clearBreakpoints => m.control (·.withDebugger (·.clearBreakpoints))
  | .resume => m.control (·.withDebugger (·.resume))
  | .setTracing tracing => m.control (·.withDebugger (·.setTracing tracing))
  | .clearTrace => m.control (·.withDebugger (·.clearTrace))
  | .read address =>
    let (value, bus) := Bus.read m.bus address
    (.byte value, { m with bus })
  | .write address value => (.done, { m with bus := Bus.write m.bus address value })
  | .tick cycles => (.done, { m with bus := Bus.tick m.bus cycles })
  | .request source => (.done, { m with bus := Interrupt.request m.bus source })
  | .pendingLines =>
    let (lines, bus) := Interrupt.pending m.bus
    (.byte lines, { m with bus })
  | .acceptsInterrupt =>
    let (accepts, m) := m.acceptsInterrupt
    (.truth accepts, m)
  | .interruptState =>
    let (state, m) := m.interruptState
    (.interrupts state, m)

/-- **A session**: the replies to all actions in turn, and the machine at its end. -/
def session (m : Machine β) : List Action → List Reply × Machine β
  | [] => ([], m)
  | action :: rest =>
    let (reply, m) := m.act action
    let (replies, last) := m.session rest
    (reply :: replies, last)

end Machine

end GameBoy
