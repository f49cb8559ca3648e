import GameBoy.Cpu.Report
import GameBoy.Disassembly
import GameBoy.Instruction.Execution
import GameBoy.Machine

/-!
# Stepping

A step is the smallest thing a machine does from a driver's point of view: one instruction, the
dispatch of one interrupt, or, where the processor is suspended, one idle machine cycle. A machine
held by the debugger does nothing at all.

The questions are asked in this order. Is the bus in use by someone else, or the processor stopped?
Then a cycle passes. Is the processor held at a breakpoint? Then nothing happens. Is there an
interrupt? It ends a halt, and is dispatched if interrupts are taken. Is the processor still halted?
Then a cycle passes. Otherwise there is an instruction to run, unless it runs into a breakpoint. A
breakpoint on the fetch is found before the opcode is read. One on a load or a store is found when
the opcode has been read and the length recorded, but before the instruction has had any effect and
before any time has passed.

* `GameBoy.Machine.step` – one step, with its outcome;
* `GameBoy.Machine.dispatch` – the dispatch of an interrupt;
* `GameBoy.Machine.fetch` – an instruction, or the breakpoint it runs into.
-/

namespace GameBoy

/-- **What a step did.** -/
inductive StepOutcome where
  /-- An instruction ran. -/
  | executed
  /-- An interrupt was dispatched. -/
  | interrupted (source : Interrupt)
  /-- The processor is halted, and a cycle has passed. -/
  | halted
  /-- The processor is stopped, and a cycle has passed. -/
  | stopped
  /-- The bus is in use by someone else, and a cycle has passed. -/
  | blocked
  /-- The debugger holds the processor, or has stopped it in this step at a breakpoint: no
  instruction has run, and no time has passed. -/
  | trapped
  deriving DecidableEq, Repr

/-- How reports name an outcome. -/
def StepOutcome.name : StepOutcome → String
  | .executed => "executed"
  | .interrupted source => "interrupted:" ++ source.name
  | .halted => "halted"
  | .stopped => "stopped"
  | .blocked => "blocked"
  | .trapped => "trapped"

namespace Machine

variable {β : Type} [Bus β]

/-! ### Running microcode -/

/-- **Microcode that acts on the core, run on the machine.** The clock moves by the cycles it
takes. -/
def perform (m : Machine β) (code : Microcode Core) : Machine β :=
  let outcome := code.run m.bus
  { cpu :=
      { m.cpu with
        core := outcome.result, clock := m.cpu.clock.advance (machineCycle * outcome.cycles) }
    bus := outcome.bus }

/-- One idle machine cycle. -/
def idle (m : Machine β) : Machine β :=
  m.perform do
    Microcode.pause
    pure m.cpu.core

/-! ### Interrupts -/

/-- **The interrupt that asks for the processor.** Only a processor that would listen looks: one
that takes interrupts, or that is halted. -/
def pollInterrupts (m : Machine β) : Option Interrupt × Machine β :=
  if m.cpu.core.ime || m.cpu.core.halted then
    let (lines, bus) := Interrupt.pending m.bus
    (Interrupt.highest lines, { m with bus })
  else (none, m)

/-- A halt ended by an interrupt that asks for the processor. -/
def wakeFromHalt (m : Machine β) : Machine β :=
  if m.cpu.core.halted then
    m.withCpu fun cpu =>
      { cpu with
        core := { cpu.core with halted := false }
        debugger := cpu.debugger.event cpu.core.pc "wake from halt" }
  else m

/-- The microcode of a dispatch: two idle cycles, the way back pushed, one more idle cycle. Further
interrupts are not taken. -/
def dispatchCode (c : Core) (source : Interrupt) : Microcode Core := do
  Microcode.pause
  Microcode.pause
  let sp ← Microcode.pushWord c.registers.sp c.pc
  Microcode.pause
  pure ((c.proceed { c.registers with sp } source.vector).setIme false)

/-- **The dispatch of an interrupt.** Its line is lowered first, then the processor goes to the
handler with the way back on the stack. Leave to pass a breakpoint is used up, since it was given
for the instruction that did not run. -/
def dispatch (m : Machine β) (source : Interrupt) : Machine β :=
  let back := m.pc
  let m := { m with bus := Interrupt.acknowledge m.bus source }
  (m.perform (dispatchCode m.cpu.core source)).withCpu (·.withDebugger fun d =>
    (d.event source.vector ("interrupt " ++ source.name ++ " from $" ++ wordHex back)).spendPass)

/-! ### Instructions -/

/-- The machine held at a breakpoint. -/
def trap (m : Machine β) (b : Breakpoint) : Machine β := m.withCpu (·.withDebugger (·.trap b))

/-- **An instruction run to its end**, its opcode having been read. The decision of the instruction
before about taking interrupts comes into force. What the trace keeps is the text of the instruction
as it stood before it ran, with the registers as they are afterwards. -/
def execute (m : Machine β) (i : Instruction) : Machine β :=
  let pc := m.pc
  let text? := if m.cpu.debugger.tracing then some (i.textAt (Bus.peek m.bus) pc) else none
  let core := { m.cpu.core with ime := m.cpu.core.imeNext }
  let m := m.perform do
    Microcode.pause
    i.execute core
  m.withCpu fun cpu =>
    let debugger := cpu.debugger.spendPass
    match text? with
    | none => { cpu with debugger }
    | some text =>
      let entry :=
        { kind := .op, address := some pc, text, comment := some cpu.registers.summary }
      { cpu with debugger := debugger.record entry }

/-- The instruction at the program counter, whose opcode is read without time passing and whose
length is recorded. -/
def readInstruction (m : Machine β) : Instruction × Machine β :=
  let (opcode, bus) := Bus.read m.bus m.pc
  let i := Instruction.decode opcode
  (i, { cpu := { m.cpu with sizes := m.cpu.sizes.set m.pc (some i.length) }, bus })

/-- An instruction run, unless a breakpoint waits for what it is about to load or store. -/
def attempt (m : Machine β) (i : Instruction) : StepOutcome × Machine β :=
  match m.cpu.debugger.hit? (i.accesses m.cpu.registers (Bus.peek m.bus)) with
  | some b => (.trapped, m.trap b)
  | none => (.executed, m.execute i)

/-- **The instruction at the program counter**, read and run, unless a breakpoint waits for it to be
fetched. -/
def fetch (m : Machine β) : StepOutcome × Machine β :=
  match m.cpu.debugger.hit? [⟨.execute, m.pc⟩] with
  | some b => (.trapped, m.trap b)
  | none =>
    let (i, m) := m.readInstruction
    m.attempt i

/-! ### Steps -/

/-- **One step.** -/
def step (m : Machine β) : StepOutcome × Machine β :=
  if m.cpu.blocked then (.blocked, m.idle)
  else if m.cpu.core.stopped then (.stopped, m.idle)
  else if m.cpu.debugger.trapped then (.trapped, m)
  else
    match m.pollInterrupts with
    | (none, m) => if m.cpu.core.halted then (.halted, m.idle) else m.fetch
    | (some source, m) =>
      let m := m.wakeFromHalt
      if m.cpu.core.ime then (.interrupted source, m.dispatch source) else m.fetch

end Machine

end GameBoy
