import GameBoy.AddressMap
import GameBoy.Clock
import GameBoy.Core
import GameBoy.Debugger

/-!
# The processor

The core that instructions act on, and around it all that outlasts a reset: the clock, the debugger,
and a record of where instructions were found and how long they were.

This file holds the state and what can be done to it from outside without running anything; running
is the subject of `GameBoy.Cpu.Step`.
-/

namespace GameBoy

/-- **How a processor is set up.** -/
structure Config where
  model : Model
  /-- Start with the registers that the boot program leaves behind. Otherwise every register starts
  at zero, and the boot program has to be found in memory. -/
  skipBoot : Bool
  /-- Whether tracing is on from the beginning. -/
  trace : Bool
  deriving DecidableEq, Repr

/-- The first model, past its boot program, with tracing off. -/
def Config.standard : Config := ⟨.dmg, true, false⟩

/-- **The state of a processor.** -/
structure Cpu where
  core : Core
  model : Model
  skipBoot : Bool
  /-- The bus is in use by someone else. -/
  blocked : Bool
  clock : Clock
  /-- How long the instruction was that was last fetched at an address, if one ever was. -/
  sizes : AddressMap (Option Nat)
  debugger : Debugger

/-- A direct change to one part of the core, which no instruction makes in this way. -/
inductive Assignment where
  | a (value : UInt8)
  | f (value : UInt8)
  | af (value : UInt16)
  | bc (value : UInt16)
  | de (value : UInt16)
  | hl (value : UInt16)
  | sp (value : UInt16)
  | pc (value : UInt16)
  /-- Interrupts taken or not taken from now on. -/
  | ime (enabled : Bool)
  | halted (value : Bool)
  deriving DecidableEq, Repr

/-- The core after a direct change. -/
def Core.assign (c : Core) : Assignment → Core
  | .a value => { c with registers := { c.registers with a := value } }
  | .f value => { c with registers := c.registers.setF value }
  | .af value => { c with registers := c.registers.setAF value }
  | .bc value => { c with registers := c.registers.setBC value }
  | .de value => { c with registers := c.registers.setDE value }
  | .hl value => { c with registers := c.registers.setHL value }
  | .sp value => { c with registers := { c.registers with sp := value } }
  | .pc value => c.goto value
  | .ime enabled => c.setIme enabled
  | .halted value => { c with halted := value }

namespace Cpu

/-- The registers a processor of this set-up starts with. -/
def bootRegisters (model : Model) (skipBoot : Bool) : Registers :=
  if skipBoot then .powerOn model else .zero

/-- **A fresh processor.** -/
def new (config : Config) : Cpu where
  core := .start (bootRegisters config.model config.skipBoot)
  model := config.model
  skipBoot := config.skipBoot
  blocked := false
  clock := .zero
  sizes := .replicate none
  debugger := .new config.trace

/-- The contents of the registers. -/
def registers (cpu : Cpu) : Registers := cpu.core.registers

/-! ### Control from outside -/

/-- **A start with given registers.** The core begins anew and the bus is free. The clock, the
debugger and the record of lengths are left as they are, a hold of the debugger included. -/
def resetTo (cpu : Cpu) (registers : Registers) : Cpu :=
  { cpu with core := .start registers, blocked := false }

/-- A start with the registers the processor began with. -/
def reset (cpu : Cpu) : Cpu := cpu.resetTo (bootRegisters cpu.model cpu.skipBoot)

/-- The processor going on at another address, no longer halted. -/
def jump (cpu : Cpu) (address : UInt16) : Cpu :=
  { cpu with core := { cpu.core.goto address with halted := false } }

/-- The bus taken from the processor, or given back. -/
def setBlocked (cpu : Cpu) (blocked : Bool) : Cpu := { cpu with blocked }

/-- A stopped processor woken. -/
def wakeFromStop (cpu : Cpu) : Cpu :=
  if cpu.core.stopped then
    { cpu with
      core := { cpu.core with stopped := false }
      debugger := cpu.debugger.event cpu.core.pc "wake from stop" }
  else cpu

/-- A direct change to one part of the core. -/
def assign (cpu : Cpu) (assignment : Assignment) : Cpu :=
  { cpu with core := cpu.core.assign assignment }

/-- The debugger told something. -/
def withDebugger (cpu : Cpu) (f : Debugger → Debugger) : Cpu :=
  { cpu with debugger := f cpu.debugger }

/-! ### What can be seen from outside -/

/-- Whether nothing suspends the processor, and the debugger does not hold it. -/
def isRunning (cpu : Cpu) : Bool :=
  !cpu.core.halted && !cpu.core.stopped && !cpu.blocked && !cpu.debugger.trapped

/-- The length of the instruction last fetched at an address. -/
def sizeAt (cpu : Cpu) (address : UInt16) : Option Nat := cpu.sizes.get address

/-- Every address at which an instruction was fetched, in ascending order, with its length. -/
def knownSizes (cpu : Cpu) : List (UInt16 × Nat) :=
  AddressMap.addresses.filterMap fun a => (cpu.sizes.get a).map (a, ·)

end Cpu

end GameBoy
