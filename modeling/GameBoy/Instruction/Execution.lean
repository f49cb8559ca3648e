import GameBoy.Alu.Adjust
import GameBoy.Alu.Shift
import GameBoy.Alu.Wide
import GameBoy.Core
import GameBoy.Instruction.Access
import GameBoy.Instruction.Opcode
import GameBoy.Microcode

/-!
# Executing instructions

What every instruction does, as microcode that takes the core from before the instruction to after
it. The cycle in which the opcode itself is fetched is not part of it: it is over before it is known
what the instruction is. The program counter still points to the opcode when an instruction begins.

* `GameBoy.ByteOperand.read`, `GameBoy.ByteOperand.write` – the access to an operand, which takes a
  cycle where it lies in memory;
* `GameBoy.PageInstruction.execute` – the second page, whose own opcode has been read as well;
* `GameBoy.Instruction.execute` – the first page.
-/

namespace GameBoy

open Microcode (readByte writeByte pause fetchByte fetchWord pushWord popWord)

/-- The byte an operand holds. -/
def ByteOperand.read (operand : ByteOperand) (r : Registers) : Microcode UInt8 :=
  match operand with
  | .register x => pure (r.byte x)
  | .atHL => readByte r.hl

/-- The registers after a byte has been put into an operand. -/
def ByteOperand.write (operand : ByteOperand) (r : Registers) (value : UInt8) :
    Microcode Registers :=
  match operand with
  | .register x => pure (r.setByte x value)
  | .atHL => do
    writeByte r.hl value
    pure r

/-- **What an instruction of the second page does** to the registers. -/
def PageInstruction.execute (i : PageInstruction) (r : Registers) : Microcode Registers := do
  match i with
  | .shift op operand =>
    let result := op.apply (← operand.read r) r.flags
    pure ((← operand.write r result.value).setFlags result.flags)
  | .testBit bit operand =>
    pure (r.setFlags (Alu.testBit bit (← operand.read r) r.flags))
  | .clearBit bit operand =>
    operand.write r (Alu.clearBit bit (← operand.read r))
  | .setBit bit operand =>
    operand.write r (Alu.setBit bit (← operand.read r))

namespace Instruction

/-- The registers with the accumulator and the flags as an operation on bytes left them. -/
def accumulated (r : Registers) (result : Alu.Result) : Registers :=
  { r with a := result.value }.setFlags result.flags

/-- Goes on as `taken` says if the condition holds, and otherwise goes on at `next` with no further
cycle. -/
def branch (condition : Condition) (c : Core) (next : UInt16) (taken : Microcode Core) :
    Microcode Core :=
  if condition.holds c.registers.flags then taken else pure (c.goto next)

/-- Goes on at `target`, which takes a cycle. -/
def jumpTo (c : Core) (target : UInt16) : Microcode Core := do
  pause
  pure (c.goto target)

/-- Goes on at `target`, with `next` on the stack as the way back. -/
def callTo (c : Core) (next target : UInt16) : Microcode Core := do
  pause
  let sp ← pushWord c.registers.sp next
  pure (c.proceed { c.registers with sp } target)

/-- Goes on at the address on top of the stack. -/
def returnFrom (c : Core) : Microcode Core := do
  let (target, sp) ← popWord c.registers.sp
  pause
  pure (c.proceed { c.registers with sp } target)

/-- **What an instruction does** after its opcode has been fetched. -/
def execute (i : Instruction) (c : Core) : Microcode Core := do
  let r := c.registers
  let pc := r.pc
  let next := pc + UInt16.ofNat i.length
  match i with
  | .nop | .illegal _ => pure (c.goto next)
  | .stop => pure { c.goto next with stopped := true }
  | .halt => pure { c.goto next with halted := true }
  | .disableInterrupts => pure ((c.goto next).setIme false)
  | .enableInterrupts => pure { c.goto next with imeNext := true }
  | .page =>
    let opcode ← fetchByte pc
    pure (c.proceed (← (PageInstruction.decode opcode).execute r) next)
  | .load target source =>
    pure (c.proceed (← target.write r (← source.read r)) next)
  | .loadByte target =>
    pure (c.proceed (← target.write r (← fetchByte pc)) next)
  | .loadWord target =>
    pure (c.proceed (r.setPair target (← fetchWord pc)) next)
  | .storeIndirect pointer =>
    writeByte (r.pointer pointer) r.a
    pure (c.proceed (r.afterAccess pointer) next)
  | .loadIndirect pointer =>
    let a ← readByte (r.pointer pointer)
    pure (c.proceed ({ r with a }.afterAccess pointer) next)
  | .storeHigh =>
    writeByte (highPage (← fetchByte pc)) r.a
    pure (c.goto next)
  | .loadHigh =>
    let a ← readByte (highPage (← fetchByte pc))
    pure (c.proceed { r with a } next)
  | .storeHighC =>
    writeByte (highPage r.c) r.a
    pure (c.goto next)
  | .loadHighC =>
    let a ← readByte (highPage r.c)
    pure (c.proceed { r with a } next)
  | .storeAbsolute =>
    writeByte (← fetchWord pc) r.a
    pure (c.goto next)
  | .loadAbsolute =>
    let a ← readByte (← fetchWord pc)
    pure (c.proceed { r with a } next)
  | .storeStackPointer =>
    let address ← fetchWord pc
    writeByte address (lowByte r.sp)
    writeByte (address + 1) (highByte r.sp)
    pure (c.goto next)
  | .loadStackPointer =>
    pause
    pure (c.proceed { r with sp := r.hl } next)
  | .loadStackAddress =>
    let result := Alu.addOffset r.sp (← fetchByte pc)
    pause
    pure (c.proceed ((r.setHL result.value).setFlags result.flags) next)
  | .push source =>
    pause
    let sp ← pushWord r.sp (r.stackPair source)
    pure (c.proceed { r with sp } next)
  | .pop target =>
    let (value, sp) ← popWord r.sp
    pure (c.proceed ({ r with sp }.setStackPair target value) next)
  | .accumulate op operand =>
    pure (c.proceed (accumulated r (op.apply r.a (← operand.read r) r.flags)) next)
  | .accumulateByte op =>
    pure (c.proceed (accumulated r (op.apply r.a (← fetchByte pc) r.flags)) next)
  | .increment operand =>
    let result := Alu.increment (← operand.read r) r.flags
    pure (c.proceed ((← operand.write r result.value).setFlags result.flags) next)
  | .decrement operand =>
    let result := Alu.decrement (← operand.read r) r.flags
    pure (c.proceed ((← operand.write r result.value).setFlags result.flags) next)
  | .incrementPair pair =>
    pause
    pure (c.proceed (r.setPair pair (r.pair pair + 1)) next)
  | .decrementPair pair =>
    pause
    pure (c.proceed (r.setPair pair (r.pair pair - 1)) next)
  | .addPair pair =>
    let result := Alu.addWords r.hl (r.pair pair) r.flags
    pause
    pure (c.proceed ((r.setHL result.value).setFlags result.flags) next)
  | .addStackPointer =>
    let result := Alu.addOffset r.sp (← fetchByte pc)
    pause
    pause
    pure (c.proceed ({ r with sp := result.value }.setFlags result.flags) next)
  | .rotate op =>
    let result := op.shift.apply r.a r.flags
    pure (c.proceed (accumulated r { result with flags.zero := false }) next)
  | .decimalAdjust => pure (c.proceed (accumulated r (Alu.decimalAdjust r.a r.flags)) next)
  | .complement => pure (c.proceed (accumulated r (Alu.complement r.a r.flags)) next)
  | .setCarry => pure (c.proceed (r.setFlags (Alu.setCarry r.flags)) next)
  | .complementCarry => pure (c.proceed (r.setFlags (Alu.complementCarry r.flags)) next)
  | .jump => jumpTo c (← fetchWord pc)
  | .jumpIf condition =>
    let target ← fetchWord pc
    branch condition c next (jumpTo c target)
  | .jumpHL => pure (c.goto r.hl)
  | .jumpRelative => jumpTo c (next + signExtend (← fetchByte pc))
  | .jumpRelativeIf condition =>
    let distance ← fetchByte pc
    branch condition c next (jumpTo c (next + signExtend distance))
  | .call => callTo c next (← fetchWord pc)
  | .callIf condition =>
    let target ← fetchWord pc
    branch condition c next (callTo c next target)
  | .ret => returnFrom c
  | .retIf condition =>
    pause
    branch condition c next (returnFrom c)
  | .retInterrupt => return (← returnFrom c).setIme true
  | .restart index => callTo c next (restartAddress index)

end Instruction

end GameBoy
