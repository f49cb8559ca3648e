import GameBoy.Cpu

/-!
# Reports of the processor's state

Two texts: the status line that a debugger prints, and the shorter summary that the trace keeps with
every instruction.
-/

namespace GameBoy

/-- The registers as the trace shows them, without the program counter. -/
def Registers.summary (r : Registers) : String :=
  "a=" ++ byteHex r.a ++ " f=" ++ r.flags.text ++ " bc=" ++ wordHex r.bc ++
    " de=" ++ wordHex r.de ++ " hl=" ++ wordHex r.hl ++ " sp=" ++ wordHex r.sp

/-- **The status line**: the register pairs, the flags, whether interrupts are taken, and what
suspends or holds the processor. -/
def Cpu.statusLine (cpu : Cpu) : String :=
  let r := cpu.registers
  "AF=" ++ wordHexUpper r.af ++ " BC=" ++ wordHexUpper r.bc ++ " DE=" ++ wordHexUpper r.de ++
    " HL=" ++ wordHexUpper r.hl ++ " SP=" ++ wordHexUpper r.sp ++ " PC=" ++ wordHexUpper r.pc ++
    " [" ++ r.flags.text ++ "] IME=" ++ (if cpu.core.ime then "1" else "0") ++
    (if cpu.core.halted then " HALT" else "") ++ (if cpu.core.stopped then " STOP" else "") ++
    (if cpu.debugger.trapped then " TRAP" else "")

end GameBoy
