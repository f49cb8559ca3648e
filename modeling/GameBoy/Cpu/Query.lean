import GameBoy.Cpu
import GameBoy.Observation

/-!
# Queries

Every part of the processor's state that can be asked for has a path, a short name with dots in it.
The paths and their answers are one table, so there is a path for each answer and an answer for each
path.
-/

namespace GameBoy.Cpu

/-- **What can be asked for**: the paths, in the order in which they are listed, each with the value
it stands for. -/
def observations : List (String × (Cpu → Value)) :=
  [("a", fun cpu => .byte cpu.registers.a),
   ("f", fun cpu => .byte cpu.registers.f),
   ("b", fun cpu => .byte cpu.registers.b),
   ("c", fun cpu => .byte cpu.registers.c),
   ("d", fun cpu => .byte cpu.registers.d),
   ("e", fun cpu => .byte cpu.registers.e),
   ("h", fun cpu => .byte cpu.registers.h),
   ("l", fun cpu => .byte cpu.registers.l),
   ("af", fun cpu => .word cpu.registers.af),
   ("bc", fun cpu => .word cpu.registers.bc),
   ("de", fun cpu => .word cpu.registers.de),
   ("hl", fun cpu => .word cpu.registers.hl),
   ("sp", fun cpu => .word cpu.registers.sp),
   ("pc", fun cpu => .word cpu.registers.pc),
   ("flags.z", fun cpu => .flag cpu.registers.flags.zero),
   ("flags.n", fun cpu => .flag cpu.registers.flags.subtract),
   ("flags.h", fun cpu => .flag cpu.registers.flags.half),
   ("flags.c", fun cpu => .flag cpu.registers.flags.carry),
   ("ime", fun cpu => .flag cpu.core.ime),
   ("ime_next", fun cpu => .flag cpu.core.imeNext),
   ("halted", fun cpu => .flag cpu.core.halted),
   ("stopped", fun cpu => .flag cpu.core.stopped),
   ("blocked", fun cpu => .flag cpu.blocked),
   ("trapped", fun cpu => .flag cpu.debugger.trapped),
   ("tracing", fun cpu => .flag cpu.debugger.tracing),
   ("ticks", fun cpu => .count cpu.clock.cycles),
   ("model", fun cpu => .text cpu.model.name),
   ("breakpoints", fun cpu => .row (cpu.debugger.breakpoints.toList.map fun b => .text b.text))]

/-- Every path, in the order in which they are listed. -/
def queryPaths : List String := observations.map (·.1)

/-- **The value a path stands for**, if it is one that can be asked for. -/
def query (cpu : Cpu) (path : String) : Option Value :=
  (observations.lookup path).map fun observe => observe cpu

end GameBoy.Cpu
