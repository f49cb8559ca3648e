/-!
# Interrupts

Five devices can interrupt the processor. Each has a line, a bit in the two registers that request
and enable interrupts, and an address at which its handler begins. Where several ask at once, the
one with the lowest bit is heard.
-/

namespace GameBoy

/-- **The sources of interrupts**, in the order of their priority. -/
inductive Interrupt where
  | vblank
  | lcdStat
  | timer
  | serial
  | joypad
  deriving DecidableEq, Repr

namespace Interrupt

/-- Every source, the one of highest priority first. -/
def all : List Interrupt := [.vblank, .lcdStat, .timer, .serial, .joypad]

/-- The number of the line. -/
def index : Interrupt → Nat
  | .vblank => 0
  | .lcdStat => 1
  | .timer => 2
  | .serial => 3
  | .joypad => 4

/-- The bit of the line. -/
def mask (i : Interrupt) : UInt8 := 1 <<< UInt8.ofNat i.index

/-- The lines that exist. -/
def lineMask : UInt8 := 0x1F

/-- Where the handler begins. -/
def vector (i : Interrupt) : UInt16 := 0x40 + 8 * UInt16.ofNat i.index

/-- **The source that is heard** among the lines set in a byte, if any line that exists is set. -/
def highest (lines : UInt8) : Option Interrupt := all.find? fun i => lines &&& i.mask != 0

/-- How reports name the source. -/
def name : Interrupt → String
  | .vblank => "vblank"
  | .lcdStat => "stat"
  | .timer => "timer"
  | .serial => "serial"
  | .joypad => "joypad"

end Interrupt

end GameBoy
