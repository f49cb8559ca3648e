import GameBoy.AddressMap
import GameBoy.Bus

/-!
# Memory

The simplest bus there is: a byte at every address, all of them alike, and a count of the clock
cycles that have passed.

Programs and data are put into memory by `GameBoy.Ram.load`, which takes no time.
-/

namespace GameBoy

/-- A byte for every address. -/
abbrev Memory := AddressMap UInt8

/-- **Memory and a count of clock cycles.** -/
structure Ram where
  memory : Memory
  /-- The clock cycles that have passed. -/
  cycles : Nat

namespace Ram

/-- Zero at every address, and no time passed. -/
def zero : Ram := ⟨.replicate 0, 0⟩

/-- Bytes copied into memory from an address on, without the passing of time. -/
def load (ram : Ram) (address : UInt16) (bytes : List UInt8) : Ram :=
  { ram with memory := ram.memory.load address bytes }

instance : Bus Ram where
  read ram address := (ram.memory.get address, ram)
  write ram address value := { ram with memory := ram.memory.set address value }
  tick ram cycles := { ram with cycles := ram.cycles + cycles }
  peek ram address := ram.memory.get address

instance : QuietBus Ram where
  read_eq _ _ := rfl

end Ram

end GameBoy
