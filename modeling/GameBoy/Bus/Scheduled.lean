import GameBoy.Bus.Ram

/-!
# Memory with a schedule

Memory in which things happen by themselves: a list of stores, each to be made once a given number
of clock cycles has passed. It stands in for the devices that share memory with the processor, a
timer that raises an interrupt line for instance.
-/

namespace GameBoy

/-- A store to be made when a number of clock cycles has passed. -/
structure Appointment where
  /-- The clock cycles after which the store is due. -/
  due : Nat
  address : UInt16
  value : UInt8
  deriving DecidableEq, Repr

/-- **Memory and the stores still to come.** -/
structure Scheduled where
  ram : Ram
  /-- What is still to come, in the order in which stores due at one time are made. -/
  pending : List Appointment

namespace Scheduled

/-- The memory with a list of stores made, the first one first. -/
def apply (memory : Memory) (stores : List Appointment) : Memory :=
  stores.foldl (fun m s => m.set s.address s.value) memory

/-- **The passing of time**: the cycles are counted first, and then every store that is due by now
is made, once. -/
def elapse (bus : Scheduled) (cycles : Nat) : Scheduled :=
  let total := bus.ram.cycles + cycles
  let (now, later) := bus.pending.partition fun s => s.due ≤ total
  { ram := { memory := apply bus.ram.memory now, cycles := total }, pending := later }

instance : Bus Scheduled where
  read bus address := (bus.ram.memory.get address, bus)
  write bus address value := { bus with ram := Bus.write bus.ram address value }
  tick := elapse
  peek bus address := bus.ram.memory.get address

instance : QuietBus Scheduled where
  read_eq _ _ := rfl

end Scheduled

end GameBoy
