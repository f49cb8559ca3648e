import GameBoy.Bus.Ram

/-!
# Memory without a clock

Memory that does not count the cycles it is told of: the passing of time does nothing to it.
-/

namespace GameBoy

/-- **Memory alone.** -/
structure Untimed where
  memory : Memory

namespace Untimed

instance : Bus Untimed where
  read bus address := (bus.memory.get address, bus)
  write bus address value := { bus with memory := bus.memory.set address value }
  peek bus address := bus.memory.get address

instance : QuietBus Untimed where
  read_eq _ _ := rfl

end Untimed

end GameBoy
