/-!
# The bus

The processor owns no memory. It reads and writes bytes through a *bus*, and tells the bus of every
machine cycle it spends, so that whatever sits behind the bus can keep in step with it.

A bus is a value of any type of class `GameBoy.Bus`. Reading returns the bus as reading left it,
since devices may react to being read; peeking does not touch it. That the two agree is not part of
the class but of `GameBoy.QuietBus`, the class of the buses whose reads have no effect.
-/

namespace GameBoy

/-- **What the processor can do to the world.** -/
class Bus (β : Type) where
  /-- The byte at an address, and the bus after it has been read. -/
  read (bus : β) (address : UInt16) : UInt8 × β
  /-- The bus after a byte has been stored at an address. -/
  write (bus : β) (address : UInt16) (value : UInt8) : β
  /-- The bus after a number of clock cycles. Nothing happens by default. -/
  tick (bus : β) (cycles : Nat) : β := bus
  /-- The byte that reading an address would give. -/
  peek (bus : β) (address : UInt16) : UInt8

/-- **The buses that do not notice being read.** -/
class QuietBus (β : Type) [Bus β] : Prop where
  /-- Reading gives what peeking shows, and leaves the bus alone. -/
  read_eq (bus : β) (address : UInt16) : Bus.read bus address = (Bus.peek bus address, bus)

end GameBoy
