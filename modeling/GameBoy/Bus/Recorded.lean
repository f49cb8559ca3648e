import GameBoy.Bus

/-!
# Recording the traffic

Any bus can be wrapped so that it remembers what was done to it: every byte read and written, and
every passing of time, in order. Peeking leaves no mark. The recording changes nothing else: the
wrapped bus answers as it would on its own.
-/

namespace GameBoy

/-- **One thing done to a bus.** -/
inductive BusCall where
  /-- A byte was read. -/
  | read (address : UInt16) (value : UInt8)
  /-- A byte was stored. -/
  | write (address : UInt16) (value : UInt8)
  /-- Clock cycles went by. -/
  | tick (cycles : Nat)
  deriving DecidableEq, Repr

/-- **A bus and what was done to it.** -/
structure Recorded (β : Type) where
  bus : β
  /-- The calls so far, oldest first. -/
  calls : Array BusCall

namespace Recorded

variable {β : Type} [Bus β]

instance : Bus (Recorded β) where
  read r address :=
    let (value, bus) := Bus.read r.bus address
    (value, { bus, calls := r.calls.push (.read address value) })
  write r address value :=
    { bus := Bus.write r.bus address value, calls := r.calls.push (.write address value) }
  tick r cycles := { bus := Bus.tick r.bus cycles, calls := r.calls.push (.tick cycles) }
  peek r address := Bus.peek r.bus address

variable (r : Recorded β) (address : UInt16)

@[simp] theorem read_fst : (Bus.read r address).1 = (Bus.read r.bus address).1 := rfl

@[simp] theorem toList_calls_read :
    (Bus.read r address).2.calls.toList =
      r.calls.toList ++ [.read address (Bus.read r.bus address).1] :=
  Array.toList_push

@[simp] theorem toList_calls_write (value : UInt8) :
    (Bus.write r address value).calls.toList = r.calls.toList ++ [.write address value] :=
  Array.toList_push

@[simp] theorem toList_calls_tick (cycles : Nat) :
    (Bus.tick r cycles).calls.toList = r.calls.toList ++ [.tick cycles] :=
  Array.toList_push

end Recorded

end GameBoy
