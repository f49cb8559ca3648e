import GameBoy.Bus.Ram
import GameBoy.Interrupt.Lines
import GameBoy.Proofs.Bus.Invariant
import GameBoy.Proofs.Bus.Morphism

/-!
# Devices that raise interrupt lines

Memory, beside devices of which it is only known that they may raise interrupt lines while time
passes: `GameBoy.RequestBus`. When they do so, which lines they raise, and what it depends on, is
left open.

To speak of the lines that are raised in the course of a step, the byte of requests is watched
(`GameBoy.Monitored`). Two things can happen to it: lines are raised in it, or it is stored to. What
it holds in the end is what these events, one after another, make of what it held in the beginning
(`GameBoy.Machine.requests_act`), and as long as nothing is stored, that is all that was there and
all that was raised (`GameBoy.RequestEvent.foldl_apply`).
-/

namespace GameBoy

open Interrupt (requestAddress)

/-- **Memory beside devices that may raise interrupt lines** while time passes, and do nothing else
to memory. -/
class RequestBus (β : Type) [Bus β] where
  /-- What is in memory. -/
  memory : β → Memory
  /-- The lines that the devices raise while a number of clock cycles goes by. -/
  raised : β → Nat → UInt8
  read_fst (bus : β) (a : UInt16) : (Bus.read bus a).1 = (memory bus).get a
  memory_read (bus : β) (a : UInt16) : memory (Bus.read bus a).2 = memory bus
  memory_write (bus : β) (a : UInt16) (v : UInt8) :
    memory (Bus.write bus a v) = (memory bus).set a v
  memory_tick (bus : β) (k : Nat) :
    memory (Bus.tick bus k) =
      (memory bus).set requestAddress ((memory bus).get requestAddress ||| raised bus k)

/-! ### A device with a script -/

/-- **Memory and a device that raises lines on cue**: each time it is told of time that has passed,
it raises the lines that come next in its script, and none when the script is at its end. -/
structure Prompted where
  ram : Ram
  /-- The lines to be raised, one byte of them at a time. -/
  cues : List UInt8

namespace Prompted

instance : Bus Prompted where
  read b a := (b.ram.memory.get a, b)
  write b a v := { b with ram := Bus.write b.ram a v }
  tick b k :=
    let requested := b.ram.memory.get requestAddress ||| b.cues.headD 0
    { ram := Bus.tick (Bus.write b.ram requestAddress requested) k, cues := b.cues.tail }
  peek b a := b.ram.memory.get a

instance : RequestBus Prompted where
  memory b := b.ram.memory
  raised b _ := b.cues.headD 0
  read_fst _ _ := rfl
  memory_read _ _ := rfl
  memory_write _ _ _ := rfl
  memory_tick _ _ := rfl

end Prompted

variable {β : Type} [Bus β]

/-! ### The byte of requests -/

/-- **The lines that are requested.** -/
def requests [RequestBus β] (bus : β) : UInt8 := (RequestBus.memory bus).get requestAddress

/-- **What can happen to the byte of requests.** -/
inductive RequestEvent where
  /-- Devices raise some lines, or none. -/
  | raised (lines : UInt8)
  /-- The byte is stored to. -/
  | stored (value : UInt8)
  deriving DecidableEq, Repr

namespace RequestEvent

/-- The byte of requests after an event. -/
def apply (requests : UInt8) : RequestEvent → UInt8
  | .raised lines => requests ||| lines
  | .stored value => value

/-- **All lines that are raised** in the course of some events. -/
def raisedLines : List RequestEvent → UInt8
  | [] => 0
  | .raised lines :: rest => lines ||| raisedLines rest
  | .stored _ :: rest => raisedLines rest

/-- **Where nothing is stored, nothing is lost**: what was requested stays, and what is raised is
added. -/
theorem foldl_apply {events : List RequestEvent} (h : ∀ v, .stored v ∉ events) (before : UInt8) :
    events.foldl apply before = before ||| raisedLines events := by
  induction events generalizing before with
  | nil => exact (UInt8.or_zero).symm
  | cons e rest ih =>
    have hrest : ∀ v, .stored v ∉ rest := fun v hv => h v (List.mem_cons_of_mem _ hv)
    cases e with
    | stored v => exact absurd List.mem_cons_self (h v)
    | raised lines =>
      rw [List.foldl_cons, ih hrest, apply, raisedLines, UInt8.or_assoc]

/-- **A line that is raised stays raised** as long as nothing is stored. -/
theorem testBit_foldl_apply {events : List RequestEvent} (h : ∀ v, .stored v ∉ events)
    {before : UInt8} {k : Nat} (hk : before.toNat.testBit k = true) :
    (events.foldl apply before).toNat.testBit k = true := by
  rw [foldl_apply h, UInt8.toNat_or, Nat.testBit_or, hk, Bool.true_or]

end RequestEvent

/-! ### Watching it -/

/-- **A bus and what has happened to its byte of requests.** -/
structure Monitored (β : Type) where
  bus : β
  /-- What has happened so far, oldest first. -/
  events : List RequestEvent

variable [RequestBus β]

namespace Monitored

instance : Bus (Monitored β) where
  read w a :=
    let (value, bus) := Bus.read w.bus a
    (value, { w with bus })
  write w a v :=
    { bus := Bus.write w.bus a v
      events := if a = requestAddress then w.events ++ [.stored v] else w.events }
  tick w k :=
    { bus := Bus.tick w.bus k
      events := w.events ++ [.raised (RequestBus.raised w.bus k)] }
  peek w a := Bus.peek w.bus a

@[simp] theorem events_read (w : Monitored β) (a : UInt16) :
    (Bus.read w a).2.events = w.events := rfl

@[simp] theorem events_write (w : Monitored β) (a : UInt16) (v : UInt8) :
    (Bus.write w a v).events = if a = requestAddress then w.events ++ [.stored v] else w.events :=
  rfl

@[simp] theorem events_tick (w : Monitored β) (k : Nat) :
    (Bus.tick w k).events = w.events ++ [.raised (RequestBus.raised w.bus k)] := rfl

/-- **A line is lowered** by storing the requests as they are, without it. -/
theorem events_acknowledge (w : Monitored β) (i : Interrupt) :
    (Interrupt.acknowledge w i).events = w.events ++ [.stored (requests w.bus &&& ~~~i.mask)] := by
  have found : (Bus.read w requestAddress).1 = requests w.bus := RequestBus.read_fst w.bus _
  rw [Interrupt.acknowledge, events_write, if_pos rfl, found, events_read]

/-- A line is raised from outside by storing the requests as they are, with it. -/
theorem events_request (w : Monitored β) (i : Interrupt) :
    (Interrupt.request w i).events = w.events ++ [.stored (requests w.bus ||| i.mask)] := by
  have found : (Bus.read w requestAddress).1 = requests w.bus := RequestBus.read_fst w.bus _
  rw [Interrupt.request, events_write, if_pos rfl, found, events_read]

/-- Watching changes nothing about what is watched. -/
theorem isBusMorphism_bus : IsBusMorphism (Monitored.bus : Monitored β → β) where
  read _ _ := rfl
  write _ _ _ := rfl
  tick _ _ := rfl
  peek _ := rfl

/-- **The events account for the requests**, whatever is done to the bus. -/
theorem busInvariant_foldl (before : UInt8) :
    BusInvariant fun w : Monitored β =>
      requests w.bus = w.events.foldl RequestEvent.apply before where
  read {w} h a := by
    change (RequestBus.memory (Bus.read w.bus a).2).get requestAddress = _
    rw [RequestBus.memory_read]
    exact h
  write {w} h a v := by
    change (RequestBus.memory (Bus.write w.bus a v)).get requestAddress = List.foldl _ _ (ite _ _ _)
    rw [RequestBus.memory_write, AddressMap.get_set]
    split
    · rw [List.foldl_append]
      rfl
    · exact h
  tick {w} h k := by
    change (RequestBus.memory (Bus.tick w.bus k)).get requestAddress = List.foldl _ _ (_ ++ [_])
    rw [RequestBus.memory_tick, AddressMap.get_set, if_pos rfl, List.foldl_append, ← h]
    rfl

end Monitored

namespace Machine

/-- The machine with its byte of requests watched from now on. -/
def monitored (m : Machine β) : Machine (Monitored β) := ⟨m.cpu, ⟨m.bus, []⟩⟩

/-- **What happens to the byte of requests** while the driver does something. -/
def requestEvents (m : Machine β) (action : Action) : List RequestEvent :=
  (m.monitored.act action).2.bus.events

/-- A driver does the same whether or not the requests are watched. -/
theorem act_monitored (m : Machine β) (action : Action) :
    m.act action = ((m.monitored.act action).1, (m.monitored.act action).2.map Monitored.bus) :=
  act_map Monitored.isBusMorphism_bus m.monitored action

/-- **The requests after an action** are what its events make of the requests before. -/
theorem requests_act (m : Machine β) (action : Action) :
    requests (m.act action).2.bus =
      (m.requestEvents action).foldl RequestEvent.apply (requests m.bus) := by
  rw [act_monitored]
  exact (Monitored.busInvariant_foldl _).act (m := m.monitored) rfl action

end Machine

end GameBoy
