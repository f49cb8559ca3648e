import GameBoy.Bus.Recorded
import GameBoy.Instruction.Execution
import Mathlib.Logic.Function.Iterate

/-!
# The loads and stores that instructions make

Before a load or a store the debugger is told where in memory it is going to be, and this is worked
out from bytes that are only peeked at (`GameBoy.Instruction.accesses`). The instruction itself then
works it out once more, from the same bytes, which it fetches by itself while time passes. As long
as it finds them as they were shown (`GameBoy.Finds`), the two agree: of the calls that go over the
bus, after those that fetch the rest of the instruction, the loads and stores are the foreseen ones,
all of them and in the order foreseen (`GameBoy.Microcode.Makes.run_recorded`).

`GameBoy.Microcode.Makes` says this of a program, and `GameBoy.Instruction.execute_makes` says it of
every instruction that is watched.
-/

namespace GameBoy

/-- **The place of a load or a store**, at which a breakpoint would stop it. Time passes everywhere.
-/
def BusCall.place? : BusCall → Option Breakpoint
  | .read a _ => some ⟨.read, a⟩
  | .write a _ => some ⟨.write, a⟩
  | .tick _ => none

/-- **Bytes that are fetched are found as they were shown**, one in each machine cycle. -/
inductive Finds {β : Type} [Bus β] (peek : UInt16 → UInt8) : β → List UInt16 → Prop
  | nil {bus : β} : Finds peek bus []
  | cons {bus : β} {a : UInt16} {rest : List UInt16} (h : (Bus.read bus a).1 = peek a)
    (hs : Finds peek (Bus.tick (Bus.read bus a).2 machineCycle) rest) : Finds peek bus (a :: rest)

/-- On a quiet bus this is so if the passing of time does not change the bytes. -/
theorem Finds.of_tick {β : Type} [Bus β] [QuietBus β] {peek : UInt16 → UInt8} {bus : β}
    {fetches : List UInt16}
    (h : ∀ a ∈ fetches, ∀ count, Bus.peek ((Bus.tick · machineCycle)^[count] bus) a = peek a) :
    Finds peek bus fetches := by
  induction fetches generalizing bus with
  | nil => exact .nil
  | cons a rest ih =>
    refine .cons ?_ (ih fun b hb count => ?_)
    · rw [QuietBus.read_eq]
      exact h a List.mem_cons_self 0
    · rw [QuietBus.read_eq]
      exact h b (List.mem_cons_of_mem _ hb) (count + 1)

namespace Microcode

variable {α : Type} {peek : UInt16 → UInt8} {fetches : List UInt16} {places : List Breakpoint}

/-- **A program that fetches some bytes and then loads and stores at some places**, provided that
the bytes it fetches are those that `peek` shows. What it loads does not matter. -/
inductive Makes (peek : UInt16 → UInt8) : List UInt16 → List Breakpoint → Microcode α → Prop
  | done {result : α} : Makes peek [] [] (done result)
  | fetch {a : UInt16} {next : UInt8 → Microcode α} {fetches : List UInt16}
    {places : List Breakpoint} (h : Makes peek fetches places (next (peek a))) :
    Makes peek (a :: fetches) places (read a next)
  | load {a : UInt16} {next : UInt8 → Microcode α} {places : List Breakpoint}
    (h : ∀ value, Makes peek [] places (next value)) :
    Makes peek [] (⟨.read, a⟩ :: places) (read a next)
  | store {a : UInt16} {v : UInt8} {next : Microcode α} {places : List Breakpoint}
    (h : Makes peek [] places next) : Makes peek [] (⟨.write, a⟩ :: places) (write a v next)

/-- The calls that fetch some bytes. -/
def fetchCalls (peek : UInt16 → UInt8) (fetches : List UInt16) : List BusCall :=
  fetches.flatMap fun a => [.read a (peek a), .tick machineCycle]

/-- **What such a program does to the bus** if it finds the bytes as they were shown. -/
theorem Makes.run_recorded {β : Type} [Bus β] {code : Microcode α}
    (h : code.Makes peek fetches places) (r : Recorded β) (hr : Finds peek r.bus fetches) :
    ∃ data, (code.run r).bus.calls.toList = r.calls.toList ++ (fetchCalls peek fetches ++ data) ∧
      data.filterMap BusCall.place? = places := by
  induction h generalizing r with
  | done => exact ⟨[], (List.append_nil _).symm, rfl⟩
  | @fetch a next fetches places _ ih =>
    obtain _ | ⟨found, hrest⟩ := hr
    obtain ⟨data, hlog, hdata⟩ := ih (Bus.tick (Bus.read r a).2 machineCycle) hrest
    refine ⟨data, ?_, hdata⟩
    have value : (Bus.read r a).1 = peek a := found
    simp only [run, run.spend, value]
    rw [hlog]
    simp [fetchCalls, Bus.tick, Bus.read, found]
  | @load a next places _ ih =>
    obtain ⟨data, hlog, hdata⟩ :=
      ih (Bus.read r a).1 (Bus.tick (Bus.read r a).2 machineCycle) .nil
    refine ⟨.read a (Bus.read r a).1 :: .tick machineCycle :: data, hlog.trans ?_, ?_⟩
    · simp [fetchCalls, Bus.tick, Bus.read]
    · exact congrArg (_ :: ·) hdata
  | @store a v next places _ ih =>
    obtain ⟨data, hlog, hdata⟩ := ih (Bus.tick (Bus.write r a v) machineCycle) .nil
    refine ⟨.write a v :: .tick machineCycle :: data, hlog.trans ?_, ?_⟩
    · simp [fetchCalls, Bus.tick, Bus.write]
    · exact congrArg (_ :: ·) hdata

end Microcode

namespace Instruction

/-- The addresses of the bytes that follow the opcode of an instruction. -/
def following (i : Instruction) (pc : UInt16) : List UInt16 :=
  [pc + 1, pc + 2].take (i.length - 1)

/-- **An instruction that is watched makes the accesses that are foreseen.** -/
theorem execute_makes {i : Instruction} {c : Core} {peek : UInt16 → UInt8}
    (h : i.accesses c.registers peek ≠ []) :
    (i.execute c).Makes peek (i.following c.registers.pc) (i.accesses c.registers peek) := by
  cases i with
  | load target source =>
    rcases target with t | _ <;> rcases source with s | _
    · simp [accesses, ByteOperand.isMemory] at h
    · exact .load fun _ => .done
    · exact .store .done
    · exact .load fun _ => .store .done
  | loadByte target =>
    rcases target with t | _
    · simp [accesses, ByteOperand.isMemory] at h
    · exact .fetch (.store .done)
  | storeIndirect | storeHighC => exact .store .done
  | loadIndirect | loadHighC => exact .load fun _ => .done
  | storeHigh => exact .fetch (.store .done)
  | loadHigh => exact .fetch (.load fun _ => .done)
  | storeAbsolute => exact .fetch (.fetch (.store .done))
  | loadAbsolute => exact .fetch (.fetch (.load fun _ => .done))
  | storeStackPointer => exact .fetch (.fetch (.store (.store .done)))
  | _ => exact absurd rfl h

end Instruction

end GameBoy
