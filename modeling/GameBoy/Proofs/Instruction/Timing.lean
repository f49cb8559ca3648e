import GameBoy.Proofs.Bus.Traffic
import GameBoy.Proofs.Instruction.Remainder

/-!
# The time that instructions take

An instruction takes a machine cycle for every byte of its code, one for every byte that it loads or
stores, and some in which the bus is idle. This file has the tables of the second
(`GameBoy.Instruction.dataBytes`) and the third (`GameBoy.Instruction.idleCycles`), and says that
they are right (`GameBoy.Instruction.remainder_spends`). What decides is the opcode, the second byte
for the instructions of the second page, and for a branch whether it is taken; registers and memory
do not matter otherwise.

`GameBoy.Microcode.Spends` counts the cycles of a program exactly, by what they are spent on.
-/

namespace GameBoy

namespace Microcode

variable {α γ : Type} {d n d' n' : Nat} {code : Microcode α}

/-- **A program that loads or stores some bytes and idles for some cycles**, as many of them each
whatever the bytes are that it reads. -/
inductive Spends : (data idle : Nat) → Microcode α → Prop
  | done {result : α} : Spends 0 0 (done result)
  | idle {d n : Nat} {next : Microcode α} (h : Spends d n next) : Spends d (n + 1) (idle next)
  | read {d n : Nat} {a : UInt16} {next : UInt8 → Microcode α}
    (h : ∀ value, Spends d n (next value)) : Spends (d + 1) n (read a next)
  | write {d n : Nat} {a : UInt16} {v : UInt8} {next : Microcode α} (h : Spends d n next) :
    Spends (d + 1) n (write a v next)

namespace Spends

/-- **One program after another** spends what the two of them spend. -/
theorem bind {next : α → Microcode γ} (h : code.Spends d n) (hn : ∀ a, (next a).Spends d' n') :
    (code >>= next).Spends (d' + d) (n' + n) := by
  induction h with
  | done => exact hn _
  | idle _ ih => exact .idle ih
  | read _ ih => exact .read ih
  | write _ ih => exact .write ih

/-- Nothing more is spent on a change to the result. -/
theorem bind_done {f : α → γ} (h : code.Spends d n) :
    (code >>= fun a => .done (f a)).Spends d n := by
  have spends : (code >>= fun a => .done (f a)).Spends (0 + d) (0 + n) := h.bind fun _ => .done
  rwa [Nat.zero_add, Nat.zero_add] at spends

/-- **The calls of such a program**: a machine cycle for each byte and each cycle of idleness. -/
theorem run_recorded {β : Type} [Bus β] (h : code.Spends d n) (r : Recorded β) :
    ∃ calls, (code.run r).bus.calls.toList = r.calls.toList ++ calls ∧
      (calls.filterMap BusCall.place?).length = d ∧ MachineCycles (d + n) calls := by
  induction h generalizing r with
  | done => exact ⟨[], (List.append_nil _).symm, rfl, .nil⟩
  | idle _ ih =>
    obtain ⟨calls, hlog, hplaces, hcycles⟩ := ih (Bus.tick r machineCycle)
    refine ⟨.tick 4 :: calls, hlog.trans ?_, hplaces, .cons .idle hcycles⟩
    simp [machineCycle]
  | @read d n a next _ ih =>
    obtain ⟨calls, hlog, hplaces, hcycles⟩ :=
      ih (Bus.read r a).1 (Bus.tick (Bus.read r a).2 machineCycle)
    have cycles := MachineCycles.cons (.read a (Bus.read r a).1) hcycles
    rw [Nat.add_right_comm] at cycles
    refine ⟨_, hlog.trans ?_, ?_, cycles⟩
    · simp [machineCycle]
    · exact congrArg Nat.succ hplaces
  | @write d n a v next _ ih =>
    obtain ⟨calls, hlog, hplaces, hcycles⟩ := ih (Bus.tick (Bus.write r a v) machineCycle)
    have cycles := MachineCycles.cons (.write a v) hcycles
    rw [Nat.add_right_comm] at cycles
    refine ⟨_, hlog.trans ?_, ?_, cycles⟩
    · simp [machineCycle]
    · exact congrArg Nat.succ hplaces

end Spends

end Microcode

/-- The calls that fetch some bytes take a machine cycle for each of them. -/
theorem Microcode.machineCycles_fetchCalls (found : UInt16 → UInt8) (fetches : List UInt16) :
    MachineCycles fetches.length (fetchCalls found fetches) := by
  induction fetches with
  | nil => exact .nil
  | cons a fetches ih => exact .cons (.read a (found a)) ih

/-- Machine cycles one after another. -/
theorem MachineCycles.append {n k : Nat} {calls calls' : List BusCall} (h : MachineCycles n calls)
    (h' : MachineCycles k calls') : MachineCycles (n + k) (calls ++ calls') := by
  induction h with
  | nil => rwa [Nat.zero_add]
  | cons first _ ih =>
    rw [Nat.add_right_comm, List.append_assoc]
    exact .cons first ih

/-! ### The tables -/

/-- How many bytes of memory an operand lies in. -/
def ByteOperand.bytes : ByteOperand → Nat
  | .register _ => 0
  | .atHL => 1

/-- **How many bytes an instruction of the second page loads or stores.** -/
def PageInstruction.dataBytes : PageInstruction → Nat
  | .testBit _ operand => operand.bytes
  | .shift _ operand | .clearBit _ operand | .setBit _ operand => 2 * operand.bytes

namespace Instruction

/-- The condition on which an instruction branches. -/
def condition? : Instruction → Option Condition
  | .jumpIf condition | .jumpRelativeIf condition | .callIf condition | .retIf condition =>
    some condition
  | _ => none

/-- **Whether an instruction does all that it can do**: one without a condition always does. -/
def taken (i : Instruction) (flags : Flags) : Bool := i.condition?.all (·.holds flags)

/-- **How many bytes an instruction loads or stores**, those of its code not being counted. On the
second page it depends on the instruction there, and with a condition on whether that holds. -/
def dataBytes (i : Instruction) (second : PageInstruction) (taken : Bool) : Nat :=
  match i with
  | .page => second.dataBytes
  | .load target source => target.bytes + source.bytes
  | .loadByte operand | .accumulate _ operand => operand.bytes
  | .increment operand | .decrement operand => 2 * operand.bytes
  | .storeIndirect _ | .loadIndirect _ | .storeHigh | .loadHigh | .storeHighC | .loadHighC
  | .storeAbsolute | .loadAbsolute => 1
  | .storeStackPointer | .push _ | .pop _ | .call | .ret | .retInterrupt | .restart _ => 2
  | .callIf _ | .retIf _ => if taken then 2 else 0
  | _ => 0

/-- **For how many cycles an instruction leaves the bus idle.** -/
def idleCycles (i : Instruction) (taken : Bool) : Nat :=
  match i with
  | .jump | .jumpRelative | .call | .restart _ | .ret | .retInterrupt | .push _
  | .incrementPair _ | .decrementPair _ | .addPair _ | .loadStackPointer | .loadStackAddress => 1
  | .addStackPointer => 2
  | .jumpIf _ | .jumpRelativeIf _ | .callIf _ => if taken then 1 else 0
  | .retIf _ => if taken then 2 else 1
  | _ => 0

end Instruction

/-! ### The tables are right -/

open Microcode (Spends)

theorem ByteOperand.read_spends (operand : ByteOperand) (r : Registers) :
    (operand.read r).Spends operand.bytes 0 := by
  cases operand with
  | register => exact .done
  | atHL => exact .read fun _ => .done

theorem ByteOperand.write_spends (operand : ByteOperand) (r : Registers) (value : UInt8) :
    (operand.write r value).Spends operand.bytes 0 := by
  cases operand with
  | register => exact .done
  | atHL => exact .write .done

/-- **What an instruction of the second page spends** after its own opcode. -/
theorem PageInstruction.execute_spends (i : PageInstruction) (r : Registers) :
    (i.execute r).Spends i.dataBytes 0 := by
  cases i with
  | testBit _ operand => exact (operand.read_spends r).bind_done
  | shift _ operand | clearBit _ operand | setBit _ operand =>
    cases operand with
    | register => exact .done
    | atHL => exact .read fun _ => .write .done

namespace Instruction

/-- A branch spends what its continuation spends, or else nothing. -/
theorem branch_spends {d n : Bool → Nat} {condition : Condition} {c : Core} {next : UInt16}
    {taken : Microcode Core} (h : taken.Spends (d true) (n true))
    (hn : d false = 0 ∧ n false = 0) :
    (branch condition c next taken).Spends (d (condition.holds c.registers.flags))
      (n (condition.holds c.registers.flags)) := by
  rw [branch]
  cases condition.holds c.registers.flags with
  | true => exact h
  | false =>
    rw [hn.1, hn.2]
    exact .done

/-- **What an instruction spends** once its bytes have been fetched is in the tables. -/
theorem remainder_spends (i : Instruction) (c : Core) (found : UInt16 → UInt8) :
    (i.remainder c found).Spends
      (i.dataBytes (.decode (found (c.registers.pc + 1))) (i.taken c.registers.flags))
      (i.idleCycles (i.taken c.registers.flags)) := by
  cases i with
  | page =>
    rw [remainder_page]
    generalize PageInstruction.decode (found (c.registers.pc + 1)) = second
    exact (second.execute_spends c.registers).bind_done
  | load target source =>
    exact (source.read_spends _).bind fun _ => (target.write_spends _ _).bind_done
  | loadByte target => exact (target.write_spends _ _).bind_done
  | accumulate op operand => exact (operand.read_spends _).bind_done
  | increment operand | decrement operand =>
    cases operand with
    | register => exact .done
    | atHL => exact .read fun _ => .write .done
  | jumpIf condition =>
    exact branch_spends (d := dataBytes (.jumpIf condition) _)
      (n := idleCycles (.jumpIf condition)) (.idle .done) ⟨rfl, rfl⟩
  | jumpRelativeIf condition =>
    exact branch_spends (d := dataBytes (.jumpRelativeIf condition) _)
      (n := idleCycles (.jumpRelativeIf condition)) (.idle .done) ⟨rfl, rfl⟩
  | callIf condition =>
    exact branch_spends (d := dataBytes (.callIf condition) _)
      (n := idleCycles (.callIf condition)) (.idle (.write (.write .done))) ⟨rfl, rfl⟩
  | retIf condition =>
    -- the cycle in which the condition is looked at is spent in any case
    have idle (taken : Bool) :
        (retIf condition).idleCycles taken = (if taken then 1 else 0) + 1 := by
      cases taken <;> rfl
    rw [idle]
    refine .idle ?_
    exact branch_spends (d := dataBytes (.retIf condition) _) (n := fun t => if t then 1 else 0)
      (.read fun _ => .read fun _ => .idle .done) ⟨rfl, rfl⟩
  | _ =>
    -- the others are laid out over their cycles once and for all
    repeat first
      | exact .done
      | refine .idle ?_
      | refine .read fun _ => ?_
      | refine .write ?_

end Instruction

end GameBoy
