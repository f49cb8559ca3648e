import GameBoy.Instruction.Execution

/-!
# How long an instruction takes

`GameBoy.Microcode.Within` bounds the machine cycles of a program whatever the bytes are that it
reads, and `GameBoy.Instruction.execute_within` puts the bound at five for every instruction, after
the cycle in which its opcode is fetched. Calls need all five of them.
-/

namespace GameBoy

namespace Microcode

variable {α γ : Type}

/-- **A program ends within a number of machine cycles**, whatever it reads. -/
inductive Within : (cycles : Nat) → Microcode α → Prop
  | done {cycles : Nat} {result : α} : Within cycles (done result)
  | idle {cycles : Nat} {next : Microcode α} (h : Within cycles next) :
    Within (cycles + 1) (idle next)
  | read {cycles : Nat} {a : UInt16} {next : UInt8 → Microcode α}
    (h : ∀ value, Within cycles (next value)) : Within (cycles + 1) (read a next)
  | write {cycles : Nat} {a : UInt16} {v : UInt8} {next : Microcode α} (h : Within cycles next) :
    Within (cycles + 1) (write a v next)

namespace Within

variable {c d : Nat} {code : Microcode α}

/-- A program run on a bus takes no more cycles than its bound. -/
theorem cycles_le {β : Type} [Bus β] (h : code.Within c) (bus : β) :
    (code.run bus).cycles ≤ c := by
  induction h generalizing bus with
  | done => exact Nat.zero_le _
  | idle _ ih => exact Nat.succ_le_succ (ih _)
  | read _ ih => exact Nat.succ_le_succ (ih _ _)
  | write _ ih => exact Nat.succ_le_succ (ih _)

/-- More cycles are enough if fewer are. -/
theorem add (h : code.Within c) (d : Nat) : code.Within (d + c) := by
  induction h with
  | done => exact .done
  | idle _ ih => exact .idle ih
  | read _ ih => exact .read ih
  | write _ ih => exact .write ih

/-- **One program after another** takes no more cycles than the two together. -/
theorem bind {next : α → Microcode γ} (h : code.Within c) (hn : ∀ a, (next a).Within d) :
    (code >>= next).Within (d + c) := by
  induction h with
  | @done c result =>
    rw [Nat.add_comm]
    exact (hn result).add c
  | idle _ ih => exact .idle ih
  | read _ ih => exact .read ih
  | write _ ih => exact .write ih

end Within

end Microcode

open Microcode (Within)

/-! ### Operands -/

/-- An operand is read in one cycle at most. -/
theorem ByteOperand.read_within (operand : ByteOperand) (r : Registers) :
    (operand.read r).Within 1 := by
  cases operand with
  | register => exact .done
  | atHL => exact .read fun _ => .done

/-- An operand is written in one cycle at most. -/
theorem ByteOperand.write_within (operand : ByteOperand) (r : Registers) (value : UInt8) :
    (operand.write r value).Within 1 := by
  cases operand with
  | register => exact .done
  | atHL => exact .write .done

/-! ### Instructions -/

/-- **An instruction of the second page** takes two cycles at most after its own opcode. -/
theorem PageInstruction.execute_within (i : PageInstruction) (r : Registers) :
    (i.execute r).Within 2 := by
  cases i with
  | shift op operand =>
    exact (operand.read_within r).bind fun _ => (operand.write_within r _).bind fun _ => .done
  | testBit bit operand => exact (operand.read_within r).bind fun _ => .done
  | clearBit bit operand => exact (operand.read_within r).bind fun _ => operand.write_within r _
  | setBit bit operand => exact (operand.read_within r).bind fun _ => operand.write_within r _

namespace Instruction

/-- A branch not taken takes no time. -/
theorem branch_within {n : Nat} {condition : Condition} {c : Core} {next : UInt16}
    {taken : Microcode Core} (h : taken.Within n) : (branch condition c next taken).Within n := by
  rw [branch]
  split
  · exact h
  · exact .done

/-- **An instruction takes five cycles at most** after its opcode has been fetched. -/
theorem execute_within (i : Instruction) (c : Core) : (i.execute c).Within 5 := by
  cases i with
  | page =>
    have opcode : (Microcode.fetchByte c.registers.pc).Within 1 := .read fun _ => .done
    rw [execute]
    exact opcode.bind fun opcode => (PageInstruction.execute_within _ _).bind fun _ => .done
  | load target source =>
    exact (source.read_within _).bind fun _ => (target.write_within _ _).bind fun _ => .done
  | loadByte target => exact .read fun _ => (target.write_within _ _).bind fun _ => .done
  | accumulate op operand => exact (operand.read_within _).bind fun _ => .done
  | increment operand | decrement operand =>
    exact (operand.read_within _).bind fun _ => (operand.write_within _ _).bind fun _ => .done
  | jumpIf condition => exact .read fun _ => .read fun _ => branch_within (.idle .done)
  | jumpRelativeIf condition => exact .read fun _ => branch_within (.idle .done)
  | callIf condition =>
    exact .read fun _ => .read fun _ => branch_within (.idle (.write (.write .done)))
  | retIf condition =>
    exact .idle (branch_within (.read fun _ => .read fun _ => .idle .done))
  | _ =>
    -- the others are laid out over their cycles once and for all
    repeat first
      | exact .done
      | refine .idle ?_
      | refine .read fun _ => ?_
      | refine .write ?_

end Instruction

end GameBoy
