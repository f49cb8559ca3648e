import GameBoy.Proofs.Instruction.Switches

/-!
# What instructions put into F

The register F has room for eight bits and the processor has four flags. The other four bits do not
exist, and read as zero; registers of which this is so are *clean* (`GameBoy.Registers.Clean`).

Bytes get into F in two ways. The result of a computation comes with flags, and these are written
with `GameBoy.Registers.setFlags`; a word that is popped, or put in by a driver, may be anything,
and is cleaned by `GameBoy.Registers.setAF`. Both end in `GameBoy.Registers.setF`, after which
registers are clean whatever they were before (`GameBoy.Registers.clean_setF`). Everything else
leaves F as it was, and so no instruction makes clean registers unclean
(`GameBoy.Instruction.execute_ensures_clean`).
-/

namespace GameBoy

namespace Registers

/-- **Registers whose F holds flags and nothing else**: the bits that do not exist are zero. -/
def Clean (r : Registers) : Prop := r.f &&& 0x0F = 0

/-! ### Ways into F -/

/-- **Whatever goes into F is cleaned.** -/
theorem clean_setF (r : Registers) (value : UInt8) : (r.setF value).Clean := by
  have disjoint : Flags.mask &&& 0x0F = 0 := rfl
  rw [Clean, setF, UInt8.and_assoc, disjoint, UInt8.and_zero]

theorem clean_setFlags (r : Registers) (flags : Flags) : (r.setFlags flags).Clean :=
  clean_setF r flags.toByte

theorem clean_setAF (r : Registers) (value : UInt16) : (r.setAF value).Clean :=
  clean_setF _ (lowByte value)

theorem clean_masked (r : Registers) : r.masked.Clean := clean_setF r r.f

/-! ### What leaves F alone -/

namespace Clean

variable {r : Registers} (h : r.Clean)

include h

theorem setByte (register : ByteRegister) (value : UInt8) : (r.setByte register value).Clean := by
  cases register <;> exact h

theorem setPair (pair : RegisterPair) (value : UInt16) : (r.setPair pair value).Clean := by
  cases pair <;> exact h

/-- Of the pairs that can be popped AF is the one that needs to be cleaned. -/
theorem setStackPair (pair : StackPair) (value : UInt16) : (r.setStackPair pair value).Clean := by
  cases pair with
  | af => exact clean_setAF r value
  | bc | de | hl => exact h

theorem afterAccess (pointer : Pointer) : (r.afterAccess pointer).Clean := by
  cases pointer <;> exact h

end Clean

end Registers

open Microcode (Ensures)

variable {r : Registers}

/-- A byte put into an operand does not go to F. -/
theorem ByteOperand.write_ensures_clean (operand : ByteOperand) (h : r.Clean) (value : UInt8) :
    (operand.write r value).Ensures Registers.Clean := by
  cases operand with
  | register x => exact .done (h.setByte x value)
  | atHL => exact .write (.done h)

/-- **The second page leaves clean registers clean.** -/
theorem PageInstruction.execute_ensures_clean (i : PageInstruction) (h : r.Clean) :
    (i.execute r).Ensures Registers.Clean := by
  cases i with
  | shift op operand =>
    refine .bind_of_forall _ fun _ => ?_
    exact .bind_of_forall _ fun _ => .done (Registers.clean_setFlags _ _)
  | testBit bit operand => exact .bind_of_forall _ fun _ => .done (Registers.clean_setFlags _ _)
  | clearBit bit operand | setBit bit operand =>
    exact .bind_of_forall _ fun _ => operand.write_ensures_clean h _

/-- Going on somewhere else does not touch F. -/
theorem Core.clean_proceed (c : Core) {r : Registers} (h : r.Clean) {address : UInt16} :
    (c.proceed r address).registers.Clean :=
  h

/-- The flags of an operation on the accumulator are clean. -/
theorem Instruction.clean_accumulated (r : Registers) (result : Alu.Result) :
    (accumulated r result).Clean :=
  Registers.clean_setFlags _ result.flags

/-- **Instructions leave clean registers clean.** -/
theorem Instruction.execute_ensures_clean (i : Instruction) {c : Core} (h : c.registers.Clean) :
    (i.execute c).Ensures (·.registers.Clean) := by
  cases i with
  | page =>
    rw [execute]
    refine .bind_of_forall (Microcode.fetchByte c.registers.pc) fun opcode => ?_
    exact (PageInstruction.execute_ensures_clean _ h).bind fun _ clean => .done clean
  | load target source =>
    refine .bind_of_forall _ fun value => ?_
    exact (target.write_ensures_clean h value).bind fun _ clean => .done clean
  | loadByte target =>
    rw [execute]
    refine .bind_of_forall (Microcode.fetchByte c.registers.pc) fun value => ?_
    exact (target.write_ensures_clean h value).bind fun _ clean => .done clean
  | loadWord target => exact .read fun _ => .read fun _ => .done (h.setPair target _)
  | incrementPair pair | decrementPair pair => exact .idle (.done (h.setPair pair _))
  | storeIndirect pointer => exact .write (.done (h.afterAccess pointer))
  | loadIndirect pointer =>
    refine .read fun a => .done ?_
    have loaded : Registers.Clean { c.registers with a } := h
    exact loaded.afterAccess pointer
  | pop target =>
    refine .read fun _ => .read fun _ => .done ?_
    have moved : Registers.Clean { c.registers with sp := c.registers.sp + 2 } := h
    exact moved.setStackPair target _
  | accumulate op operand =>
    exact .bind_of_forall _ fun _ => .done (c.clean_proceed (clean_accumulated _ _))
  | accumulateByte op => exact .read fun _ => .done (c.clean_proceed (clean_accumulated _ _))
  | rotate _ | decimalAdjust | complement =>
    exact .done (c.clean_proceed (clean_accumulated _ _))
  | increment operand | decrement operand =>
    refine .bind_of_forall _ fun _ => ?_
    exact .bind_of_forall _ fun _ => .done (c.clean_proceed (Registers.clean_setFlags _ _))
  | setCarry | complementCarry =>
    exact .done (c.clean_proceed (Registers.clean_setFlags _ _))
  | addPair pair => exact .idle (.done (c.clean_proceed (Registers.clean_setFlags _ _)))
  | loadStackAddress =>
    exact .read fun _ => .idle (.done (c.clean_proceed (Registers.clean_setFlags _ _)))
  | addStackPointer =>
    exact .read fun _ => .idle (.idle (.done (c.clean_proceed (Registers.clean_setFlags _ _))))
  | jumpIf condition =>
    exact .read fun _ => .read fun _ => branch_ensures (.idle (.done h)) h
  | jumpRelativeIf condition => exact .read fun _ => branch_ensures (.idle (.done h)) h
  | callIf condition =>
    exact .read fun _ => .read fun _ => branch_ensures (.idle (.write (.write (.done h)))) h
  | retIf condition =>
    exact .idle (branch_ensures (.read fun _ => .read fun _ => .idle (.done h)) h)
  | _ =>
    -- the others move bytes around, but none to F
    repeat first
      | exact .done h
      | refine .idle ?_
      | refine .read fun _ => ?_
      | refine .write ?_

end GameBoy
