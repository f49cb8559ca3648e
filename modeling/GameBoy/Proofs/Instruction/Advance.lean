import GameBoy.Proofs.Instruction.Remainder
import GameBoy.Proofs.Instruction.Switches
import GameBoy.Proofs.Instruction.Timing

/-!
# Where instructions go on

Most instructions go on at the next one, which is as far away as they are long. The others are those
that `GameBoy.Instruction.transfers` lists, and of these the ones with a condition only do so if it
holds (`GameBoy.Instruction.remainder_ensures_next`). Two kinds of them refer to the next instruction
all the same: calls leave its address on the stack (`GameBoy.Instruction.remainder_eq_callTo`), and
relative jumps count from there (`GameBoy.Instruction.remainder_eq_jumpTo`).
-/

namespace GameBoy

/-! ### Signed distances -/

/-- A byte read in two's complement, as a word. -/
theorem toNat_signExtend : ∀ n < 256,
    ((signExtend (UInt8.ofNat n)).toNat : Int) = (UInt8.ofNat n).toInt8.toInt % 65536 := by
  decide +kernel

/-- **A distance added to an address** is a signed number added, up to multiples of the size of
memory. -/
theorem toNat_add_signExtend (a : UInt16) (b : UInt8) :
    ((a + signExtend b).toNat : Int) = (a.toNat + b.toInt8.toInt) % 65536 := by
  have distance := toNat_signExtend b.toNat b.toNat_lt
  rw [UInt8.ofNat_toNat] at distance
  rw [UInt16.toNat_add]
  omega

namespace Instruction

open Microcode (Ensures)

/-- **The instructions that may go on elsewhere** than at the next one. -/
def transfers : Instruction → Bool
  | .jump | .jumpIf _ | .jumpHL | .jumpRelative | .jumpRelativeIf _ | .call | .callIf _ | .ret
  | .retIf _ | .retInterrupt | .restart _ => true
  | _ => false

/-- The instructions that may leave the way back on the stack. -/
def calls : Instruction → Bool
  | .call | .callIf _ | .restart _ => true
  | _ => false

/-- The instructions that may go on at a distance. -/
def isRelative : Instruction → Bool
  | .jumpRelative | .jumpRelativeIf _ => true
  | _ => false

/-- The address after an instruction, which is where it goes on unless it goes elsewhere. -/
def next (i : Instruction) (pc : UInt16) : UInt16 := pc + UInt16.ofNat i.length

variable {i : Instruction} {c : Core}

/-- A branch that is not taken goes on at the next instruction. -/
theorem branch_ensures_of_not_holds {condition : Condition} {next : UInt16} {taken : Microcode Core}
    (h : condition.holds c.registers.flags = false) :
    (branch condition c next taken).Ensures fun c' => c'.pc = next := by
  rw [branch, h]
  exact .done rfl

/-- **An instruction that does not go elsewhere** goes on at the next one. -/
theorem remainder_ensures_next (found : UInt16 → UInt8)
    (h : i.transfers = true → i.taken c.registers.flags = false) :
    (i.remainder c found).Ensures fun c' => c'.pc = i.next c.pc := by
  cases i with
  | page =>
    rw [remainder_page]
    exact .bind_of_forall _ fun _ => .done rfl
  | load target source =>
    refine .bind_of_forall (source.read c.registers) fun value => ?_
    exact .bind_of_forall (target.write c.registers value) fun _ => .done rfl
  | loadByte target => exact .bind_of_forall (target.write c.registers _) fun _ => .done rfl
  | accumulate op operand => exact .bind_of_forall (operand.read c.registers) fun _ => .done rfl
  | increment operand | decrement operand =>
    refine .bind_of_forall (operand.read c.registers) fun _ => ?_
    exact .bind_of_forall (operand.write c.registers _) fun _ => .done rfl
  | jumpIf | jumpRelativeIf | callIf => exact branch_ensures_of_not_holds (h rfl)
  | retIf => exact .idle (branch_ensures_of_not_holds (h rfl))
  | jump | jumpHL | jumpRelative | call | ret | retInterrupt | restart =>
    -- without a condition these do go elsewhere
    exact Bool.noConfusion (h rfl : true = false)
  | _ =>
    -- the others are laid out over their cycles once and for all
    repeat first
      | exact .done rfl
      | refine .idle ?_
      | refine .read fun _ => ?_
      | refine .write ?_

/-- **A call that is made** goes somewhere with the address of the next instruction as the way back.
-/
theorem remainder_eq_callTo (found : UInt16 → UInt8) (h : i.calls = true)
    (ht : i.taken c.registers.flags = true) :
    ∃ target, i.remainder c found = callTo c (i.next c.pc) target := by
  cases i with
  | call | restart => exact ⟨_, rfl⟩
  | callIf condition => exact ⟨_, if_pos ht⟩
  | _ => cases h

/-- **A relative jump that is made** counts from the next instruction. -/
theorem remainder_eq_jumpTo (found : UInt16 → UInt8) (h : i.isRelative = true)
    (ht : i.taken c.registers.flags = true) :
    i.remainder c found = jumpTo c (i.next c.pc + signExtend (found (c.pc + 1))) := by
  cases i with
  | jumpRelative => rfl
  | jumpRelativeIf condition => exact if_pos ht
  | _ => cases h

/-- **A call** is idle for a cycle and then stores the way back, its high byte first. -/
theorem run_callTo_recorded {β : Type} [Bus β] (c : Core) (next target : UInt16) (r : Recorded β) :
    ((callTo c next target).run r).bus.calls.toList = r.calls.toList ++
      [.tick 4, .write (c.registers.sp - 1) (highByte next), .tick 4,
        .write (c.registers.sp - 2) (lowByte next), .tick 4] := by
  have pushes : ((callTo c next target).run r).bus.calls =
      ((((r.calls.push (.tick 4)).push (.write (c.registers.sp - 1) (highByte next))).push
        (.tick 4)).push (.write (c.registers.sp - 2) (lowByte next))).push (.tick 4) := rfl
  rw [pushes]
  simp

end Instruction

end GameBoy
