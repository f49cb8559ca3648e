import GameBoy.Proofs.Instruction.Contents

/-!
# Jumps, calls and returns

The instructions that may go on elsewhere than at the next one, all of them at once. Whether one of
them does so depends on the flags alone. If it does, it goes on at `GameBoy.Instruction.target`, a
call pushes the way back, and a return takes the stack pointer up again
(`GameBoy.Instruction.execute_yields_of_taken`); if it does not, nothing is different but the program
counter (`GameBoy.Instruction.execute_yields_of_not_taken`).

In this form an instruction with a condition and the same one without it do not differ any more. Both
are written down by a `GameBoy.Branch`.
-/

namespace GameBoy

/-- **The map with some values put at their addresses**, the first one first. -/
def AddressMap.put {α : Type} (m : AddressMap α) (entries : List (UInt16 × α)) : AddressMap α :=
  entries.foldl (fun m entry => m.set entry.1 entry.2) m

/-- What is at an address afterwards depends on what was there before, and not on the rest. -/
theorem AddressMap.get_put_congr {α : Type} {m n : AddressMap α} (entries : List (UInt16 × α))
    {a : UInt16} (h : n.get a = m.get a) : (n.put entries).get a = (m.put entries).get a := by
  induction entries generalizing m n with
  | nil => exact h
  | cons entry entries ih =>
    refine ih ?_
    rw [get_set, get_set, h]

/-- **What a call leaves on the stack**: the way back, its high byte first. -/
def pushed (sp back : UInt16) : List (UInt16 × UInt8) :=
  [(sp - 1, highByte back), (sp - 2, lowByte back)]

/-- **The way back is found again** on the stack. -/
theorem word_get_put_pushed (memory : Memory) (sp back : UInt16) :
    word ((memory.put (pushed sp back)).get (sp - 1)) ((memory.put (pushed sp back)).get (sp - 2)) =
      back := by
  have low : (memory.put (pushed sp back)).get (sp - 2) = lowByte back := by
    simp [pushed, AddressMap.put, AddressMap.get_set]
  have high : (memory.put (pushed sp back)).get (sp - 1) = highByte back := by
    simp [pushed, AddressMap.put, AddressMap.get_set]
  rw [high, low, word_highByte_lowByte]

namespace Instruction

/-- The instructions that may go on where the stack says. -/
def returns : Instruction → Bool
  | .ret | .retIf _ | .retInterrupt => true
  | _ => false

/-- **Where an instruction goes on** if it goes elsewhere, and otherwise the next one. -/
def target (i : Instruction) (r : Registers) (memory : Memory) : UInt16 :=
  match i with
  | .jump | .jumpIf _ | .call | .callIf _ => word (memory.get (r.pc + 2)) (memory.get (r.pc + 1))
  | .jumpRelative | .jumpRelativeIf _ => r.pc + 2 + signExtend (memory.get (r.pc + 1))
  | .jumpHL => r.hl
  | .ret | .retIf _ | .retInterrupt => word (memory.get (r.sp + 1)) (memory.get r.sp)
  | .restart index => restartAddress index
  | i => i.next r.pc

/-- The stack pointer afterwards, which a call takes down and a return up. -/
def stackPointer (i : Instruction) (sp : UInt16) : UInt16 :=
  if i.calls then sp - 2 else if i.returns then sp + 2 else sp

/-- What is stored, which is the way back of a call. -/
def pushes (i : Instruction) (r : Registers) : List (UInt16 × UInt8) :=
  if i.calls then pushed r.sp (i.next r.pc) else []

variable {i : Instruction} {c : Core}

/-- A call goes elsewhere. -/
theorem transfers_of_calls (h : i.calls = true) : i.transfers = true := by
  revert h
  cases i <;> simp [calls, transfers]

/-- Only an instruction with a condition can fail to do all that it can do. -/
theorem exists_condition_of_not_taken {flags : Flags} (h : i.taken flags = false) :
    ∃ condition, i.condition? = some condition ∧ condition.holds flags = false := by
  rw [taken] at h
  cases hc : i.condition? with
  | none => simp [hc] at h
  | some condition => exact ⟨condition, rfl, by simpa [hc] using h⟩

/-- A branch whose condition holds does what it is taken for. -/
theorem branch_yields {condition : Condition} {next : UInt16} {code : Microcode Core}
    {memory memory' : Memory} {c' : Core} {stored : List (UInt16 × UInt8)}
    (h : condition.holds c.registers.flags = true)
    (hy : code.Yields memory c' memory' stored) :
    (branch condition c next code).Yields memory c' memory' stored := by
  rw [branch, if_pos h]
  exact hy

/-- **What an instruction does if it goes elsewhere**: it goes on at its target, moves the stack
pointer, changes the switches as it is meant to, and stores the way back. -/
theorem execute_yields_of_taken (memory : Memory) (h : i.transfers = true)
    (ht : i.taken c.registers.flags = true) :
    (i.execute c).Yields memory
      ((i.switched c).proceed { c.registers with sp := i.stackPointer c.registers.sp }
        (i.target c.registers memory))
      (memory.put (i.pushes c.registers)) (i.pushes c.registers) := by
  cases i with
  | jump => exact .read (.read (.idle .done))
  | jumpIf condition => exact .read (.read (branch_yields ht (.idle .done)))
  | jumpHL => exact .done
  | jumpRelative => exact .read (.idle .done)
  | jumpRelativeIf condition => exact .read (branch_yields ht (.idle .done))
  | call => exact .read (.read (.idle (.write (.write .done))))
  | callIf condition =>
    exact .read (.read (branch_yields ht (.idle (.write (.write .done)))))
  | ret | retInterrupt => exact .read (.read (.idle .done))
  | retIf condition => exact .idle (branch_yields ht (.read (.read (.idle .done))))
  | restart index => exact .idle (.write (.write .done))
  | _ => cases h

/-- **What an instruction does if its condition fails**: it goes on at the next one, and that is
all. -/
theorem execute_yields_of_not_taken (memory : Memory) (ht : i.taken c.registers.flags = false) :
    (i.execute c).Yields memory (c.goto (i.next c.pc)) memory [] := by
  obtain ⟨condition, hc, fails⟩ := exists_condition_of_not_taken ht
  have skips (next : UInt16) (code : Microcode Core) :
      (branch condition c next code).Yields memory (c.goto next) memory [] := by
    rw [branch, fails]
    exact .done
  cases i with
  | jumpIf | callIf =>
    cases hc
    exact .read (.read (skips _ _))
  | jumpRelativeIf =>
    cases hc
    exact .read (skips _ _)
  | retIf =>
    cases hc
    exact .idle (skips _ _)
  | _ => cases hc

end Instruction

/-! ### Conditions -/

/-- **The four kinds of instruction that come with and without a condition.** -/
inductive Branch where
  | jump
  | jumpRelative
  | call
  | ret
  deriving DecidableEq, Repr

namespace Branch

/-- The instruction without a condition. -/
def always : Branch → Instruction
  | .jump => .jump
  | .jumpRelative => .jumpRelative
  | .call => .call
  | .ret => .ret

/-- The instruction that hangs on a condition. -/
def onlyIf : Branch → Condition → Instruction
  | .jump => .jumpIf
  | .jumpRelative => .jumpRelativeIf
  | .call => .callIf
  | .ret => .retIf

variable (branch : Branch) (condition : Condition)

theorem hasOpcode_always : branch.always.hasOpcode = true := by cases branch <;> rfl

theorem hasOpcode_onlyIf : (branch.onlyIf condition).hasOpcode = true := by cases branch <;> rfl

theorem transfers_always : branch.always.transfers = true := by cases branch <;> rfl

theorem transfers_onlyIf : (branch.onlyIf condition).transfers = true := by cases branch <;> rfl

theorem taken_always (flags : Flags) : branch.always.taken flags = true := by cases branch <;> rfl

/-- Whether the instruction goes elsewhere is what the condition says. -/
theorem taken_onlyIf (flags : Flags) :
    (branch.onlyIf condition).taken flags = condition.holds flags := by
  cases branch <;> rfl

/-- **With its condition or without it**, a branch goes to the same place, moves the stack pointer
as far, and leaves the same way back. -/
theorem transfer_onlyIf (r : Registers) (memory : Memory) :
    (branch.onlyIf condition).target r memory = branch.always.target r memory ∧
      (branch.onlyIf condition).stackPointer r.sp = branch.always.stackPointer r.sp ∧
      (branch.onlyIf condition).pushes r = branch.always.pushes r := by
  cases branch <;> exact ⟨rfl, rfl, rfl⟩

theorem switched_onlyIf (c : Core) : (branch.onlyIf condition).switched c = c := by
  cases branch <;> rfl

theorem switched_always (c : Core) : branch.always.switched c = c := by cases branch <;> rfl

end Branch

end GameBoy
