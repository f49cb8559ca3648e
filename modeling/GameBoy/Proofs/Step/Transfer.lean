import GameBoy.Proofs.Instruction.Transfer
import GameBoy.Proofs.Session.BusTaken
import GameBoy.Proofs.Step.Memory

/-!
# Steps that go elsewhere, and conditions

A step that runs a jump, a call, a return or a restart goes on at the target of the instruction, as
it was before the step, and leaves the way back on the stack if it is a call
(`GameBoy.Machine.transfer_of_executed`); if a condition fails, it is as good as no operation
(`GameBoy.Machine.stay_of_executed`).

So a condition decides whether an instruction does what it does, and nothing else. To say so, the
opcode of an instruction with a condition is replaced by the opcode of the same one without it
(`GameBoy.Machine.withOpcode`), and the steps of the two machines are compared. Both of them are
steps of one branch that is taken (`GameBoy.Machine.branch_of_executed`). The stack may lie
anywhere, on the instruction itself included: whatever a call reads has been read by the time it
stores the way back. Only a return that pops its own opcode can tell the two machines apart.
-/

namespace GameBoy

namespace Condition

/-- The condition that holds when another one does not. -/
def opposite : Condition → Condition
  | .notZero => .zero
  | .zero => .notZero
  | .notCarry => .carry
  | .carry => .notCarry

/-- **Of two opposite conditions exactly one holds.** -/
theorem holds_opposite (condition : Condition) (flags : Flags) :
    condition.opposite.holds flags = !condition.holds flags := by
  cases condition <;> simp [opposite, holds]

/-- The flags that conditions look at are two bits of F. -/
theorem holds_ofByte (b : UInt8) :
    zero.holds (.ofByte b) = b.toNat.testBit 7 ∧ carry.holds (.ofByte b) = b.toNat.testBit 4 := by
  revert b
  decide +kernel

end Condition

namespace Machine

variable {m : Machine Ram}

/-- **A step that goes elsewhere.** -/
theorem transfer_of_executed {i : Instruction} (h : m.step.1 = .executed) (fetched : m.fetched = i)
    (ht : i.transfers = true) (taken : i.taken m.cpu.registers.flags = true) :
    let r := m.cpu.registers
    m.step.2.cpu.core =
        (i.switched m.begun).proceed { r with sp := i.stackPointer r.sp }
          (i.target r m.bus.memory) ∧
      m.step.2.bus.memory = m.bus.memory.put (i.pushes r) ∧
      stores m.recorded.step.2.bus.calls = i.pushes r := by
  refine step_of_yields h ?_
  rw [fetched]
  exact Instruction.execute_yields_of_taken (c := m.begun) m.bus.memory ht taken

/-- **A step that does not go elsewhere** because a condition fails. -/
theorem stay_of_executed {i : Instruction} (h : m.step.1 = .executed) (fetched : m.fetched = i)
    (taken : i.taken m.cpu.registers.flags = false) :
    m.step.2.cpu.core = m.begun.goto (i.next m.pc) ∧ m.step.2.bus.memory = m.bus.memory ∧
      stores m.recorded.step.2.bus.calls = [] := by
  refine step_of_yields h ?_
  rw [fetched]
  exact Instruction.execute_yields_of_not_taken (c := m.begun) m.bus.memory taken

/-- **A call that is made** takes the stack pointer down and leaves the way back on the stack,
whatever its length. -/
theorem call_of_executed {i : Instruction} (h : m.step.1 = .executed) (fetched : m.fetched = i)
    (calls : i.calls = true) (taken : i.taken m.cpu.registers.flags = true) :
    let r := m.cpu.registers
    m.step.2.cpu.registers.sp = r.sp - 2 ∧
      m.step.2.bus.memory = m.bus.memory.put (pushed r.sp (i.next r.pc)) ∧
      stores m.recorded.step.2.bus.calls = pushed r.sp (i.next r.pc) := by
  intro r
  obtain ⟨core, memory, stored⟩ :=
    transfer_of_executed h fetched (Instruction.transfers_of_calls calls) taken
  rw [Instruction.stackPointer, if_pos calls] at core
  rw [Instruction.pushes, if_pos calls] at memory stored
  exact ⟨congrArg (·.registers.sp) core, memory, stored⟩

/-- **A branch that is taken**, without a condition or with one that holds. -/
theorem branch_of_executed {branch : Branch} (h : m.step.1 = .executed)
    (taken : m.fetched = branch.always ∨ ∃ condition, m.fetched = branch.onlyIf condition ∧
      condition.holds m.cpu.registers.flags = true) :
    let r := m.cpu.registers
    m.step.2.cpu.core =
        m.begun.proceed { r with sp := branch.always.stackPointer r.sp }
          (branch.always.target r m.bus.memory) ∧
      m.step.2.bus.memory = m.bus.memory.put (branch.always.pushes r) ∧
      stores m.recorded.step.2.bus.calls = branch.always.pushes r := by
  intro r
  rcases taken with fetched | ⟨condition, fetched, holds⟩
  · obtain ⟨core, memory, stored⟩ :=
      transfer_of_executed h fetched branch.transfers_always (branch.taken_always _)
    rw [branch.switched_always] at core
    exact ⟨core, memory, stored⟩
  · obtain ⟨target, sp, pushes⟩ := branch.transfer_onlyIf condition r m.bus.memory
    obtain ⟨core, memory, stored⟩ := transfer_of_executed h fetched
      (branch.transfers_onlyIf condition) ((branch.taken_onlyIf condition _).trans holds)
    rw [branch.switched_onlyIf, sp, target] at core
    rw [pushes] at memory stored
    exact ⟨core, memory, stored⟩

/-- The machine with another opcode where the program counter points. -/
def withOpcode (m : Machine Ram) (opcode : UInt8) : Machine Ram :=
  { m with bus := { m.bus with memory := m.bus.memory.set m.pc opcode } }

theorem get_withOpcode (m : Machine Ram) (opcode : UInt8) (a : UInt16) :
    (m.withOpcode opcode).bus.memory.get a = if m.pc = a then opcode else m.bus.memory.get a :=
  AddressMap.get_set ..

/-- This is the instruction then. -/
theorem fetched_withOpcode {i : Instruction} (hi : i.hasOpcode = true) :
    (m.withOpcode i.opcode).fetched = i := by
  refine fetched_of_opcode ?_ hi
  rw [get_withOpcode]
  exact if_pos rfl

/-- The opcode is not among the bytes that say where a branch goes, unless a return finds it on the
stack. -/
theorem target_withOpcode {branch : Branch} (opcode : UInt8)
    (apart : branch = .ret → m.pc ≠ m.cpu.registers.sp ∧ m.pc ≠ m.cpu.registers.sp + 1) :
    branch.always.target m.cpu.registers (m.withOpcode opcode).bus.memory =
      branch.always.target m.cpu.registers m.bus.memory := by
  have pc : m.pc = m.cpu.registers.pc := rfl
  cases branch with
  | jump | call | jumpRelative =>
    simp [Branch.always, Instruction.target, get_withOpcode, pc]
  | ret =>
    obtain ⟨low, high⟩ := apart rfl
    simp [Branch.always, Instruction.target, get_withOpcode, low, high]

/-- **A branch takes as long with its condition as without**, if the condition holds; but a return
takes a machine cycle to look at it. -/
theorem clock_withOpcode {branch : Branch} {condition : Condition} (h : m.step.1 = .executed)
    (fetched : m.fetched = branch.onlyIf condition)
    (holds : condition.holds m.cpu.registers.flags = true)
    (hn : (m.withOpcode branch.always.opcode).step.1 = .executed) :
    m.step.2.cpu.clock.cycles =
      (m.withOpcode branch.always.opcode).step.2.cpu.clock.cycles +
        if branch = .ret then 4 else 0 := by
  have fetched' := fetched_withOpcode (m := m) branch.hasOpcode_always
  rw [clock_of_executed h, clock_of_executed hn, dataBytes, dataBytes, idleCycles, idleCycles,
    fetched, fetched', branch.taken_onlyIf, branch.taken_always, holds]
  cases branch <;> rfl

/-- **A branch whose condition holds** leaves behind what the one without a condition does, all but
the opcode; only a return takes longer. -/
theorem step_withOpcode {branch : Branch} {condition : Condition} (h : m.step.1 = .executed)
    (fetched : m.fetched = branch.onlyIf condition)
    (holds : condition.holds m.cpu.registers.flags = true)
    (hn : (m.withOpcode branch.always.opcode).step.1 = .executed)
    (apart : branch = .ret → m.pc ≠ m.cpu.registers.sp ∧ m.pc ≠ m.cpu.registers.sp + 1) :
    let n := m.withOpcode branch.always.opcode
    m.step.2.cpu.core = n.step.2.cpu.core ∧ m.step.2.cpu.blocked = n.step.2.cpu.blocked ∧
      m.step.2.cpu.debugger.hold = n.step.2.cpu.debugger.hold ∧
      (∀ a ≠ m.pc, m.step.2.bus.memory.get a = n.step.2.bus.memory.get a) ∧
      stores m.recorded.step.2.bus.calls = stores n.recorded.step.2.bus.calls ∧
      m.step.2.cpu.clock.cycles =
        n.step.2.cpu.clock.cycles + if branch = .ret then 4 else 0 := by
  intro n
  have fetched' : n.fetched = branch.always := fetched_withOpcode branch.hasOpcode_always
  obtain ⟨core, memory, stored⟩ := branch_of_executed h (.inr ⟨condition, fetched, holds⟩)
  obtain ⟨core', memory', stored'⟩ := branch_of_executed hn (.inl fetched')
  refine ⟨?_, ?_, ?_, ?_, stored.trans stored'.symm, clock_withOpcode h fetched holds hn⟩
  · rw [core, core', ← target_withOpcode _ apart]
    rfl
  · rw [blocked_step, blocked_step]
    rfl
  · rw [hold_step, hold_step, h, hn]
  · intro a ha
    rw [memory, memory']
    refine AddressMap.get_put_congr _ ?_
    rw [get_withOpcode, if_neg ha.symm]

/-- **A branch whose condition fails** goes on at the next instruction, and that is all. -/
theorem step_of_not_holds {branch : Branch} {condition : Condition} (h : m.step.1 = .executed)
    (fetched : m.fetched = branch.onlyIf condition)
    (fails : condition.holds m.cpu.registers.flags = false) :
    let r := m.cpu.registers
    m.step.2.cpu.registers =
        { r with pc := r.pc + UInt16.ofNat (branch.onlyIf condition).length } ∧
      m.step.2.bus.memory = m.bus.memory ∧ stores m.recorded.step.2.bus.calls = [] := by
  intro r
  obtain ⟨core, memory, stored⟩ :=
    stay_of_executed h fetched ((branch.taken_onlyIf condition _).trans fails)
  exact ⟨congrArg Core.registers core, memory, stored⟩

/-- **A restart** goes to an address of its own, and leaves the address after it on the stack, one
byte on. -/
theorem restart_of_executed {index : Fin 8} (h : m.step.1 = .executed)
    (fetched : m.fetched = .restart index) :
    let r := m.cpu.registers
    m.step.2.cpu.registers = { r with sp := r.sp - 2, pc := 8 * UInt16.ofNat index } ∧
      m.step.2.bus.memory = m.bus.memory.put (pushed r.sp (r.pc + 1)) ∧
      stores m.recorded.step.2.bus.calls = pushed r.sp (r.pc + 1) := by
  intro r
  obtain ⟨core, -, -⟩ := transfer_of_executed h fetched rfl rfl
  obtain ⟨-, memory, stored⟩ := call_of_executed h fetched rfl rfl
  exact ⟨congrArg Core.registers core, memory, stored⟩

/-- **Conditions.** Take a machine whose step runs a jump, a relative jump, a call or a return that
hangs on a condition. If the condition holds in F, and the step of the same machine with the opcode
replaced by the one without a condition runs an instruction as well, then the two steps leave behind
the same registers and switches, the same bytes in memory but for the opcode, and have stored the
same; the clock has gone on as far, but for a return, which takes four more cycles with a condition.
A return must not find its own opcode on the stack for this. If the condition does not hold, the
step goes on at the next instruction, and leaves all other registers and all of memory alone. A
condition holds if its flag says so, and of two opposite conditions exactly one does.

A restart puts the address after it on the stack just as a call does that stands in its place, whose
length is three bytes. -/
theorem conditional_of_executed (h : m.step.1 = .executed) :
    let r := m.cpu.registers
    let opcode := m.bus.memory.get m.pc
    (∀ (branch : Branch) (condition : Condition), opcode = (branch.onlyIf condition).opcode →
      (condition.holds r.flags = true →
        let n := m.withOpcode branch.always.opcode
        n.step.1 = .executed → (branch = .ret → m.pc ≠ r.sp ∧ m.pc ≠ r.sp + 1) →
        m.step.2.cpu.core = n.step.2.cpu.core ∧ m.step.2.cpu.blocked = n.step.2.cpu.blocked ∧
        m.step.2.cpu.debugger.hold = n.step.2.cpu.debugger.hold ∧
        (∀ a ≠ m.pc, m.step.2.bus.memory.get a = n.step.2.bus.memory.get a) ∧
        stores m.recorded.step.2.bus.calls = stores n.recorded.step.2.bus.calls ∧
        m.step.2.cpu.clock.cycles =
          n.step.2.cpu.clock.cycles + if branch = .ret then 4 else 0) ∧
      (condition.holds r.flags = false →
        m.step.2.cpu.registers =
          { r with pc := r.pc + UInt16.ofNat (branch.onlyIf condition).length } ∧
        m.step.2.bus.memory = m.bus.memory ∧ stores m.recorded.step.2.bus.calls = [])) ∧
    (Condition.zero.holds r.flags = r.f.toNat.testBit 7 ∧
      Condition.carry.holds r.flags = r.f.toNat.testBit 4 ∧
      ∀ condition : Condition, condition.opposite.holds r.flags = !condition.holds r.flags) ∧
    ∀ index, opcode = (Instruction.restart index).opcode →
      let n := m.withOpcode Instruction.call.opcode
      m.step.2.cpu.registers = { r with sp := r.sp - 2, pc := 8 * UInt16.ofNat index } ∧
      m.step.2.bus.memory = m.bus.memory.put (pushed r.sp (r.pc + 1)) ∧
      stores m.recorded.step.2.bus.calls = pushed r.sp (r.pc + 1) ∧
      (n.step.1 = .executed → n.step.2.cpu.registers.sp = r.sp - 2 ∧
        n.step.2.bus.memory = n.bus.memory.put (pushed r.sp (r.pc + 3)) ∧
        stores n.recorded.step.2.bus.calls = pushed r.sp (r.pc + 3)) := by
  intro r opcode
  obtain ⟨zero, carry⟩ := Condition.holds_ofByte r.f
  refine ⟨fun branch condition hop => ?_, ⟨zero, carry, fun c => c.holds_opposite _⟩, ?_⟩
  · have fetched : m.fetched = branch.onlyIf condition :=
      fetched_of_opcode hop (branch.hasOpcode_onlyIf condition)
    exact ⟨step_withOpcode h fetched, step_of_not_holds h fetched⟩
  · intro index hop n
    have fetched : m.fetched = .restart index := fetched_of_opcode hop rfl
    have fetched' : n.fetched = .call := fetched_withOpcode rfl
    have back : Instruction.call.next r.pc = r.pc + 3 := rfl
    obtain ⟨registers, memory, stored⟩ := restart_of_executed h fetched
    rw [← back]
    exact ⟨registers, memory, stored, fun hn => call_of_executed hn fetched' rfl rfl⟩

/-- A machine about to make a call, if the last result was not zero, whose way back goes over the
opcode and the first byte of the address. -/
def consuming : Machine Ram where
  cpu :=
    { Cpu.new .standard with core := .start { Registers.zero with sp := 0x0102, pc := 0x0100 } }
  bus := Ram.zero.load 0x0100 [0xC4, 0x34, 0x12]

/-- The call goes to the address that was there, as it does without the condition. -/
theorem conditional_of_executed_consuming :
    consuming.step.1 = .executed ∧
      (consuming.withOpcode Branch.call.always.opcode).step.1 = .executed ∧
      consuming.step.2.cpu.core =
        (consuming.withOpcode Branch.call.always.opcode).step.2.cpu.core ∧
      consuming.step.2.bus.memory.get 0x0101 =
        (consuming.withOpcode Branch.call.always.opcode).step.2.bus.memory.get 0x0101 := by
  have h : consuming.step.1 = .executed := step_fst_of_unmarked ⟨rfl, rfl, rfl⟩ rfl rfl rfl
  have hn : (consuming.withOpcode Branch.call.always.opcode).step.1 = .executed :=
    step_fst_of_unmarked ⟨rfl, rfl, rfl⟩ rfl rfl rfl
  have opcode : consuming.bus.memory.get consuming.pc = 0xC4 := by decide +kernel
  obtain ⟨branches, -⟩ := conditional_of_executed h
  obtain ⟨core, -, -, memory, -⟩ :=
    (branches .call .notZero opcode).1 (by decide) hn (by decide)
  exact ⟨h, hn, core, memory 0x0101 (by decide)⟩

end Machine

end GameBoy
