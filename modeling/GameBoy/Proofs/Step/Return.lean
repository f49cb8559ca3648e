import GameBoy.Proofs.Interrupt.Dispatch
import GameBoy.Proofs.Step.Transfer

/-!
# The way back

What a call, a restart or the dispatch of an interrupt leaves on the stack is the address at which
the processor would have gone on. A return finds it there, provided that the stack pointer and the
two bytes under it are what they were, and puts the stack pointer where it was before
(`GameBoy.Machine.return_of_leaves`). Nothing else that happens in between matters: the machine that
returns may be any machine, and the stack may lie anywhere, across the end of memory, on the code or
on the registers that request and enable interrupts.

`GameBoy.Machine.Leaves` lists the steps that leave the way back, each with the address that it leads
back to, and `GameBoy.Machine.Returns` the steps that take it.
-/

namespace GameBoy.Machine

/-- **Waiting**: what a machine can become while its steps make no progress. In the meantime devices
may do to memory what they like. -/
inductive Waits (m : Machine Ram) : Machine Ram → Prop
  /-- It has not waited yet. -/
  | start (bus : Ram) : Waits m { m with bus }
  /-- It has waited for one more step. -/
  | step {n : Machine Ram} (h : Waits m n) (hw : n.step.1.waits = true) (bus : Ram) :
    Waits m { n.step.2 with bus }

/-- **A step that leaves the way back**, with the address to which it leads. -/
inductive Leaves (m : Machine Ram) : UInt16 → Prop
  /-- A call, which is three bytes long. -/
  | call (h : m.step.1 = .executed) (opcode : m.bus.memory.get m.pc = 0xCD) : Leaves m (m.pc + 3)
  /-- A call whose condition holds. -/
  | callIf (condition : Condition) (h : m.step.1 = .executed)
    (opcode : m.bus.memory.get m.pc = 0xC4 + 8 * condition.field)
    (holds : condition.holds m.cpu.registers.flags = true) : Leaves m (m.pc + 3)
  /-- A restart, which is one byte long. -/
  | restart (index : Fin 8) (h : m.step.1 = .executed)
    (opcode : m.bus.memory.get m.pc = 0xC7 + 8 * UInt8.ofNat index) : Leaves m (m.pc + 1)
  /-- The dispatch of an interrupt, in place of the instruction that would have come. -/
  | interrupt (i : Interrupt) (h : m.step.1 = .interrupted i) : Leaves m m.pc
  /-- In particular, one that ends a halt, however long that has been. -/
  | wake (i : Interrupt) {before : Machine Ram} (halts : before.step.1 = .executed)
    (opcode : before.bus.memory.get before.pc = 0x76) (waits : Waits before.step.2 m)
    (h : m.step.1 = .interrupted i) : Leaves m (before.pc + 1)

/-- **A step that returns.** -/
inductive Returns (n : Machine Ram) : Prop
  | ret (h : n.step.1 = .executed) (opcode : n.bus.memory.get n.pc = 0xC9)
  /-- A return whose condition holds. -/
  | retIf (condition : Condition) (h : n.step.1 = .executed)
    (opcode : n.bus.memory.get n.pc = 0xC0 + 8 * condition.field)
    (holds : condition.holds n.cpu.registers.flags = true)
  /-- A return that lets interrupts be taken again. -/
  | retInterrupt (h : n.step.1 = .executed) (opcode : n.bus.memory.get n.pc = 0xD9)

variable {m n : Machine Ram}

/-! ### Leaving -/

/-- The registers stay as they are while a machine waits. -/
theorem Waits.registers (h : Waits m n) : n.cpu.registers = m.cpu.registers := by
  induction h with
  | start => rfl
  | @step n _ hw _ ih =>
    have core := n.core_step_of_waits hw
    exact (congrArg Core.registers core).trans ih

/-- A halt goes on at the next instruction, once it is over. -/
theorem pc_of_halt (h : m.step.1 = .executed) (opcode : m.bus.memory.get m.pc = 0x76) :
    m.step.2.pc = m.pc + 1 := by
  have fetched : m.fetched = .halt := fetched_of_opcode opcode rfl
  have advance := pc_eq_next h
  rw [next, fetched] at advance
  exact advance fun transfers => absurd transfers Bool.false_ne_true

/-- **A step that pushes an address**, whatever else it does to memory before. -/
structure Pushes (m : Machine Ram) (back : UInt16) : Prop where
  sp : m.step.2.cpu.registers.sp = m.cpu.registers.sp - 2
  memory : ∃ memory : Memory, m.step.2.bus.memory = memory.put (pushed m.cpu.registers.sp back)

/-- A call that is made pushes the address of the next instruction. -/
theorem pushes_of_calls {i : Instruction} (h : m.step.1 = .executed) (fetched : m.fetched = i)
    (calls : i.calls = true) (taken : i.taken m.cpu.registers.flags = true) :
    m.Pushes (i.next m.pc) := by
  obtain ⟨sp, memory, -⟩ := call_of_executed h fetched calls taken
  exact ⟨sp, _, memory⟩

/-- The dispatch of an interrupt pushes the address of the instruction that does not run. -/
theorem pushes_of_interrupted {i : Interrupt} (h : m.step.1 = .interrupted i) :
    m.Pushes m.pc := by
  obtain ⟨-, core, -, -, lowered, -, bus⟩ := step_interrupted m i h
  exact ⟨congrArg (·.registers.sp) core, _, congrArg Ram.memory bus⟩

/-- **What leaves the way back** pushes it. -/
theorem Leaves.pushes {back : UInt16} (leaves : m.Leaves back) : m.Pushes back := by
  cases leaves with
  | call h opcode => exact pushes_of_calls h (i := .call) (fetched_of_opcode opcode rfl) rfl rfl
  | callIf condition h opcode holds =>
    exact pushes_of_calls h (i := .callIf condition) (fetched_of_opcode opcode rfl) rfl holds
  | restart index h opcode =>
    exact pushes_of_calls h (i := .restart index) (fetched_of_opcode opcode rfl) rfl rfl
  | interrupt i h => exact pushes_of_interrupted h
  | @wake i before halts opcode waits h =>
    have pc : m.pc = before.step.2.pc := congrArg Registers.pc waits.registers
    rw [← pc_of_halt halts opcode, ← pc]
    exact pushes_of_interrupted h

/-- **The way back is on top of the stack** after such a step. -/
theorem Pushes.word_top {back : UInt16} (h : m.Pushes back) :
    let sp := m.step.2.cpu.registers.sp
    word (m.step.2.bus.memory.get (sp + 1)) (m.step.2.bus.memory.get sp) = back := by
  obtain ⟨sp, memory, left⟩ := h
  have above : m.cpu.registers.sp - 2 + 1 = m.cpu.registers.sp - 1 := by grind
  simp only [sp, left, above]
  exact word_get_put_pushed ..

/-! ### Returning -/

/-- **A return** goes on where the stack says, and takes the stack pointer up. -/
theorem core_of_returns {i : Instruction} (h : n.step.1 = .executed) (fetched : n.fetched = i)
    (returns : i.returns = true) (taken : i.taken n.cpu.registers.flags = true) :
    let r := n.cpu.registers
    n.step.2.cpu.core = (i.switched n.begun).proceed { r with sp := r.sp + 2 }
      (word (n.bus.memory.get (r.sp + 1)) (n.bus.memory.get r.sp)) := by
  cases i with
  | ret | retIf | retInterrupt => exact (transfer_of_executed h fetched rfl taken).1
  | _ => exact absurd returns Bool.false_ne_true

theorem Returns.executed (returns : n.Returns) : n.step.1 = .executed := by
  cases returns <;> assumption

/-- Such a step runs a return whose condition holds, if it has one. -/
theorem Returns.fetched (returns : n.Returns) :
    n.fetched.returns = true ∧ n.fetched.taken n.cpu.registers.flags = true := by
  cases returns with
  | ret h opcode =>
    have fetched : n.fetched = .ret := fetched_of_opcode opcode rfl
    rw [fetched]
    exact ⟨rfl, rfl⟩
  | retIf condition h opcode holds =>
    have fetched : n.fetched = .retIf condition := fetched_of_opcode opcode rfl
    rw [fetched]
    exact ⟨rfl, holds⟩
  | retInterrupt h opcode =>
    have fetched : n.fetched = .retInterrupt := fetched_of_opcode opcode rfl
    rw [fetched]
    exact ⟨rfl, rfl⟩

/-- Where it goes on, and where the stack is by then. -/
theorem Returns.pc_sp (returns : n.Returns) :
    let sp := n.cpu.registers.sp
    n.step.2.pc = word (n.bus.memory.get (sp + 1)) (n.bus.memory.get sp) ∧
      n.step.2.cpu.registers.sp = sp + 2 := by
  have core := core_of_returns returns.executed rfl returns.fetched.1 returns.fetched.2
  exact ⟨congrArg Core.pc core, congrArg (·.registers.sp) core⟩

/-- A machine is ready after an instruction that has not stopped it. -/
theorem ready_step_of_executed (h : n.step.1 = .executed)
    (running : n.step.2.cpu.core.stopped = false) : n.step.2.Ready := by
  cases (step_fst_eq_iff n .executed).mp h with
  | executed ready =>
    refine ⟨n.blocked_step.trans ready.blocked, running, ?_⟩
    rw [Debugger.trapped_eq_false_iff, hold_step, h]
    nofun

/-- **After the return from an interrupt** interrupts are taken at once. -/
theorem interrupted_of_retInterrupt (h : n.step.1 = .executed)
    (opcode : n.bus.memory.get n.pc = 0xD9) :
    n.step.2.cpu.core.ime = true ∧ n.step.2.cpu.core.imeNext = true ∧
      ∀ i, Interrupt.IsLowest n.step.2.lines i → n.step.2.step.1 = .interrupted i := by
  have fetched : n.fetched = .retInterrupt := fetched_of_opcode opcode rfl
  have core := core_of_returns h fetched rfl rfl
  have stopped : n.cpu.core.stopped = false := by
    cases (step_fst_eq_iff n .executed).mp h with
    | executed ready => exact ready.stopped
  have ready := ready_step_of_executed h ((congrArg Core.stopped core).trans stopped)
  have ime : n.step.2.cpu.core.ime = true := congrArg Core.ime core
  refine ⟨ime, congrArg Core.imeNext core, fun i lowest => ?_⟩
  exact (Verdict.interrupted i ready ime lowest).step_fst

/-- **Calls, restarts and interrupts return where they left.** Take a step that leaves the way back,
and one that returns, of whatever machine, with the stack pointer where the first one has left it and
the same two bytes on top of the stack. It goes on at the address to which the way led back, and the
stack pointer is where it was before the first step. If it is the return from an interrupt, then
interrupts are taken at once: if one is requested and enabled by then, the next step dispatches it,
with the same way back, before any instruction has run there. -/
theorem return_of_leaves {back : UInt16} (leaves : m.Leaves back) (returns : n.Returns)
    (sp : n.cpu.registers.sp = m.step.2.cpu.registers.sp)
    (low : n.bus.memory.get n.cpu.registers.sp = m.step.2.bus.memory.get n.cpu.registers.sp)
    (high : n.bus.memory.get (n.cpu.registers.sp + 1) =
      m.step.2.bus.memory.get (n.cpu.registers.sp + 1)) :
    n.step.2.pc = back ∧ n.step.2.cpu.registers.sp = m.cpu.registers.sp ∧
      (n.bus.memory.get n.pc = 0xD9 →
        n.step.2.cpu.core.ime = true ∧ n.step.2.cpu.core.imeNext = true ∧
        (n.step.2.lines ≠ 0 → ∃ i, Interrupt.IsLowest n.step.2.lines i ∧
          n.step.2.step.1 = .interrupted i ∧ n.step.2.Leaves back)) := by
  have pushes := leaves.pushes
  have way := pushes.word_top
  obtain ⟨pc, up⟩ := returns.pc_sp
  rw [low, high, sp] at pc
  have there : n.step.2.pc = back := pc.trans way
  refine ⟨there, ?_, fun opcode => ?_⟩
  · rw [up, sp, pushes.sp, UInt16.sub_add_cancel]
  · obtain ⟨ime, imeNext, dispatches⟩ := interrupted_of_retInterrupt returns.executed opcode
    refine ⟨ime, imeNext, fun pending => ?_⟩
    have heard : Interrupt.highest n.step.2.lines ≠ none := fun none =>
      pending ((Interrupt.highest_lines_eq_none_iff _).mp none)
    obtain ⟨i, hi⟩ := Option.ne_none_iff_exists'.mp heard
    have lowest := Interrupt.highest_eq_some_iff.mp hi
    have next := dispatches i lowest
    exact ⟨i, lowest, next, there ▸ .interrupt i next⟩

/-- A machine about to make a call whose way back overwrites the enables, to a return that lets
interrupts be taken again. -/
def calling : Machine Ram where
  cpu :=
    { Cpu.new .standard with core := .start { Registers.zero with sp := 0x0001, pc := 0x0100 } }
  bus := ((Ram.zero.load 0x0100 [0xCD, 0x00, 0x20]).load 0x2000 [0xD9]).load 0xFF0F [0x01]

/-- The return goes where the call came from, and there is an interrupt now that comes first. -/
theorem return_of_leaves_calling :
    calling.step.1 = .executed ∧ calling.step.2.step.1 = .executed ∧
      calling.step.2.step.2.pc = 0x0103 ∧ calling.step.2.step.2.cpu.registers.sp = 0x0001 ∧
      ∃ i, calling.step.2.step.2.step.1 = .interrupted i := by
  have h : calling.step.1 = .executed := step_fst_of_unmarked ⟨rfl, rfl, rfl⟩ rfl rfl rfl
  have opcode : calling.bus.memory.get calling.pc = 0xCD := by decide +kernel
  have fetched : calling.fetched = .call := fetched_of_opcode opcode rfl
  obtain ⟨core, memory, -⟩ := transfer_of_executed h fetched rfl rfl
  have opcode' : calling.step.2.bus.memory.get calling.step.2.pc = 0xD9 := by
    rw [memory, Machine.pc, core]
    decide +kernel
  have ready := ready_step_of_executed h (congrArg Core.stopped core)
  have h' : calling.step.2.step.1 = .executed :=
    step_fst_of_unmarked ready (congrArg Core.ime core) (congrArg Core.halted core)
      (breakpoints_step calling)
  obtain ⟨pc, sp, again⟩ := return_of_leaves (.call h opcode) (.retInterrupt h' opcode') rfl rfl rfl
  have fetched' : calling.step.2.fetched = .retInterrupt := fetched_of_opcode opcode' rfl
  obtain ⟨-, memory', -⟩ := transfer_of_executed h' fetched' rfl rfl
  have pending : calling.step.2.step.2.lines ≠ 0 := by
    rw [lines_ram, memory', memory]
    decide +kernel
  obtain ⟨-, -, dispatches⟩ := again opcode'
  obtain ⟨i, -, next, -⟩ := dispatches pending
  exact ⟨h, h', pc, sp, i, next⟩

end GameBoy.Machine
