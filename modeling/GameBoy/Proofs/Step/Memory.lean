import GameBoy.Proofs.Instruction.Contents
import GameBoy.Proofs.Step.Advance

/-!
# Steps in memory

A step of a machine with plain memory. The instruction is found where the program counter points,
and what it comes to in memory, as microcode, is what becomes of the machine
(`GameBoy.Machine.step_of_yields`). It begins in the core that the machine has, with the decision
about interrupts come into force and awake, `GameBoy.Machine.begun`. So whatever is known of an
instruction by itself is known of the step.
-/

namespace GameBoy.Machine

/-- **The core in which an instruction begins**, if a step comes to run one: what was decided about
interrupts has come into force, and a halt is over. -/
def begun {β : Type} (m : Machine β) : Core :=
  { m.cpu.core with ime := m.cpu.core.imeNext, halted := false }

variable {m : Machine Ram}

/-- In memory the instruction is found where the program counter points. -/
theorem fetched_ram (m : Machine Ram) : m.fetched = .decode (m.bus.memory.get m.pc) := by
  rw [fetched_eq, opcode, bus_alert]
  rfl

/-- The instruction is the one that has the opcode which is found. -/
theorem fetched_of_opcode {i : Instruction} (opcode : m.bus.memory.get m.pc = i.opcode)
    (hi : i.hasOpcode = true) : m.fetched = i := by
  rw [fetched_ram, opcode, Instruction.decode_opcode hi]

/-- Recording does not change what a step leaves behind. -/
theorem step_snd_recorded (m : Machine Ram) : m.step.2 = m.recorded.step.2.map Recorded.bus :=
  congrArg (·.2) (step_map Recorded.isBusMorphism_bus m.recorded)

/-- **What an instruction does to the machine** is what it comes to in memory. -/
theorem execute_of_yields {n : Machine (Recorded Ram)} {i : Instruction} {c' : Core}
    {memory' : Memory} {stored : List (UInt16 × UInt8)}
    (h : (i.execute { n.cpu.core with ime := n.cpu.core.imeNext }).Yields n.bus.bus.memory c'
      memory' stored) :
    (n.execute i).cpu.core = c' ∧ (n.execute i).bus.bus.memory = memory' ∧
      stores (n.execute i).bus.calls = stores n.bus.calls ++ stored := by
  have code := n.bare_execute i
  obtain ⟨result, left, log⟩ := (Microcode.Yields.idle h).run n.bus rfl
  exact ⟨(congrArg (·.cpu.core) code).trans result, (congrArg (·.bus.bus.memory) code).trans left,
    (congrArg (stores ·.bus.calls) code).trans log⟩

/-- Looking for interrupts stores nothing. -/
theorem filterMap_store?_poll {c : Core} {poll : List BusCall} (h : Poll c poll) :
    poll.filterMap BusCall.store? = [] := by
  cases h <;> rfl

/-- **A step does what its instruction comes to** in memory, and stores what the instruction does.
-/
theorem step_of_yields {c' : Core} {memory' : Memory} {stored : List (UInt16 × UInt8)}
    (h : m.step.1 = .executed)
    (hy : (m.fetched.execute m.begun).Yields m.bus.memory c' memory' stored) :
    m.step.2.cpu.core = c' ∧ m.step.2.bus.memory = memory' ∧
      stores m.recorded.step.2.bus.calls = stored := by
  obtain ⟨n, poll, hpoll, before, core, bus, ran⟩ := recorded_begin_of_executed h
  have memory : n.bus.bus.memory = m.bus.memory := by rw [bus, m.retries_readInstruction.bus]
  have start : { n.cpu.core with ime := n.cpu.core.imeNext } = m.begun := by
    rw [core]
    rfl
  rw [← start, ← memory] at hy
  obtain ⟨result, left, log⟩ := execute_of_yields hy
  rw [← ran] at result left log
  refine ⟨?_, ?_, ?_⟩
  · rw [← cpu_step_recorded]
    exact result
  · rw [step_snd_recorded]
    exact left
  · -- before the instruction nothing has been stored
    rw [log, stores, before, List.filterMap_append, filterMap_store?_poll hpoll]
    rfl

end GameBoy.Machine
