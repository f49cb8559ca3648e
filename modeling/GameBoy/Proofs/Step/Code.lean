import GameBoy.Proofs.Debugger.Unmarked
import GameBoy.Proofs.Instruction.Remainder

/-!
# The code that a step runs

A step that runs an instruction reads its opcode, which is over before any time passes, and fetches
the other bytes of its code in the machine cycles that follow. `GameBoy.Machine.found` is what it
finds, whatever the bus does in the meantime; on a quiet bus whose bytes do not change by themselves
it is what is in memory (`GameBoy.Machine.found_eq_peek`). Of the calls that go over the bus, those
of the code come first, after a look for interrupts, and all others are those of the remainder of
the instruction (`GameBoy.Machine.exists_remainder_of_executed`).
-/

namespace GameBoy

variable {β : Type} [Bus β]

section Finds

variable {peek other : UInt16 → UInt8} {bus : β} {fetches : List UInt16}

/-- The first ones of some bytes are found if all of them are. -/
theorem Finds.take (h : Finds peek bus fetches) (count : Nat) :
    Finds peek bus (fetches.take count) := by
  induction h generalizing count with
  | nil => simpa using Finds.nil
  | cons here _ ih =>
    cases count with
    | zero => exact .nil
    | succ count => exact .cons here (ih count)

/-- **What is found is determined by the bus.** -/
theorem Finds.unique (h : Finds peek bus fetches) (h' : Finds other bus fetches) :
    ∀ a ∈ fetches, peek a = other a := by
  induction h with
  | nil => exact fun _ ha => absurd ha List.not_mem_nil
  | cons here _ ih =>
    cases h' with
    | cons here' hs' =>
      intro a ha
      rcases List.mem_cons.mp ha with rfl | ha
      · exact here.symm.trans here'
      · exact ih hs' a ha

end Finds

theorem Breakpoints.not_mem_empty (b : Breakpoint) : b ∉ empty := by
  obtain ⟨kind, a⟩ := b
  cases kind <;> exact List.not_mem_nil

namespace Machine

/-- **What a step finds at the addresses of its code** when it reads them, if it comes to run an
instruction: the opcode before time passes, and each of the next two bytes a machine cycle later. -/
def found (m : Machine β) (a : UInt16) : UInt8 :=
  let bus := Bus.tick m.alert.readInstruction.2.bus machineCycle
  if a = m.pc then m.opcode
  else if a = m.pc + 1 then (Bus.read bus (m.pc + 1)).1
  else (Bus.read (Bus.tick (Bus.read bus (m.pc + 1)).2 machineCycle) a).1

theorem found_pc (m : Machine β) : m.found m.pc = m.opcode := if_pos rfl

/-- **The code of an instruction is found**, whichever instruction it is. -/
theorem finds_codeAddresses (m : Machine β) (i : Instruction) :
    Finds m.found (Bus.tick m.alert.readInstruction.2.bus machineCycle)
      (i.codeAddresses m.pc).tail := by
  have first : m.pc + 1 ≠ m.pc := by simp
  have second : m.pc + 2 ≠ m.pc ∧ m.pc + 2 ≠ m.pc + 1 := by simp
  refine Finds.take (.cons ?_ (.cons ?_ .nil)) (i.codeBytes - 1)
  · rw [found, if_neg first, if_pos rfl]
  · rw [found, if_neg second.1, if_neg second.2]

/-- The calls that fetch this code, the opcode first. -/
theorem fetchCalls_codeAddresses (m : Machine β) (i : Instruction) :
    Microcode.fetchCalls m.found (i.codeAddresses m.pc) =
      .read m.pc m.opcode :: .tick 4 ::
        Microcode.fetchCalls m.found (i.codeAddresses m.pc).tail := by
  rw [← found_pc]
  rfl

/-- The addresses of the code that a step runs, if it comes to run an instruction. -/
def codeAddresses (m : Machine β) : List UInt16 := m.fetched.codeAddresses m.pc

/-- **On a quiet bus code is found as it is in memory**, if time alone does not change it. -/
theorem found_eq_peek [QuietBus β] {m : Machine β}
    (h : ∀ a ∈ m.codeAddresses, ∀ count,
      Bus.peek ((Bus.tick · machineCycle)^[count] m.bus) a = Bus.peek m.bus a) :
    ∀ a ∈ m.codeAddresses, m.found a = Bus.peek m.bus a := by
  have same : m.alert.readInstruction.2.bus = m.bus := m.retries_readInstruction.bus
  rw [codeAddresses, Instruction.codeAddresses_eq] at h ⊢
  obtain ⟨-, rest⟩ := List.forall_mem_cons.mp h
  have finds : Finds (Bus.peek m.bus) (Bus.tick m.alert.readInstruction.2.bus machineCycle)
      (m.fetched.codeAddresses m.pc).tail := by
    rw [same]
    exact .of_tick fun a ha count => rest a ha (count + 1)
  have found := (m.finds_codeAddresses m.fetched).unique finds
  refine List.forall_mem_cons.mpr ⟨?_, found⟩
  rw [found_pc, opcode, QuietBus.read_eq, bus_alert]

/-- Time does not change memory. -/
theorem peek_iterate_tick_ram (ram : Ram) (a : UInt16) (count : Nat) :
    Bus.peek ((Bus.tick · machineCycle)^[count] ram) a = Bus.peek ram a := by
  induction count generalizing ram with
  | zero => rfl
  | succ count ih => exact ih _

/-- **In memory code is found as it is there.** -/
theorem found_ram (m : Machine Ram) : ∀ a ∈ m.codeAddresses, m.found a = Bus.peek m.bus a :=
  found_eq_peek fun a _ count => peek_iterate_tick_ram m.bus a count

/-- Where nothing else is asked of the processor and there are no breakpoints, nothing keeps it from
running an instruction. -/
theorem verdict_of_unmarked [QuietBus β] {m : Machine β} (ready : m.Ready)
    (ime : m.cpu.core.ime = false) (halted : m.cpu.core.halted = false)
    (free : m.cpu.debugger.breakpoints = .empty) : Verdict m .executed := by
  refine .executed ready ?_ ?_ ?_
  · simp [ime]
  · simp [halted]
  · simp [Caught, free, Breakpoints.not_mem_empty]

/-- A step does run one then. -/
theorem step_fst_of_unmarked [QuietBus β] {m : Machine β} (ready : m.Ready)
    (ime : m.cpu.core.ime = false) (halted : m.cpu.core.halted = false)
    (free : m.cpu.debugger.breakpoints = .empty) : m.step.1 = .executed :=
  (verdict_of_unmarked ready ime halted free).step_fst

/-! ### Code and remainder -/

/-- **An instruction that finds its code** fetches it, in the first machine cycles, and then goes on
as what is left of it. -/
theorem exists_remainder_execute {i : Instruction} {peek : UInt16 → UInt8}
    (n : Machine (Recorded β))
    (h : Finds peek (Bus.tick n.bus.bus machineCycle) (i.codeAddresses n.pc).tail) :
    ∃ (r : Recorded β) (c : Core), c.registers = n.cpu.registers ∧
      r.calls.toList = n.bus.calls.toList ++
        .tick 4 :: Microcode.fetchCalls peek (i.codeAddresses n.pc).tail ∧
      (n.execute i).bus = ((i.remainder c peek).run r).bus ∧
      (n.execute i).cpu.core = ((i.remainder c peek).run r).result := by
  let c := { n.cpu.core with ime := n.cpu.core.imeNext }
  obtain ⟨r, hlog, hresult, hbus⟩ :=
    (i.execute_begins c peek).run_recorded (Bus.tick n.bus machineCycle) h
  have count : (i.codeAddresses c.registers.pc).tail.length = i.codeBytes - 1 := by
    rw [List.length_tail, Instruction.length_codeAddresses]
  rw [count] at hresult hbus
  have code := n.bare_execute i
  refine ⟨r, c, rfl, ?_, (congrArg (·.bus) code).trans hbus,
    (congrArg (·.cpu.core) code).trans hresult⟩
  rw [hlog, Recorded.toList_calls_tick, List.append_assoc]
  rfl

/-- The processor after a step is the same whether or not the calls are recorded. -/
theorem cpu_step_recorded (m : Machine β) : m.recorded.step.2.cpu = m.step.2.cpu :=
  (congrArg (·.2.cpu) (step_map Recorded.isBusMorphism_bus m.recorded)).symm

/-- **A step that runs an instruction** looks for interrupts, fetches the code, and then goes on as
what is left of the instruction by then. -/
theorem exists_remainder_of_executed {m : Machine β} (h : m.step.1 = .executed) :
    ∃ (poll : List BusCall) (r : Recorded β) (c : Core), Poll m.cpu.core poll ∧
      c.registers = m.cpu.registers ∧
      r.calls.toList = poll ++ Microcode.fetchCalls m.found m.codeAddresses ∧
      m.recorded.step.2.bus = ((m.fetched.remainder c m.found).run r).bus ∧
      m.step.2.cpu.core = ((m.fetched.remainder c m.found).run r).result := by
  obtain ⟨n, poll, hpoll, before, registers, bus, ran⟩ := recorded_step_of_executed h
  have pc : n.pc = m.pc := congrArg Registers.pc registers
  have finds : Finds m.found (Bus.tick n.bus.bus machineCycle)
      (m.fetched.codeAddresses n.pc).tail := by
    rw [bus, pc]
    exact m.finds_codeAddresses m.fetched
  obtain ⟨r, c, hc, hlog, hbus, hcore⟩ := exists_remainder_execute n finds
  refine ⟨poll, r, c, hpoll, hc.trans registers, ?_, by rw [ran, hbus], ?_⟩
  · rw [hlog, before, pc, List.append_assoc, codeAddresses, fetchCalls_codeAddresses]
    rfl
  · rw [← cpu_step_recorded, ran, hcore]

end Machine

end GameBoy
