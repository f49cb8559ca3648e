import GameBoy.Proofs.Instruction.Encoding
import GameBoy.Proofs.Instruction.Timing
import GameBoy.Proofs.Step.Code

/-!
# The time that a step takes

A step that runs an instruction takes the time that the tables of `GameBoy.Instruction` give for
it. The calls that go over the bus tell why: after a look for interrupts, which takes no time, there
is a machine cycle for every byte of code that is fetched, and then there are as many as there are
bytes to be loaded or stored and cycles to be idle. The clock goes on by what they take together
(`GameBoy.Machine.time_of_executed`).
-/

namespace GameBoy

/-- Whether a condition holds depends on two of the flags only. -/
theorem Condition.holds_congr (condition : Condition) {f g : Flags} (hz : g.zero = f.zero)
    (hc : g.carry = f.carry) : condition.holds g = condition.holds f := by
  cases condition <;> simp [holds, hz, hc]

namespace Instruction

/-- Flags matter to a branch only, and only two of them. -/
theorem taken_congr (i : Instruction) {f g : Flags}
    (h : i.condition? ≠ none → g.zero = f.zero ∧ g.carry = f.carry) : i.taken g = i.taken f := by
  rw [taken, taken]
  cases hc : i.condition? with
  | none => rfl
  | some condition =>
    obtain ⟨hz, hc⟩ := h (by simp [hc])
    exact condition.holds_congr hz hc

/-- One opcode leads to the second page. -/
theorem decode_eq_page_iff {opcode : UInt8} : decode opcode = .page ↔ opcode = 0xCB := by
  constructor
  · intro h
    have same := opcode_decode opcode
    rw [h] at same
    exact same.symm
  · rintro rfl
    exact decode_opcode (i := .page) rfl

/-- The second byte matters to the instructions of the second page only. -/
theorem dataBytes_congr {i : Instruction} (h : i ≠ .page) (second second' : PageInstruction)
    (taken : Bool) : i.dataBytes second taken = i.dataBytes second' taken := by
  cases i with
  | page => exact absurd rfl h
  | _ => rfl

end Instruction

namespace Machine

variable {β : Type} [Bus β]

/-- How many bytes the instruction of a step loads or stores, if the step comes to run one. -/
def dataBytes (m : Machine β) : Nat :=
  m.fetched.dataBytes (.decode (m.found (m.pc + 1))) (m.fetched.taken m.cpu.registers.flags)

/-- For how many cycles the instruction of a step leaves the bus idle. -/
def idleCycles (m : Machine β) : Nat :=
  m.fetched.idleCycles (m.fetched.taken m.cpu.registers.flags)

/-- **The calls of a step that runs an instruction**: after those that fetch its code there are as
many machine cycles as it has bytes to load or store and cycles to be idle. -/
theorem exists_spending_of_executed {m : Machine β} (h : m.step.1 = .executed) :
    ∃ poll rest, Poll m.cpu.core poll ∧
      m.recorded.step.2.bus.calls.toList =
        poll ++ (Microcode.fetchCalls m.found m.codeAddresses ++ rest) ∧
      (rest.filterMap BusCall.place?).length = m.dataBytes ∧
      MachineCycles (m.dataBytes + m.idleCycles) rest := by
  obtain ⟨poll, r, c, hpoll, registers, hlog, hbus, -⟩ := exists_remainder_of_executed h
  have spends := m.fetched.remainder_spends c m.found
  obtain ⟨rest, hrest, hplaces, hcycles⟩ := spends.run_recorded r
  rw [registers] at hplaces hcycles
  refine ⟨poll, rest, hpoll, ?_, hplaces, hcycles⟩
  rw [hbus, hrest, hlog, List.append_assoc]

/-- **The clock after a step that runs an instruction** has gone on by what its calls take. -/
theorem clock_of_executed {m : Machine β} (h : m.step.1 = .executed) :
    m.step.2.cpu.clock.cycles =
      m.cpu.clock.cycles + 4 * (m.fetched.codeBytes + m.dataBytes + m.idleCycles) := by
  obtain ⟨poll, rest, hpoll, hlog, -, hrest⟩ := exists_spending_of_executed h
  obtain ⟨calls, -, hsends⟩ := m.recorded.sends_step
  have fetching := Microcode.machineCycles_fetchCalls m.found m.codeAddresses
  have length : m.codeAddresses.length = m.fetched.codeBytes := by
    rw [codeAddresses, Instruction.length_codeAddresses]
  rw [length] at fetching
  have same : calls = poll ++ (Microcode.fetchCalls m.found m.codeAddresses ++ rest) :=
    hsends.log.symm.trans hlog
  have total : ticks calls =
      List.replicate (m.fetched.codeBytes + (m.dataBytes + m.idleCycles)) 4 := by
    rw [same, ticks_append, hpoll.onlyReads.ticks_eq, (fetching.append hrest).ticks_eq,
      List.nil_append]
  have before : m.recorded.cpu = m.cpu := rfl
  have clock := hsends.clock
  rw [cpu_step_recorded, before, total, List.sum_replicate_nat] at clock
  rw [clock, Nat.mul_comm, Nat.add_assoc]

/-- **How long a step takes does not depend on anything but** the opcode, the second byte on the
second page, and two of the flags for a branch. -/
theorem since_congr {γ : Type} [Bus γ] {m : Machine β} {n : Machine γ} (hm : m.step.1 = .executed)
    (hn : n.step.1 = .executed) (opcode : n.opcode = m.opcode)
    (second : m.opcode = 0xCB → n.found (n.pc + 1) = m.found (m.pc + 1))
    (flags : m.fetched.condition? ≠ none →
      n.cpu.registers.flags.zero = m.cpu.registers.flags.zero ∧
        n.cpu.registers.flags.carry = m.cpu.registers.flags.carry) :
    n.step.2.cpu.clock.since n.cpu.clock = m.step.2.cpu.clock.since m.cpu.clock := by
  have instruction : n.fetched = m.fetched := by rw [fetched_eq, fetched_eq, opcode]
  have taken := m.fetched.taken_congr flags
  have idle : n.idleCycles = m.idleCycles := by rw [idleCycles, idleCycles, instruction, taken]
  have data : n.dataBytes = m.dataBytes := by
    rw [dataBytes, dataBytes, instruction, taken]
    by_cases page : m.fetched = .page
    · rw [second]
      rwa [fetched_eq, Instruction.decode_eq_page_iff] at page
    · exact Instruction.dataBytes_congr page ..
  rw [Clock.since, Clock.since, clock_of_executed hm, clock_of_executed hn, instruction, data, idle]
  omega

/-- **The time that a step takes.** A step that runs an instruction lets the clock go on by a
machine cycle for each byte of code that it fetches, each byte that it loads or stores, and each
cycle in which the bus is idle, with the numbers that are in the tables; and these numbers are right
about the calls that go over the bus. Of two steps that run an instruction, on whatever buses, one
takes as long as the other if they have the same opcode, the same second byte on the second page,
and the same two flags for a branch. The bytes of the code are those that it finds when it fetches
them, which on a quiet bus are those in memory, unless time alone changes them. -/
theorem time_of_executed {m : Machine β} (h : m.step.1 = .executed) :
    let i := Instruction.decode m.opcode
    let second := PageInstruction.decode (m.found (m.pc + 1))
    let taken := i.taken m.cpu.registers.flags
    let data := i.dataBytes second taken
    let idle := i.idleCycles taken
    m.step.2.cpu.clock.cycles = m.cpu.clock.cycles + 4 * (i.codeBytes + data + idle) ∧
    (∃ poll rest, Poll m.cpu.core poll ∧
      m.recorded.step.2.bus.calls.toList =
        poll ++ (Microcode.fetchCalls m.found (i.codeAddresses m.pc) ++ rest) ∧
      (i.codeAddresses m.pc).length = i.codeBytes ∧
      (rest.filterMap BusCall.place?).length = data ∧ MachineCycles (data + idle) rest) ∧
    (∀ {γ : Type} [Bus γ] (n : Machine γ), n.step.1 = .executed → n.opcode = m.opcode →
      (m.opcode = 0xCB → n.found (n.pc + 1) = m.found (m.pc + 1)) →
      (i.condition? ≠ none →
        n.cpu.registers.flags.zero = m.cpu.registers.flags.zero ∧
          n.cpu.registers.flags.carry = m.cpu.registers.flags.carry) →
      n.step.2.cpu.clock.since n.cpu.clock = m.step.2.cpu.clock.since m.cpu.clock) ∧
    ∀ [QuietBus β], (∀ a ∈ i.codeAddresses m.pc, ∀ count,
        Bus.peek ((Bus.tick · machineCycle)^[count] m.bus) a = Bus.peek m.bus a) →
      ∀ a ∈ i.codeAddresses m.pc, m.found a = Bus.peek m.bus a := by
  intro i second taken data idle
  have instruction : m.fetched = i := m.fetched_eq
  have same : m.codeAddresses = i.codeAddresses m.pc := by rw [codeAddresses, instruction]
  have hdata : m.dataBytes = data := by rw [dataBytes, instruction]
  have hidle : m.idleCycles = idle := by rw [idleCycles, instruction]
  have clock := clock_of_executed h
  obtain ⟨poll, rest, hpoll, hlog, hplaces, hcycles⟩ := exists_spending_of_executed h
  rw [instruction, hdata, hidle] at clock
  rw [same] at hlog
  rw [hdata] at hplaces hcycles
  rw [hidle] at hcycles
  refine ⟨clock, ⟨poll, rest, hpoll, hlog, i.length_codeAddresses m.pc, hplaces, hcycles⟩, ?_, ?_⟩
  · intro γ _ n hn opcode byte flags
    rw [← instruction] at flags
    exact since_congr h hn opcode byte flags
  · intro _ still
    rw [← same] at still ⊢
    exact found_eq_peek still

/-- A machine about to make a call, if the last result was not zero, with the bytes of the call at
the end and at the beginning of memory. -/
def straddling : Machine Ram where
  cpu :=
    { Cpu.new .standard with core := .start { Registers.zero with sp := 0xC000, pc := 0xFFFE } }
  bus := (Ram.zero.load 0xFFFE [0xC4, 0x34]).load 0x0000 [0x12]

/-- The opcode is the one of this call, and the call is made. -/
theorem opcode_straddling :
    straddling.opcode = 0xC4 ∧ Instruction.decode 0xC4 = .callIf .notZero ∧
      straddling.step.1 = .executed := by
  refine ⟨by decide +kernel, Instruction.decode_opcode (i := .callIf .notZero) rfl, ?_⟩
  exact step_fst_of_unmarked ⟨rfl, rfl, rfl⟩ rfl rfl rfl

/-- It takes six cycles: three for the code, two for the way back, and an idle one. -/
theorem time_of_executed_straddling :
    straddling.step.1 = .executed ∧
      straddling.step.2.cpu.clock.cycles = straddling.cpu.clock.cycles + 24 ∧
      ∃ poll rest, straddling.recorded.step.2.bus.calls.toList =
          poll ++ (Microcode.fetchCalls straddling.found [0xFFFE, 0xFFFF, 0x0000] ++ rest) ∧
        (rest.filterMap BusCall.place?).length = 2 ∧ MachineCycles 3 rest := by
  obtain ⟨opcode, call, h⟩ := opcode_straddling
  obtain ⟨clock, ⟨poll, rest, -, hlog, -, hplaces, hcycles⟩, -⟩ := time_of_executed h
  rw [opcode, call] at clock hlog hplaces hcycles
  exact ⟨h, clock, poll, rest, hlog, hplaces, hcycles⟩

end Machine

end GameBoy
