import GameBoy.Proofs.Bus.Traffic
import GameBoy.Proofs.Debugger.Entries
import GameBoy.Proofs.Debugger.Transparency
import GameBoy.Proofs.Step.Outcome

/-!
# A trapped step leaves nothing half done

What a step that a breakpoint stops has done by then. `GameBoy.Machine.HeldUp` lists all of it: the
processor is held, a halt may have been ended by an interrupt, the length of the instruction may
have been recorded, and there may be entries in the trace that tell of this. Nothing else is
different, neither in the processor nor on the bus (`GameBoy.Machine.heldUp_step`), and the bus has
only been read (`GameBoy.Machine.calls_of_trapped`). A processor that is held does not even look at
the bus, however many steps it is let make (`GameBoy.Machine.steps_of_trapped`).
-/

namespace GameBoy.Machine

variable {β : Type}

/-- The machine with its bus recorded from now on. -/
def recorded (m : Machine β) : Machine (Recorded β) := ⟨m.cpu, ⟨m.bus, #[]⟩⟩

variable [Bus β]

/-! ### The breakpoint in the way -/

/-- A breakpoint on a load or a store is only looked for where none waits for the instruction. -/
theorem not_mem_of_stalled {m : Machine β} {b : Breakpoint}
    (he : m.alert.fetchBreakpoint? = none)
    (hb : m.alert.readInstruction.2.accessBreakpoint? m.alert.readInstruction.1 = some b) :
    ⟨.execute, m.pc⟩ ∉ m.cpu.debugger.breakpoints := by
  rw [fetchBreakpoint?_alert, fetchBreakpoint?, Debugger.hit?_eq_none_iff] at he
  rcases he with pass | free
  · -- with leave to pass, nothing would have stopped the instruction
    exact absurd (m.hold_alert.trans pass) (Debugger.hold_ne_pass_of_hit? hb)
  · exact free _ (List.mem_singleton_self _)

/-! ### The machine that is held -/

/-- **A machine that is held up**, `m'`, beside what it was before, `m`. -/
structure HeldUp (m m' : Machine β) : Prop where
  registers : m'.cpu.core.registers = m.cpu.core.registers
  ime : m'.cpu.core.ime = m.cpu.core.ime
  imeNext : m'.cpu.core.imeNext = m.cpu.core.imeNext
  stopped : m'.cpu.core.stopped = m.cpu.core.stopped
  model : m'.cpu.model = m.cpu.model
  skipBoot : m'.cpu.skipBoot = m.cpu.skipBoot
  blocked : m'.cpu.blocked = m.cpu.blocked
  clock : m'.cpu.clock = m.cpu.clock
  bus : m'.bus = m.bus
  trapped : m'.cpu.debugger.trapped = true
  /-- A halt has ended only if there was an interrupt to end it and none to be taken. -/
  halted : m'.cpu.core.halted = m.cpu.core.halted ∨
    m.cpu.core.halted = true ∧ m'.cpu.core.halted = false ∧ m.lines ≠ 0 ∧ m.cpu.core.ime = false
  /-- The length of the instruction is recorded only if no breakpoint waited for its fetch. -/
  sizes : m'.cpu.sizes = m.cpu.sizes ∨
    ⟨.execute, m.pc⟩ ∉ m.cpu.debugger.breakpoints ∧
      m'.cpu.sizes = m.cpu.sizes.set m.pc (some m.instruction.length)
  /-- Tracing, the breakpoints and the trace are as they were, but for events that are recorded. -/
  debugger : ∃ events, (∀ e ∈ events, e.kind = .event) ∧
    m.cpu.debugger.Records m'.cpu.debugger events

/-- The machine that is held up is about to do what it was about to do. -/
theorem HeldUp.pc {m m' : Machine β} (h : HeldUp m m') : m'.pc = m.pc :=
  congrArg Registers.pc h.registers

/-- A look for interrupts records the end of a halt, if anything. -/
theorem records_alert (m : Machine β) :
    ∃ events, (∀ e ∈ events, e.kind = .event) ∧
      m.cpu.debugger.Records m.alert.cpu.debugger events := by
  rw [cpu_alert]
  split
  · exact ⟨_, by simp, Debugger.records_record _ _⟩
  · exact ⟨[], by simp, .of_hold _ _⟩

/-- A breakpoint that is hit after a look for interrupts. -/
theorem records_trap_alert (m : Machine β) (b : Breakpoint) :
    ∃ events, (∀ e ∈ events, e.kind = .event) ∧
      m.cpu.debugger.Records (m.alert.cpu.debugger.trap b) events := by
  obtain ⟨events, hevents, hrecords⟩ := m.records_alert
  refine ⟨_, ?_, hrecords.trans (Debugger.records_trap _ b)⟩
  intro e he
  rcases List.mem_append.mp he with he | he
  · exact hevents e he
  · rw [List.mem_singleton.mp he]

variable [QuietBus β]

/-- **A look for interrupts ends a halt** only if there is one, and where the machine goes on to an
instruction none that it takes. -/
theorem halted_alert_cases {m : Machine β} (hp : m.Proceeds) :
    m.alert.cpu.core.halted = m.cpu.core.halted ∨
      m.cpu.core.halted = true ∧ m.alert.cpu.core.halted = false ∧ m.lines ≠ 0 ∧
        m.cpu.core.ime = false := by
  have awake := halted_alert hp
  obtain ⟨he, hh⟩ := m.proceeds_iff.mp hp
  cases halted : m.cpu.core.halted with
  | false => exact .inl awake
  | true =>
    have lines : m.lines ≠ 0 := fun hl => hh ⟨halted, hl⟩
    have off : m.cpu.core.ime = false := by
      rw [← Bool.not_eq_true]
      exact fun hi => he ⟨hi, lines⟩
    exact .inr ⟨rfl, awake, lines, off⟩

/-- A machine that is stopped by a breakpoint after it has looked for interrupts. -/
theorem heldUp_trap_alert {m : Machine β} (hp : m.Proceeds) (b : Breakpoint) :
    HeldUp m (m.alert.trap b) where
  registers := m.registers_alert
  ime := m.ime_alert
  imeNext := m.imeNext_alert
  stopped := m.stopped_alert
  model := m.model_alert
  skipBoot := m.skipBoot_alert
  blocked := m.blocked_alert
  clock := m.clock_alert
  bus := m.bus_alert
  trapped := (Debugger.trapped_eq_true_iff _).mpr (Debugger.hold_trap _ b)
  halted := halted_alert_cases hp
  sizes := .inl m.sizes_alert
  debugger := m.records_trap_alert b

/-- A machine that is stopped by a breakpoint after it has read the opcode as well. -/
theorem heldUp_trap_readInstruction {m : Machine β} (hp : m.Proceeds) {b : Breakpoint}
    (he : m.alert.fetchBreakpoint? = none)
    (hb : m.alert.readInstruction.2.accessBreakpoint? m.alert.readInstruction.1 = some b) :
    HeldUp m (m.alert.readInstruction.2.trap b) := by
  have hbus : m.alert.readInstruction.2.bus = m.bus := m.retries_readInstruction.bus
  have hsizes : m.alert.readInstruction.2.cpu.sizes =
      m.cpu.sizes.set m.pc (some m.instruction.length) := by
    rw [readInstruction_eq, instruction, instruction, pc_alert, bus_alert, sizes_alert]
  exact
    { heldUp_trap_alert hp b with
      bus := hbus
      sizes := .inr ⟨not_mem_of_stalled he hb, hsizes⟩ }

/-- **A trapped step leaves nothing half done.** -/
theorem heldUp_step {m : Machine β} (h : m.step.1 = .trapped) : HeldUp m m.step.2 := by
  have hm := m.step_cases
  generalize m.step = s at hm h ⊢
  cases hm with
  | held hb hs ht =>
    exact ⟨rfl, rfl, rfl, rfl, rfl, rfl, rfl, rfl, rfl, ht, .inl rfl, .inl rfl,
      [], by simp, .of_hold _ _⟩
  | caught b ready hp => exact heldUp_trap_alert hp b
  | stalled b ready hp he hb => exact heldUp_trap_readInstruction hp he hb
  | _ => simp at h

/-! ### The bus in the meantime -/

omit [QuietBus β] in
/-- **A trapped step only reads**, and where a breakpoint waits for the fetch of the instruction it
does not read the opcode. -/
theorem calls_of_trapped {m : Machine (Recorded β)} (h : m.step.1 = .trapped) :
    ∃ calls, Sends m m.step.2 calls ∧ OnlyReads calls ∧
      (m.cpu.debugger.trapped = false → ⟨.execute, m.pc⟩ ∈ m.cpu.debugger.breakpoints →
        Poll m.cpu.core calls) := by
  have hm := m.step_cases
  obtain ⟨poll, hpoll, halert⟩ := m.sends_alert
  generalize m.step = s at hm h ⊢
  cases hm with
  | held _ _ ht =>
    refine ⟨[], .of_eq rfl rfl, by simp [OnlyReads], ?_⟩
    intro hfree
    exact absurd (ht.symm.trans hfree) (by simp)
  | caught b => exact ⟨poll, halert.trap b, hpoll.onlyReads, fun _ _ => hpoll⟩
  | stalled b _ _ he hb =>
    obtain ⟨opcode, hread⟩ := m.alert.sends_readInstruction
    refine ⟨_, (halert.trans hread).trap b, ?_, fun _ hmem => ?_⟩
    · intro call hcall
      rcases List.mem_append.mp hcall with hcall | hcall
      · exact hpoll.onlyReads call hcall
      · exact ⟨_, _, List.mem_singleton.mp hcall⟩
    · exact absurd hmem (not_mem_of_stalled he hb)
  | _ => simp at h

omit [QuietBus β] in
/-- A machine that is held stays as it is. -/
theorem step_of_trapped {m : Machine β} (ht : m.cpu.debugger.trapped = true)
    (hb : m.cpu.blocked = false) (hs : m.cpu.core.stopped = false) : m.step = (.trapped, m) := by
  rw [step_eq, if_neg (Bool.eq_false_iff.mp hb), if_neg (Bool.eq_false_iff.mp hs), if_pos ht]

omit [QuietBus β] in
/-- **A machine that is held stays as it is**, for any number of steps. -/
theorem steps_of_trapped {m : Machine β} (ht : m.cpu.debugger.trapped = true)
    (hb : m.cpu.blocked = false) (hs : m.cpu.core.stopped = false) (count : Nat) :
    steps count m = (List.replicate count (.trapped, m.pc, m.cpu.clock), m) := by
  induction count with
  | zero => rfl
  | succ count ih => simp only [steps, step_of_trapped ht hb hs, ih, List.replicate_succ]

/-- **A trapped step is one that has not been made.** The machine after it is what it was, but for
being held and what goes with it, and all that has been done to the bus is to read from it; where a
breakpoint waits for the fetch of the instruction not even the opcode is read. Further steps of a
machine that is held do nothing, to the bus either. -/
theorem step_trapped (m : Machine β) :
    (m.step.1 = .trapped →
      HeldUp m m.step.2 ∧ OnlyReads m.recorded.step.2.bus.calls.toList ∧
        (m.cpu.debugger.trapped = false → ⟨.execute, m.pc⟩ ∈ m.cpu.debugger.breakpoints →
          Poll m.cpu.core m.recorded.step.2.bus.calls.toList)) ∧
    (m.cpu.debugger.trapped = true → m.cpu.blocked = false → m.cpu.core.stopped = false →
      ∀ count, steps count m.recorded =
        (List.replicate count (.trapped, m.pc, m.cpu.clock), m.recorded)) := by
  constructor
  · intro h
    -- recording the calls does not change what the step comes to
    have recorded : m.recorded.step.1 = .trapped := by
      have same := congrArg (·.1) (step_map Recorded.isBusMorphism_bus m.recorded)
      exact same.symm.trans h
    obtain ⟨calls, hsends, hreads, hpoll⟩ := calls_of_trapped recorded
    have log : m.recorded.step.2.bus.calls.toList = calls := hsends.log
    rw [log]
    exact ⟨heldUp_step h, hreads, hpoll⟩
  · intro ht hb hs count
    exact steps_of_trapped (m := m.recorded) ht hb hs count

/-- A halted processor with an interrupt to wake it, in front of a store of the stack pointer whose
second byte a breakpoint waits for. -/
def stalling : Machine Ram where
  cpu :=
    { (Cpu.new .standard).withDebugger fun d => (d.addBreakpoint ⟨.write, 0xC001⟩).2 with
      core := { (Cpu.new .standard).core with halted := true } }
  bus := ((Ram.zero.load 0x0100 [0x08, 0x00, 0xC0]).load 0xFF0F [0x01]).load 0xFFFF [0x01]

/-- The store is stopped before its first byte, and stays so. -/
theorem step_trapped_stalling :
    stalling.step.1 = .trapped ∧ HeldUp stalling stalling.step.2 ∧
      steps 3 stalling.step.2.recorded =
        (List.replicate 3 (.trapped, stalling.pc, stalling.cpu.clock),
          stalling.step.2.recorded) := by
  have opcode : Bus.peek stalling.bus stalling.pc = 0x08 := by decide +kernel
  have stores : StoresTo stalling.cpu.registers (Bus.peek stalling.bus) 0x08 0xC001 := .highByte
  have h : stalling.step.1 = .trapped := by
    refine (Verdict.caught ⟨rfl, rfl, rfl⟩ ?_ ?_ ⟨?_, ?_⟩).step_fst
    · decide
    · decide +kernel
    · decide
    · exact .inr (.inr ⟨0xC001, opcode ▸ stores, by decide⟩)
  have held : HeldUp stalling stalling.step.2 := ((step_trapped stalling).1 h).1
  have stays := (step_trapped stalling.step.2).2 held.trapped held.blocked held.stopped 3
  rw [held.pc, held.clock] at stays
  exact ⟨h, held, stays⟩

end GameBoy.Machine
