import GameBoy.Cpu.Run

/-!
# What a step can be

A step is one of eight things, and `GameBoy.Machine.StepCase` lists them, each with the condition
under which it happens and the machine it leaves behind. `GameBoy.Machine.step_cases` says that the
list is complete. Whatever is preserved by all eight is preserved by a step, and this is how the
facts of the following files are proved.

Most of the eight begin by looking for interrupts. The machine after that look, woken if there was
one to wake it, is `GameBoy.Machine.alert`.
-/

namespace GameBoy

/-- A processor whose halt has just been ended. -/
def Cpu.woken (cpu : Cpu) : Cpu :=
  { cpu with
    core := { cpu.core with halted := false }
    debugger := cpu.debugger.event cpu.core.pc "wake from halt" }

namespace Machine

variable {β : Type} [Bus β]

/-! ### Looking for interrupts -/

/-- **The machine after it has looked for interrupts**, no longer halted if there is one. -/
def alert (m : Machine β) : Machine β :=
  if m.pollInterrupts.1.isSome then m.pollInterrupts.2.wakeFromHalt else m.pollInterrupts.2

/-- **A machine goes on to an instruction** if it is not halted, or is just being woken, and does
not take the interrupt that there may be. -/
def Proceeds (m : Machine β) : Prop :=
  match m.pollInterrupts.1 with
  | none => m.cpu.core.halted = false
  | some _ => m.cpu.core.ime = false

omit [Bus β] in
/-- **A machine that neither the bus, nor a stop, nor the debugger holds up.** -/
structure Ready (m : Machine β) : Prop where
  blocked : m.cpu.blocked = false
  stopped : m.cpu.core.stopped = false
  trapped : m.cpu.debugger.trapped = false

/-- **What looking for interrupts does to the processor**: it may end a halt. -/
theorem cpu_alert (m : Machine β) :
    m.alert.cpu =
      if m.pollInterrupts.1.isSome && m.cpu.core.halted then m.cpu.woken else m.cpu := by
  have hpoll := cpu_pollInterrupts m
  rw [alert]
  cases m.pollInterrupts.1 with
  | none => simpa using hpoll
  | some i =>
    rw [Option.isSome_some, if_pos rfl, wakeFromHalt, hpoll, Bool.true_and]
    split
    · rw [withCpu, hpoll, Cpu.woken]
    · exact hpoll

@[simp] theorem registers_alert (m : Machine β) :
    m.alert.cpu.core.registers = m.cpu.core.registers := by
  rw [cpu_alert]
  split <;> rfl

@[simp] theorem pc_alert (m : Machine β) : m.alert.pc = m.pc :=
  congrArg Registers.pc (registers_alert m)

@[simp] theorem ime_alert (m : Machine β) : m.alert.cpu.core.ime = m.cpu.core.ime := by
  rw [cpu_alert]
  split <;> rfl

@[simp] theorem imeNext_alert (m : Machine β) : m.alert.cpu.core.imeNext = m.cpu.core.imeNext := by
  rw [cpu_alert]
  split <;> rfl

/-- Of the processor only the core and the debugger are touched. -/
theorem cpu_alert_eq (m : Machine β) :
    m.alert.cpu = { m.cpu with core := m.alert.cpu.core, debugger := m.alert.cpu.debugger } := by
  rw [cpu_alert]
  split <;> rfl

@[simp] theorem model_alert (m : Machine β) : m.alert.cpu.model = m.cpu.model := by
  rw [cpu_alert_eq]

@[simp] theorem skipBoot_alert (m : Machine β) : m.alert.cpu.skipBoot = m.cpu.skipBoot := by
  rw [cpu_alert_eq]

@[simp] theorem blocked_alert (m : Machine β) : m.alert.cpu.blocked = m.cpu.blocked := by
  rw [cpu_alert_eq]

@[simp] theorem clock_alert (m : Machine β) : m.alert.cpu.clock = m.cpu.clock := by
  rw [cpu_alert_eq]

@[simp] theorem sizes_alert (m : Machine β) : m.alert.cpu.sizes = m.cpu.sizes := by
  rw [cpu_alert_eq]

/-- Of the core only the halt is touched. -/
theorem core_alert (m : Machine β) :
    m.alert.cpu.core = { m.cpu.core with halted := m.alert.cpu.core.halted } := by
  rw [cpu_alert]
  split <;> rfl

@[simp] theorem stopped_alert (m : Machine β) : m.alert.cpu.core.stopped = m.cpu.core.stopped := by
  rw [core_alert]

omit [Bus β] in
@[simp] theorem bus_wakeFromHalt (m : Machine β) : m.wakeFromHalt.bus = m.bus := by
  unfold wakeFromHalt
  split <;> rfl

/-! ### Breakpoints in the way -/

omit [Bus β] in
/-- The breakpoint that waits for the fetch of the next instruction, if one does. -/
def fetchBreakpoint? (m : Machine β) : Option Breakpoint :=
  m.cpu.debugger.hit? [⟨.execute, m.pc⟩]

/-- The breakpoint that waits for what an instruction is about to load or store, if one does. -/
def accessBreakpoint? (m : Machine β) (i : Instruction) : Option Breakpoint :=
  m.cpu.debugger.hit? (i.accesses m.cpu.registers (Bus.peek m.bus))

/-- The attempt of an instruction, by the breakpoint in its way. -/
theorem attempt_eq (m : Machine β) (i : Instruction) :
    m.attempt i =
      match m.accessBreakpoint? i with
      | some b => (.trapped, m.trap b)
      | none => (.executed, m.execute i) := rfl

/-- The fetch of an instruction, by the breakpoint in its way. -/
theorem fetch_eq (m : Machine β) :
    m.fetch =
      match m.fetchBreakpoint? with
      | some b => (.trapped, m.trap b)
      | none => m.readInstruction.2.attempt m.readInstruction.1 := rfl

/-! ### The eight cases -/

/-- **The things a step can be**, each with its outcome and the machine after it. -/
inductive StepCase (m : Machine β) : StepOutcome × Machine β → Prop
  /-- The bus is in use by someone else. -/
  | blocked (hb : m.cpu.blocked = true) : StepCase m (.blocked, m.idle)
  /-- The processor is stopped. -/
  | stopped (hb : m.cpu.blocked = false) (hs : m.cpu.core.stopped = true) :
    StepCase m (.stopped, m.idle)
  /-- The debugger holds the processor already. -/
  | held (hb : m.cpu.blocked = false) (hs : m.cpu.core.stopped = false)
    (ht : m.cpu.debugger.trapped = true) : StepCase m (.trapped, m)
  /-- The processor is halted and there is no interrupt. -/
  | halted (ready : m.Ready) (hi : m.pollInterrupts.1 = none) (hh : m.cpu.core.halted = true) :
    StepCase m (.halted, m.alert.idle)
  /-- There is an interrupt, and it is taken. -/
  | interrupted (i : Interrupt) (ready : m.Ready) (hi : m.pollInterrupts.1 = some i)
    (he : m.cpu.core.ime = true) : StepCase m (.interrupted i, m.alert.dispatch i)
  /-- A breakpoint waits for the fetch of the instruction. -/
  | caught (b : Breakpoint) (ready : m.Ready) (hp : m.Proceeds)
    (hb : m.alert.fetchBreakpoint? = some b) : StepCase m (.trapped, m.alert.trap b)
  /-- A breakpoint waits for what the instruction is about to load or store. -/
  | stalled (b : Breakpoint) (ready : m.Ready) (hp : m.Proceeds)
    (he : m.alert.fetchBreakpoint? = none)
    (hb : m.alert.readInstruction.2.accessBreakpoint? m.alert.readInstruction.1 = some b) :
    StepCase m (.trapped, m.alert.readInstruction.2.trap b)
  /-- An instruction runs. -/
  | executed (ready : m.Ready) (hp : m.Proceeds)
    (he : m.alert.fetchBreakpoint? = none)
    (ha : m.alert.readInstruction.2.accessBreakpoint? m.alert.readInstruction.1 = none) :
    StepCase m (.executed, m.alert.readInstruction.2.execute m.alert.readInstruction.1)

/-- A machine that goes on to an instruction runs it or is stopped by a breakpoint. -/
theorem stepCase_fetch {m : Machine β} (ready : m.Ready) (hp : m.Proceeds) :
    StepCase m m.alert.fetch := by
  rw [fetch_eq]
  cases he : m.alert.fetchBreakpoint? with
  | some b => exact .caught b ready hp he
  | none =>
    simp only [attempt_eq]
    cases ha : m.alert.readInstruction.2.accessBreakpoint? m.alert.readInstruction.1 with
    | some b => exact .stalled b ready hp he ha
    | none => exact .executed ready hp he ha

/-- The step, in terms of the machine that has looked for interrupts. -/
theorem step_eq (m : Machine β) :
    m.step =
      if m.cpu.blocked then (.blocked, m.idle)
      else if m.cpu.core.stopped then (.stopped, m.idle)
      else if m.cpu.debugger.trapped then (.trapped, m)
      else
        match m.pollInterrupts.1 with
        | none => if m.cpu.core.halted then (.halted, m.alert.idle) else m.alert.fetch
        | some i =>
          if m.cpu.core.ime then (.interrupted i, m.alert.dispatch i) else m.alert.fetch := by
  unfold step
  rcases hp : m.pollInterrupts with ⟨_ | i, m'⟩
  · -- no interrupt asks for the processor
    have halert : m.alert = m' := by simp [alert, hp]
    have hcpu : m'.cpu = m.cpu := by rw [← halert, cpu_alert, hp, if_neg (by simp)]
    simp only [halert, hcpu]
  · -- one does, and is taken or only ends a halt
    have halert : m.alert = m'.wakeFromHalt := by simp [alert, hp]
    have hime : m'.wakeFromHalt.cpu.core.ime = m.cpu.core.ime := halert ▸ ime_alert m
    simp only [halert, hime]

/-- A machine that goes on to an instruction does neither of the other two things that it might. -/
theorem Proceeds.match_eq {m : Machine β} (hp : m.Proceeds) {α : Type} (halt next : α)
    (take : Interrupt → α) :
    (match m.pollInterrupts.1 with
      | none => if m.cpu.core.halted then halt else next
      | some i => if m.cpu.core.ime then take i else next) = next := by
  rw [Proceeds] at hp
  cases hi : m.pollInterrupts.1 with
  | none =>
    rw [hi] at hp
    exact if_neg (Bool.eq_false_iff.mp hp)
  | some i =>
    rw [hi] at hp
    exact if_neg (Bool.eq_false_iff.mp hp)

/-- A machine that goes on to an instruction fetches it. -/
theorem step_eq_fetch {m : Machine β} (ready : m.Ready) (hp : m.Proceeds) :
    m.step = m.alert.fetch := by
  rw [step_eq, if_neg (Bool.eq_false_iff.mp ready.blocked),
    if_neg (Bool.eq_false_iff.mp ready.stopped), if_neg (Bool.eq_false_iff.mp ready.trapped)]
  exact hp.match_eq _ _ _

/-- **A step is one of the eight.** -/
theorem step_cases (m : Machine β) : StepCase m m.step := by
  rw [step_eq]
  split
  · rename_i hb
    exact .blocked hb
  split
  · rename_i hb hs
    exact .stopped (by simpa using hb) hs
  split
  · rename_i hb hs ht
    exact .held (by simpa using hb) (by simpa using hs) ht
  rename_i hb hs ht
  have ready : m.Ready := ⟨by simpa using hb, by simpa using hs, by simpa using ht⟩
  cases hp : m.pollInterrupts.1 with
  | none =>
    simp only
    split
    · rename_i hh
      exact .halted ready hp hh
    · rename_i hh
      exact stepCase_fetch ready (by simpa [Proceeds, hp] using hh)
  | some i =>
    simp only
    split
    · rename_i he
      exact .interrupted i ready hp he
    · rename_i he
      exact stepCase_fetch ready (by simpa [Proceeds, hp] using he)

/-- **A step that dispatches an interrupt** has found it by looking, and interrupts were taken. -/
theorem eq_dispatch_of_step {m : Machine β} {i : Interrupt} (h : m.step.1 = .interrupted i) :
    m.Ready ∧ m.pollInterrupts.1 = some i ∧ m.cpu.core.ime = true ∧
      m.step.2 = m.alert.dispatch i := by
  have hm := m.step_cases
  generalize m.step = s at hm h ⊢
  cases hm with
  | interrupted j ready hi he =>
    obtain rfl : j = i := StepOutcome.interrupted.inj h
    exact ⟨ready, hi, he, rfl⟩
  | _ => simp at h

end Machine

end GameBoy
