import GameBoy.Proofs.Debugger.Transparency

/-!
# What the course of a machine depends on

Much of what a processor keeps is written and never read again while it runs: what its clock shows,
what is in its trace, and how long the instructions were that it met. Nor does it matter then how it
was set up. What is left decides every step, on any bus.

Two machines are *alike* (`GameBoy.Machine.Alike`) if they have in common what is left, and if as
much time has passed for one of them since a point in time as for the other since another. A step of
both has one outcome and leaves them alike (`GameBoy.Machine.Alike.step`). So they cannot be told
apart by somebody who watches them from these points on, for as long as they run
(`GameBoy.Machine.Alike.map_glance_history`).
-/

namespace GameBoy.Machine

variable {β : Type}

/-- **Machines that are alike**: they agree in all that a step looks at, and as much time has passed
for `m` since the time `s` as for `n` since the time `t`. -/
structure Alike (s t : Clock) (m n : Machine β) : Prop where
  core : n.cpu.core = m.cpu.core
  blocked : n.cpu.blocked = m.cpu.blocked
  hold : n.cpu.debugger.hold = m.cpu.debugger.hold
  breakpoints : n.cpu.debugger.breakpoints = m.cpu.debugger.breakpoints
  bus : n.bus = m.bus
  elapsed : n.cpu.clock.cycles + s.cycles = m.cpu.clock.cycles + t.cycles

namespace Alike

variable {s t : Clock} {m n : Machine β}

theorem pc (h : Alike s t m n) : n.pc = m.pc := congrArg Core.pc h.core

theorem trapped (h : Alike s t m n) : n.cpu.debugger.trapped = m.cpu.debugger.trapped :=
  congrArg (· == Hold.trapped) h.hold

/-- The same breakpoints stop an instruction. -/
theorem hit? (h : Alike s t m n) (places : List Breakpoint) :
    n.cpu.debugger.hit? places = m.cpu.debugger.hit? places :=
  Debugger.hit?_congr h.hold h.breakpoints places

/-- Machines stay alike when their debuggers are told different things, as long as what holds the
processor stays the same. -/
theorem congr (h : Alike s t m n) {m' n' : Machine β} (hm : m'.bare = m.bare)
    (hn : n'.bare = n.bare) (hold : n'.cpu.debugger.hold = m'.cpu.debugger.hold)
    (breakpoints : n'.cpu.debugger.breakpoints = m'.cpu.debugger.breakpoints) :
    Alike s t m' n' where
  core := ((core_congr hn).trans h.core).trans (core_congr hm).symm
  blocked := ((blocked_congr hn).trans h.blocked).trans (blocked_congr hm).symm
  hold := hold
  breakpoints := breakpoints
  bus := ((congrArg (·.bus) hn).trans h.bus).trans (congrArg (·.bus) hm).symm
  elapsed := by
    have clockN : n'.cpu.clock = n.cpu.clock := congrArg (·.cpu.clock) hn
    have clockM : m'.cpu.clock = m.cpu.clock := congrArg (·.cpu.clock) hm
    rw [clockN, clockM]
    exact h.elapsed

/-- A breakpoint holds both processors. -/
theorem trap (h : Alike s t m n) (b : Breakpoint) : Alike s t (m.trap b) (n.trap b) := by
  refine h.congr rfl rfl ?_ ?_
  · exact (Debugger.hold_trap _ b).trans (Debugger.hold_trap _ b).symm
  · exact ((Debugger.breakpoints_trap _ b).trans h.breakpoints).trans
      (Debugger.breakpoints_trap _ b).symm

/-- Waking from a halt. -/
theorem wakeFromHalt (h : Alike s t m n) : Alike s t m.wakeFromHalt n.wakeFromHalt := by
  rw [Machine.wakeFromHalt, Machine.wakeFromHalt, h.core]
  split
  · exact
      { core := congrArg (fun core : Core => { core with halted := false }) h.core
        blocked := h.blocked
        hold := by simpa only [withCpu, Debugger.hold_event] using h.hold
        breakpoints := by simpa only [withCpu, Debugger.breakpoints_event] using h.breakpoints
        bus := h.bus
        elapsed := h.elapsed }
  · exact h

variable [Bus β]

/-- **Microcode does the same to both**, and takes as long. -/
theorem perform (h : Alike s t m n) (code : Microcode Core) :
    Alike s t (m.perform code) (n.perform code) where
  core := congrArg (fun bus => (code.run bus).result) h.bus
  blocked := h.blocked
  hold := h.hold
  breakpoints := h.breakpoints
  bus := congrArg (fun bus => (code.run bus).bus) h.bus
  elapsed := by
    have before := h.elapsed
    have cycles := congrArg (fun bus => (code.run bus).cycles) h.bus
    dsimp only [Machine.perform, Clock.advance] at cycles ⊢
    rw [cycles]
    omega

/-- An idle cycle. -/
theorem idle (h : Alike s t m n) : Alike s t m.idle n.idle := by
  rw [Machine.idle, Machine.idle, h.core]
  exact h.perform _

/-- Looking for interrupts comes to the same answer, and does the same to the bus. -/
theorem pollInterrupts (h : Alike s t m n) :
    n.pollInterrupts.1 = m.pollInterrupts.1 ∧
      Alike s t m.pollInterrupts.2 n.pollInterrupts.2 := by
  rw [Machine.pollInterrupts, Machine.pollInterrupts, h.core, h.bus]
  split
  · exact ⟨rfl, { h with bus := rfl }⟩
  · exact ⟨rfl, h⟩

/-- Looking for interrupts, waking included. -/
theorem alert (h : Alike s t m n) : Alike s t m.alert n.alert := by
  obtain ⟨answer, after⟩ := h.pollInterrupts
  rw [Machine.alert, Machine.alert, answer]
  split
  · exact after.wakeFromHalt
  · exact after

/-- The dispatch of an interrupt. -/
theorem dispatch (h : Alike s t m n) (i : Interrupt) :
    Alike s t (m.dispatch i) (n.dispatch i) := by
  have acknowledged : Alike s t { m with bus := Interrupt.acknowledge m.bus i }
      { n with bus := Interrupt.acknowledge n.bus i } :=
    { h with bus := congrArg (Interrupt.acknowledge · i) h.bus }
  have performed := acknowledged.perform (dispatchCode m.cpu.core i)
  rw [← h.core] at performed
  refine performed.congr ?_ rfl ?_ ?_
  · rw [h.core]
    rfl
  · refine Debugger.hold_spendPass_congr ?_
    rw [Debugger.hold_event, Debugger.hold_event]
    exact h.hold
  · exact ((breakpoints_dispatch n i).trans h.breakpoints).trans (breakpoints_dispatch m i).symm

/-! ### Instructions -/

/-- The same opcode is read, and its length recorded. -/
theorem readInstruction (h : Alike s t m n) :
    n.readInstruction.1 = m.readInstruction.1 ∧
      Alike s t m.readInstruction.2 n.readInstruction.2 := by
  rw [Machine.readInstruction, Machine.readInstruction, h.bus, h.pc]
  dsimp only
  exact ⟨rfl, { h with bus := rfl }⟩

/-- An instruction that runs. -/
theorem execute (h : Alike s t m n) (i : Instruction) :
    Alike s t (m.execute i) (n.execute i) := by
  have ran : Alike s t (m.runCode i) (n.runCode i) := by
    rw [runCode, runCode, h.core]
    exact h.perform _
  refine ran.congr (bare_execute m i) (bare_execute n i) ?_ ?_
  · rw [hold_execute_eq, hold_execute_eq]
    exact Debugger.hold_spendPass_congr h.hold
  · rw [breakpoints_execute, breakpoints_execute]
    exact h.breakpoints

/-- An instruction attempted, and stopped by the same breakpoint if at all. -/
theorem attempt (h : Alike s t m n) (i : Instruction) :
    (n.attempt i).1 = (m.attempt i).1 ∧ Alike s t (m.attempt i).2 (n.attempt i).2 := by
  have access : n.accessBreakpoint? i = m.accessBreakpoint? i := by
    rw [accessBreakpoint?, accessBreakpoint?, h.hit?, h.bus, Cpu.registers, Cpu.registers, h.core]
  rw [attempt_eq, attempt_eq, access]
  cases m.accessBreakpoint? i with
  | some b => exact ⟨rfl, h.trap b⟩
  | none => exact ⟨rfl, h.execute i⟩

/-- The next instruction fetched, and stopped by the same breakpoint if at all. -/
theorem fetch (h : Alike s t m n) :
    n.fetch.1 = m.fetch.1 ∧ Alike s t m.fetch.2 n.fetch.2 := by
  have fetched : n.fetchBreakpoint? = m.fetchBreakpoint? := by
    rw [fetchBreakpoint?, fetchBreakpoint?, h.hit?, h.pc]
  rw [fetch_eq, fetch_eq, fetched]
  cases m.fetchBreakpoint? with
  | some b => exact ⟨rfl, h.trap b⟩
  | none =>
    obtain ⟨instruction, read⟩ := h.readInstruction
    dsimp only
    rw [instruction]
    exact read.attempt _

/-! ### Steps and runs -/

/-- **Machines that are alike take the same step** and stay alike. -/
theorem step (h : Alike s t m n) : n.step.1 = m.step.1 ∧ Alike s t m.step.2 n.step.2 := by
  rw [step_eq, step_eq, h.blocked, h.core, h.trapped, h.pollInterrupts.1]
  split
  · exact ⟨rfl, h.idle⟩
  split
  · exact ⟨rfl, h.idle⟩
  split
  · exact ⟨rfl, h⟩
  cases m.pollInterrupts.1 with
  | none =>
    dsimp only
    split
    · exact ⟨rfl, h.alert.idle⟩
    · exact h.alert.fetch
  | some i =>
    dsimp only
    split
    · exact ⟨rfl, h.alert.dispatch i⟩
    · exact h.alert.fetch

end Alike

/-- What there is to see of a step for somebody who has watched since a point in time: the outcome,
the core, the bus, and how much time has passed. -/
def glance (start : Clock) (s : StepOutcome × Machine β) : StepOutcome × Core × β × Nat :=
  (s.1, s.2.cpu.core, s.2.bus, s.2.cpu.clock.since start)

/-- Steps with one outcome look the same if the machines after them are alike. -/
theorem Alike.glance_eq {s t : Clock} {m n : Machine β} (h : Alike s t m n) (o : StepOutcome) :
    glance t (o, n) = glance s (o, m) := by
  have elapsed : n.cpu.clock.since t = m.cpu.clock.since s := by
    have passed := h.elapsed
    rw [Clock.since, Clock.since]
    omega
  rw [glance, glance, h.core, h.bus, elapsed]

/-- **Machines that are alike cannot be told apart**, for as long as they run. -/
theorem Alike.map_glance_history [Bus β] {s t : Clock} {m n : Machine β} (h : Alike s t m n)
    (count : Nat) :
    (history Machine.step count n).map (glance t) =
      (history Machine.step count m).map (glance s) := by
  induction count generalizing m n with
  | zero => rfl
  | succ count ih =>
    obtain ⟨outcome, after⟩ := h.step
    have first : glance t n.step = glance s m.step := by
      rw [← after.glance_eq m.step.1, ← outcome]
    rw [history, history, List.map_cons, List.map_cons, first, ih after]

end GameBoy.Machine
