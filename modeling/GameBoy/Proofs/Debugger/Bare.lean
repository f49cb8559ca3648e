import GameBoy.Proofs.Debugger.Hold

/-!
# The machine without its debugger

The debugger looks on while the machine runs, and all that it can do is to stop it. To say this,
`GameBoy.Machine.bare` puts a debugger that knows nothing in place of the one there is, so that two
machines with the same bare machine agree in everything but their debuggers, and
`GameBoy.Machine.freeStep` is the step as it would be if no debugger could stop it.

A step that is not trapped is the free step (`GameBoy.Machine.step_eq_freeStep`), and what the free
step does to the bare machine depends on the bare machine alone
(`GameBoy.Machine.seen_freeStep_congr`). The debugger appears in the parts of a step only where
something is told to it; each part comes with the statement that it does the same to machines that
differ in their debuggers.
-/

namespace GameBoy.Machine

variable {β : Type}

/-! ### Replacing the debugger -/

/-- The machine with another debugger. -/
def debuggedBy (m : Machine β) (d : Debugger) : Machine β := m.withCpu (·.withDebugger fun _ => d)

/-- **The machine without its debugger**: one that knows nothing and has nothing to do takes its
place. -/
def bare (m : Machine β) : Machine β := m.debuggedBy (.new false)

/-- What there is to see of a step for somebody who does not look at the debugger. -/
def seen (s : StepOutcome × Machine β) : StepOutcome × Machine β := (s.1, s.2.bare)

/-- **Machines with the same bare machine differ in their debuggers only.** -/
theorem eq_debuggedBy_of_bare_eq {m n : Machine β} (h : n.bare = m.bare) :
    n = m.debuggedBy n.cpu.debugger :=
  congrArg (·.debuggedBy n.cpu.debugger) h

/-- The bus is in use by someone else whatever the debugger is. -/
theorem blocked_congr {m n : Machine β} (h : n.bare = m.bare) : n.cpu.blocked = m.cpu.blocked :=
  congrArg (·.cpu.blocked) h

/-- The core is the same whatever the debugger is. -/
theorem core_congr {m n : Machine β} (h : n.bare = m.bare) : n.cpu.core = m.cpu.core :=
  congrArg (·.cpu.core) h

/-- Steps with one outcome look the same if the machines after them differ in their debuggers
only. -/
theorem seen_congr {m n : Machine β} {o : StepOutcome} (h : n.bare = m.bare) :
    seen (o, n) = seen (o, m) :=
  congrArg (o, ·) h

/-- Waking does the same under another debugger. -/
theorem bare_wakeFromHalt (m : Machine β) (d : Debugger) :
    (m.debuggedBy d).wakeFromHalt.bare = m.wakeFromHalt.bare := by
  unfold wakeFromHalt
  change bare (if m.cpu.core.halted = true then _ else _) = _
  split <;> rfl

variable [Bus β]

/-- Looking for interrupts does the same under another debugger. -/
theorem pollInterrupts_debuggedBy (m : Machine β) (d : Debugger) :
    (m.debuggedBy d).pollInterrupts =
      (m.pollInterrupts.1, m.pollInterrupts.2.debuggedBy d) := by
  unfold pollInterrupts
  change (if (m.cpu.core.ime || m.cpu.core.halted) = true then _ else _) = _
  split <;> rfl

variable {m n : Machine β}

/-- Looking for interrupts leads to the same answer under another debugger. -/
theorem pollInterrupts_fst_congr (h : n.bare = m.bare) :
    n.pollInterrupts.1 = m.pollInterrupts.1 := by
  rw [eq_debuggedBy_of_bare_eq h, pollInterrupts_debuggedBy]

/-- Looking for interrupts does the same under another debugger, waking included. -/
theorem bare_alert_congr (h : n.bare = m.bare) : n.alert.bare = m.alert.bare := by
  rw [eq_debuggedBy_of_bare_eq h, alert, alert, pollInterrupts_debuggedBy]
  cases m.pollInterrupts.1 with
  | none => rfl
  | some i => exact bare_wakeFromHalt _ _

/-- An idle cycle does the same under another debugger. -/
theorem bare_idle_congr (h : n.bare = m.bare) : n.idle.bare = m.idle.bare := by
  rw [eq_debuggedBy_of_bare_eq h]
  rfl

/-- The dispatch of an interrupt does the same under another debugger. -/
theorem bare_dispatch_congr (h : n.bare = m.bare) (i : Interrupt) :
    (n.dispatch i).bare = (m.dispatch i).bare := by
  rw [eq_debuggedBy_of_bare_eq h]
  rfl

/-! ### Instructions -/

/-- The microcode of an instruction run on the machine, with nothing told to the debugger. -/
def runCode (m : Machine β) (i : Instruction) : Machine β :=
  m.perform do
    Microcode.pause
    i.execute { m.cpu.core with ime := m.cpu.core.imeNext }

/-- **Running an instruction is running its microcode**, and telling the debugger. -/
theorem bare_execute (m : Machine β) (i : Instruction) :
    (m.execute i).bare = (m.runCode i).bare := by
  rw [execute]
  cases m.cpu.debugger.tracing <;> rfl

/-- The instruction at the program counter, read and run whatever breakpoints there are. -/
def runNext (m : Machine β) : Machine β := m.readInstruction.2.execute m.readInstruction.1

/-- The next instruction does the same under another debugger. -/
theorem bare_runNext_congr (h : n.bare = m.bare) : n.runNext.bare = m.runNext.bare := by
  rw [eq_debuggedBy_of_bare_eq h, runNext, runNext, bare_execute, bare_execute]
  rfl

/-- An instruction that no breakpoint stops is run. -/
theorem fetch_eq_runNext (h : m.fetch.1 ≠ .trapped) : m.fetch = (.executed, m.runNext) := by
  rw [fetch_eq] at h ⊢
  cases hf : m.fetchBreakpoint? with
  | some b =>
    rw [hf] at h
    exact absurd rfl h
  | none =>
    simp only [hf, attempt_eq] at h ⊢
    cases ha : m.readInstruction.2.accessBreakpoint? m.readInstruction.1 with
    | some b =>
      rw [ha] at h
      exact absurd rfl h
    | none => rfl

/-! ### Steps -/

/-- **The step as it would be if no debugger could stop it.** -/
def freeStep (m : Machine β) : StepOutcome × Machine β :=
  if m.cpu.blocked then (.blocked, m.idle)
  else if m.cpu.core.stopped then (.stopped, m.idle)
  else
    match m.pollInterrupts.1 with
    | none => if m.cpu.core.halted then (.halted, m.alert.idle) else (.executed, m.alert.runNext)
    | some i =>
      if m.cpu.core.ime then (.interrupted i, m.alert.dispatch i) else (.executed, m.alert.runNext)

/-- **A step that is not trapped is the free step.** -/
theorem step_eq_freeStep (h : m.step.1 ≠ .trapped) : m.step = m.freeStep := by
  rw [step_eq] at h ⊢
  rw [freeStep]
  by_cases hb : m.cpu.blocked = true
  · rw [if_pos hb, if_pos hb]
  by_cases hs : m.cpu.core.stopped = true
  · rw [if_neg hb, if_neg hb, if_pos hs, if_pos hs]
  rw [if_neg hb, if_neg hs] at h ⊢
  rw [if_neg hb, if_neg hs]
  by_cases ht : m.cpu.debugger.trapped = true
  · rw [if_pos ht] at h
    exact absurd rfl h
  rw [if_neg ht] at h ⊢
  -- what is left is not held, and the two differ only where something is fetched
  cases hi : m.pollInterrupts.1 with
  | none =>
    simp only [hi] at h ⊢
    by_cases hh : m.cpu.core.halted = true
    · rw [if_pos hh, if_pos hh]
    · rw [if_neg hh] at h ⊢
      rw [if_neg hh, fetch_eq_runNext h]
  | some i =>
    simp only [hi] at h ⊢
    by_cases he : m.cpu.core.ime = true
    · rw [if_pos he, if_pos he]
    · rw [if_neg he] at h ⊢
      rw [if_neg he, fetch_eq_runNext h]

/-- **Machines that differ in their debuggers take the same free step.** -/
theorem seen_freeStep_congr (h : n.bare = m.bare) : seen n.freeStep = seen m.freeStep := by
  have halert := bare_alert_congr h
  rw [freeStep, freeStep, blocked_congr h, core_congr h, pollInterrupts_fst_congr h]
  split
  · exact seen_congr (bare_idle_congr h)
  split
  · exact seen_congr (bare_idle_congr h)
  cases m.pollInterrupts.1 with
  | none =>
    dsimp only
    split
    · exact seen_congr (bare_idle_congr halert)
    · exact seen_congr (bare_runNext_congr halert)
  | some i =>
    dsimp only
    split
    · exact seen_congr (bare_dispatch_congr halert i)
    · exact seen_congr (bare_runNext_congr halert)

/-- The free step of a machine that goes on to an instruction. -/
theorem freeStep_eq_runNext (hb : m.cpu.blocked = false) (hs : m.cpu.core.stopped = false)
    (hp : m.Proceeds) : m.freeStep = (.executed, m.alert.runNext) := by
  rw [freeStep, if_neg (Bool.eq_false_iff.mp hb), if_neg (Bool.eq_false_iff.mp hs)]
  exact hp.match_eq _ _ _

end GameBoy.Machine
