import GameBoy.Cpu.Step

/-!
# Running

Many steps in a row: a given number of them, as many as it takes until the processor no longer runs,
or as many as fit a number of clock cycles.

A run on a budget of clock cycles comes to an end because time passes in every step that the
debugger does not prevent; `GameBoy.Machine.lt_clock_step` is that fact.
-/

namespace GameBoy.Machine

variable {β : Type} [Bus β]

/-! ### Time passes -/

/-- Microcode that begins with an idle cycle takes time. -/
theorem lt_clock_perform_pause (m : Machine β) (code : Microcode Core) :
    m.cpu.clock < (m.perform (Microcode.pause >>= fun _ => code)).cpu.clock := by
  change m.cpu.clock.cycles < m.cpu.clock.cycles + machineCycle * _
  simp only [bind, Microcode.andThen, Microcode.pause, Microcode.run, Microcode.run.spend,
    machineCycle]
  omega

/-- An idle cycle takes time. -/
theorem lt_clock_idle (m : Machine β) : m.cpu.clock < m.idle.cpu.clock :=
  lt_clock_perform_pause m (pure m.cpu.core)

/-- The dispatch of an interrupt takes time. -/
theorem lt_clock_dispatch (m : Machine β) (source : Interrupt) :
    m.cpu.clock < (m.dispatch source).cpu.clock :=
  lt_clock_perform_pause { m with bus := Interrupt.acknowledge m.bus source } _

/-- An instruction takes time. -/
theorem lt_clock_execute (m : Machine β) (i : Instruction) :
    m.cpu.clock < (m.execute i).cpu.clock := by
  have h := lt_clock_perform_pause m (i.execute { m.cpu.core with ime := m.cpu.core.imeNext })
  unfold execute
  split <;> exact h

/-- An instruction that no breakpoint prevents takes time. -/
theorem lt_clock_attempt (m : Machine β) (i : Instruction) (h : (m.attempt i).1 ≠ .trapped) :
    m.cpu.clock < (m.attempt i).2.cpu.clock := by
  unfold attempt at h ⊢
  split
  · rename_i heq
    simp [heq] at h
  · exact lt_clock_execute m i

/-- An instruction that no breakpoint prevents takes time, its opcode being read without. -/
theorem lt_clock_fetch (m : Machine β) (h : m.fetch.1 ≠ .trapped) :
    m.cpu.clock < m.fetch.2.cpu.clock := by
  unfold fetch at h ⊢
  split
  · rename_i heq
    simp [heq] at h
  · rename_i heq
    simp only [heq] at h
    exact lt_clock_attempt m.readInstruction.2 _ h

/-- Looking for interrupts leaves the processor as it is. -/
theorem cpu_pollInterrupts (m : Machine β) : m.pollInterrupts.2.cpu = m.cpu := by
  unfold pollInterrupts
  split <;> rfl

omit [Bus β] in
/-- Waking takes no time. -/
theorem clock_wakeFromHalt (m : Machine β) : m.wakeFromHalt.cpu.clock = m.cpu.clock := by
  unfold wakeFromHalt
  split <;> rfl

/-- **Time passes in every step that the debugger does not prevent.** -/
theorem lt_clock_step (m : Machine β) (h : m.step.1 ≠ .trapped) :
    m.cpu.clock < m.step.2.cpu.clock := by
  have hpoll := cpu_pollInterrupts m
  unfold step at h ⊢
  split
  · exact lt_clock_idle m
  split
  · exact lt_clock_idle m
  split
  · rename_i hb hs ht
    rw [if_neg hb, if_neg hs, if_pos ht] at h
    exact absurd rfl h
  rename_i hb hs ht
  rw [if_neg hb, if_neg hs, if_neg ht] at h
  rcases hp : m.pollInterrupts with ⟨_ | source, m'⟩
  · -- no interrupt asks for the processor
    rw [hp] at h hpoll
    simp only at h hpoll ⊢
    rw [← hpoll]
    split
    · exact lt_clock_idle m'
    · rename_i hh
      rw [if_neg hh] at h
      exact lt_clock_fetch m' h
  · -- one does, and is dispatched or only ends a halt
    rw [hp] at h hpoll
    simp only at h hpoll ⊢
    rw [← hpoll, ← clock_wakeFromHalt]
    split
    · exact lt_clock_dispatch _ _
    · rename_i hi
      rw [if_neg hi] at h
      exact lt_clock_fetch _ h

/-! ### Runs -/

/-- **A given number of steps**, with the outcome of each, the address of the next instruction after
it and the time by then. -/
def steps : (count : Nat) → Machine β → List (StepOutcome × UInt16 × Clock) × Machine β
  | 0, m => ([], m)
  | count + 1, m =>
    let (outcome, m) := m.step
    let (rest, last) := steps count m
    ((outcome, m.pc, m.cpu.clock) :: rest, last)

/-- **Steps until the processor no longer runs**, or until a limit is reached: how many there were,
and the machine after them. -/
def runUntilHalt : (limit : Nat) → Machine β → Nat × Machine β
  | 0, m => (0, m)
  | limit + 1, m =>
    if m.cpu.isRunning then
      let (count, m) := runUntilHalt limit m.step.2
      (count + 1, m)
    else (0, m)

/-- Steps until a point in time is reached, or until one is trapped. -/
def runUntil (target : Clock) (m : Machine β) : Machine β :=
  if _ : m.cpu.clock < target then
    match _ : m.step with
    | (outcome, next) => if _ : outcome = .trapped then next else runUntil target next
  else m
  termination_by target.cycles - m.cpu.clock.cycles
  decreasing_by
    rename_i hlt heq hne
    have hstep : m.cpu.clock < next.cpu.clock := by
      simpa [heq] using lt_clock_step m (by simpa [heq] using hne)
    change m.cpu.clock.cycles < target.cycles at hlt
    change m.cpu.clock.cycles < next.cpu.clock.cycles at hstep
    omega

/-- Steps until a point in time is reached, one step at a time. -/
theorem runUntil_eq (target : Clock) (m : Machine β) :
    runUntil target m =
      if m.cpu.clock < target then
        if m.step.1 = .trapped then m.step.2 else runUntil target m.step.2
      else m := by
  rw [runUntil]
  split <;> rfl

/-- **Steps until a number of clock cycles has passed**, or until one is trapped: the cycles that
did pass, which may be a few more since instructions are not cut short, and the machine by then. -/
def runFor (cycles : Nat) (m : Machine β) : Nat × Machine β :=
  let last := m.runUntil (m.cpu.clock.advance cycles)
  (last.cpu.clock.since m.cpu.clock, last)

end GameBoy.Machine
