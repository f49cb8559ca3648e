import GameBoy.Cpu.Run

/-!
# Maps that carry steps to steps

Much of what is said about steps has one form: some change to a machine goes through a step. Put the
machine on another bus, move its clock on, forget what its trace holds, and let it make a step; the
step comes out the same, and leaves the machine that the step without the change would leave,
changed in the same way.

A step consists of a few parts, and it is enough that the change goes through each of them. This is
what `GameBoy.Machine.IsStepMorphism` asks for. Then it goes through a step
(`GameBoy.Machine.IsStepMorphism.step`) and, where it leaves the clock alone, through the runs of
many steps.
-/

namespace GameBoy.Machine

variable {β γ : Type} [Bus β] [Bus γ]

/-- **A map between machines that goes through every part of a step**: it changes nothing that a
step looks at, and it makes no difference whether it comes before a part or after it. -/
structure IsStepMorphism (f : Machine β → Machine γ) : Prop where
  core (m : Machine β) : (f m).cpu.core = m.cpu.core
  blocked (m : Machine β) : (f m).cpu.blocked = m.cpu.blocked
  trapped (m : Machine β) : (f m).cpu.debugger.trapped = m.cpu.debugger.trapped
  hit? (m : Machine β) (places : List Breakpoint) :
    (f m).cpu.debugger.hit? places = m.cpu.debugger.hit? places
  peek (m : Machine β) : Bus.peek (f m).bus = Bus.peek m.bus
  perform (m : Machine β) (code : Microcode Core) : (f m).perform code = f (m.perform code)
  pollInterrupts (m : Machine β) :
    (f m).pollInterrupts = (m.pollInterrupts.1, f m.pollInterrupts.2)
  wakeFromHalt (m : Machine β) : (f m).wakeFromHalt = f m.wakeFromHalt
  dispatch (m : Machine β) (i : Interrupt) : (f m).dispatch i = f (m.dispatch i)
  trap (m : Machine β) (b : Breakpoint) : (f m).trap b = f (m.trap b)
  readInstruction (m : Machine β) :
    (f m).readInstruction = (m.readInstruction.1, f m.readInstruction.2)
  execute (m : Machine β) (i : Instruction) : (f m).execute i = f (m.execute i)

namespace IsStepMorphism

variable {f : Machine β → Machine γ} (hf : IsStepMorphism f) (m : Machine β)

include hf

/-- An idle cycle. -/
theorem idle : (f m).idle = f m.idle := by
  rw [Machine.idle, Machine.idle, hf.core, hf.perform]

/-- An instruction attempted. -/
theorem attempt (i : Instruction) : (f m).attempt i = ((m.attempt i).1, f (m.attempt i).2) := by
  have registers : (f m).cpu.registers = m.cpu.registers := congrArg Core.registers (hf.core m)
  simp only [Machine.attempt, registers, hf.peek, hf.hit?, hf.trap, hf.execute]
  split <;> rfl

/-- An instruction fetched. -/
theorem fetch : (f m).fetch = (m.fetch.1, f m.fetch.2) := by
  have pc : (f m).pc = m.pc := congrArg Core.pc (hf.core m)
  simp only [Machine.fetch, pc, hf.hit?, hf.trap, hf.readInstruction, hf.attempt]
  split <;> rfl

/-- **The map goes through a step.** -/
theorem step : (f m).step = (m.step.1, f m.step.2) := by
  simp only [Machine.step, hf.blocked, hf.core, hf.trapped, hf.idle, hf.pollInterrupts]
  split
  · rfl
  split
  · rfl
  split
  · rfl
  rcases m.pollInterrupts with ⟨_ | i, m'⟩
  · -- no interrupt asks for the processor
    simp only [hf.core, hf.idle, hf.fetch]
    split <;> rfl
  · -- one does, and is taken or only ends a halt
    simp only [hf.wakeFromHalt, hf.core, hf.dispatch, hf.fetch]
    split <;> rfl

/-! ### Runs -/

/-- The map goes through steps until the processor no longer runs. -/
theorem runUntilHalt (limit : Nat) :
    (f m).runUntilHalt limit = ((m.runUntilHalt limit).1, f (m.runUntilHalt limit).2) := by
  induction limit generalizing m with
  | zero => rfl
  | succ limit ih =>
    have running : (f m).cpu.isRunning = m.cpu.isRunning := by
      simp only [Cpu.isRunning, hf.core, hf.blocked, hf.trapped]
    simp only [Machine.runUntilHalt, running, hf.step, ih]
    split <;> rfl

variable (clock : ∀ m, (f m).cpu.clock = m.cpu.clock)

include clock

/-- The map goes through steps until a point in time is reached. -/
theorem runUntil (target : Clock) : (f m).runUntil target = f (m.runUntil target) := by
  fun_induction Machine.runUntil target m with
  | case1 m early next step => rw [runUntil_eq, clock, if_pos early, hf.step, step, if_pos rfl]
  | case2 m early outcome next step trapped ih =>
    rw [runUntil_eq, clock, if_pos early, hf.step, step, if_neg trapped, ih]
  | case3 m late => rw [runUntil_eq, clock, if_neg late]

/-- The map goes through steps on a budget of clock cycles. -/
theorem runFor (cycles : Nat) :
    (f m).runFor cycles = ((m.runFor cycles).1, f (m.runFor cycles).2) := by
  simp only [Machine.runFor, clock, hf.runUntil m clock]

end IsStepMorphism

end GameBoy.Machine
