import GameBoy.Proofs.Step.Morphism
import GameBoy.Session

/-!
# The same machine at another time

A processor writes its clock and never reads it. So a machine whose clock is ahead by some cycles
(`GameBoy.Machine.later`) does what it would have done without, and its clock stays ahead. This goes
through every part of a step (`GameBoy.Machine.isStepMorphism_later`), and so through a step
(`GameBoy.Machine.step_later`) and through anything that a driver does
(`GameBoy.Machine.act_later`).
-/

namespace GameBoy

/-- Time passes in any order. -/
theorem Clock.advance_right_comm (t : Clock) (d k : Nat) :
    (t.advance d).advance k = (t.advance k).advance d :=
  congrArg Clock.mk (Nat.add_right_comm _ _ _)

namespace Machine

variable {β : Type}

/-- **The machine with its clock ahead** by some cycles. -/
def later (m : Machine β) (d : Nat) : Machine β :=
  m.withCpu fun cpu => { cpu with clock := cpu.clock.advance d }

variable (m : Machine β) (d : Nat)

@[simp] theorem bus_later : (m.later d).bus = m.bus := rfl

@[simp] theorem pc_later : (m.later d).pc = m.pc := rfl

@[simp] theorem core_later : (m.later d).cpu.core = m.cpu.core := rfl

@[simp] theorem debugger_later : (m.later d).cpu.debugger = m.cpu.debugger := rfl

/-! ### The parts of a step -/

theorem wakeFromHalt_later : (m.later d).wakeFromHalt = m.wakeFromHalt.later d := by
  unfold wakeFromHalt
  change (if m.cpu.core.halted = true then _ else _) = _
  split <;> rfl

variable [Bus β]

theorem perform_later (code : Microcode Core) :
    (m.later d).perform code = (m.perform code).later d := by
  simp only [perform, later, withCpu, Clock.advance_right_comm]

theorem pollInterrupts_later :
    (m.later d).pollInterrupts = (m.pollInterrupts.1, m.pollInterrupts.2.later d) := by
  unfold pollInterrupts
  change (if (m.cpu.core.ime || m.cpu.core.halted) = true then _ else _) = _
  split <;> rfl

theorem dispatch_later (i : Interrupt) : (m.later d).dispatch i = (m.dispatch i).later d := by
  have performed := perform_later { m with bus := Interrupt.acknowledge m.bus i } d
    (dispatchCode m.cpu.core i)
  rw [later, withCpu] at performed
  simp only [dispatch, later, withCpu, performed]
  rfl

theorem execute_later (i : Instruction) : (m.later d).execute i = (m.execute i).later d := by
  cases tracing : m.cpu.debugger.tracing <;>
    simp only [execute, perform_later, core_later, debugger_later, bus_later, pc_later, tracing] <;>
    rfl

theorem readInstruction_later :
    (m.later d).readInstruction = (m.readInstruction.1, m.readInstruction.2.later d) := rfl

/-! ### Steps -/

omit m in
/-- **Every part of a step is the same at any time.** -/
theorem isStepMorphism_later : IsStepMorphism fun m : Machine β => m.later d where
  core _ := rfl
  blocked _ := rfl
  trapped _ := rfl
  hit? _ _ := rfl
  peek _ := rfl
  perform m := m.perform_later d
  pollInterrupts m := m.pollInterrupts_later d
  wakeFromHalt m := m.wakeFromHalt_later d
  dispatch m := m.dispatch_later d
  trap _ _ := rfl
  readInstruction m := m.readInstruction_later d
  execute m := m.execute_later d

/-- **A step is the same at any time.** -/
theorem step_later : (m.later d).step = (m.step.1, m.step.2.later d) :=
  (isStepMorphism_later d).step m

/-- **A driver does the same at any time**, and gets the same reply. -/
theorem act_later (action : Action) :
    (m.later d).act action = ((m.act action).1, (m.act action).2.later d) := by
  cases action with
  | step => simp only [act, step_later]
  | wakeFromStop =>
    cases stopped : m.cpu.core.stopped <;>
      simp only [act, control, withCpu, later, Cpu.wakeFromStop, stopped] <;> rfl
  | acceptsInterrupt =>
    cases stopped : m.cpu.core.stopped <;>
      simp only [act, acceptsInterrupt, core_later, bus_later, stopped] <;> rfl
  | _ => rfl

end Machine

end GameBoy
