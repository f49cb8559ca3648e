import GameBoy.Bus.Recorded
import GameBoy.Proofs.Step.Morphism
import GameBoy.Session

/-!
# Machines on one bus and on another

A function from one kind of bus to another that commutes with all that can be done to a bus
(`GameBoy.IsBusMorphism`) carries the steps of a machine on the first to the steps of a machine on
the second: `GameBoy.Machine.step_map` for one step, `GameBoy.Machine.steps_map` for many. The
machine has no way of telling the two buses apart, and neither has a driver
(`GameBoy.Machine.act_map`).

The case in hand is the recorded bus. Forgetting what has been recorded is a morphism
(`GameBoy.Recorded.isBusMorphism_bus`), and so recording does not disturb what is recorded.
-/

namespace GameBoy

variable {β γ : Type} [Bus β] [Bus γ]

/-- **A function between buses that commutes with all that can be done to them.** -/
structure IsBusMorphism (f : β → γ) : Prop where
  read (bus : β) (a : UInt16) : Bus.read (f bus) a = ((Bus.read bus a).1, f (Bus.read bus a).2)
  write (bus : β) (a : UInt16) (v : UInt8) : Bus.write (f bus) a v = f (Bus.write bus a v)
  tick (bus : β) (k : Nat) : Bus.tick (f bus) k = f (Bus.tick bus k)
  peek (bus : β) : Bus.peek (f bus) = Bus.peek bus

omit [Bus γ] in
/-- **Forgetting what has been recorded** is a morphism. -/
theorem Recorded.isBusMorphism_bus : IsBusMorphism (Recorded.bus : Recorded β → β) where
  read _ _ := rfl
  write _ _ _ := rfl
  tick _ _ := rfl
  peek _ := rfl

/-! ### Microcode -/

/-- The same result on another bus. -/
def Microcode.Outcome.map {α : Type} (f : β → γ) (o : Outcome α β) : Outcome α γ :=
  ⟨o.result, o.cycles, f o.bus⟩

/-- **Microcode does the same on both buses.** -/
theorem Microcode.run_map {α : Type} {f : β → γ} (hf : IsBusMorphism f) (code : Microcode α)
    (bus : β) : code.run (f bus) = (code.run bus).map f := by
  induction code generalizing bus with
  | done result => rfl
  | idle next ih =>
    rw [run, hf.tick, ih]
    rfl
  | read a next ih =>
    simp only [run, hf.read, hf.tick, ih]
    rfl
  | write a v next ih =>
    rw [run, hf.write, hf.tick, ih]
    rfl

namespace Interrupt

/-- The lines are found alike on both buses. -/
theorem pending_map {f : β → γ} (hf : IsBusMorphism f) (bus : β) :
    pending (f bus) = ((pending bus).1, f (pending bus).2) := by
  simp only [pending, hf.read]

/-- A line is lowered alike on both buses. -/
theorem acknowledge_map {f : β → γ} (hf : IsBusMorphism f) (bus : β) (i : Interrupt) :
    acknowledge (f bus) i = f (acknowledge bus i) := by
  simp only [acknowledge, hf.read, hf.write]

end Interrupt

namespace Machine

omit [Bus β] [Bus γ] in
/-- The machine on another bus. -/
def map (f : β → γ) (m : Machine β) : Machine γ := ⟨m.cpu, f m.bus⟩

variable {f : β → γ}

omit [Bus β] [Bus γ] in
@[simp] theorem cpu_map (m : Machine β) : (m.map f).cpu = m.cpu := rfl

omit [Bus β] [Bus γ] in
@[simp] theorem bus_map (m : Machine β) : (m.map f).bus = f m.bus := rfl

omit [Bus β] [Bus γ] in
@[simp] theorem pc_map (m : Machine β) : (m.map f).pc = m.pc := rfl

/-! ### The parts of a step -/

omit [Bus β] [Bus γ] in
theorem wakeFromHalt_map (m : Machine β) : (m.map f).wakeFromHalt = m.wakeFromHalt.map f := by
  unfold wakeFromHalt
  change (if m.cpu.core.halted = true then _ else _) = _
  split <;> rfl

variable (hf : IsBusMorphism f) (m : Machine β)

include hf

theorem perform_map (code : Microcode Core) : (m.map f).perform code = (m.perform code).map f := by
  simp only [perform, map, Microcode.run_map hf, Microcode.Outcome.map]

theorem pollInterrupts_map :
    (m.map f).pollInterrupts = (m.pollInterrupts.1, m.pollInterrupts.2.map f) := by
  simp only [pollInterrupts, map, Interrupt.pending_map hf]
  split <;> rfl

theorem dispatch_map (i : Interrupt) : (m.map f).dispatch i = (m.dispatch i).map f := by
  have acknowledged := Interrupt.acknowledge_map hf m.bus i
  have performed := perform_map hf { m with bus := Interrupt.acknowledge m.bus i }
    (dispatchCode m.cpu.core i)
  rw [map] at performed
  simp only [dispatch, map, acknowledged, performed]
  rfl

theorem execute_map (i : Instruction) : (m.map f).execute i = (m.execute i).map f := by
  have performed := perform_map hf m do
    Microcode.pause
    i.execute { m.cpu.core with ime := m.cpu.core.imeNext }
  rw [map] at performed
  simp only [execute, map, hf.peek, performed]
  cases m.cpu.debugger.tracing <;> rfl

theorem readInstruction_map :
    (m.map f).readInstruction = (m.readInstruction.1, m.readInstruction.2.map f) := by
  simp only [readInstruction, bus_map, pc_map, hf.read]
  rfl

/-! ### Steps -/

omit m in
/-- **Every part of a step does the same on both buses.** -/
theorem isStepMorphism_map : IsStepMorphism (map f) where
  core _ := rfl
  blocked _ := rfl
  trapped _ := rfl
  hit? _ _ := rfl
  peek m := hf.peek m.bus
  perform := perform_map hf
  pollInterrupts := pollInterrupts_map hf
  wakeFromHalt := wakeFromHalt_map
  dispatch := dispatch_map hf
  trap _ _ := rfl
  readInstruction := readInstruction_map hf
  execute := execute_map hf

/-- **A step does the same on both buses.** -/
theorem step_map : (m.map f).step = (m.step.1, m.step.2.map f) := (isStepMorphism_map hf).step m

/-- **Any number of steps do the same on both buses.** -/
theorem steps_map (count : Nat) : steps count (m.map f) =
    ((steps count m).1, (steps count m).2.map f) := by
  induction count generalizing m with
  | zero => rfl
  | succ count ih =>
    simp only [steps, step_map hf, ih]
    rfl

/-- **A driver does the same on both buses**, and gets the same reply. -/
theorem act_map (action : Action) :
    (m.map f).act action = ((m.act action).1, (m.act action).2.map f) := by
  cases action with
  | step => simp only [act, step_map hf]
  | read a =>
    simp only [act, bus_map, hf.read]
    rfl
  | write a v =>
    simp only [act, bus_map, hf.write]
    rfl
  | tick k =>
    simp only [act, bus_map, hf.tick]
    rfl
  | request i =>
    simp only [act, bus_map, Interrupt.request, hf.read, hf.write]
    rfl
  | pendingLines =>
    simp only [act, bus_map, Interrupt.pending_map hf]
    rfl
  | acceptsInterrupt =>
    simp only [act, acceptsInterrupt, cpu_map, bus_map, Interrupt.pending_map hf]
    split <;> rfl
  | interruptState =>
    simp only [act, interruptState, cpu_map, bus_map, hf.read]
    rfl
  | _ => rfl

end Machine

end GameBoy
