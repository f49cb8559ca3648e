import GameBoy.Proofs.Step.Cases
import GameBoy.Session

/-!
# What every use of a bus keeps

A machine gets at its bus in three ways only: it reads a byte, it stores one, and it lets time pass.
So a property of the bus that these three keep (`GameBoy.BusInvariant`) is kept by microcode
(`GameBoy.BusInvariant.run`), by a step (`GameBoy.BusInvariant.step`) and by whatever a driver does
(`GameBoy.BusInvariant.act`).
-/

namespace GameBoy

variable {β : Type} [Bus β]

/-- **A property of a bus that is kept by all that can be done to it.** -/
structure BusInvariant (P : β → Prop) : Prop where
  read {bus : β} (h : P bus) (a : UInt16) : P (Bus.read bus a).2
  write {bus : β} (h : P bus) (a : UInt16) (v : UInt8) : P (Bus.write bus a v)
  tick {bus : β} (h : P bus) (k : Nat) : P (Bus.tick bus k)

/-- Looking at the lines only reads. -/
theorem Interrupt.pending_of_read {P : β → Prop} (hr : ∀ bus a, P bus → P (Bus.read bus a).2)
    {bus : β} (h : P bus) : P (pending bus).2 :=
  hr _ _ (hr _ _ h)

/-- Looking for interrupts only reads. -/
theorem Machine.bus_alert_of_read {P : β → Prop} (hr : ∀ bus a, P bus → P (Bus.read bus a).2)
    {m : Machine β} (h : P m.bus) : P m.alert.bus := by
  have polled : P m.pollInterrupts.2.bus := by
    rw [pollInterrupts]
    split
    · exact Interrupt.pending_of_read hr h
    · exact h
  rw [alert]
  split
  · rwa [bus_wakeFromHalt]
  · exact polled

namespace BusInvariant

variable {P : β → Prop} (hP : BusInvariant P)

include hP

/-- Microcode keeps it. -/
theorem run {α : Type} (code : Microcode α) {bus : β} (h : P bus) : P (code.run bus).bus := by
  induction code generalizing bus with
  | done result => exact h
  | idle next ih => exact ih (hP.tick h _)
  | read a next ih => exact ih _ (hP.tick (hP.read h a) _)
  | write a v next ih => exact ih (hP.tick (hP.write h a v) _)

variable {m : Machine β}

/-- Looking for interrupts keeps it. -/
theorem alert (h : P m.bus) : P m.alert.bus :=
  Machine.bus_alert_of_read (P := P) (fun _ a hb => hP.read hb a) h

/-- The dispatch of an interrupt keeps it. -/
theorem dispatch (h : P m.bus) (i : Interrupt) : P (m.dispatch i).bus :=
  hP.run _ (hP.write (hP.read h _) _ _)

/-- An instruction that runs keeps it. -/
theorem execute (h : P m.bus) (i : Instruction) : P (m.execute i).bus := by
  rw [Machine.execute]
  cases m.cpu.debugger.tracing <;> exact hP.run _ h

/-- **A step keeps it.** -/
theorem step (h : P m.bus) : P m.step.2.bus := by
  have hm := m.step_cases
  generalize m.step = s at hm ⊢
  cases hm with
  | blocked | stopped => exact hP.tick h _
  | held => exact h
  | halted => exact hP.tick (hP.alert h) _
  | interrupted i => exact hP.dispatch (hP.alert h) i
  | caught => exact hP.alert h
  | stalled => exact hP.read (hP.alert h) _
  | executed => exact hP.execute (hP.read (hP.alert h) _) _

/-- **A driver keeps it**, whatever it does. -/
theorem act (h : P m.bus) (action : Action) : P (m.act action).2.bus := by
  cases action with
  | step => exact hP.step h
  | read a => exact hP.read h a
  | write a v => exact hP.write h a v
  | tick k => exact hP.tick h k
  | request i => exact hP.write (hP.read h _) _ _
  | pendingLines | interruptState => exact hP.read (hP.read h _) _
  | acceptsInterrupt =>
    change P m.acceptsInterrupt.2.bus
    rw [Machine.acceptsInterrupt]
    split
    · exact h
    · exact hP.read (hP.read h _) _
  | _ => exact h

end BusInvariant

end GameBoy
