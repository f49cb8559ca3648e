import GameBoy.Bus.Ram
import GameBoy.Proofs.Debugger.Transparency
import GameBoy.Proofs.Interrupt.Dispatch
import GameBoy.Proofs.Session.Hold

/-!
# Suspensions exclude each other

A processor can be suspended in several ways: by a halt, by a stop, and by a debugger that holds it
at a breakpoint. No two of these are ever the case together, and while the processor is halted or
stopped no decision about interrupts is pending.

Neither can be shown to last by itself. What lasts is `GameBoy.Settled`, which also says that
interrupts are never taken now without being taken from the next instruction on. The point is that
whatever suspends a processor finds it awake: an instruction only runs, and a breakpoint is only
hit, once a halt is over, and nothing runs in a processor that is stopped or held
(`GameBoy.Settled.step`).
-/

namespace GameBoy

/-- **A core and a hold of the debugger that go together**: at most one thing suspends the
processor, and what is decided about interrupts is in force while it is suspended. -/
structure Settled (c : Core) (hold : Hold) : Prop where
  halted_stopped : c.halted = true → c.stopped = false
  halted_trapped : c.halted = true → hold ≠ .trapped
  stopped_trapped : c.stopped = true → hold ≠ .trapped
  imeNext_of_ime : c.ime = true → c.imeNext = true
  ime_eq : c.halted = true ∨ c.stopped = true → c.ime = c.imeNext

namespace Settled

/-- A core that is neither halted nor stopped goes together with any hold. -/
theorem of_awake {c : Core} {hold : Hold} (hh : c.halted = false) (hs : c.stopped = false)
    (hi : c.ime = true → c.imeNext = true) : Settled c hold where
  halted_stopped h := absurd h (by simp [hh])
  halted_trapped h := absurd h (by simp [hh])
  stopped_trapped h := absurd h (by simp [hs])
  imeNext_of_ime := hi
  ime_eq h := absurd h (by simp [hh, hs])

/-- The registers do not matter. -/
theorem congr {c c' : Core} {hold : Hold} (h : Settled c hold) (hc : Core.SameSwitches c c') :
    Settled c' hold := by
  obtain ⟨ime, imeNext, halted, stopped⟩ := hc
  constructor
  · rw [halted, stopped]
    exact h.halted_stopped
  · rw [halted]
    exact h.halted_trapped
  · rw [stopped]
    exact h.stopped_trapped
  · rw [ime, imeNext]
    exact h.imeNext_of_ime
  · rw [halted, stopped, ime, imeNext]
    exact h.ime_eq

/-- A core that is awake is settled after an instruction. What it decides about interrupts while it
suspends the processor is what was decided before. -/
theorem switched {c c' : Core} (i : Instruction) (hh : c.halted = false) (hs : c.stopped = false)
    (hi : c.ime = c.imeNext) (h : Core.SameSwitches (i.switched c) c') : Settled c' .free := by
  obtain ⟨ime, imeNext, halted, stopped⟩ := h
  cases i with
  | stop | halt =>
    constructor <;> simp [ime, imeNext, halted, stopped, Instruction.switched, hh, hs, hi]
  | disableInterrupts | enableInterrupts | retInterrupt =>
    refine of_awake (halted.trans hh) (stopped.trans hs) ?_
    simp [ime, imeNext, Instruction.switched, Core.setIme]
  | _ =>
    refine of_awake (halted.trans hh) (stopped.trans hs) ?_
    rw [ime, imeNext]
    exact fun h => hi.symm.trans h

variable {β : Type} [Bus β] {m : Machine β}

/-- **A step leaves the processor settled.** -/
theorem step (h : Settled m.cpu.core m.cpu.debugger.hold) :
    Settled m.step.2.cpu.core m.step.2.cpu.debugger.hold := by
  have stopped (ready : m.Ready) : m.alert.cpu.core.stopped = false :=
    m.stopped_alert.trans ready.stopped
  have later : m.alert.cpu.core.ime = true → m.alert.cpu.core.imeNext = true := by
    rw [m.ime_alert, m.imeNext_alert]
    exact h.imeNext_of_ime
  have hm := m.step_cases
  generalize m.step = s at hm ⊢
  cases hm with
  | blocked | stopped | held => exact h
  | halted ready hi =>
    -- nothing has woken it
    have asleep : m.alert.cpu = m.cpu := by
      rw [m.cpu_alert, hi]
      rfl
    rw [← asleep] at h
    exact h
  | interrupted i ready hi =>
    have awake := Machine.halted_alert_of_isSome (Option.isSome_iff_exists.mpr ⟨i, hi⟩)
    exact of_awake awake (stopped ready) (fun he => absurd he Bool.false_ne_true)
  | caught b ready hp => exact of_awake (Machine.halted_alert hp) (stopped ready) later
  | stalled b ready hp => exact of_awake (Machine.halted_alert hp) (stopped ready) later
  | executed ready hp =>
    have free : (m.alert.readInstruction.2.execute m.alert.readInstruction.1).cpu.debugger.hold =
        .free := by
      refine Machine.hold_execute _ _ ((Debugger.trapped_eq_false_iff _).mpr ?_)
      change m.alert.cpu.debugger.hold ≠ .trapped
      rw [m.hold_alert]
      exact (Debugger.trapped_eq_false_iff _).mp ready.trapped
    have ran := m.alert.readInstruction.2.sameSwitches_execute m.alert.readInstruction.1
    rw [free]
    refine switched _ ?_ ?_ rfl ran
    · exact Machine.halted_alert hp
    · exact stopped ready

omit [Bus β] in
/-- A direct change to the core leaves the processor settled, as long as it does not halt it. -/
theorem assign (h : Settled m.cpu.core m.cpu.debugger.hold) {x : Assignment}
    (hx : ∀ v, x ≠ .halted v) : Settled (m.cpu.core.assign x) m.cpu.debugger.hold := by
  cases x with
  | halted v => exact absurd rfl (hx v)
  | ime enabled =>
    exact
      { halted_stopped := h.halted_stopped
        halted_trapped := h.halted_trapped
        stopped_trapped := h.stopped_trapped
        imeNext_of_ime := id
        ime_eq := fun _ => rfl }
  | _ => exact h.congr ⟨rfl, rfl, rfl, rfl⟩

/-- **A driver leaves the processor settled**, as long as it does not halt it directly. -/
theorem act (h : Settled m.cpu.core m.cpu.debugger.hold) {action : Action}
    (ha : ∀ v, action ≠ .assign (.halted v)) :
    Settled (m.act action).2.cpu.core (m.act action).2.cpu.debugger.hold := by
  cases action with
  | step => exact h.step
  | reset | resetTo => exact of_awake rfl rfl (fun he => absurd he Bool.false_ne_true)
  | jump a =>
    exact
      { halted_stopped := fun he => absurd he Bool.false_ne_true
        halted_trapped := fun he => absurd he Bool.false_ne_true
        stopped_trapped := h.stopped_trapped
        imeNext_of_ime := h.imeNext_of_ime
        ime_eq := fun he => h.ime_eq (he.imp_left fun he => absurd he Bool.false_ne_true) }
  | wakeFromStop =>
    have hold : m.cpu.wakeFromStop.debugger.hold = m.cpu.debugger.hold :=
      Moment.hold_next_of_order (s := ⟨m, .wakeFromStop⟩) (by simp) (by simp)
    change Settled m.cpu.wakeFromStop.core m.cpu.wakeFromStop.debugger.hold
    rw [hold, m.cpu.core_wakeFromStop]
    exact
      { halted_stopped := fun _ => rfl
        halted_trapped := h.halted_trapped
        stopped_trapped := fun he => absurd he Bool.false_ne_true
        imeNext_of_ime := h.imeNext_of_ime
        ime_eq := fun he => h.ime_eq (he.imp_right fun he => absurd he Bool.false_ne_true) }
  | assign x =>
    refine h.assign ?_
    rintro v rfl
    exact ha v rfl
  | resume =>
    exact { h with halted_trapped := fun _ => nofun, stopped_trapped := fun _ => nofun }
  | acceptsInterrupt =>
    have same := m.cpu_acceptsInterrupt
    change Settled m.acceptsInterrupt.2.cpu.core m.acceptsInterrupt.2.cpu.debugger.hold
    rwa [same]
  | _ => exact h

/-- **A session leaves the processor settled**, as long as the driver does not halt it directly. -/
theorem session (h : Settled m.cpu.core m.cpu.debugger.hold) {actions : List Action}
    (ha : ∀ v, .assign (.halted v) ∉ actions) :
    Settled (m.session actions).2.cpu.core (m.session actions).2.cpu.debugger.hold := by
  induction actions generalizing m with
  | nil => exact h
  | cons action rest ih =>
    refine ih (h.act ?_) fun v hv => ha v (List.mem_cons_of_mem _ hv)
    rintro v rfl
    exact ha v List.mem_cons_self

end Settled

namespace Machine

open Moment

variable {β : Type} [Bus β]

/-- **Suspensions exclude each other.** In a session from the creation of a processor on, in which
the driver does not halt it directly, at most one of a halt, a stop and a trap is the case at a
time. Nor is a trap in force while leave to pass is unused, which the past of the session says as
the hold of the debugger does. Interrupts are not taken now without being taken from the next
instruction on, and while the processor is halted or stopped the one is as the other. -/
theorem settled_session (config : Config) (bus : β) (actions : List Action)
    (h : ∀ v, .assign (.halted v) ∉ actions) :
    let fresh : Machine β := ⟨.new config, bus⟩
    let past := fresh.moments actions
    let cpu := (fresh.session actions).2.cpu
    [cpu.core.halted, cpu.core.stopped, cpu.debugger.trapped].count true ≤ 1 ∧
    (cpu.debugger.trapped = true ↔ Trapped past) ∧
    (cpu.debugger.hold = .pass ↔ Resumed past) ∧
    ¬(Trapped past ∧ Resumed past) ∧
    (cpu.core.ime = true → cpu.core.imeNext = true) ∧
    (cpu.core.halted = true ∨ cpu.core.stopped = true → cpu.core.ime = cpu.core.imeNext) := by
  intro fresh past cpu
  have start : Settled fresh.cpu.core fresh.cpu.debugger.hold :=
    .of_awake rfl rfl fun he => absurd he Bool.false_ne_true
  have settled : Settled cpu.core cpu.debugger.hold := start.session h
  have tells : Tells past cpu.debugger.hold := hold_session config bus actions
  have trapped : cpu.debugger.trapped = true ↔ Trapped past :=
    (Debugger.trapped_eq_true_iff _).trans tells.trapped
  refine ⟨?_, trapped, tells.pass, ?_, settled.imeNext_of_ime, settled.ime_eq⟩
  · have atMostOne : ∀ a b c : Bool, (a = true → b = false) → (a = true → c = false) →
        (b = true → c = false) → [a, b, c].count true ≤ 1 := by decide
    refine atMostOne _ _ _ settled.halted_stopped ?_ ?_
    · exact fun he => (Debugger.trapped_eq_false_iff _).mpr (settled.halted_trapped he)
    · exact fun he => (Debugger.trapped_eq_false_iff _).mpr (settled.stopped_trapped he)
  · rintro ⟨ht, hr⟩
    rw [← tells.trapped] at ht
    rw [← tells.pass, ht] at hr
    exact absurd hr nofun

/-- Memory with a halt in it, and one interrupt enabled. -/
def restful : Ram := (Ram.zero.load 0x0100 [0x76]).load 0xFFFF [0x01]

/-- The processor halts, is woken by the interrupt, and runs into a breakpoint on the instruction
after the halt. -/
def wakingActions : List Action :=
  [.addBreakpoint ⟨.execute, 0x0101⟩, .step, .step, .request .vblank, .step]

/-- The trap takes the place of the halt. -/
theorem settled_session_waking :
    (∀ v, .assign (.halted v) ∉ wakingActions) ∧
      ((⟨.new .standard, restful⟩ : Machine Ram).session wakingActions).1 =
        [.truth true, .outcome .executed, .outcome .halted, .done, .outcome .trapped] ∧
      ((⟨.new .standard, restful⟩ : Machine Ram).session wakingActions).2.cpu.core.halted = false ∧
      Trapped ((⟨.new .standard, restful⟩ : Machine Ram).moments wakingActions) ∧
      ¬Resumed ((⟨.new .standard, restful⟩ : Machine Ram).moments wakingActions) := by
  have h : ∀ v, .assign (.halted v) ∉ wakingActions := by simp [wakingActions]
  obtain ⟨replies, trapped⟩ : ((⟨.new .standard, restful⟩ : Machine Ram).session wakingActions).1 =
        [.truth true, .outcome .executed, .outcome .halted, .done, .outcome .trapped] ∧
      ((⟨.new .standard, restful⟩ : Machine Ram).session wakingActions).2.cpu.debugger.trapped =
        true := by decide +kernel
  obtain ⟨atMostOne, held, -, exclusive, -⟩ := settled_session .standard restful wakingActions h
  have past := held.mp trapped
  refine ⟨h, replies, ?_, past, fun passed => exclusive ⟨past, passed⟩⟩
  by_contra halted
  rw [trapped, Bool.eq_true_of_not_eq_false halted] at atMostOne
  have tooMany : ∀ stopped : Bool, ¬[true, stopped, true].count true ≤ 1 := by decide
  exact tooMany _ atMostOne

end Machine

end GameBoy
