import GameBoy.Proofs.Step.Cases

/-!
# The hold of the debugger over a step

What the orders to the debugger and the steps of the machine do to the hold of the debugger on the
processor. Recording in the trace never touches it, nor the breakpoints.

Over a step the hold depends on the outcome alone (`GameBoy.Machine.hold_step`): a trapped step
leaves the processor held, an instruction or the dispatch of an interrupt leaves it free, and an
idle cycle leaves the hold as it was, so that leave to pass a breakpoint waits for an instruction to
use it. No step touches the breakpoints (`GameBoy.Machine.breakpoints_step`), and a machine is
trapped only if it was held before or something can stop it (`GameBoy.Machine.step_fst_ne_trapped`).
-/

namespace GameBoy

namespace Debugger

variable (d : Debugger)

/-! ### Recording -/

@[simp] theorem hold_record (e : TraceEntry) : (d.record e).hold = d.hold := by
  rw [record]
  split <;> rfl

@[simp] theorem breakpoints_record (e : TraceEntry) :
    (d.record e).breakpoints = d.breakpoints := by
  rw [record]
  split <;> rfl

@[simp] theorem hold_event (address : UInt16) (text : String) :
    (d.event address text).hold = d.hold :=
  d.hold_record _

@[simp] theorem breakpoints_event (address : UInt16) (text : String) :
    (d.event address text).breakpoints = d.breakpoints :=
  d.breakpoints_record _

/-! ### Holding -/

@[simp] theorem breakpoints_trap (b : Breakpoint) : (d.trap b).breakpoints = d.breakpoints := by
  rw [trap, breakpoints_event]

@[simp] theorem hold_trap (b : Breakpoint) : (d.trap b).hold = .trapped := by
  rw [trap, hold_event]

theorem trapped_eq_true_iff : d.trapped = true ↔ d.hold = .trapped := beq_iff_eq

theorem trapped_eq_false_iff : d.trapped = false ↔ d.hold ≠ .trapped := by
  rw [← Bool.not_eq_true, trapped_eq_true_iff]

/-- Once leave has been used up, a processor that is not held is free. -/
theorem hold_spendPass (h : d.trapped = false) : d.spendPass.hold = .free := by
  rw [trapped_eq_false_iff] at h
  rw [spendPass]
  rcases hd : d.hold with _ | _ | _ <;> simp_all

/-- The hold that is left when leave has been used up follows from the hold there was. -/
theorem hold_spendPass_congr {d e : Debugger} (h : d.hold = e.hold) :
    d.spendPass.hold = e.spendPass.hold := by
  rw [spendPass, spendPass, h]
  split
  · rfl
  · exact h

@[simp] theorem breakpoints_spendPass : d.spendPass.breakpoints = d.breakpoints := by
  rw [spendPass]
  split <;> rfl

/-- **No breakpoint stops an instruction** that has leave to pass, or that touches no place with a
breakpoint. -/
theorem hit?_eq_none_iff {d : Debugger} {places : List Breakpoint} :
    d.hit? places = none ↔ d.hold = .pass ∨ ∀ b ∈ places, b ∉ d.breakpoints := by
  rw [hit?]
  split
  · rename_i h
    simp [h]
  · rename_i h
    simp [h]

/-- An instruction that is stopped had no leave to pass. -/
theorem hold_ne_pass_of_hit? {d : Debugger} {places : List Breakpoint} {b : Breakpoint}
    (h : d.hit? places = some b) : d.hold ≠ .pass := by
  intro pass
  rw [hit?, if_pos pass] at h
  exact absurd h (by simp)

/-- A breakpoint that stops an instruction waits at a place that the instruction touches. -/
theorem mem_of_hit? {d : Debugger} {places : List Breakpoint} {b : Breakpoint}
    (h : d.hit? places = some b) : b ∈ places ∧ b ∈ d.breakpoints := by
  rw [hit?, if_neg (hold_ne_pass_of_hit? h)] at h
  have waits := List.find?_some h
  exact ⟨List.mem_of_find?_eq_some h, of_decide_eq_true waits⟩

/-- What can stop an instruction depends on the hold and on the breakpoints only. -/
theorem hit?_congr {d e : Debugger} (hold : d.hold = e.hold) (hb : d.breakpoints = e.breakpoints)
    (places : List Breakpoint) : d.hit? places = e.hit? places := by
  rw [hit?, hit?, hold, hb]

end Debugger

namespace Machine

variable {β : Type} [Bus β]

@[simp] theorem hold_alert (m : Machine β) :
    m.alert.cpu.debugger.hold = m.cpu.debugger.hold := by
  rw [cpu_alert]
  split
  · exact Debugger.hold_event _ _ _
  · rfl

@[simp] theorem breakpoints_alert (m : Machine β) :
    m.alert.cpu.debugger.breakpoints = m.cpu.debugger.breakpoints := by
  rw [cpu_alert]
  split
  · exact Debugger.breakpoints_event _ _ _
  · rfl

/-- Looking for interrupts changes nothing about what can stop an instruction. -/
theorem hit?_alert (m : Machine β) (places : List Breakpoint) :
    m.alert.cpu.debugger.hit? places = m.cpu.debugger.hit? places :=
  Debugger.hit?_congr (hold_alert m) (breakpoints_alert m) places

@[simp] theorem fetchBreakpoint?_alert (m : Machine β) :
    m.alert.fetchBreakpoint? = m.fetchBreakpoint? := by
  rw [fetchBreakpoint?, fetchBreakpoint?, hit?_alert, pc_alert]

/-- What an instruction that runs tells the debugger: leave is used up, and there may be an entry
for the trace. -/
theorem debugger_execute (m : Machine β) (i : Instruction) :
    (m.execute i).cpu.debugger = m.cpu.debugger.spendPass ∨
      ∃ e, (m.execute i).cpu.debugger = m.cpu.debugger.spendPass.record e := by
  rw [execute]
  cases m.cpu.debugger.tracing
  · exact .inl rfl
  · exact .inr ⟨_, rfl⟩

/-- An instruction that runs uses up leave, and does not touch the hold otherwise. -/
theorem hold_execute_eq (m : Machine β) (i : Instruction) :
    (m.execute i).cpu.debugger.hold = m.cpu.debugger.spendPass.hold := by
  rcases m.debugger_execute i with he | ⟨e, he⟩
  · rw [he]
  · rw [he, Debugger.hold_record]

/-- An instruction that runs leaves the processor free. -/
theorem hold_execute (m : Machine β) (i : Instruction) (h : m.cpu.debugger.trapped = false) :
    (m.execute i).cpu.debugger.hold = .free := by
  rw [hold_execute_eq, Debugger.hold_spendPass _ h]

/-- The dispatch of an interrupt leaves the processor free. -/
theorem hold_dispatch (m : Machine β) (i : Interrupt) (h : m.cpu.debugger.trapped = false) :
    (m.dispatch i).cpu.debugger.hold = .free := by
  refine Debugger.hold_spendPass _ ?_
  rw [Debugger.trapped_eq_false_iff, Debugger.hold_event]
  exact (Debugger.trapped_eq_false_iff _).mp h

/-- **The hold after a step** follows from what it was and from the outcome. -/
theorem hold_step (m : Machine β) :
    m.step.2.cpu.debugger.hold =
      match m.step.1 with
      | .executed | .interrupted _ => .free
      | .trapped => .trapped
      | .halted | .stopped | .blocked => m.cpu.debugger.hold := by
  have untrapped (ready : m.Ready) : m.alert.cpu.debugger.trapped = false := by
    rw [Debugger.trapped_eq_false_iff, hold_alert]
    exact (Debugger.trapped_eq_false_iff _).mp ready.trapped
  have h := m.step_cases
  generalize m.step = s at h ⊢
  cases h with
  | blocked | stopped => rfl
  | held _ _ ht => exact (Debugger.trapped_eq_true_iff _).mp ht
  | halted => exact hold_alert m
  | interrupted i ready => exact hold_dispatch _ i (untrapped ready)
  | caught b | stalled b => exact Debugger.hold_trap _ b
  | executed ready => exact hold_execute _ _ (untrapped ready)

@[simp] theorem breakpoints_execute (m : Machine β) (i : Instruction) :
    (m.execute i).cpu.debugger.breakpoints = m.cpu.debugger.breakpoints := by
  rcases m.debugger_execute i with he | ⟨e, he⟩
  · rw [he, Debugger.breakpoints_spendPass]
  · rw [he, Debugger.breakpoints_record, Debugger.breakpoints_spendPass]

@[simp] theorem breakpoints_dispatch (m : Machine β) (i : Interrupt) :
    (m.dispatch i).cpu.debugger.breakpoints = m.cpu.debugger.breakpoints :=
  (Debugger.breakpoints_spendPass _).trans (Debugger.breakpoints_event _ _ _)

/-- **No step touches the breakpoints.** -/
theorem breakpoints_step (m : Machine β) :
    m.step.2.cpu.debugger.breakpoints = m.cpu.debugger.breakpoints := by
  have h := m.step_cases
  generalize m.step = s at h ⊢
  cases h with
  | blocked | stopped | held => rfl
  | halted => exact breakpoints_alert m
  | interrupted i => exact (breakpoints_dispatch _ i).trans (breakpoints_alert m)
  | caught b | stalled b => exact (Debugger.breakpoints_trap _ b).trans (breakpoints_alert m)
  | executed => exact (breakpoints_execute _ _).trans (breakpoints_alert m)

/-- **A step is not trapped** if the processor is not held and nothing can stop it. -/
theorem step_fst_ne_trapped (m : Machine β) (ht : m.cpu.debugger.trapped = false)
    (h : ∀ places, m.cpu.debugger.hit? places = none) : m.step.1 ≠ .trapped := by
  have hm := m.step_cases
  generalize m.step = s at hm ⊢
  cases hm with
  | held _ _ held => simp [ht] at held
  | caught b _ _ hb => simp [fetchBreakpoint?, hit?_alert, h] at hb
  | stalled b _ _ _ hb =>
    change m.alert.cpu.debugger.hit? _ = some b at hb
    simp [hit?_alert, h] at hb
  | _ => simp

end Machine

end GameBoy
