import GameBoy.Proofs.Debugger.Hold
import GameBoy.Proofs.Session.Moments
import GameBoy.Proofs.Step.Switches
import Mathlib.Data.List.DropRight

/-!
# The hold of the debugger and the past

What the hold of the debugger on the processor comes to in terms of the past of a session. A trap is
in force if a step has been trapped since the driver last resumed (`GameBoy.Moment.Trapped`). Leave
to pass has not been used if the driver has resumed since the processor last made progress, which is
to say since an instruction last ran or an interrupt was last dispatched (`GameBoy.Moment.Resumed`).
Idle cycles in between do not count, nor does anything else that the driver does.

The hold has one value at a time, so the two can never be the case together. The reason is that a
step made with leave to pass is never trapped (`GameBoy.Machine.hold_ne_pass_of_trapped`): without
it, `GameBoy.Machine.hold_session` could not be proved.
-/

namespace GameBoy

variable {β : Type} [Bus β]

/-- **A step made with leave to pass is not trapped.** -/
theorem Machine.hold_ne_pass_of_trapped {m : Machine β} (h : m.step.1 = .trapped) :
    m.cpu.debugger.hold ≠ .pass := by
  intro pass
  have untrapped : m.cpu.debugger.trapped = false := by
    rw [Debugger.trapped_eq_false_iff, pass]
    simp
  exact m.step_fst_ne_trapped untrapped (fun _ => Debugger.hit?_eq_none_iff.mpr (.inl pass)) h

/-- **A step of a processor that is held makes no progress.** -/
theorem Machine.waits_of_trapped {m : Machine β} (h : m.cpu.debugger.hold = .trapped) :
    m.step.1.waits = true := by
  have hm := m.step_cases
  have held := (Debugger.trapped_eq_true_iff _).mpr h
  generalize m.step = s at hm ⊢
  cases hm with
  | interrupted i ready => exact absurd held (by simp [ready.trapped])
  | executed ready => exact absurd held (by simp [ready.trapped])
  | _ => rfl

namespace Moment

/-! ### What has happened since -/

/-- **The moments since something last happened.** -/
def since (happens : Moment β → Bool) (moments : List (Moment β)) : List (Moment β) :=
  moments.rtakeWhile fun s => !happens s

omit [Bus β] in
/-- **One moment more**: if it happens now, nothing has happened since. -/
theorem exists_mem_since_concat {happens : Moment β → Bool} {P : Moment β → Prop}
    {moments : List (Moment β)} {s : Moment β} :
    (∃ t ∈ since happens (moments ++ [s]), P t) ↔
      happens s = false ∧ ((∃ t ∈ since happens moments, P t) ∨ P s) := by
  cases h : happens s with
  | true =>
    rw [since, List.rtakeWhile_concat_neg _ _ _ (by simp [h])]
    simp
  | false =>
    rw [since, List.rtakeWhile_concat_pos _ _ _ (by simp [h])]
    simp only [List.mem_append, List.mem_singleton, true_and]
    constructor
    · rintro ⟨t, ht | rfl, hp⟩
      · exact .inl ⟨t, ht, hp⟩
      · exact .inr hp
    · rintro (⟨t, ht, hp⟩ | hp)
      · exact ⟨t, .inl ht, hp⟩
      · exact ⟨s, .inr rfl, hp⟩

/-- **The processor makes progress** at this moment: an instruction runs or an interrupt is
dispatched. -/
def progresses (s : Moment β) : Bool :=
  match s.outcome? with
  | some o => !o.waits
  | none => false

/-- The driver resumes at this moment. -/
def resumes (s : Moment β) : Bool := decide (s.action = .resume)

/-- **A step has been trapped** since the driver last resumed. -/
def Trapped (past : List (Moment β)) : Prop :=
  ∃ s ∈ since resumes past, s.outcome? = some .trapped

/-- **The driver has resumed** since the processor last made progress. -/
def Resumed (past : List (Moment β)) : Prop := ∃ s ∈ since progresses past, s.action = .resume

variable {past : List (Moment β)} {s : Moment β}

theorem trapped_concat :
    Trapped (past ++ [s]) ↔
      s.action ≠ .resume ∧ (Trapped past ∨ s.outcome? = some .trapped) := by
  rw [Trapped, exists_mem_since_concat, resumes, decide_eq_false_iff_not]
  rfl

theorem resumed_concat :
    Resumed (past ++ [s]) ↔ s.progresses = false ∧ (Resumed past ∨ s.action = .resume) :=
  exists_mem_since_concat

/-! ### The hold and the past -/

/-- **What the past says about the hold.** -/
structure Tells (past : List (Moment β)) (hold : Hold) : Prop where
  trapped : hold = .trapped ↔ Trapped past
  pass : hold = .pass ↔ Resumed past

/-- An order of the driver does not touch the hold, except for the order to resume. -/
theorem hold_next_of_order {s : Moment β} (hs : s.action ≠ .step) (hr : s.action ≠ .resume) :
    s.next.cpu.debugger.hold = s.machine.cpu.debugger.hold := by
  obtain ⟨m, action⟩ := s
  cases action with
  | step => exact absurd rfl hs
  | resume => exact absurd rfl hr
  | wakeFromStop =>
    change m.cpu.wakeFromStop.debugger.hold = m.cpu.debugger.hold
    rw [Cpu.wakeFromStop]
    split
    · exact Debugger.hold_event _ _ _
    · rfl
  | acceptsInterrupt => exact congrArg (·.debugger.hold) m.cpu_acceptsInterrupt
  | _ => rfl

/-- A step goes on telling about the hold. -/
theorem Tells.step {m : Machine β} (h : Tells past m.cpu.debugger.hold) :
    Tells (past ++ [⟨m, .step⟩]) m.step.2.cpu.debugger.hold := by
  have held : Trapped past → m.step.1.waits = true := fun ht =>
    m.waits_of_trapped (h.trapped.mpr ht)
  have passing : m.step.1 = .trapped → ¬Resumed past := fun ho hr =>
    m.hold_ne_pass_of_trapped ho (h.pass.mpr hr)
  constructor
  · rw [m.hold_step, trapped_concat, outcome?_step]
    cases ho : m.step.1 with
    | executed | interrupted =>
      have untrapped : ¬Trapped past := fun ht => by simpa [ho, StepOutcome.waits] using held ht
      simp [untrapped]
    | trapped => simp
    | halted | stopped | blocked => simp [h.trapped]
  · rw [m.hold_step, resumed_concat, progresses, outcome?_step]
    cases ho : m.step.1 with
    | executed | interrupted => simp [StepOutcome.waits]
    | trapped => simp [StepOutcome.waits, passing ho]
    | halted | stopped | blocked => simp [StepOutcome.waits, h.pass]

/-- **The past goes on telling about the hold** as one moment is added to it. -/
theorem Tells.next (h : Tells past s.machine.cpu.debugger.hold) :
    Tells (past ++ [s]) s.next.cpu.debugger.hold := by
  obtain ⟨m, action⟩ := s
  by_cases hs : action = .step
  · subst hs
    exact h.step
  by_cases hr : action = .resume
  · subst hr
    constructor
    · rw [trapped_concat]
      simp [next, Machine.act, Machine.control, Machine.withCpu, Cpu.withDebugger, Debugger.resume]
    · rw [resumed_concat, progresses, outcome?_of_ne hs]
      simp [next, Machine.act, Machine.control, Machine.withCpu, Cpu.withDebugger, Debugger.resume]
  · rw [hold_next_of_order hs hr]
    constructor
    · rw [trapped_concat, outcome?_of_ne hs]
      simp [hr, h.trapped]
    · rw [resumed_concat, progresses, outcome?_of_ne hs]
      simp [hr, h.pass]

end Moment

namespace Machine

open Moment

/-- **The past tells about the hold**, however long the session is. -/
theorem hold_session (config : Config) (bus : β) (actions : List Action) :
    let fresh : Machine β := ⟨.new config, bus⟩
    Tells (fresh.moments actions) (fresh.session actions).2.cpu.debugger.hold := by
  intro fresh
  induction actions using List.reverseRecOn with
  | nil =>
    constructor
    · change Hold.free = .trapped ↔ Trapped []
      simp [Trapped, since]
    · change Hold.free = .pass ↔ Resumed []
      simp [Resumed, since]
  | append_singleton actions action ih =>
    rw [moments_concat, session_concat]
    exact Tells.next (s := ⟨(fresh.session actions).2, action⟩) ih

end Machine

end GameBoy
