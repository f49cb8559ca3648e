import GameBoy.Proofs.Step.Switches
import GameBoy.Session

/-!
# The moments of a session

A session is told moment by moment: at each moment the machine stands as it does, and the driver
does one thing to it. `GameBoy.Machine.moments` is the list of all moments of a session, so that a
statement about the past of a machine is a statement about a list.

* `GameBoy.Moment.outcome?`, `GameBoy.Moment.Runs` – what happens at a moment;
* `GameBoy.Machine.moments_concat` – one more thing done is one more moment;
* `GameBoy.Machine.exists_of_moments_eq` – a moment in the middle of a session is the end of a
  shorter session and the beginning of another.
-/

namespace GameBoy

variable {β : Type}

/-- **One moment of a session**: the machine as it stands, and what the driver does to it. -/
structure Moment (β : Type) where
  machine : Machine β
  action : Action

/-! ### Orders that take a look first -/

/-- Waking a stopped processor ends the stop, and so does nothing to one that is not stopped. -/
theorem Cpu.core_wakeFromStop (cpu : Cpu) :
    cpu.wakeFromStop.core = { cpu.core with stopped := false } := by
  rw [wakeFromStop]
  cases hs : cpu.core.stopped with
  | true => rfl
  | false =>
    rw [if_neg Bool.false_ne_true, ← hs]

variable [Bus β]

/-- Asking whether a halted processor would wake leaves the processor as it is. -/
theorem Machine.cpu_acceptsInterrupt (m : Machine β) : m.acceptsInterrupt.2.cpu = m.cpu := by
  rw [acceptsInterrupt]
  split <;> rfl

/-! ### Moments -/

namespace Moment

/-- The outcome of the step made at this moment, if the driver lets the machine make one. -/
def outcome? (s : Moment β) : Option StepOutcome :=
  if s.action = .step then some s.machine.step.1 else none

/-- **An instruction runs at this moment.** -/
def Runs (s : Moment β) (i : Instruction) : Prop :=
  s.outcome? = some .executed ∧ s.machine.fetched = i

instance (s : Moment β) (i : Instruction) : Decidable (s.Runs i) :=
  inferInstanceAs (Decidable (_ ∧ _))

/-- The machine after this moment. -/
def next (s : Moment β) : Machine β := (s.machine.act s.action).2

/-- The outcome of a step. -/
theorem outcome?_step (m : Machine β) : (⟨m, .step⟩ : Moment β).outcome? = some m.step.1 :=
  if_pos rfl

/-- Whatever else the driver does, no step is made. -/
theorem outcome?_of_ne {s : Moment β} (h : s.action ≠ .step) : s.outcome? = none := if_neg h

/-- Where there is an outcome there is a step. -/
theorem eq_of_outcome? {s : Moment β} {o : StepOutcome} (h : s.outcome? = some o) :
    s.action = .step ∧ s.machine.step.1 = o := by
  by_cases hs : s.action = .step
  · rw [outcome?, if_pos hs] at h
    exact ⟨hs, Option.some.inj h⟩
  · rw [outcome?_of_ne hs] at h
    exact absurd h (by simp)

/-- Only one instruction runs at a time. -/
theorem Runs.unique {s : Moment β} {i j : Instruction} (hi : s.Runs i) (hj : s.Runs j) : i = j :=
  hi.2.symm.trans hj.2

end Moment

namespace Machine

/-- **The moments of a session**, in order. -/
def moments (m : Machine β) : List Action → List (Moment β)
  | [] => []
  | action :: rest => ⟨m, action⟩ :: (m.act action).2.moments rest

/-- There is a reply to each thing done. -/
theorem length_session (m : Machine β) (actions : List Action) :
    (m.session actions).1.length = actions.length := by
  induction actions generalizing m with
  | nil => rfl
  | cons first rest ih => exact congrArg (· + 1) (ih (m.act first).2)

/-- One thing done after a session. -/
theorem session_concat (m : Machine β) (actions : List Action) (action : Action) :
    (m.session (actions ++ [action])).2 = ((m.session actions).2.act action).2 := by
  induction actions generalizing m with
  | nil => rfl
  | cons first rest ih => exact ih (m.act first).2

/-- A session that goes on after another one. -/
theorem session_append (m : Machine β) (earlier later : List Action) :
    m.session (earlier ++ later) =
      ((m.session earlier).1 ++ ((m.session earlier).2.session later).1,
        ((m.session earlier).2.session later).2) := by
  induction earlier generalizing m with
  | nil => rfl
  | cons first rest ih => simp only [List.cons_append, session, ih]

/-- **One more thing done is one more moment.** -/
theorem moments_concat (m : Machine β) (actions : List Action) (action : Action) :
    m.moments (actions ++ [action]) = m.moments actions ++ [⟨(m.session actions).2, action⟩] := by
  induction actions generalizing m with
  | nil => rfl
  | cons first rest ih => exact congrArg (_ :: ·) (ih (m.act first).2)

/-- **A moment of a session** comes after a shorter session, and the rest of the session goes on
from the machine after it. -/
theorem exists_of_moments_eq {m : Machine β} {actions : List Action} {before after : List (Moment β)}
    {s : Moment β} (h : m.moments actions = before ++ s :: after) :
    ∃ earlier later, actions = earlier ++ s.action :: later ∧ before = m.moments earlier ∧
      s.machine = (m.session earlier).2 ∧ after = s.next.moments later := by
  induction before generalizing m actions with
  | nil =>
    cases actions with
    | nil => simp [moments] at h
    | cons first rest =>
      obtain ⟨rfl, rfl⟩ := List.cons.inj h
      exact ⟨[], rest, rfl, rfl, rfl, rfl⟩
  | cons t before ih =>
    cases actions with
    | nil => simp [moments] at h
    | cons first rest =>
      obtain ⟨rfl, hrest⟩ := List.cons.inj h
      obtain ⟨earlier, later, rfl, rfl, hm, hl⟩ := ih hrest
      exact ⟨first :: earlier, later, rfl, rfl, hm, hl⟩

end Machine

end GameBoy
