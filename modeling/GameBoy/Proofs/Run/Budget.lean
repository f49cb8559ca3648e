import GameBoy.Proofs.Run.Steps
import GameBoy.Proofs.Step.Code

/-!
# Running on a budget of clock cycles

How far `GameBoy.Machine.runFor` goes. It is over after the least number of steps after which the
budget is used up, or the last of which was trapped (`GameBoy.Machine.IsOver`). A step that is not
trapped takes one to six machine cycles (`GameBoy.Machine.exists_clock_step`). The lower bound is
why there are only so many steps in any budget, and the upper bound is why a budget is never
overdrawn by as much as six machine cycles. A step that is trapped takes no time, so a run that ends
in one has not used its budget up (`GameBoy.Machine.isLeast_runFor`).
-/

namespace GameBoy.Machine

variable {β : Type} [Bus β] {m : Machine β} {target : Clock}

/-! ### The time that steps take -/

/-- **A step takes at most six machine cycles**, and none only if it is trapped. -/
theorem exists_clock_step (m : Machine β) :
    ∃ count, m.step.2.cpu.clock.cycles = m.cpu.clock.cycles + 4 * count ∧
      (count = 0 ↔ m.step.1 = .trapped) ∧ count ≤ 6 := by
  obtain ⟨calls, htraffic, hsends⟩ := m.recorded.sends_step
  obtain ⟨count, hticks, zero, bound⟩ := htraffic.ticks_eq
  have before : m.recorded.cpu = m.cpu := rfl
  have clock := hsends.clock
  rw [cpu_step_recorded, before, hticks, List.sum_replicate_nat, Nat.mul_comm] at clock
  rw [step_fst_recorded] at zero
  exact ⟨count, clock, zero, bound⟩

/-- **Steps of which none is trapped** take a machine cycle each, at least. -/
theorem exists_clock_afterSteps {count : Nat}
    (h : ∀ k < count, (m.afterSteps k).step.1 ≠ .trapped) :
    ∃ cycles, count ≤ cycles ∧
      (m.afterSteps count).cpu.clock.cycles = m.cpu.clock.cycles + 4 * cycles := by
  induction count with
  | zero => exact ⟨0, Nat.le_refl 0, rfl⟩
  | succ count ih =>
    obtain ⟨before, hcount, clock⟩ := ih fun k hk => h k (by omega)
    obtain ⟨last, hlast, zero, -⟩ := (m.afterSteps count).exists_clock_step
    have untrapped := h count (by omega)
    rw [← not_iff_not] at zero
    have pos := zero.mpr untrapped
    refine ⟨before + last, by omega, ?_⟩
    rw [afterSteps_concat, hlast, clock]
    omega

/-! ### The end of a run -/

/-- **A run is over** after a number of steps: a point in time has been reached, or the last of the
steps was trapped. -/
def IsOver (m : Machine β) (target : Clock) (count : Nat) : Prop :=
  target.cycles ≤ (m.afterSteps count).cpu.clock.cycles ∨ m.lastOutcome? count = some .trapped

/-- **After a step that is not trapped** the run goes on as from there. -/
theorem isOver_succ (h : m.step.1 ≠ .trapped) (count : Nat) :
    m.IsOver target (count + 1) ↔ m.step.2.IsOver target count := by
  have last : m.lastOutcome? (count + 1) = some .trapped ↔
      m.step.2.lastOutcome? count = some .trapped := by
    rw [lastOutcome?_succ]
    cases count with
    | zero => simpa using h
    | succ count => rw [lastOutcome?_succ, afterSteps_succ]
  rw [IsOver, IsOver, afterSteps_succ, last]

/-- **A run to a point in time** makes no more steps than it has to. -/
theorem exists_isLeast_runUntil (target : Clock) (m : Machine β) :
    ∃ count, IsLeast {k | m.IsOver target k} count ∧ m.runUntil target = m.afterSteps count := by
  have goesOn {m : Machine β} (early : m.cpu.clock < target) : ¬m.IsOver target 0 := by
    rintro (late | trapped)
    · exact Nat.not_le_of_lt early late
    · simp at trapped
  fun_induction runUntil target m with
  | case1 m early next step =>
    refine ⟨1, isLeast_succ (goesOn early) (isLeast_zero (.inr ?_)), ?_⟩
    · rw [lastOutcome?_succ, afterSteps_zero, step]
    · rw [afterSteps_succ, step, afterSteps_zero]
  | case2 m early outcome next step untrapped ih =>
    obtain ⟨count, least, last⟩ := ih
    have outcome : m.step.1 ≠ .trapped := by rwa [step]
    refine ⟨count + 1, isLeast_succ (goesOn early) ?_, ?_⟩
    · simp only [isOver_succ outcome, step]
      exact least
    · rw [afterSteps_succ, step, last]
  | case3 m late => exact ⟨0, isLeast_zero (.inl (Nat.le_of_not_lt late)), rfl⟩

/-- **The clock at the end of a run** that makes a step: it was early before the last one, and there
were as many machine cycles as steps before, at least. -/
theorem exists_clock_of_isLeast {count : Nat}
    (h : IsLeast {k | m.IsOver target k} (count + 1)) :
    ∃ before last, count ≤ before ∧ m.cpu.clock.cycles + 4 * before < target.cycles ∧
      (m.afterSteps (count + 1)).cpu.clock.cycles = m.cpu.clock.cycles + 4 * before + 4 * last ∧
      (last = 0 ↔ m.lastOutcome? (count + 1) = some .trapped) ∧ last ≤ 6 := by
  have early (k : Nat) (hk : k ≤ count) : ¬m.IsOver target k := fun hk' => by
    have := h.2 hk'
    omega
  have untrapped (k : Nat) (hk : k < count) : (m.afterSteps k).step.1 ≠ .trapped := by
    intro trapped
    refine early (k + 1) hk (.inr ?_)
    rw [lastOutcome?_succ, trapped]
  obtain ⟨before, hcount, clock⟩ := exists_clock_afterSteps untrapped
  obtain ⟨last, hlast, zero, bound⟩ := (m.afterSteps count).exists_clock_step
  have room : (m.afterSteps count).cpu.clock.cycles < target.cycles :=
    Nat.lt_of_not_le fun late => early count (Nat.le_refl count) (.inl late)
  refine ⟨before, last, hcount, ?_, ?_, ?_, bound⟩
  · rwa [clock] at room
  · rw [afterSteps_concat, hlast, clock]
  · rw [zero, lastOutcome?_succ, Option.some_inj]

/-- **The time that a run takes** and the number of its steps, for a budget of clock cycles. -/
theorem exists_spent_of_isLeast {cycles count : Nat}
    (h : IsLeast {k | m.IsOver (m.cpu.clock.advance cycles) k} count) :
    ∃ total, 4 * count < cycles + 4 ∧
      (m.afterSteps count).cpu.clock.cycles = m.cpu.clock.cycles + 4 * total ∧
      (4 * total < cycles ↔ m.lastOutcome? count = some .trapped) ∧
      (m.lastOutcome? count ≠ some .trapped → cycles ≤ 4 * total ∧ 4 * total < cycles + 24) ∧
      (cycles = 0 → total = 0 ∧ count = 0) := by
  have ended : m.cpu.clock.cycles + cycles ≤ (m.afterSteps count).cpu.clock.cycles ∨
      m.lastOutcome? count = some .trapped := h.1
  cases count with
  | zero =>
    -- no step has been trapped, so there is no budget to begin with
    have none : m.lastOutcome? 0 ≠ some .trapped := by simp
    have budget : cycles = 0 := by
      have reached := ended.resolve_right none
      rw [afterSteps_zero] at reached
      omega
    exact ⟨0, by omega, rfl, by simp [budget], by omega, by omega⟩
  | succ count =>
    obtain ⟨before, last, hcount, early, clock, zero, bound⟩ := exists_clock_of_isLeast h
    change m.cpu.clock.cycles + 4 * before < m.cpu.clock.cycles + cycles at early
    rw [ne_eq, ← zero]
    rw [← zero] at ended
    exact ⟨before + last, by omega, by omega, by omega, by omega, by omega⟩

/-- **A run on a budget of clock cycles.** Every step that is not trapped takes one to six machine
cycles. So the run comes to an end: it makes the least number of steps after which the budget is
used up or the last of which was trapped, and there cannot be more of them than there are machine
cycles in the budget, a cycle that is begun included. What it says is how far the clock has gone on,
in whole machine cycles. That is less than the budget if the last step was trapped, and otherwise at
least the budget, but by less than six machine cycles more. On a budget of nothing no step is made.
-/
theorem isLeast_runFor (m : Machine β) (cycles : Nat) :
    let spent := (m.runFor cycles).1
    let last := (m.runFor cycles).2
    (∀ n : Machine β, n.step.1 ≠ .trapped →
      ∃ k, 1 ≤ k ∧ k ≤ 6 ∧ n.step.2.cpu.clock = n.cpu.clock.advance (4 * k)) ∧
    ∃ count, IsLeast {k | m.IsOver (m.cpu.clock.advance cycles) k} count ∧
      4 * count < cycles + 4 ∧ last = m.afterSteps count ∧
      last.cpu.clock = m.cpu.clock.advance spent ∧ 4 ∣ spent ∧
      (spent < cycles ↔ m.lastOutcome? count = some .trapped) ∧
      (m.lastOutcome? count ≠ some .trapped → cycles ≤ spent ∧ spent < cycles + 24) ∧
      (cycles = 0 → spent = 0 ∧ count = 0) := by
  intro spent last
  constructor
  · intro n untrapped
    obtain ⟨k, clock, zero, bound⟩ := n.exists_clock_step
    rw [← not_iff_not] at zero
    have pos := zero.mpr untrapped
    exact ⟨k, by omega, bound, congrArg Clock.mk clock⟩
  obtain ⟨count, least, run⟩ := exists_isLeast_runUntil (m.cpu.clock.advance cycles) m
  obtain ⟨total, few, clock, trapped, reached, nothing⟩ := exists_spent_of_isLeast least
  have hlast : last = m.afterSteps count := run
  have hspent : spent = 4 * total := by
    have since : spent = last.cpu.clock.cycles - m.cpu.clock.cycles := rfl
    rw [since, hlast]
    omega
  rw [hspent]
  refine ⟨count, least, few, hlast, ?_, ⟨total, rfl⟩, trapped, reached, ?_⟩
  · rw [hlast]
    exact congrArg Clock.mk clock
  · intro none
    obtain ⟨rfl, rfl⟩ := nothing none
    exact ⟨rfl, rfl⟩

end GameBoy.Machine
