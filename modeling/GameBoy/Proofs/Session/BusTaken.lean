import GameBoy.Bus.Ram
import GameBoy.Proofs.Bus.Morphism
import GameBoy.Proofs.Debugger.Bare
import GameBoy.Proofs.Session.Moments
import GameBoy.Proofs.Step.Later
import Mathlib.Algebra.Ring.Nat

/-!
# Time without the bus

A driver that needs the bus for itself takes it from the processor, lets some steps pass, and gives
it back. The steps in between are idle cycles, and nothing in the processor goes on in them but the
clock.

Memory that only counts cycles does not notice either. So the program does the same whether or not
the bus was ever taken, between whichever of its steps, and all that is different afterwards is the
time: the clock of the processor and the count of the memory are ahead by the cycles that were spent
without the bus (`GameBoy.Machine.delayed`). The two counters are carried through a session by
`GameBoy.Machine.act_delayed`, and `GameBoy.Machine.session_stretches` compares the session in which
the bus is taken with the one in which it is not.
-/

namespace GameBoy

/-- **Time that passes in memory** commutes with all that can be done to it. -/
theorem Ram.isBusMorphism_tick (d : Nat) : IsBusMorphism fun ram : Ram => Bus.tick ram d where
  read _ _ := rfl
  write _ _ _ := rfl
  tick ram _ := congrArg (Ram.mk ram.memory) (Nat.add_right_comm _ _ _)
  peek _ := rfl

/-! ### Stretches -/

/-- **A stretch of a session**: one action, or a time for which the bus is taken from the processor.
-/
inductive Stretch where
  | act (action : Action)
  /-- The bus is taken, some steps are made, and the bus is given back. -/
  | taken (count : Nat)
  deriving DecidableEq, Repr

namespace Stretch

/-- What the driver does. -/
def actions : Stretch → List Action
  | act action => [action]
  | taken count => .setBlocked true :: (List.replicate count .step ++ [.setBlocked false])

/-- What is left for the driver to do if the bus is not taken. -/
def action? : Stretch → Option Action
  | act action => some action
  | taken _ => none

/-- The steps without the bus. -/
def waits : Stretch → Nat
  | act _ => 0
  | taken count => count

/-- **The replies to all that the driver does**, from those that it gets if the bus is not taken. -/
def replies : List Stretch → List Reply → List Reply
  | taken count :: rest, rs =>
    .done :: (List.replicate count (.outcome .blocked) ++ .done :: replies rest rs)
  | act _ :: rest, r :: rs => r :: replies rest rs
  | _, _ => []

end Stretch

/-- The outcomes of the steps among some replies. -/
def outcomes (replies : List Reply) : List StepOutcome :=
  replies.filterMap fun
    | .outcome o => some o
    | _ => none

/-- Replies one after another. -/
theorem outcomes_append (rs rs' : List Reply) :
    outcomes (rs ++ rs') = outcomes rs ++ outcomes rs' :=
  List.filterMap_append

/-- Steps without the bus have one outcome. -/
theorem outcomes_replicate_blocked (count : Nat) :
    outcomes (List.replicate count (.outcome .blocked)) = List.replicate count .blocked := by
  simp [outcomes]

/-- **The outcomes if the bus is taken**: those that there are if it is not, and one more for each
step without the bus. -/
theorem outcomes_replies {stretches : List Stretch} {rs : List Reply}
    (hl : rs.length = (stretches.filterMap Stretch.action?).length) (hr : .blocked ∉ outcomes rs) :
    (outcomes (Stretch.replies stretches rs)).filter (· ≠ .blocked) = outcomes rs ∧
      (outcomes (Stretch.replies stretches rs)).count .blocked =
        (stretches.map Stretch.waits).sum := by
  induction stretches generalizing rs with
  | nil =>
    obtain rfl : rs = [] := List.length_eq_zero_iff.mp hl
    exact ⟨rfl, rfl⟩
  | cons stretch rest ih =>
    cases stretch with
    | taken count =>
      obtain ⟨others, blocked⟩ := ih hl hr
      have first : outcomes (Stretch.replies (.taken count :: rest) rs) =
          List.replicate count .blocked ++ outcomes (Stretch.replies rest rs) := by
        have inner := outcomes_append (List.replicate count (.outcome .blocked))
          (.done :: Stretch.replies rest rs)
        rw [outcomes_replicate_blocked] at inner
        exact inner
      rw [first, List.filter_append, List.count_append, others, blocked]
      simp [Stretch.waits]
    | act action =>
      cases rs with
      | nil => exact absurd hl (by simp [Stretch.action?])
      | cons r rs =>
        have first : outcomes (r :: rs) = outcomes [r] ++ outcomes rs := outcomes_append [r] rs
        rw [first, List.mem_append, not_or] at hr
        have length : rs.length = (rest.filterMap Stretch.action?).length := by
          simpa [Stretch.action?] using hl
        obtain ⟨others, blocked⟩ := ih length hr.2
        have same : (outcomes [r]).filter (· ≠ .blocked) = outcomes [r] := by
          rw [List.filter_eq_self]
          intro o ho
          simpa using fun h : o = .blocked => hr.1 (h ▸ ho)
        have all : outcomes (Stretch.replies (.act action :: rest) (r :: rs)) =
            outcomes [r] ++ outcomes (Stretch.replies rest rs) := outcomes_append [r] _
        rw [all, first, List.filter_append, List.count_append, others, blocked, same,
          List.count_eq_zero.mpr hr.1]
        simp [Stretch.waits]

namespace Machine

/-- **The machine with its counters ahead** by some cycles, that of the processor and that of the
memory. -/
def delayed (m : Machine Ram) (d : Nat) : Machine Ram where
  cpu := { m.cpu with clock := m.cpu.clock.advance d }
  bus := { m.bus with cycles := m.bus.cycles + d }

/-- **A driver does the same later**, and gets the same reply. -/
theorem act_delayed (m : Machine Ram) (d : Nat) (action : Action) :
    (m.delayed d).act action = ((m.act action).1, (m.act action).2.delayed d) := by
  have mapped := act_map (Ram.isBusMorphism_tick d) m action
  have shifted := act_later (m.map fun ram => Bus.tick ram d) d action
  rw [mapped] at shifted
  exact shifted

/-- One delay after another is one delay. -/
theorem delayed_delayed (m : Machine Ram) (d e : Nat) :
    (m.delayed d).delayed e = m.delayed (d + e) := by
  simp only [delayed, Clock.advance, Nat.add_assoc]

/-! ### Who has the bus -/

section

variable {β : Type} [Bus β]

/-- An instruction that runs does not take the bus or give it back. -/
theorem blocked_execute (m : Machine β) (i : Instruction) :
    (m.execute i).cpu.blocked = m.cpu.blocked := by
  rw [blocked_congr (m.bare_execute i)]
  rfl

/-- No step does. -/
theorem blocked_step (m : Machine β) : m.step.2.cpu.blocked = m.cpu.blocked := by
  have hm := m.step_cases
  generalize m.step = s at hm ⊢
  cases hm with
  | blocked | stopped | held => rfl
  | executed => exact (blocked_execute _ _).trans m.blocked_alert
  | _ => exact m.blocked_alert

/-- The processor keeps the bus until it is taken. -/
theorem blocked_act {m : Machine β} {action : Action} (hb : m.cpu.blocked = false)
    (ha : ∀ b, action ≠ .setBlocked b) : (m.act action).2.cpu.blocked = false := by
  cases action with
  | step => exact m.blocked_step.trans hb
  | setBlocked b => exact absurd rfl (ha b)
  | reset | resetTo => rfl
  | wakeFromStop =>
    change m.cpu.wakeFromStop.blocked = false
    rw [Cpu.wakeFromStop]
    split <;> exact hb
  | acceptsInterrupt => exact (congrArg Cpu.blocked m.cpu_acceptsInterrupt).trans hb
  | _ => exact hb

/-- A processor that has the bus is not blocked. -/
theorem step_fst_ne_blocked {m : Machine β} (hb : m.cpu.blocked = false) : m.step.1 ≠ .blocked := by
  have hm := m.step_cases
  generalize m.step = s at hm ⊢
  cases hm with
  | blocked h => exact absurd (h.symm.trans hb) (by simp)
  | _ => simp

/-- A processor that keeps the bus is never blocked. -/
theorem blocked_not_mem_outcomes {m : Machine β} (hb : m.cpu.blocked = false)
    {actions : List Action} (h : ∀ b, .setBlocked b ∉ actions) :
    .blocked ∉ outcomes (m.session actions).1 := by
  induction actions generalizing m with
  | nil => simp [session, outcomes]
  | cons action rest ih =>
    have ha : ∀ b, action ≠ .setBlocked b := by
      rintro b rfl
      exact h b List.mem_cons_self
    have later := ih (blocked_act hb ha) fun b hm => h b (List.mem_cons_of_mem _ hm)
    have now : .blocked ∉ outcomes [(m.act action).1] := by
      cases action with
      | step =>
        change .blocked ∉ [m.step.1]
        rw [List.mem_singleton]
        exact (step_fst_ne_blocked hb).symm
      | _ => exact List.not_mem_nil
    have first : outcomes (m.session (action :: rest)).1 =
        outcomes [(m.act action).1] ++ outcomes ((m.act action).2.session rest).1 :=
      outcomes_append [(m.act action).1] _
    rw [first, List.mem_append, not_or]
    exact ⟨now, later⟩

end

/-! ### Time goes by -/

/-- A step without the bus is a delay. -/
theorem act_step_of_blocked {m : Machine Ram} (hb : m.cpu.blocked = true) :
    m.act .step = (.outcome .blocked, m.delayed 4) := by
  simp only [act, step_eq, if_pos hb]
  rfl

/-- **What is nothing but a delay** is one again when it is done later, and so it is however often
it is done. -/
theorem session_replicate {m : Machine Ram} {action : Action} {r : Reply}
    (h : m.act action = (r, m.delayed 4)) (count : Nat) :
    m.session (List.replicate count action) =
      (List.replicate count r, m.delayed (4 * count)) := by
  induction count generalizing m with
  | zero => rfl
  | succ count ih =>
    have again : (m.delayed 4).act action = (r, (m.delayed 4).delayed 4) := by
      rw [act_delayed, h]
    simp only [List.replicate_succ, session, h, ih again, delayed_delayed]
    rw [Nat.mul_succ, Nat.add_comm]

/-- **A time without the bus is a delay.** -/
theorem session_taken {m : Machine Ram} (hb : m.cpu.blocked = false) (count : Nat) :
    m.session (Stretch.taken count).actions =
      (.done :: (List.replicate count (.outcome .blocked) ++ [.done]), m.delayed (4 * count)) := by
  have waits := act_step_of_blocked (m := m.withCpu (·.setBlocked true)) rfl
  have steps := session_replicate waits count
  have back : ((m.withCpu (·.setBlocked true)).delayed (4 * count)).withCpu (·.setBlocked false) =
      m.delayed (4 * count) := by
    simp only [delayed, withCpu, Cpu.setBlocked, hb]
  simp only [Stretch.actions, session, act, control, session_append, steps, back]

/-- **A session in which the bus is taken** is the session in which it is not, with replies put in,
and its end comes later. -/
theorem session_stretches {m : Machine Ram} (hb : m.cpu.blocked = false) (d : Nat)
    {stretches : List Stretch} (h : ∀ b, .act (.setBlocked b) ∉ stretches) :
    (m.delayed d).session (stretches.flatMap Stretch.actions) =
      (Stretch.replies stretches (m.session (stretches.filterMap Stretch.action?)).1,
        (m.session (stretches.filterMap Stretch.action?)).2.delayed
          (d + 4 * (stretches.map Stretch.waits).sum)) := by
  -- by induction on the stretches, `d` being the delay so far
  induction stretches generalizing m d with
  | nil => rfl
  | cons stretch rest ih =>
    have hrest : ∀ b, .act (.setBlocked b) ∉ rest := fun b hm => h b (List.mem_cons_of_mem _ hm)
    cases stretch with
    | taken count =>
      have first := session_taken (m := m.delayed d) hb count
      have plain : (Stretch.taken count :: rest).filterMap Stretch.action? =
          rest.filterMap Stretch.action? := List.filterMap_cons_none rfl
      rw [List.flatMap_cons, session_append, first, delayed_delayed, ih hb _ hrest, plain]
      simp [Stretch.replies, Stretch.waits, Nat.mul_add, Nat.add_assoc]
    | act action =>
      have free : (m.act action).2.cpu.blocked = false := by
        refine blocked_act hb ?_
        rintro b rfl
        exact h b List.mem_cons_self
      have plain : (Stretch.act action :: rest).filterMap Stretch.action? =
          action :: rest.filterMap Stretch.action? := List.filterMap_cons_some rfl
      have after := ih free d hrest
      simp only [List.flatMap_cons, Stretch.actions, List.singleton_append, session, act_delayed,
        after, plain]
      simp [Stretch.replies, Stretch.waits]

/-- **The program does not notice that the bus is taken.** From a processor that is not blocked on,
take any session in which the driver does not take the bus, and any times without the bus put in
between. Each of these adds as many blocked steps as are made in it, and the replies to everything
else are the same. So is the machine after every stretch, but for its two counters, which are ahead
by four cycles for each step without the bus. -/
theorem session_taken_invisible (m : Machine Ram) (hb : m.cpu.blocked = false)
    (stretches : List Stretch) (h : ∀ b, .act (.setBlocked b) ∉ stretches) :
    let plain := m.session (stretches.filterMap Stretch.action?)
    let delayed := m.session (stretches.flatMap Stretch.actions)
    delayed.1 = Stretch.replies stretches plain.1 ∧
    (outcomes delayed.1).filter (· ≠ .blocked) = outcomes plain.1 ∧
    (outcomes delayed.1).count .blocked = (stretches.map Stretch.waits).sum ∧
    ∀ n, let sofar := stretches.take n
      (m.session (sofar.flatMap Stretch.actions)).2 =
        (m.session (sofar.filterMap Stretch.action?)).2.delayed
          (4 * (sofar.map Stretch.waits).sum) := by
  intro plain delayed
  have whole (part : List Stretch) (hp : ∀ b, .act (.setBlocked b) ∉ part) :
      m.session (part.flatMap Stretch.actions) =
        (Stretch.replies part (m.session (part.filterMap Stretch.action?)).1,
          (m.session (part.filterMap Stretch.action?)).2.delayed
            (4 * (part.map Stretch.waits).sum)) := by
    have start := session_stretches hb 0 hp
    rwa [Nat.zero_add] at start
  have replies : delayed.1 = Stretch.replies stretches plain.1 := congrArg (·.1) (whole stretches h)
  have free : .blocked ∉ outcomes plain.1 := by
    refine blocked_not_mem_outcomes hb fun b hm => ?_
    obtain ⟨stretch, hs, ha⟩ := List.mem_filterMap.mp hm
    cases stretch with
    | act action =>
      obtain rfl : action = .setBlocked b := Option.some.inj ha
      exact h b hs
    | taken => simp [Stretch.action?] at ha
  have length : plain.1.length = (stretches.filterMap Stretch.action?).length := length_session _ _
  obtain ⟨others, blocked⟩ := outcomes_replies length free
  rw [← replies] at others blocked
  refine ⟨replies, others, blocked, fun n => ?_⟩
  exact congrArg (·.2) (whole (stretches.take n) fun b hm => h b (List.mem_of_mem_take hm))

/-- Memory in which interrupts are enabled, one of which is requested, and a breakpoint waits for
the instruction in between. -/
def delayable : Ram := ((Ram.zero.load 0x0100 [0xFB]).load 0xFF0F [0x01]).load 0xFFFF [0x01]

/-- The bus is taken between the instruction that enables interrupts and the next one, and again
between the trap there and the order to resume. -/
def interruptedStretches : List Stretch :=
  [.act (.addBreakpoint ⟨.execute, 0x0101⟩), .act .step, .taken 2, .act .step, .taken 1,
    .act .resume, .taken 3, .act .step, .act .step]

/-- The interrupt is dispatched after the one instruction that it has to wait for. -/
theorem session_taken_invisible_delayable :
    let m : Machine Ram := ⟨.new .standard, delayable⟩
    (m.session (interruptedStretches.flatMap Stretch.actions)).1 =
        [.truth true, .outcome .executed,
          .done, .outcome .blocked, .outcome .blocked, .done, .outcome .trapped,
          .done, .outcome .blocked, .done, .done,
          .done, .outcome .blocked, .outcome .blocked, .outcome .blocked, .done, .outcome .executed,
          .outcome (.interrupted .vblank)] ∧
      (m.session (interruptedStretches.flatMap Stretch.actions)).2 =
        (m.session (interruptedStretches.filterMap Stretch.action?)).2.delayed 24 := by
  intro m
  have hb : m.cpu.blocked = false := rfl
  have h : ∀ b, .act (.setBlocked b) ∉ interruptedStretches := by simp [interruptedStretches]
  obtain ⟨replies, -, -, machines⟩ := session_taken_invisible m hb interruptedStretches h
  have plain : (m.session (interruptedStretches.filterMap Stretch.action?)).1 =
      [.truth true, .outcome .executed, .outcome .trapped, .done, .outcome .executed,
        .outcome (.interrupted .vblank)] := by
    decide +kernel
  rw [plain] at replies
  exact ⟨replies, machines 9⟩

end Machine

end GameBoy
