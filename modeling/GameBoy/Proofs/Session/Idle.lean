import GameBoy.Proofs.Debugger.Trapped
import GameBoy.Proofs.Session.BusTaken

/-!
# Idle time

A machine with nothing to do spends idle cycles: one whose bus is taken, one that is stopped, and
one that is halted while no enabled interrupt is requested. A driver can tell the last by asking
`GameBoy.Machine.acceptsInterrupt`, since the step goes by the same lines
(`GameBoy.Machine.step_fst_eq_halted_iff`).

In memory that only counts cycles nothing comes of an idle cycle but another one, so a driver may
skip as many as it likes (`GameBoy.Machine.skip_idle`). A stop lasts for as long as the driver does
not end it, whatever is requested and whatever else the driver does
(`GameBoy.Machine.stopped_act`).
-/

namespace GameBoy

variable {β : Type} [Bus β]

/-- **The orders that end a stop.** -/
def Action.endsStop : Action → Bool
  | .wakeFromStop | .reset | .resetTo _ => true
  | _ => false

/-- No line is heard if none is both requested and enabled. -/
theorem Interrupt.highest_pending_eq_none_iff (bus : β) :
    highest (pending bus).1 = none ↔ (pending bus).1 = 0 :=
  highest_and_lineMask_eq_none_iff _

namespace Machine

variable {m : Machine β}

/-! ### Halts -/

/-- The answer to the question whether a halted processor would wake. -/
theorem acceptsInterrupt_fst (m : Machine β) :
    m.acceptsInterrupt.1 = (!m.cpu.core.stopped && (Interrupt.pending m.bus).1 != 0) := by
  rw [acceptsInterrupt]
  cases m.cpu.core.stopped <;> rfl

/-- A halted processor looks at the lines, whether it takes interrupts or not. -/
theorem pollInterrupts_of_halted (halted : m.cpu.core.halted = true) :
    m.pollInterrupts =
      (Interrupt.highest (Interrupt.pending m.bus).1,
        { m with bus := (Interrupt.pending m.bus).2 }) := by
  rw [pollInterrupts, halted, Bool.or_true, if_pos rfl]

/-- **A halted processor finds no interrupt** exactly if the driver is told that there is none. -/
theorem pollInterrupts_fst_eq_none_iff (halted : m.cpu.core.halted = true)
    (awake : m.cpu.core.stopped = false) :
    m.pollInterrupts.1 = none ↔ m.acceptsInterrupt.1 = false := by
  rw [pollInterrupts_of_halted halted, acceptsInterrupt_fst, awake,
    Interrupt.highest_pending_eq_none_iff]
  simp

/-- A machine that finds no interrupt stays halted. -/
theorem step_of_halted (ready : m.Ready) (halted : m.cpu.core.halted = true)
    (quiet : m.acceptsInterrupt.1 = false) :
    m.step = (.halted, idle { m with bus := (Interrupt.pending m.bus).2 }) := by
  have none := (pollInterrupts_fst_eq_none_iff halted ready.stopped).mpr quiet
  have alert : m.alert = { m with bus := (Interrupt.pending m.bus).2 } := by
    rw [Machine.alert, none, pollInterrupts_of_halted halted]
    rfl
  rw [step_eq, ready.blocked, ready.stopped, ready.trapped, none, halted, alert]
  rfl

/-- **A halted machine stays halted** exactly if the driver is told that there is no interrupt. -/
theorem step_fst_eq_halted_iff (ready : m.Ready) (halted : m.cpu.core.halted = true) :
    m.step.1 = .halted ↔ m.acceptsInterrupt.1 = false := by
  constructor
  · intro h
    rw [← pollInterrupts_fst_eq_none_iff halted ready.stopped]
    have hm := m.step_cases
    generalize m.step = s at hm h
    cases hm with
    | halted _ none => exact none
    | _ => simp at h
  · intro quiet
    rw [step_of_halted ready halted quiet]

/-! ### Idle machines -/

/-- **A machine with nothing to do**: its bus is taken, or it is stopped, or it is halted, and then
neither the debugger holds it nor would an interrupt wake it. -/
def Idles (m : Machine β) : Prop :=
  m.cpu.blocked = true ∨ m.cpu.core.stopped = true ∨
    m.cpu.core.halted = true ∧ m.cpu.debugger.trapped = false ∧ m.acceptsInterrupt.1 = false

/-- What the steps of a machine with nothing to do come to. -/
def idleOutcome (m : Machine β) : StepOutcome :=
  if m.cpu.blocked then .blocked else if m.cpu.core.stopped then .stopped else .halted

/-- **The calls of a step of a machine with nothing to do.** Only if it is halted does it look at
the lines. -/
def idleCalls (m : Machine β) : List BusCall :=
  if m.cpu.blocked || m.cpu.core.stopped then [.tick 4]
  else [.read 0xFF0F (Bus.peek m.bus 0xFF0F), .read 0xFFFF (Bus.peek m.bus 0xFFFF), .tick 4]

/-- The machine with the lines looked at, unless it does not look. -/
def attentive (m : Machine β) : Machine β :=
  if m.cpu.blocked || m.cpu.core.stopped then m
  else { m with bus := (Interrupt.pending m.bus).2 }

/-- Of the bus nothing matters to idleness but the lines. -/
theorem idles_iff (m : Machine β) :
    m.Idles ↔ m.cpu.blocked = true ∨ m.cpu.core.stopped = true ∨
      m.cpu.core.halted = true ∧ m.cpu.debugger.trapped = false ∧
        (Interrupt.pending m.bus).1 = 0 := by
  rw [Idles, acceptsInterrupt_fst]
  cases m.cpu.core.stopped <;> simp

/-- **A machine with nothing to do** spends an idle cycle. -/
theorem step_of_idles (h : m.Idles) : m.step = (m.idleOutcome, m.attentive.idle) := by
  rw [idleOutcome, attentive]
  cases blocked : m.cpu.blocked with
  | true =>
    rw [step_eq, blocked]
    rfl
  | false =>
    cases stopped : m.cpu.core.stopped with
    | true =>
      rw [step_eq, blocked, stopped]
      rfl
    | false =>
      obtain ⟨halted, free, quiet⟩ :=
        (h.resolve_left (by simp [blocked])).resolve_left (by simp [stopped])
      exact step_of_halted ⟨blocked, stopped, free⟩ halted quiet

/-! ### Idle time in memory -/

/-- A machine with nothing to do has nothing to do later. -/
theorem Idles.delayed {m : Machine Ram} (h : m.Idles) (d : Nat) : (m.delayed d).Idles := by
  rw [idles_iff] at h ⊢
  exact h

/-- In memory an idle step is a delay. -/
theorem act_step_of_idles {m : Machine Ram} (h : m.Idles) :
    m.act .step = (.outcome m.idleOutcome, m.delayed 4) := by
  have quiet : m.attentive = m := by
    rw [attentive, Interrupt.pending_eq]
    exact ite_self m
  rw [act, step_of_idles h, quiet]
  rfl

/-- **The calls of an idle step.** -/
theorem calls_step_of_idles {m : Machine (Recorded Ram)} (h : m.Idles) :
    m.step.2.bus.calls.toList = m.bus.calls.toList ++ m.idleCalls := by
  rw [step_of_idles h, attentive, idleCalls]
  split
  · exact Recorded.toList_calls_tick _ _
  · have looks : (Interrupt.pending m.bus).2.calls.toList =
        m.bus.calls.toList ++
          [.read 0xFF0F (Bus.peek m.bus 0xFF0F), .read 0xFFFF (Bus.peek m.bus 0xFFFF)] := by
      simp only [Interrupt.pending, Recorded.toList_calls_read, List.append_assoc]
      rfl
    refine (Recorded.toList_calls_tick _ _).trans ?_
    rw [looks, List.append_assoc]
    rfl

/-- **The calls of idle steps**, of which each does to the bus what the first one does. -/
theorem calls_session_of_idles {m : Machine Ram} (h : m.Idles) (count : Nat)
    {r : Machine (Recorded Ram)} (hr : r.map Recorded.bus = m) :
    (r.session (List.replicate count .step)).2.bus.calls.toList =
      r.bus.calls.toList ++ (List.replicate count m.idleCalls).flatten := by
  induction count generalizing m r with
  | zero => simp [session]
  | succ count ih =>
    have idles : r.Idles := by
      subst hr
      rw [idles_iff] at h ⊢
      exact h
    have first : r.step.2.bus.calls.toList = r.bus.calls.toList ++ m.idleCalls := by
      rw [calls_step_of_idles idles, ← hr]
      rfl
    have next : r.step.2.map Recorded.bus = m.delayed 4 := by
      have same := act_map Recorded.isBusMorphism_bus r .step
      rw [hr, act_step_of_idles h] at same
      exact (congrArg (·.2) same).symm
    have rest := ih (h.delayed 4) next
    rw [first] at rest
    rw [List.replicate_succ, List.replicate_succ, List.flatten_cons, ← List.append_assoc]
    exact rest

/-! ### Stops -/

/-- A step leaves a stopped processor stopped. -/
theorem stopped_step (stopped : m.cpu.core.stopped = true) :
    m.step.2.cpu.core.stopped = true := by
  have idles : m.Idles := .inr (.inl stopped)
  rw [step_of_idles idles, attentive, stopped, Bool.or_true, if_pos rfl]
  exact stopped

/-- **A stop ends** if the driver ends it, and not otherwise. -/
theorem stopped_act (stopped : m.cpu.core.stopped = true) (action : Action) :
    (m.act action).2.cpu.core.stopped = !action.endsStop := by
  cases action with
  | step => exact stopped_step stopped
  | reset | resetTo => rfl
  | wakeFromStop => exact congrArg Core.stopped m.cpu.core_wakeFromStop
  | acceptsInterrupt => exact (congrArg (·.core.stopped) m.cpu_acceptsInterrupt).trans stopped
  | assign x => cases x <;> exact stopped
  | _ => exact stopped

/-- **A stop lasts** through a session in which the driver does not end it. -/
theorem stopped_session (stopped : m.cpu.core.stopped = true) {actions : List Action}
    (h : ∀ action ∈ actions, action.endsStop = false) :
    (m.session actions).2.cpu.core.stopped = true := by
  induction actions generalizing m with
  | nil => exact stopped
  | cons action rest ih =>
    have lasts := stopped_act stopped action
    rw [h action List.mem_cons_self] at lasts
    exact ih lasts fun later hl => h later (List.mem_cons_of_mem _ hl)

/-- **Idle time can be skipped.** In memory that only counts cycles, any number of steps of a
machine with nothing to do have the outcome of the first one. They leave everything as it is but for
the two counters, which go on by four cycles for each step, and they do not store anything; nor do
they read unless the machine is halted, and then only the lines. Whether a halted machine has
anything to do is what the driver is told about enabled interrupts, on any bus. And a stop is ended
by three orders of the driver only, which all do end it. -/
theorem skip_idle {β : Type} [Bus β] :
    (∀ m : Machine Ram, m.Idles → ∀ count,
      m.session (List.replicate count .step) =
        (List.replicate count (.outcome m.idleOutcome), m.delayed (4 * count)) ∧
      (m.recorded.session (List.replicate count .step)).2.bus.calls.toList =
        (List.replicate count m.idleCalls).flatten) ∧
    (∀ m : Machine β, m.Ready → m.cpu.core.halted = true →
      (m.step.1 = .halted ↔ m.acceptsInterrupt.1 = false)) ∧
    ∀ m : Machine β, m.cpu.core.stopped = true →
      (∀ action, (m.act action).2.cpu.core.stopped = false ↔ action.endsStop = true) ∧
      ∀ actions, (∀ action ∈ actions, action.endsStop = false) →
        (m.session actions).2.cpu.core.stopped = true := by
  refine ⟨fun m idles count => ⟨?_, ?_⟩, fun m => step_fst_eq_halted_iff, fun m stopped => ⟨?_, ?_⟩⟩
  · exact session_replicate (act_step_of_idles idles) count
  · exact calls_session_of_idles idles count rfl
  · intro action
    rw [stopped_act stopped, Bool.not_eq_false']
  · exact fun actions h => stopped_session stopped h

/-- A halted processor that takes interrupts, with four of them requested and the fifth enabled. -/
def dozing : Machine Ram where
  cpu :=
    { Cpu.new .standard with
      core := { (Cpu.new .standard).core with ime := true, imeNext := true, halted := true } }
  bus := (Ram.zero.load 0xFF0F [0x1E]).load 0xFFFF [0x01]

/-- The same processor, stopped as well. -/
def stoppedDozing : Machine Ram := dozing.withCpu fun cpu =>
  { cpu with core := { cpu.core with stopped := true } }

/-- A million idle cycles of the one, and an interrupt that does not end the stop of the other. -/
theorem skip_idle_dozing :
    dozing.session (List.replicate 1000000 .step) =
        (List.replicate 1000000 (.outcome .halted), dozing.delayed 4000000) ∧
      (dozing.recorded.session (List.replicate 1000000 .step)).2.bus.calls.toList =
        (List.replicate 1000000
          [.read 0xFF0F 0x1E, .read 0xFFFF 0x01, .tick 4]).flatten ∧
      dozing.step.1 = .halted ∧
      (stoppedDozing.act .wakeFromStop).2.cpu.core.stopped = false ∧
      (stoppedDozing.session [.request .vblank, .step, .jump 0x150, .step]).2.cpu.core.stopped =
        true := by
  obtain ⟨skips, halts, stops⟩ := skip_idle (β := Ram)
  have quiet : dozing.acceptsInterrupt.1 = false := by decide +kernel
  have calls : dozing.idleCalls = [.read 0xFF0F 0x1E, .read 0xFFFF 0x01, .tick 4] := by
    decide +kernel
  obtain ⟨session, traffic⟩ := skips dozing (.inr (.inr ⟨rfl, rfl, quiet⟩)) 1000000
  rw [calls] at traffic
  obtain ⟨ends, lasts⟩ := stops stoppedDozing rfl
  refine ⟨session, traffic, (halts dozing ⟨rfl, rfl, rfl⟩ rfl).mpr quiet, ?_, ?_⟩
  · exact (ends .wakeFromStop).mpr rfl
  · exact lasts _ (by decide)

end Machine

end GameBoy
