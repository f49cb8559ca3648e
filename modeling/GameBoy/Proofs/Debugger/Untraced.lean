import GameBoy.Cpu.Query
import GameBoy.Proofs.Debugger.Trapped
import GameBoy.Proofs.Session.Orders
import GameBoy.Proofs.Step.Morphism

/-!
# Tracing changes nothing

To keep a trace the debugger looks at memory in the middle of every step, and it is told of
everything that happens between instructions. None of this has an effect on anything but the trace.
To say so, `GameBoy.Machine.untraced` switches tracing off and forgets what is in the trace, and
leaves the machine alone otherwise: it goes through every step (`GameBoy.Machine.step_untraced`) and
through everything else that a driver asks for, runs of many steps included
(`GameBoy.Machine.obey_untraced`).

So what a machine does in answer to some orders can be told from the untraced machine and from those
of the orders that are not about the trace: `GameBoy.Machine.plain_account`. Two machines that are
the same without their traces cannot be told apart without a look at the traces
(`GameBoy.Machine.plain_account_congr`), whatever is done to the traces in the meantime, and neither
can the devices on their buses tell them apart.
-/

namespace GameBoy

/-! ### Without the trace -/

namespace Debugger

/-- **The debugger with tracing off** and nothing in its trace. -/
def untraced (d : Debugger) : Debugger := { d with tracing := false, trace := .empty }

variable (d : Debugger)

/-- Recording does not show without the trace. -/
theorem untraced_record (e : TraceEntry) : (d.record e).untraced = d.untraced := by
  rw [record]
  split <;> rfl

theorem untraced_event (address : UInt16) (text : String) :
    (d.event address text).untraced = d.untraced :=
  d.untraced_record _

/-- A breakpoint that holds the processor. -/
theorem untraced_trap (b : Breakpoint) : (d.trap b).untraced = d.untraced.trap b :=
  untraced_event { d with hold := .trapped } b.address b.hitText

/-- Leave is used up in the same way without the trace. -/
theorem untraced_spendPass : d.spendPass.untraced = d.untraced.spendPass := by
  rw [spendPass, spendPass]
  change _ = if d.hold = .pass then _ else _
  split <;> rfl

end Debugger

namespace Cpu

/-- The processor whose debugger has tracing off and nothing in its trace. -/
def untraced (cpu : Cpu) : Cpu := cpu.withDebugger (·.untraced)

/-- A halt that has just been ended. -/
theorem woken_untraced (cpu : Cpu) : cpu.untraced.woken = cpu.woken.untraced :=
  congrArg cpu.woken.withDebugger
    (funext fun _ => (cpu.debugger.untraced_event cpu.core.pc "wake from halt").symm)

/-- A stopped processor woken. -/
theorem wakeFromStop_untraced (cpu : Cpu) :
    cpu.untraced.wakeFromStop = cpu.wakeFromStop.untraced := by
  rw [wakeFromStop, wakeFromStop]
  change (if cpu.core.stopped = true then _ else _) = _
  split
  · rw [untraced, untraced, withDebugger, withDebugger, Debugger.untraced_event]
    rfl
  · rfl

/-- Whether a trace is kept shows in one of the observations only. -/
theorem observe_untraced : ∀ s ∈ observations, s.1 ≠ "tracing" → ∀ cpu : Cpu,
    s.2 cpu.untraced = s.2 cpu := by
  simp only [observations, List.forall_mem_cons]
  and_intros
  all_goals first
    | exact fun _ _ => rfl
    | exact fun h => absurd rfl h
    | simp

/-- **Every value that can be asked for** is there without the trace, but for whether one is kept. -/
theorem query_untraced (cpu : Cpu) {path : String} (h : path ≠ "tracing") :
    cpu.untraced.query path = cpu.query path := by
  rw [query, query]
  cases found : observations.lookup path with
  | none => rfl
  | some observe =>
    obtain ⟨before, after, split, -⟩ := List.lookup_eq_some_iff.mp found
    have listed : (path, observe) ∈ observations := by simp [split]
    exact congrArg some (observe_untraced _ listed h cpu)

end Cpu

namespace Machine

variable {β : Type}

/-- **The machine with tracing off** and nothing in its trace. -/
def untraced (m : Machine β) : Machine β := m.withCpu (·.untraced)

/-- Waking from a halt. -/
theorem wakeFromHalt_untraced (m : Machine β) :
    m.untraced.wakeFromHalt = m.wakeFromHalt.untraced := by
  unfold wakeFromHalt
  change (if m.cpu.core.halted = true then _ else _) = _
  split
  · exact congrArg (Machine.mk · m.bus) m.cpu.woken_untraced
  · rfl

/-- A breakpoint that holds the processor. -/
theorem trap_untraced (m : Machine β) (b : Breakpoint) : m.untraced.trap b = (m.trap b).untraced :=
  congrArg m.debuggedBy (m.cpu.debugger.untraced_trap b).symm

variable [Bus β]

/-- Looking for interrupts. -/
theorem pollInterrupts_untraced (m : Machine β) :
    m.untraced.pollInterrupts = (m.pollInterrupts.1, m.pollInterrupts.2.untraced) := by
  unfold pollInterrupts
  change (if (m.cpu.core.ime || m.cpu.core.halted) = true then _ else _) = _
  split <;> rfl

/-- The dispatch of an interrupt. -/
theorem dispatch_untraced (m : Machine β) (i : Interrupt) :
    m.untraced.dispatch i = (m.dispatch i).untraced := by
  have same (address : UInt16) (text : String) :
      (m.cpu.debugger.event address text).spendPass.untraced =
        m.cpu.debugger.untraced.spendPass := by
    rw [Debugger.untraced_spendPass, Debugger.untraced_event]
  exact congrArg (debuggedBy (m.dispatch i)) (same _ _).symm

/-- An instruction that runs, with a text to keep or without. -/
theorem execute_untraced (m : Machine β) (i : Instruction) :
    m.untraced.execute i = (m.execute i).untraced := by
  have spent : (m.execute i).cpu.debugger.untraced = m.cpu.debugger.untraced.spendPass := by
    rcases m.debugger_execute i with quiet | ⟨e, told⟩
    · rw [quiet, Debugger.untraced_spendPass]
    · rw [told, Debugger.untraced_record, Debugger.untraced_spendPass]
  have ran := eq_debuggedBy_of_bare_eq (m.bare_execute i)
  calc m.untraced.execute i
      = (m.runCode i).debuggedBy m.cpu.debugger.untraced.spendPass := rfl
    _ = ((m.runCode i).debuggedBy (m.execute i).cpu.debugger).untraced := by rw [← spent]; rfl
    _ = (m.execute i).untraced := by rw [← ran]

/-- **Whether there is a trace makes no difference to any part of a step.** -/
theorem isStepMorphism_untraced : IsStepMorphism (untraced : Machine β → Machine β) where
  core _ := rfl
  blocked _ := rfl
  trapped _ := rfl
  hit? _ _ := rfl
  peek _ := rfl
  perform _ _ := rfl
  pollInterrupts := pollInterrupts_untraced
  wakeFromHalt := wakeFromHalt_untraced
  dispatch := dispatch_untraced
  trap := trap_untraced
  readInstruction _ := rfl
  execute := execute_untraced

/-- **A step is the same without the trace.** -/
theorem step_untraced (m : Machine β) : m.untraced.step = (m.step.1, m.step.2.untraced) :=
  isStepMorphism_untraced.step m

end Machine

/-! ### Orders about the trace -/

/-- Whether an action is about the trace and nothing else. -/
def Action.isTracing : Action → Bool
  | .setTracing _ | .clearTrace => true
  | _ => false

/-- Whether an order is about the trace and nothing else. -/
def Order.isTracing : Order → Bool
  | .act action => action.isTracing
  | _ => false

/-- The orders that are not about the trace. -/
def withoutTracing (orders : List Order) : List Order := orders.filter fun o => !o.isTracing

namespace Machine

variable {β : Type} [Bus β]

/-- **An account for somebody who does not look at the trace**: nothing about the orders that are
about the trace, and of the others what they leave behind but for the trace. -/
def plain (account : List (Order × Answer × Machine β)) : List (Order × Answer × Machine β) :=
  (account.filter fun s => !s.1.isTracing).map fun (order, answer, m) => (order, answer, m.untraced)

/-- Asking whether a halted processor would wake. -/
theorem acceptsInterrupt_untraced (m : Machine β) :
    m.untraced.acceptsInterrupt = (m.acceptsInterrupt.1, m.acceptsInterrupt.2.untraced) := by
  unfold acceptsInterrupt
  change (if m.cpu.core.stopped = true then _ else _) = _
  split <;> rfl

/-- **An action that is not about the trace** does the same without it. -/
theorem act_untraced (m : Machine β) {action : Action} (h : action.isTracing = false) :
    m.untraced.act action = ((m.act action).1, (m.act action).2.untraced) := by
  cases action with
  | step => simp only [act, step_untraced]
  | wakeFromStop =>
    exact congrArg (fun cpu => (Reply.done, { m with cpu })) m.cpu.wakeFromStop_untraced
  | acceptsInterrupt => simp only [act, acceptsInterrupt_untraced]
  | setTracing | clearTrace => cases h
  | _ => rfl

/-- **An action that is about the trace** leaves everything else alone. -/
theorem untraced_act (m : Machine β) {action : Action} (h : action.isTracing = true) :
    (m.act action).2.untraced = m.untraced := by
  cases action with
  | setTracing | clearTrace => rfl
  | _ => cases h

/-- **An order that is not about the trace** does the same without it. -/
theorem obey_untraced (m : Machine β) {order : Order} (h : order.isTracing = false) :
    m.untraced.obey order = ((m.obey order).1, (m.obey order).2.untraced) := by
  cases order with
  | act action =>
    have told : action.isTracing = false := h
    simp only [obey, act_untraced m told]
  | runUntilHalt limit => simp only [obey, isStepMorphism_untraced.runUntilHalt]
  | runFor cycles => simp only [obey, isStepMorphism_untraced.runFor m fun _ => rfl]

/-- **An order that is about the trace** leaves everything else alone. -/
theorem untraced_obey (m : Machine β) {order : Order} (h : order.isTracing = true) :
    (m.obey order).2.untraced = m.untraced := by
  cases order with
  | act action => exact m.untraced_act h
  | runUntilHalt | runFor => cases h

/-! ### Many orders -/

/-- **The account of some orders without the trace** is the account of the machine without its
trace, and of those orders that are not about the trace. -/
theorem plain_account (m : Machine β) (orders : List Order) :
    plain (m.account orders) = m.untraced.account (withoutTracing orders) := by
  induction orders generalizing m with
  | nil => rfl
  | cons order rest ih =>
    cases h : order.isTracing with
    | true =>
      -- nothing is told of this order, and it leaves no mark
      have dropped : plain (m.account (order :: rest)) = plain ((m.obey order).2.account rest) := by
        simp [account, plain, h]
      have skipped : withoutTracing (order :: rest) = withoutTracing rest := by
        simp [withoutTracing, h]
      rw [dropped, skipped, ih, m.untraced_obey h]
    | false =>
      have told : plain (m.account (order :: rest)) =
          (order, (m.obey order).1, (m.obey order).2.untraced) ::
            plain ((m.obey order).2.account rest) := by
        simp [account, plain, h]
      have kept : withoutTracing (order :: rest) = order :: withoutTracing rest := by
        simp [withoutTracing, h]
      rw [told, kept, ih, account, m.obey_untraced h]

/-- The machine after some orders, without its trace. -/
theorem untraced_after (m : Machine β) (orders : List Order) :
    (m.after orders).untraced = m.untraced.after (withoutTracing orders) := by
  induction orders generalizing m with
  | nil => rfl
  | cons order rest ih =>
    rw [after, List.foldl_cons, ← after, ih]
    cases h : order.isTracing with
    | true =>
      have skipped : withoutTracing (order :: rest) = withoutTracing rest := by
        simp [withoutTracing, h]
      rw [skipped, m.untraced_obey h]
    | false =>
      have kept : withoutTracing (order :: rest) = order :: withoutTracing rest := by
        simp [withoutTracing, h]
      rw [kept, after, after, List.foldl_cons, m.obey_untraced h]

/-- **Tracing changes nothing.** Two machines that are the same without their traces are given the
same orders, apart from orders about the trace. Then all answers are the same, and after each order
so are the machines without their traces. All that has been done to the bus is the same, and so is
whatever can be asked for afterwards, but for whether a trace is kept. -/
theorem plain_account_congr {m n : Machine β} (same : n.untraced = m.untraced)
    {orders orders' : List Order} (asked : withoutTracing orders' = withoutTracing orders) :
    plain (n.account orders') = plain (m.account orders) ∧
      (n.recorded.after orders').bus.calls = (m.recorded.after orders).bus.calls ∧
      (n.after orders').cpu.statusLine = (m.after orders).cpu.statusLine ∧
      ∀ path, path ≠ "tracing" →
        (n.after orders').cpu.query path = (m.after orders).cpu.query path := by
  have last : (n.after orders').untraced = (m.after orders).untraced := by
    rw [untraced_after, untraced_after, same, asked]
  refine ⟨?_, ?_, ?_, ?_⟩
  · rw [plain_account, plain_account, same, asked]
  · -- a machine on a recorded bus is a machine like any other
    have recorded : n.recorded.untraced = m.recorded.untraced := congrArg recorded same
    have after : (n.recorded.after orders').untraced = (m.recorded.after orders).untraced := by
      rw [untraced_after, untraced_after, recorded, asked]
    exact congrArg (·.bus.calls) after
  · exact congrArg (·.cpu.statusLine) last
  · intro path h
    rw [← Cpu.query_untraced _ h, ← Cpu.query_untraced (m.after orders).cpu h]
    exact congrArg (·.cpu.query path) last

/-- A halted machine that an interrupt is about to wake, in front of a store, with tracing on or
off. -/
def watched (tracing : Bool) : Machine Ram where
  cpu :=
    { Cpu.new ⟨.dmg, true, tracing⟩ with core := { (Cpu.new .standard).core with halted := true } }
  bus := (Ram.zero.load 0x0100 [0xEA, 0x00, 0xC0]).load 0xFF0F [0x01] |>.load 0xFFFF [0x01]

/-- The store is made whether or not it is traced, and while the trace is interfered with. -/
theorem plain_account_watched :
    (watched true).cpu.debugger ≠ (watched false).cpu.debugger ∧
      plain ((watched false).account [.act .step, .runFor 8]) =
        plain ((watched true).account
          [.act .step, .act .clearTrace, .act (.setTracing false), .runFor 8]) := by
  have same : (watched false).untraced = (watched true).untraced := rfl
  have asked : withoutTracing [.act .step, .runFor 8] =
      withoutTracing [.act .step, .act .clearTrace, .act (.setTracing false), .runFor 8] := rfl
  exact ⟨by decide, (plain_account_congr same asked).1⟩

end Machine

end GameBoy
