import GameBoy.Proofs.Bus.Requests
import GameBoy.Proofs.Interrupt.Dispatch
import GameBoy.Proofs.Session.Moments

/-!
# No request is lost

Devices raise interrupt lines at any time, and the processor lowers a line when it dispatches its
interrupt, by reading the requests and storing them back. A line raised between the two would be
lost. None is, since no time passes between the two, and only a store by the program can lower a
line otherwise.

The events of a dispatch are the one store that lowers its line, and whatever is raised after that
(`GameBoy.Machine.requestEvents_of_interrupted`). A step that neither dispatches nor runs an
instruction stores nothing at all (`GameBoy.Machine.stored_not_mem_of_waits`). So a line that is
requested stays so at every moment that does not lower it (`GameBoy.Moment.testBit_requests_next`),
and by induction for as long as no moment does (`GameBoy.Machine.testBit_requests_session`).
-/

namespace GameBoy

open Interrupt (requestAddress)
open RequestEvent (raisedLines)

variable {β : Type} [Bus β] [RequestBus β]

namespace Machine

/-! ### What a step does to the requests -/

/-- Looking for interrupts does nothing to the requests. -/
theorem events_alert (m : Machine (Monitored β)) : m.alert.bus.events = m.bus.events :=
  bus_alert_of_read (P := fun w : Monitored β => w.events = m.bus.events) (fun _ _ h => h) rfl

/-- In an idle cycle lines may be raised. -/
theorem events_idle (m : Machine (Monitored β)) :
    m.idle.bus.events = m.bus.events ++ [.raised (RequestBus.raised m.bus.bus 4)] := rfl

/-- Looking for interrupts finds the requests and leaves them as they are. -/
theorem requests_alert (m : Machine (Monitored β)) :
    requests m.alert.bus.bus = requests m.bus.bus := by
  refine bus_alert_of_read (P := fun w : Monitored β => requests w.bus = requests m.bus.bus) ?_ rfl
  intro w a h
  exact (congrArg (·.get requestAddress) (RequestBus.memory_read w.bus a)).trans h

/-- The outcome of a step is the same whether or not the requests are watched. -/
theorem step_fst_monitored (m : Machine β) : m.monitored.step.1 = m.step.1 :=
  (congrArg (·.1) (step_map Monitored.isBusMorphism_bus m.monitored)).symm

/-- **A dispatch stores the requests once**, with its own line lowered, if the way back is pushed
elsewhere. What it stores is what was requested before the step. -/
theorem requestEvents_of_interrupted {m : Machine β} {i : Interrupt}
    (h : m.step.1 = .interrupted i) (high : m.cpu.core.registers.sp - 1 ≠ requestAddress)
    (low : m.cpu.core.registers.sp - 2 ≠ requestAddress) :
    ∃ rest, m.requestEvents .step = .stored (requests m.bus &&& ~~~i.mask) :: rest ∧
      ∀ v, .stored v ∉ rest := by
  obtain ⟨-, -, -, dispatched⟩ := eq_dispatch_of_step (m.step_fst_monitored.trans h)
  have events : m.requestEvents .step = (m.monitored.alert.dispatch i).bus.events :=
    congrArg (·.bus.events) dispatched
  have start : m.monitored.alert.bus.events = [] := m.monitored.events_alert
  have before : requests m.monitored.alert.bus.bus = requests m.bus := m.monitored.requests_alert
  have sp : m.monitored.alert.cpu.core.registers.sp = m.cpu.core.registers.sp :=
    congrArg Registers.sp m.monitored.registers_alert
  rw [events, bus_dispatch, sp]
  simp only [Monitored.events_tick, Monitored.events_write, if_neg high, if_neg low,
    Monitored.events_acknowledge, start, before, List.nil_append, List.cons_append]
  exact ⟨_, rfl, by simp⟩

/-- **A step without progress stores nothing** to the requests. -/
theorem stored_not_mem_of_waits {m : Machine β} (h : m.step.1.waits = true) (v : UInt8) :
    .stored v ∉ m.requestEvents .step := by
  have start : m.monitored.alert.bus.events = [] := m.monitored.events_alert
  rw [← m.step_fst_monitored] at h
  have hm := m.monitored.step_cases
  change .stored v ∉ m.monitored.step.2.bus.events
  generalize m.monitored.step = s at hm h ⊢
  cases hm with
  | blocked | stopped =>
    rw [events_idle]
    simp [monitored]
  | held => exact List.not_mem_nil
  | halted =>
    rw [events_idle, start]
    simp
  | caught | stalled =>
    -- the opcode may have been read, and reading is no event
    change .stored v ∉ m.monitored.alert.bus.events
    rw [start]
    exact List.not_mem_nil
  | interrupted | executed => simp [StepOutcome.waits] at h

end Machine

/-! ### What a moment does to the requests -/

namespace Moment

/-- **The requests are stored to at this moment** otherwise than by lowering or raising a line. -/
inductive Overwrites (s : Moment β) : Prop
  /-- The driver stores to them. -/
  | driver (v : UInt8) (h : s.action = .write requestAddress v)
  /-- The instruction that runs stores to them. -/
  | instruction (h : s.outcome? = some .executed) (v : UInt8)
    (hv : .stored v ∈ s.machine.requestEvents .step)
  /-- The way back from an interrupt is pushed where they lie. -/
  | push (i : Interrupt) (h : s.outcome? = some (.interrupted i))
    (hsp : s.machine.cpu.core.registers.sp - 1 = requestAddress ∨
      s.machine.cpu.core.registers.sp - 2 = requestAddress)

/-- **A line may be lowered at this moment**: its interrupt is dispatched, or the requests are
stored to. -/
inductive Lowers (s : Moment β) (line : Nat) : Prop
  /-- The interrupt of the line is dispatched. -/
  | dispatch (i : Interrupt) (h : s.outcome? = some (.interrupted i)) (hi : i.index = line)
  /-- The requests are stored to. -/
  | overwrite (h : s.Overwrites)

variable {s : Moment β} {line : Nat}

/-- The requests after a moment are what its events make of the requests before. -/
theorem requests_next (s : Moment β) :
    requests s.next.bus =
      (s.machine.requestEvents s.action).foldl RequestEvent.apply (requests s.machine.bus) :=
  s.machine.requests_act s.action

/-- **A line that is requested stays requested** at a moment that does not lower it. -/
theorem testBit_requests_next (h : (requests s.machine.bus).toNat.testBit line = true)
    (hs : ¬s.Lowers line) : (requests s.next.bus).toNat.testBit line = true := by
  rw [requests_next]
  obtain ⟨m, action⟩ := s
  cases action with
  | step =>
    cases ho : m.step.1 with
    | executed =>
      have executed : (⟨m, .step⟩ : Moment β).outcome? = some .executed := by rw [outcome?_step, ho]
      refine RequestEvent.testBit_foldl_apply ?_ h
      exact fun v hv => hs (.overwrite (.instruction executed v hv))
    | interrupted i =>
      have dispatched : (⟨m, .step⟩ : Moment β).outcome? = some (.interrupted i) := by
        rw [outcome?_step, ho]
      have other : line ≠ i.index := fun hi => hs (.dispatch i dispatched hi.symm)
      obtain ⟨rest, events, hrest⟩ := Machine.requestEvents_of_interrupted ho
        (fun high => hs (.overwrite (.push i dispatched (.inl high))))
        (fun low => hs (.overwrite (.push i dispatched (.inr low))))
      dsimp only
      rw [events, List.foldl_cons]
      -- the one store lowers another line
      refine RequestEvent.testBit_foldl_apply hrest ?_
      rw [RequestEvent.apply, Interrupt.testBit_and_not_mask, h, decide_eq_true other]
      rfl
    | halted | stopped | blocked | trapped =>
      refine RequestEvent.testBit_foldl_apply ?_ h
      exact fun v => Machine.stored_not_mem_of_waits (by rw [ho]; rfl) v
  | write a v =>
    have elsewhere : a ≠ requestAddress := by
      rintro rfl
      exact hs (.overwrite (.driver v rfl))
    have events : m.requestEvents (.write a v) = [] := if_neg elsewhere
    dsimp only
    rw [events]
    exact h
  | request i =>
    have events : m.requestEvents (.request i) = [.stored (requests m.bus ||| i.mask)] :=
      m.monitored.bus.events_request i
    dsimp only
    rw [events, List.foldl_cons, List.foldl_nil, RequestEvent.apply, UInt8.toNat_or,
      Nat.testBit_or, h, Bool.true_or]
  | tick k =>
    have events : m.requestEvents (.tick k) = [.raised (RequestBus.raised m.bus k)] := rfl
    refine RequestEvent.testBit_foldl_apply ?_ h
    simp [events]
  | acceptsInterrupt =>
    have events : m.requestEvents .acceptsInterrupt = [] := by
      change m.monitored.acceptsInterrupt.2.bus.events = []
      rw [Machine.acceptsInterrupt]
      split <;> rfl
    dsimp only
    rw [events]
    exact h
  | _ => exact h

/-- **A line is raised at this moment**, and the requests are not stored to after that. -/
def Raises (s : Moment β) (line : Nat) : Prop :=
  ∃ earlier lines later, s.machine.requestEvents s.action = earlier ++ .raised lines :: later ∧
    lines.toNat.testBit line = true ∧ ∀ v, .stored v ∉ later

/-- **A line that is raised is requested** after the moment. -/
theorem Raises.testBit_requests_next (h : s.Raises line) :
    (requests s.next.bus).toNat.testBit line = true := by
  obtain ⟨earlier, lines, later, events, hline, hlater⟩ := h
  rw [requests_next, events, List.foldl_append, List.foldl_cons]
  refine RequestEvent.testBit_foldl_apply hlater ?_
  rw [RequestEvent.apply, UInt8.toNat_or, Nat.testBit_or, hline, Bool.or_true]

end Moment

namespace Machine

/-! ### Runs -/

/-- **A line that is requested stays requested** in a session in which no moment lowers it. -/
theorem testBit_requests_session {m : Machine β} {actions : List Action} {line : Nat}
    (h : (requests m.bus).toNat.testBit line = true)
    (hs : ∀ s ∈ m.moments actions, ¬s.Lowers line) :
    (requests (m.session actions).2.bus).toNat.testBit line = true := by
  induction actions generalizing m with
  | nil => exact h
  | cons action rest ih =>
    refine ih ?_ fun s hs' => hs s (List.mem_cons_of_mem _ hs')
    exact Moment.testBit_requests_next (s := ⟨m, action⟩) h (hs _ List.mem_cons_self)

/-- **No request is lost.** After the dispatch of an interrupt all is requested that was requested
before, but for its own line, and all that has been raised meanwhile, its own line included; this if
the way back is not pushed onto the requests. After any other step all is requested that was
requested before and all that has been raised, if no instruction has stored to the requests. So in a
session a line that is requested, or raised, stays requested until a moment lowers it: the dispatch
of its interrupt, or a store to the requests. -/
theorem requests_step_session (m : Machine β) :
    (∀ i, m.step.1 = .interrupted i →
      m.cpu.core.registers.sp - 1 ≠ requestAddress → m.cpu.core.registers.sp - 2 ≠ requestAddress →
      ∀ k, (requests m.step.2.bus).toNat.testBit k =
        ((requests m.bus).toNat.testBit k && decide (k ≠ i.index) ||
          (raisedLines (m.requestEvents .step)).toNat.testBit k)) ∧
    ((∀ i, m.step.1 ≠ .interrupted i) →
      (m.step.1 = .executed → ∀ v, .stored v ∉ m.requestEvents .step) →
      requests m.step.2.bus = requests m.bus ||| raisedLines (m.requestEvents .step)) ∧
    ∀ actions before s after line, m.moments actions = before ++ s :: after →
      s.Raises line ∨ (requests s.machine.bus).toNat.testBit line = true ∧ ¬s.Lowers line →
      (∀ t ∈ after, ¬t.Lowers line) →
      (requests (m.session actions).2.bus).toNat.testBit line = true := by
  refine ⟨?_, ?_, ?_⟩
  · intro i h high low k
    obtain ⟨rest, events, hrest⟩ := requestEvents_of_interrupted h high low
    have law := m.requests_act .step
    rw [events, List.foldl_cons, RequestEvent.foldl_apply hrest] at law
    have after : requests m.step.2.bus = (requests m.bus &&& ~~~i.mask) ||| raisedLines rest := law
    have raised : raisedLines (m.requestEvents .step) = raisedLines rest := by
      rw [events]
      rfl
    rw [after, raised, UInt8.toNat_or, Nat.testBit_or, Interrupt.testBit_and_not_mask]
  · intro h hx
    have law := m.requests_act .step
    rw [RequestEvent.foldl_apply] at law
    · exact law
    · intro v
      cases ho : m.step.1 with
      | executed => exact hx ho v
      | interrupted i => exact absurd ho (h i)
      | halted | stopped | blocked | trapped => exact stored_not_mem_of_waits (by rw [ho]; rfl) v
  · intro actions before s after line hm hs hafter
    obtain ⟨earlier, later, rfl, -, hmachine, rfl⟩ := exists_of_moments_eq hm
    have next : (requests s.next.bus).toNat.testBit line = true := by
      rcases hs with raised | ⟨requested, kept⟩
      · exact raised.testBit_requests_next
      · exact Moment.testBit_requests_next requested kept
    have last : (m.session (earlier ++ s.action :: later)).2 = (s.next.session later).2 := by
      rw [session_append, ← hmachine]
      rfl
    rw [last]
    exact testBit_requests_session next hafter

/-- A processor that takes interrupts, two of which are requested and one is enabled, while a device
raises that one again before the dispatch is over, and another line with it. -/
def besieged : Machine Prompted where
  cpu :=
    { Cpu.new .standard with
      core :=
        { registers := { Registers.zero with sp := 0xD000, pc := 0x1234 }
          ime := true, imeNext := true, halted := false, stopped := false } }
  bus := ⟨(Ram.zero.load 0xFF0F [0x06]).load 0xFFFF [0x04], [0x00, 0x04, 0x00, 0x10]⟩

/-- The timer is dispatched and has asked again by then. Its line stays requested while the handler
runs, and so does the one that is not enabled. -/
theorem requests_step_session_besieged :
    besieged.step.1 = .interrupted .timer ∧
      (requests besieged.step.2.bus).toNat.testBit 2 = true ∧
      besieged.step.2.step.1 = .executed ∧
      requests besieged.step.2.step.2.bus = requests besieged.step.2.bus ∧
      (requests (besieged.session [.step, .step]).2.bus).toNat.testBit 2 = true ∧
      (requests (besieged.step.2.session [.step]).2.bus).toNat.testBit 1 = true := by
  have h : besieged.step.1 = .interrupted .timer := by decide +kernel
  have events : besieged.requestEvents .step =
      [.stored 0x02, .raised 0x00, .raised 0x04, .raised 0x00, .raised 0x10, .raised 0x00] := by
    decide +kernel
  obtain ⟨hx, handler⟩ : besieged.step.2.step.1 = .executed ∧
      besieged.step.2.requestEvents .step = [.raised 0x00] := by decide +kernel
  obtain ⟨dispatched, -, stays⟩ := requests_step_session besieged
  obtain ⟨-, kept, stays'⟩ := requests_step_session besieged.step.2
  have again := dispatched .timer h (by decide) (by decide) 2
  have other := dispatched .timer h (by decide) (by decide) 1
  rw [events] at again other
  -- the handler lowers nothing
  have harmless : ∀ line, ¬(⟨besieged.step.2, .step⟩ : Moment Prompted).Lowers line := by
    have ran : (⟨besieged.step.2, .step⟩ : Moment Prompted).outcome? = some .executed := by
      rw [Moment.outcome?_step, hx]
    rintro line (⟨i, hi, -⟩ | ⟨⟨v, hv⟩ | ⟨-, v, hv⟩ | ⟨i, hi, -⟩⟩)
    · simp [ran] at hi
    · simp at hv
    · simp [handler] at hv
    · simp [ran] at hi
  refine ⟨h, ?_, hx, ?_, ?_, ?_⟩
  · rw [again]
    decide
  · have nothing : raisedLines (besieged.step.2.requestEvents .step) = 0 := by
      rw [handler]
      rfl
    rw [kept (by simp [hx]) (by simp [handler]), nothing, UInt8.or_zero]
  · refine stays [.step, .step] [] ⟨besieged, .step⟩ [⟨besieged.step.2, .step⟩] 2 rfl (.inl ?_) ?_
    · exact ⟨[.stored 0x02, .raised 0x00], 0x04, [.raised 0x00, .raised 0x10, .raised 0x00], events,
        by decide, by simp⟩
    · intro t ht
      obtain rfl := List.mem_singleton.mp ht
      exact harmless 2
  · refine stays' [.step] [] ⟨besieged.step.2, .step⟩ [] 1 rfl (.inr ⟨?_, harmless 1⟩) (by simp)
    rw [other]
    decide +kernel

end Machine

end GameBoy
