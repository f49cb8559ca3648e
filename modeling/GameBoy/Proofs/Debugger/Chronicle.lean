import GameBoy.Proofs.Debugger.Bare
import GameBoy.Proofs.Debugger.Entries
import GameBoy.Proofs.Session.Moments
import GameBoy.Proofs.Step.Outcome

/-!
# The trace is a faithful log

What there is to tell of a step follows from its outcome and from the machine before and after it:
`GameBoy.Machine.entries`. A halt may have ended, and then an interrupt was dispatched, or a
breakpoint stopped the instruction, or the instruction ran. The text of an instruction is the one
that memory held before the instruction ran, and the registers beside it are those afterwards.

A step records just that (`GameBoy.Machine.records_step`), although four parts of it write to the
trace. So the trace at the end of a session is what there was to tell at all its moments in turn, or
as much of the end of it as a trace holds: `GameBoy.Machine.trace_session`.
-/

namespace GameBoy

/-! ### Entries -/

/-- An entry that tells of an event. -/
def TraceEntry.event (address : UInt16) (text : String) : TraceEntry where
  kind := .event
  address := some address
  text := text
  comment := none

namespace Debugger

/-- An event is recorded by the entry that tells of it. -/
theorem records_event (d : Debugger) (address : UInt16) (text : String) :
    Records d (d.event address text) [.event address text] :=
  d.records_record _

/-- Nothing is recorded of leave being used up. -/
theorem records_spendPass (d : Debugger) : Records d d.spendPass [] := by
  rw [spendPass]
  split
  · exact .of_hold d .free
  · exact .of_hold d d.hold

/-- Without leave to pass, the breakpoint that is run into is the first one on the way. -/
theorem hit?_eq_find? {d : Debugger} (h : d.hold ≠ .pass) (places : List Breakpoint) :
    d.hit? places = places.find? fun b => decide (b ∈ d.breakpoints) :=
  if_neg h

end Debugger

namespace Machine

variable {β : Type} [Bus β]

omit [Bus β] in
/-- What there is to tell of the end of a halt, by a machine that is halted. -/
def wakeEntries (m : Machine β) : List TraceEntry :=
  if m.cpu.core.halted then [.event m.pc "wake from halt"] else []

/-- **The breakpoint that is hit by the next instruction**: of the places that it is about to touch,
itself included, the first one with a breakpoint. -/
def obstacle? (m : Machine β) : Option Breakpoint :=
  (⟨.execute, m.pc⟩ :: m.instruction.accesses m.cpu.registers (Bus.peek m.bus)).find? fun b =>
    decide (b ∈ m.cpu.debugger.breakpoints)

/-- What there is to tell of an instruction that runs: where it is, its text as it stands before,
and the registers afterwards. -/
def opEntry (m : Machine β) : TraceEntry where
  kind := .op
  address := some m.pc
  text := (disassemble m.bus m.pc).1
  comment := some m.step.2.cpu.registers.summary

/-- **What there is to tell of a step.** -/
def entries (m : Machine β) : List TraceEntry :=
  match m.step.1 with
  | .blocked | .stopped | .halted => []
  | .interrupted i =>
    m.wakeEntries ++ [.event i.vector ("interrupt " ++ i.name ++ " from $" ++ wordHex m.pc)]
  | .trapped =>
    if m.cpu.debugger.trapped then []
    else m.wakeEntries ++ m.obstacle?.toList.map fun b => .event b.address b.hitText
  | .executed => m.wakeEntries ++ [m.opEntry]

/-! ### The parts of a step -/

/-- A look for interrupts tells of the end of a halt, where it leads to anything but another idle
cycle. -/
theorem records_alert_wakeEntries {m : Machine β}
    (h : m.pollInterrupts.1.isSome = true ∨ m.cpu.core.halted = false) :
    m.cpu.debugger.Records m.alert.cpu.debugger m.wakeEntries := by
  rw [cpu_alert, wakeEntries]
  cases halted : m.cpu.core.halted with
  | true =>
    have found : m.pollInterrupts.1.isSome = true := h.resolve_right (by simp [halted])
    rw [found, Bool.and_self, if_pos rfl, if_pos rfl]
    exact m.cpu.debugger.records_event _ _
  | false =>
    rw [Bool.and_false, if_neg Bool.false_ne_true, if_neg Bool.false_ne_true]
    exact .of_hold _ _

/-- A machine that goes on to an instruction tells of the end of a halt. -/
theorem Proceeds.records_alert {m : Machine β} (h : m.Proceeds) :
    m.cpu.debugger.Records m.alert.cpu.debugger m.wakeEntries := by
  refine records_alert_wakeEntries ?_
  rw [Proceeds] at h
  cases found : m.pollInterrupts.1 with
  | none =>
    rw [found] at h
    exact .inr h
  | some i => exact .inl rfl

/-- An idle cycle after a look for interrupts that found none tells nothing. -/
theorem debugger_alert_of_eq_none {m : Machine β} (h : m.pollInterrupts.1 = none) :
    m.alert.cpu.debugger = m.cpu.debugger := by
  rw [cpu_alert, h]
  rfl

/-- The dispatch of an interrupt tells where it led to and where from. -/
theorem records_dispatch (m : Machine β) (i : Interrupt) :
    m.cpu.debugger.Records (m.dispatch i).cpu.debugger
      [.event i.vector ("interrupt " ++ i.name ++ " from $" ++ wordHex m.pc)] :=
  (m.cpu.debugger.records_event _ _).trans (Debugger.records_spendPass _)

/-- What an instruction that runs tells the debugger, which makes an entry of it where a trace is
kept. -/
theorem debugger_execute_eq (m : Machine β) (i : Instruction) :
    (m.execute i).cpu.debugger = m.cpu.debugger.spendPass.record
      { kind := .op
        address := some m.pc
        text := i.textAt (Bus.peek m.bus) m.pc
        comment := some (m.execute i).cpu.registers.summary } := by
  have registers : (m.execute i).cpu.registers = (m.runCode i).cpu.registers :=
    congrArg Core.registers (core_congr (m.bare_execute i))
  rw [registers, execute]
  cases tracing : m.cpu.debugger.tracing with
  | true => rfl
  | false =>
    have off : m.cpu.debugger.spendPass.tracing = false :=
      m.cpu.debugger.records_spendPass.tracing.trans tracing
    rw [Debugger.record, off]
    rfl

/-- An instruction that runs tells of itself. -/
theorem records_execute (m : Machine β) (i : Instruction) :
    m.cpu.debugger.Records (m.execute i).cpu.debugger
      [{ kind := .op
         address := some m.pc
         text := i.textAt (Bus.peek m.bus) m.pc
         comment := some (m.execute i).cpu.registers.summary }] := by
  rw [debugger_execute_eq]
  exact (Debugger.records_spendPass _).trans (Debugger.records_record _ _)

/-! ### Steps -/

variable {m : Machine β}

/-- **A breakpoint that stops an instruction at its fetch** is the first on the way. -/
theorem obstacle?_of_fetchBreakpoint? {b : Breakpoint} (h : m.fetchBreakpoint? = some b) :
    m.obstacle? = some b := by
  rw [fetchBreakpoint?, Debugger.hit?_eq_find? (Debugger.hold_ne_pass_of_hit? h)] at h
  rw [obstacle?, ← List.singleton_append, List.find?_append, h, Option.some_or]

/-- **A breakpoint that stops an instruction at a load or a store** is the first on the way. -/
theorem obstacle?_of_accessBreakpoint? {b : Breakpoint} (he : m.fetchBreakpoint? = none)
    (h : m.accessBreakpoint? m.instruction = some b) : m.obstacle? = some b := by
  have hold := Debugger.hold_ne_pass_of_hit? h
  rw [fetchBreakpoint?, Debugger.hit?_eq_find? hold] at he
  rw [accessBreakpoint?, Debugger.hit?_eq_find? hold] at h
  rw [obstacle?, ← List.singleton_append, List.find?_append, he, h, Option.none_or]

/-- **A step records what there is to tell of it.** -/
theorem records_step [QuietBus β] (m : Machine β) :
    m.cpu.debugger.Records m.step.2.cpu.debugger m.entries := by
  rw [entries, opEntry]
  have hm := m.step_cases
  generalize m.step = s at hm ⊢
  cases hm with
  | blocked | stopped => exact .of_hold _ _
  | held hb hs ht =>
    rw [if_pos ht]
    exact .of_hold _ _
  | halted ready hi hh =>
    rw [idle, perform, debugger_alert_of_eq_none hi]
    exact .of_hold _ _
  | interrupted i ready hi he =>
    have found : m.pollInterrupts.1.isSome = true := by rw [hi]; rfl
    have dispatched := m.alert.records_dispatch i
    rw [pc_alert] at dispatched
    exact (records_alert_wakeEntries (.inl found)).trans dispatched
  | caught b ready hp hb =>
    rw [fetchBreakpoint?_alert] at hb
    rw [if_neg (Bool.eq_false_iff.mp ready.trapped), obstacle?_of_fetchBreakpoint? hb]
    exact hp.records_alert.trans (Debugger.records_trap _ b)
  | stalled b ready hp he hb =>
    rw [fetchBreakpoint?_alert] at he
    rw [accessBreakpoint?_readInstruction] at hb
    rw [if_neg (Bool.eq_false_iff.mp ready.trapped), obstacle?_of_accessBreakpoint? he hb]
    exact hp.records_alert.trans (Debugger.records_trap _ b)
  | executed ready hp =>
    -- reading the opcode has left the bus alone, and so the text is the one from before
    have pc : m.alert.readInstruction.2.pc = m.pc := m.pc_alert
    have text : m.alert.readInstruction.1.textAt (Bus.peek m.alert.readInstruction.2.bus) m.pc =
        (disassemble m.bus m.pc).1 := by
      simp only [readInstruction_eq, instruction, bus_alert, pc_alert, disassemble]
    have ran := m.alert.readInstruction.2.records_execute m.alert.readInstruction.1
    rw [pc, text] at ran
    exact hp.records_alert.trans ran

/-- **A step that a breakpoint stops hits one**, unless the processor was held before. -/
theorem exists_obstacle? [QuietBus β] (ho : m.step.1 = .trapped)
    (free : m.cpu.debugger.trapped = false) : ∃ b, m.obstacle? = some b := by
  have hm := m.step_cases
  generalize m.step = s at hm ho
  cases hm with
  | held _ _ ht => exact absurd (ht.symm.trans free) (by simp)
  | caught b _ _ hb =>
    rw [fetchBreakpoint?_alert] at hb
    exact ⟨b, obstacle?_of_fetchBreakpoint? hb⟩
  | stalled b _ _ he hb =>
    rw [fetchBreakpoint?_alert] at he
    rw [accessBreakpoint?_readInstruction] at hb
    exact ⟨b, obstacle?_of_accessBreakpoint? he hb⟩
  | _ => simp at ho

end Machine

/-! ### Sessions -/

namespace Moment

variable {β : Type} [Bus β]

/-- **What there is to tell of a moment**: that of the step, if one is made, or that the processor
has been woken from a stop. -/
def entries (s : Moment β) : List TraceEntry :=
  match s.action with
  | .step => s.machine.entries
  | .wakeFromStop =>
    if s.machine.cpu.core.stopped then [.event s.machine.pc "wake from stop"] else []
  | _ => []

/-- **At every moment what there is to tell is recorded**, as long as nobody interferes with the
trace. -/
theorem trace_next [QuietBus β] {s : Moment β} (on : s.machine.cpu.debugger.tracing = true)
    (kept : s.action ≠ .clearTrace) (keeps : s.action ≠ .setTracing false) :
    s.next.cpu.debugger.tracing = true ∧ s.next.cpu.debugger.trace.toList =
      (s.machine.cpu.debugger.trace.toList ++ s.entries).rtake Trace.capacity := by
  obtain ⟨m, action⟩ := s
  have of_records {d : Debugger} {entries : List TraceEntry}
      (h : m.cpu.debugger.Records d entries) :
      d.tracing = true ∧
        d.trace.toList = (m.cpu.debugger.trace.toList ++ entries).rtake Trace.capacity := by
    refine ⟨h.tracing.trans on, ?_⟩
    rw [h.toList, if_pos on]
  have silent : (m.cpu.debugger.trace.toList ++ []).rtake Trace.capacity =
      m.cpu.debugger.trace.toList := by
    rw [List.append_nil, Trace.rtake_toList]
  cases action with
  | step => exact of_records m.records_step
  | wakeFromStop =>
    refine of_records ?_
    rw [entries, next]
    change m.cpu.debugger.Records m.cpu.wakeFromStop.debugger _
    rw [Cpu.wakeFromStop]
    cases m.cpu.core.stopped with
    | true => exact Debugger.records_event _ _ _
    | false => exact .of_hold _ _
  | clearTrace => exact absurd rfl kept
  | setTracing tracing =>
    cases tracing with
    | true => exact ⟨rfl, silent.symm⟩
    | false => exact absurd rfl keeps
  | acceptsInterrupt =>
    have same : (Moment.mk m .acceptsInterrupt).next.cpu = m.cpu := m.cpu_acceptsInterrupt
    rw [same]
    exact ⟨on, silent.symm⟩
  | _ => exact ⟨on, silent.symm⟩

end Moment

namespace Machine

variable {β : Type} [Bus β] [QuietBus β]

/-- What a session adds to a trace. -/
theorem toList_trace_session {m : Machine β} (on : m.cpu.debugger.tracing = true)
    {actions : List Action} (kept : .clearTrace ∉ actions) (keeps : .setTracing false ∉ actions) :
    (m.session actions).2.cpu.debugger.trace.toList =
      (m.cpu.debugger.trace.toList ++ (m.moments actions).flatMap Moment.entries).rtake
        Trace.capacity := by
  induction actions generalizing m with
  | nil =>
    change m.cpu.debugger.trace.toList = (_ ++ []).rtake Trace.capacity
    rw [List.append_nil, Trace.rtake_toList]
  | cons action rest ih =>
    rw [List.mem_cons, not_or] at kept keeps
    obtain ⟨kept, kept'⟩ := kept
    obtain ⟨keeps, keeps'⟩ := keeps
    obtain ⟨still, told⟩ :=
      Moment.trace_next (s := ⟨m, action⟩) on (Ne.symm kept) (Ne.symm keeps)
    have later := ih still kept' keeps'
    rw [told, rtake_rtake_append, List.append_assoc] at later
    exact later

/-- **The trace is a faithful log.** On a quiet bus, with tracing on and a trace that holds nothing
yet, the trace at the end of a session that does not interfere with it is what there was to tell at
its moments in turn, or the last thousand entries of that. A run of steps is the session in which
nothing else is done. Of a step that is newly trapped there is a breakpoint to tell of. -/
theorem trace_session {m : Machine β} (on : m.cpu.debugger.tracing = true)
    (fresh : m.cpu.debugger.trace.toList = []) {actions : List Action}
    (kept : .clearTrace ∉ actions) (keeps : .setTracing false ∉ actions) :
    (m.session actions).2.cpu.debugger.trace.toList =
        ((m.moments actions).flatMap Moment.entries).rtake 1000 ∧
      ∀ s ∈ m.moments actions, s.outcome? = some .trapped →
        s.machine.cpu.debugger.trapped = false → ∃ b, s.machine.obstacle? = some b := by
  constructor
  · have told := toList_trace_session on kept keeps
    rwa [fresh, List.nil_append] at told
  · intro s _ trapped free
    exact exists_obstacle? (Moment.eq_of_outcome? trapped).2 free

/-- A machine that keeps a trace. It is halted, there is an interrupt to wake it, and a breakpoint
waits for the store in front of it, which overwrites its own opcode. -/
def selfModifying : Machine Ram where
  cpu :=
    { (Cpu.new ⟨.dmg, true, true⟩).withDebugger fun d => (d.addBreakpoint ⟨.write, 0x0100⟩).2 with
      core := { (Cpu.new .standard).core with halted := true } }
  bus := (Ram.zero.load 0x0100 [0xEA, 0x00, 0x01]).load 0xFF0F [0x01] |>.load 0xFFFF [0x01]

/-- Waking, being stopped and going on are recorded in turn. -/
theorem trace_session_selfModifying :
    (selfModifying.session [.step, .resume, .step, .step]).2.cpu.debugger.trace.toList =
      ((selfModifying.moments [.step, .resume, .step, .step]).flatMap Moment.entries).rtake 1000 :=
  (trace_session rfl rfl (by decide) (by decide)).1

end Machine

end GameBoy
