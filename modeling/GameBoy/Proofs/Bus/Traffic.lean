import GameBoy.Proofs.Bus.Morphism
import GameBoy.Proofs.Instruction.Duration
import GameBoy.Proofs.Step.Cases
import Mathlib.Algebra.Ring.Nat

/-!
# The traffic on the bus

What a step does to the bus, call by call. `GameBoy.Traffic` lists, for every outcome of a step, the
calls that go with it, and `GameBoy.Machine.traffic` says that a recorded bus records exactly these,
that the clock of the processor goes on by what the ticks among them add up to, and that the same
holds of any number of steps together, every tick being one of four cycles. Recording disturbs
nothing (`GameBoy.Machine.step_map`), so this is what any bus sees.

The bookkeeping is the same everywhere: a part of a step sends some calls, and its clock goes on by
their ticks. `GameBoy.Machine.Sends` puts the two together so that parts can be composed. Microcode
sends one machine cycle after another, by induction on the program
(`GameBoy.Microcode.run_recorded`), whatever the instruction; only how many there can be takes a
look at the instructions.
-/

namespace GameBoy

/-! ### Calls -/

/-- The clock cycles of the ticks among some calls. -/
def ticks (calls : List BusCall) : List Nat :=
  calls.filterMap fun
    | .tick cycles => some cycles
    | _ => none

@[simp] theorem ticks_append (calls calls' : List BusCall) :
    ticks (calls ++ calls') = ticks calls ++ ticks calls' :=
  List.filterMap_append

/-- Calls of which none is a store or a tick. -/
def OnlyReads (calls : List BusCall) : Prop := ∀ call ∈ calls, ∃ a v, call = .read a v

/-- **The calls of one machine cycle**: at most one access, and then a tick. -/
inductive MachineCycle : List BusCall → Prop
  | idle : MachineCycle [.tick 4]
  | read (a : UInt16) (v : UInt8) : MachineCycle [.read a v, .tick 4]
  | write (a : UInt16) (v : UInt8) : MachineCycle [.write a v, .tick 4]

/-- **The calls of a number of machine cycles**, one after another. -/
inductive MachineCycles : (count : Nat) → List BusCall → Prop
  | nil : MachineCycles 0 []
  | cons {count : Nat} {first rest : List BusCall} (h : MachineCycle first)
    (hs : MachineCycles count rest) : MachineCycles (count + 1) (first ++ rest)

/-- **The calls of a look for interrupts**, which only a processor makes that takes interrupts or is
halted. -/
inductive Poll (c : Core) : List BusCall → Prop
  | looks (h : c.ime = true ∨ c.halted = true) (requested enabled : UInt8) :
    Poll c [.read 0xFF0F requested, .read 0xFFFF enabled]
  | silent (h : c.ime = false) (h' : c.halted = false) : Poll c []

/-- **The calls of a step** with a given outcome, from a core as it was before. -/
inductive Traffic (c : Core) : StepOutcome → List BusCall → Prop
  | blocked : Traffic c .blocked [.tick 4]
  | stopped : Traffic c .stopped [.tick 4]
  /-- The lines are looked at, and a cycle passes. -/
  | halted (requested enabled : UInt8) :
    Traffic c .halted [.read 0xFF0F requested, .read 0xFFFF enabled, .tick 4]
  /-- The lines are looked at, the one that is heard is lowered, and the way back is pushed. -/
  | interrupted (i : Interrupt) (requested enabled lines : UInt8) :
    Traffic c (.interrupted i)
      [.read 0xFF0F requested, .read 0xFFFF enabled,
        .read 0xFF0F lines, .write 0xFF0F (lines &&& ~~~i.mask), .tick 4, .tick 4,
        .write (c.registers.sp - 1) (highByte c.pc), .tick 4,
        .write (c.registers.sp - 2) (lowByte c.pc), .tick 4, .tick 4]
  /-- No time passes, and nothing is stored. -/
  | trapped {calls : List BusCall} (h : OnlyReads calls) : Traffic c .trapped calls
  /-- After a look for interrupts, one to six machine cycles, the first one to read the opcode. -/
  | executed {poll rest : List BusCall} (opcode : UInt8) (h : Poll c poll) {count : Nat}
    (hcount : count ≤ 5) (hrest : MachineCycles count rest) :
    Traffic c .executed (poll ++ ([.read c.pc opcode, .tick 4] ++ rest))

/-- Looking for interrupts only reads. -/
theorem Poll.onlyReads {c : Core} {poll : List BusCall} (h : Poll c poll) : OnlyReads poll := by
  cases h with
  | looks => simp [OnlyReads]
  | silent => simp [OnlyReads]

/-- A processor that takes interrupts or is halted does look. -/
theorem Poll.eq_of_or {c : Core} {poll : List BusCall} (h : Poll c poll)
    (hc : c.ime = true ∨ c.halted = true) :
    ∃ requested enabled, poll = [.read 0xFF0F requested, .read 0xFFFF enabled] := by
  cases h with
  | looks _ requested enabled => exact ⟨requested, enabled, rfl⟩
  | silent h h' => simp [h, h'] at hc

/-- Calls without ticks take no time. -/
theorem OnlyReads.ticks_eq {calls : List BusCall} (h : OnlyReads calls) : ticks calls = [] := by
  refine List.filterMap_eq_nil_iff.mpr ?_
  intro call hcall
  obtain ⟨a, v, rfl⟩ := h call hcall
  rfl

/-- **Machine cycles tick four cycles each.** -/
theorem MachineCycles.ticks_eq {count : Nat} {calls : List BusCall}
    (h : MachineCycles count calls) : ticks calls = List.replicate count 4 := by
  induction h with
  | nil => rfl
  | @cons count first rest h _ ih =>
    have hfirst : ticks first = [4] := by cases h <;> rfl
    rw [ticks_append, hfirst, ih]
    rfl

/-- **Every tick of a step is one of four cycles.** There are at most six of them, and none only if
the step is trapped. -/
theorem Traffic.ticks_eq {c : Core} {o : StepOutcome} {calls : List BusCall}
    (h : Traffic c o calls) :
    ∃ count, ticks calls = List.replicate count 4 ∧ (count = 0 ↔ o = .trapped) ∧ count ≤ 6 := by
  cases h with
  | blocked => exact ⟨1, rfl, by simp, by omega⟩
  | stopped => exact ⟨1, rfl, by simp, by omega⟩
  | halted => exact ⟨1, rfl, by simp, by omega⟩
  | interrupted => exact ⟨5, rfl, by simp, by omega⟩
  | trapped h => exact ⟨0, h.ticks_eq, by simp, by omega⟩
  | @executed poll rest opcode hpoll count hcount hrest =>
    refine ⟨count + 1, ?_, by simp, by omega⟩
    rw [ticks_append, hpoll.onlyReads.ticks_eq, ticks_append, hrest.ticks_eq]
    rfl

variable {β : Type} [Bus β]

/-! ### Microcode -/

/-- **A program sends one machine cycle after another**, as many as it takes. -/
theorem Microcode.run_recorded {α : Type} (code : Microcode α) (r : Recorded β) :
    ∃ calls, MachineCycles (code.run r).cycles calls ∧
      (code.run r).bus.calls.toList = r.calls.toList ++ calls := by
  induction code generalizing r with
  | done result => exact ⟨[], .nil, (List.append_nil _).symm⟩
  | idle next ih =>
    obtain ⟨calls, hcalls, hlog⟩ := ih (Bus.tick r machineCycle)
    refine ⟨_, .cons .idle hcalls, hlog.trans ?_⟩
    simp [Bus.tick, machineCycle]
  | read a next ih =>
    obtain ⟨calls, hcalls, hlog⟩ := ih (Bus.read r a).1 (Bus.tick (Bus.read r a).2 machineCycle)
    refine ⟨_, .cons (.read a (Bus.read r a).1) hcalls, hlog.trans ?_⟩
    simp [Bus.tick, Bus.read, machineCycle]
  | write a v next ih =>
    obtain ⟨calls, hcalls, hlog⟩ := ih (Bus.tick (Bus.write r a v) machineCycle)
    refine ⟨_, .cons (.write a v) hcalls, hlog.trans ?_⟩
    simp [Bus.tick, Bus.write, machineCycle]

/-- Looking at the lines sends two reads. -/
theorem Interrupt.pending_recorded (r : Recorded β) :
    ∃ requested enabled, (pending r).2.calls.toList =
      r.calls.toList ++ [.read 0xFF0F requested, .read 0xFFFF enabled] := by
  refine ⟨(Bus.read r requestAddress).1,
    (Bus.read (Bus.read r requestAddress).2 enableAddress).1, ?_⟩
  simp [pending, Bus.read, requestAddress, enableAddress]

/-- Lowering a line sends a read and a store. -/
theorem Interrupt.acknowledge_recorded (r : Recorded β) (i : Interrupt) :
    ∃ lines, (acknowledge r i).calls.toList =
      r.calls.toList ++ [.read 0xFF0F lines, .write 0xFF0F (lines &&& ~~~i.mask)] := by
  refine ⟨(Bus.read r requestAddress).1, ?_⟩
  simp [acknowledge, Bus.read, Bus.write, requestAddress]

namespace Machine

/-- The microcode of a dispatch pushes the way back among idle cycles. -/
theorem run_dispatchCode_recorded (c : Core) (i : Interrupt) (r : Recorded β) :
    ((dispatchCode c i).run r).bus.calls.toList =
      r.calls.toList ++ [.tick 4, .tick 4, .write (c.registers.sp - 1) (highByte c.pc), .tick 4,
        .write (c.registers.sp - 2) (lowByte c.pc), .tick 4, .tick 4] := by
  have pushes : ((dispatchCode c i).run r).bus.calls =
      ((((((r.calls.push (.tick 4)).push (.tick 4)).push
        (.write (c.registers.sp - 1) (highByte c.pc))).push (.tick 4)).push
        (.write (c.registers.sp - 2) (lowByte c.pc))).push (.tick 4)).push (.tick 4) := rfl
  rw [pushes]
  simp

/-! ### The parts of a step -/

/-- **A machine on a recorded bus has come to be another one by sending some calls**, and its clock
has gone on by their ticks. -/
structure Sends (m m' : Machine (Recorded β)) (calls : List BusCall) : Prop where
  log : m'.bus.calls.toList = m.bus.calls.toList ++ calls
  clock : m'.cpu.clock.cycles = m.cpu.clock.cycles + (ticks calls).sum

variable {m m' m'' : Machine (Recorded β)} {calls calls' : List BusCall}

omit [Bus β] in
/-- What leaves the bus and the clock alone sends nothing. -/
theorem Sends.of_eq (hb : m'.bus = m.bus) (hc : m'.cpu.clock = m.cpu.clock) : Sends m m' [] where
  log := by rw [hb, List.append_nil]
  clock := by rw [hc]; rfl

omit [Bus β] in
/-- One part after another sends the calls of both. -/
theorem Sends.trans (h : Sends m m' calls) (h' : Sends m' m'' calls') :
    Sends m m'' (calls ++ calls') where
  log := by rw [h'.log, h.log, List.append_assoc]
  clock := by rw [h'.clock, h.clock, ticks_append, List.sum_append, Nat.add_assoc]

/-- An idle cycle sends a tick. -/
theorem sends_idle (m : Machine (Recorded β)) : Sends m m.idle [.tick 4] where
  log := Array.toList_push
  clock := rfl

/-- Looking for interrupts sends two reads, if anything. -/
theorem sends_pollInterrupts (m : Machine (Recorded β)) :
    ∃ poll, Poll m.cpu.core poll ∧ Sends m m.pollInterrupts.2 poll := by
  rw [pollInterrupts]
  by_cases h : (m.cpu.core.ime || m.cpu.core.halted) = true
  · rw [if_pos h]
    obtain ⟨requested, enabled, hlog⟩ := Interrupt.pending_recorded m.bus
    exact ⟨_, .looks (by simpa using h) requested enabled, hlog, rfl⟩
  · rw [if_neg h]
    rw [Bool.not_eq_true, Bool.or_eq_false_iff] at h
    exact ⟨[], .silent h.1 h.2, .of_eq rfl rfl⟩

/-- Waking sends nothing more. -/
theorem sends_alert (m : Machine (Recorded β)) :
    ∃ poll, Poll m.cpu.core poll ∧ Sends m m.alert poll := by
  obtain ⟨poll, hpoll, hsends⟩ := m.sends_pollInterrupts
  refine ⟨poll, hpoll, ?_⟩
  rw [alert]
  split
  · rw [← List.append_nil poll]
    exact hsends.trans (.of_eq (bus_wakeFromHalt _) (clock_wakeFromHalt _))
  · exact hsends

/-- The dispatch of an interrupt lowers its line and pushes the way back. -/
theorem sends_dispatch (m : Machine (Recorded β)) (i : Interrupt) :
    ∃ lines, Sends m (m.dispatch i)
      [.read 0xFF0F lines, .write 0xFF0F (lines &&& ~~~i.mask), .tick 4, .tick 4,
        .write (m.cpu.core.registers.sp - 1) (highByte m.pc), .tick 4,
        .write (m.cpu.core.registers.sp - 2) (lowByte m.pc), .tick 4, .tick 4] := by
  obtain ⟨lines, hlower⟩ := Interrupt.acknowledge_recorded m.bus i
  refine ⟨lines, ?_, rfl⟩
  have hpush := run_dispatchCode_recorded m.cpu.core i (Interrupt.acknowledge m.bus i)
  rw [hlower, List.append_assoc] at hpush
  exact hpush

/-- Reading an opcode sends the read. -/
theorem sends_readInstruction (m : Machine (Recorded β)) :
    ∃ opcode, Sends m m.readInstruction.2 [.read m.pc opcode] :=
  ⟨_, Array.toList_push, rfl⟩

/-- Microcode after an idle cycle sends a tick, and then as many machine cycles as it takes. -/
theorem sends_perform_pause (m : Machine (Recorded β)) {n : Nat} {code : Microcode Core}
    (h : code.Within n) :
    ∃ count rest, count ≤ n ∧ MachineCycles count rest ∧
      Sends m (m.perform (Microcode.pause >>= fun _ => code)) (.tick 4 :: rest) := by
  obtain ⟨rest, hrest, hlog⟩ := code.run_recorded (Bus.tick m.bus machineCycle)
  refine ⟨_, rest, h.cycles_le _, hrest, hlog.trans ?_, ?_⟩
  · simp [Bus.tick, machineCycle]
  · have hsum : (ticks (.tick 4 :: rest)).sum = 4 + (ticks rest).sum := rfl
    rw [hsum, hrest.ticks_eq, List.sum_replicate_nat]
    change m.cpu.clock.cycles + 4 * ((code.run (Bus.tick m.bus machineCycle)).cycles + 1) = _
    omega

/-- An instruction sends the end of the cycle in which its opcode was fetched, and then at most five
machine cycles. -/
theorem sends_execute (m : Machine (Recorded β)) (i : Instruction) :
    ∃ count rest, count ≤ 5 ∧ MachineCycles count rest ∧
      Sends m (m.execute i) (.tick 4 :: rest) := by
  obtain ⟨count, rest, hcount, hrest, hsends⟩ :=
    m.sends_perform_pause (i.execute_within { m.cpu.core with ime := m.cpu.core.imeNext })
  refine ⟨count, rest, hcount, hrest, ?_⟩
  rw [execute]
  cases m.cpu.debugger.tracing <;> exact ⟨hsends.log, hsends.clock⟩

omit [Bus β] in
/-- A breakpoint sends nothing. -/
theorem Sends.trap (h : Sends m m' calls) (b : Breakpoint) : Sends m (m'.trap b) calls :=
  ⟨h.log, h.clock⟩

/-! ### Steps -/

/-- **A step sends the calls that go with its outcome.** -/
theorem sends_step (m : Machine (Recorded β)) :
    ∃ calls, Traffic m.cpu.core m.step.1 calls ∧ Sends m m.step.2 calls := by
  have h := m.step_cases
  obtain ⟨poll, hpoll, halert⟩ := m.sends_alert
  generalize m.step = s at h ⊢
  cases h with
  | blocked => exact ⟨_, .blocked, m.sends_idle⟩
  | stopped => exact ⟨_, .stopped, m.sends_idle⟩
  | held => exact ⟨[], .trapped (by simp [OnlyReads]), .of_eq rfl rfl⟩
  | halted ready hi hh =>
    obtain ⟨requested, enabled, rfl⟩ := hpoll.eq_of_or (.inr hh)
    exact ⟨_, .halted requested enabled, halert.trans m.alert.sends_idle⟩
  | interrupted i ready hi he =>
    obtain ⟨requested, enabled, rfl⟩ := hpoll.eq_of_or (.inl he)
    obtain ⟨lines, hdispatch⟩ := m.alert.sends_dispatch i
    rw [registers_alert, pc_alert] at hdispatch
    exact ⟨_, .interrupted i requested enabled lines, halert.trans hdispatch⟩
  | caught b => exact ⟨_, .trapped hpoll.onlyReads, halert.trap b⟩
  | stalled b =>
    obtain ⟨opcode, hread⟩ := m.alert.sends_readInstruction
    refine ⟨_, .trapped ?_, (halert.trans hread).trap b⟩
    intro call hcall
    rcases List.mem_append.mp hcall with hcall | hcall
    · exact hpoll.onlyReads call hcall
    · exact ⟨_, _, List.mem_singleton.mp hcall⟩
  | executed =>
    obtain ⟨opcode, hread⟩ := m.alert.sends_readInstruction
    obtain ⟨count, rest, hcount, hrest, hexecute⟩ :=
      m.alert.readInstruction.2.sends_execute m.alert.readInstruction.1
    rw [pc_alert] at hread
    exact ⟨_, .executed opcode hpoll hcount hrest, halert.trans (hread.trans hexecute)⟩

/-! ### Runs -/

/-- **Any number of steps** tick four cycles at a time, and the clock goes on by the sum. -/
theorem sends_steps (count : Nat) (m : Machine (Recorded β)) :
    ∃ calls, (∀ k ∈ ticks calls, k = 4) ∧ Sends m (steps count m).2 calls := by
  induction count generalizing m with
  | zero => exact ⟨[], by simp [ticks], .of_eq rfl rfl⟩
  | succ count ih =>
    obtain ⟨first, htraffic, hfirst⟩ := m.sends_step
    obtain ⟨rest, hrest, hsends⟩ := ih m.step.2
    refine ⟨first ++ rest, ?_, hfirst.trans hsends⟩
    intro k hk
    rw [ticks_append] at hk
    rcases List.mem_append.mp hk with hk | hk
    · obtain ⟨n, hn, -⟩ := htraffic.ticks_eq
      rw [hn] at hk
      exact List.eq_of_mem_replicate hk
    · exact hrest k hk

/-- **The traffic on the bus.** Recording does not disturb a step, nor any number of them. A step
makes the calls that go with its outcome. The clock goes on by the ticks that were sent, over any
number of steps, and all of these are of four cycles. -/
theorem traffic (m : Machine (Recorded β)) :
    ((m.map Recorded.bus).step = (m.step.1, m.step.2.map Recorded.bus) ∧
      ∃ calls, Traffic m.cpu.core m.step.1 calls ∧ Sends m m.step.2 calls) ∧
    ∀ count, steps count (m.map Recorded.bus) =
        ((steps count m).1, (steps count m).2.map Recorded.bus) ∧
      ∃ calls, (∀ k ∈ ticks calls, k = 4) ∧ Sends m (steps count m).2 calls :=
  ⟨⟨step_map Recorded.isBusMorphism_bus m, m.sends_step⟩, fun count =>
    ⟨steps_map Recorded.isBusMorphism_bus m count, m.sends_steps count⟩⟩

end Machine

end GameBoy
