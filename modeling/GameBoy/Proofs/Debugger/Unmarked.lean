import GameBoy.Proofs.Debugger.Trapped
import GameBoy.Proofs.Instruction.Accesses
import GameBoy.Proofs.Session.Hold

/-!
# Nothing marked slips through

An instruction that runs without leave to pass is not marked by a breakpoint: neither is its fetch,
nor is any load or store that it makes. The breakpoints are looked for before the instruction
begins, at the places where it is going to load and store by what peeking shows then. What is proved
here is about the calls that do go over the bus (`GameBoy.Machine.calls_of_executed`), which are
worked out from bytes that the instruction fetches as it runs. So it has to find them as they were
shown (`GameBoy.Machine.Steady`); a bus that changes them in between can lead an instruction past a
breakpoint.

Leave to pass is given by the driver, and lasts until the processor next makes progress
(`GameBoy.Machine.hold_session`). So which places an instruction can touch follows from what has
been done to the processor since its creation.
-/

namespace GameBoy.Machine

variable {β : Type} [Bus β]

/-! ### The instruction at hand -/

/-- The opcode that a step reads, if it comes to read one. -/
def opcode (m : Machine β) : UInt8 := (Bus.read m.alert.bus m.pc).1

/-- What peeking shows once the opcode has been read. -/
def shown (m : Machine β) : UInt16 → UInt8 := Bus.peek m.alert.readInstruction.2.bus

/-- **The instruction is one that is watched**: one that copies between a register and memory. -/
def Watched (m : Machine β) : Prop :=
  ∃ a, LoadsFrom m.cpu.registers m.shown m.opcode a ∨ StoresTo m.cpu.registers m.shown m.opcode a

/-- **The instruction holds still**: the bytes that follow its opcode are found, when they are
fetched one cycle after the other, as they were shown before. -/
def Steady (m : Machine β) : Prop :=
  Finds m.shown (Bus.tick m.alert.readInstruction.2.bus machineCycle) (m.fetched.following m.pc)

/-- The instruction is the one that the opcode stands for. -/
theorem fetched_eq (m : Machine β) : m.fetched = .decode m.opcode := by
  rw [opcode, ← pc_alert m]
  rfl

/-- An instruction that is watched has accesses to be foreseen. -/
theorem Watched.accesses_ne_nil {m : Machine β} (h : m.Watched) :
    m.fetched.accesses m.cpu.registers m.shown ≠ [] := by
  rw [fetched_eq]
  obtain ⟨a, h | h⟩ := h
  · exact List.ne_nil_of_mem (Instruction.mem_accesses_of_loadsFrom h)
  · exact List.ne_nil_of_mem (Instruction.mem_accesses_of_storesTo h)

/-- On a quiet bus it is enough that time alone does not change the bytes of the instruction. -/
theorem steady_of_tick [QuietBus β] {m : Machine β}
    (h : ∀ a ∈ m.fetched.following m.pc, ∀ count,
      Bus.peek ((Bus.tick · machineCycle)^[count] m.bus) a = Bus.peek m.bus a) : m.Steady := by
  have same : m.alert.readInstruction.2.bus = m.bus := m.retries_readInstruction.bus
  rw [Steady, shown, same]
  exact .of_tick fun a ha count => h a ha (count + 1)

/-! ### The calls of an instruction -/

/-- An instruction that is watched fetches what follows its opcode, and then loads and stores where
it was foreseen. -/
theorem calls_execute {m : Machine (Recorded β)} {i : Instruction} {peek : UInt16 → UInt8}
    (h : i.accesses m.cpu.registers peek ≠ [])
    (hf : Finds peek (Bus.tick m.bus.bus machineCycle) (i.following m.pc)) :
    ∃ data, (m.execute i).bus.calls.toList = m.bus.calls.toList ++
        .tick 4 :: (Microcode.fetchCalls peek (i.following m.pc) ++ data) ∧
      data.filterMap BusCall.place? = i.accesses m.cpu.registers peek := by
  have makes := Instruction.execute_makes (c := { m.cpu.core with ime := m.cpu.core.imeNext }) h
  obtain ⟨data, hlog, hdata⟩ := makes.run_recorded (Bus.tick m.bus machineCycle) hf
  refine ⟨data, ?_, hdata⟩
  have ran : (m.execute i).bus = (m.runCode i).bus := congrArg (·.bus) (m.bare_execute i)
  -- the cycle in which the opcode was read ends first
  have ticked : (Bus.tick m.bus machineCycle).calls.toList = m.bus.calls.toList ++ [.tick 4] :=
    Array.toList_push
  rw [ticked, List.append_assoc] at hlog
  rw [ran]
  exact hlog

/-- The outcome of a step is the same whether or not the calls are recorded. -/
theorem step_fst_recorded (m : Machine β) : m.recorded.step.1 = m.step.1 :=
  (congrArg (·.1) (step_map Recorded.isBusMorphism_bus m.recorded)).symm

/-- Looking for interrupts on one bus and on another. -/
theorem alert_map {γ : Type} [Bus γ] {f : β → γ} (hf : IsBusMorphism f) (m : Machine β) :
    (m.map f).alert = m.alert.map f := by
  simp only [alert, pollInterrupts_map hf]
  split
  · exact wakeFromHalt_map _
  · rfl

/-- Recording does not change which instruction is read, nor what its bus is like by then. -/
theorem readInstruction_recorded (m : Machine β) :
    m.alert.readInstruction =
      (m.recorded.alert.readInstruction.1,
        m.recorded.alert.readInstruction.2.map Recorded.bus) := by
  rw [← readInstruction_map Recorded.isBusMorphism_bus, ← alert_map Recorded.isBusMorphism_bus]
  rfl

/-- The opcode is read after the look for interrupts. -/
theorem calls_readInstruction_recorded (m : Machine β) :
    m.recorded.alert.readInstruction.2.bus.calls.toList =
      m.recorded.alert.bus.calls.toList ++ [.read m.pc m.opcode] := by
  have same : m.alert = m.recorded.alert.map Recorded.bus :=
    alert_map Recorded.isBusMorphism_bus m.recorded
  have pc : m.recorded.alert.pc = m.pc := m.recorded.pc_alert
  rw [opcode, same, ← pc]
  exact Array.toList_push

/-- **A step that runs an instruction**, on a recorded bus: what is in the log before the
instruction begins is a look for interrupts and the reading of the opcode, and everything else is as
it is without a log. The core is as it was, but for a halt that has ended. -/
theorem recorded_begin_of_executed {m : Machine β} (h : m.step.1 = .executed) :
    ∃ (n : Machine (Recorded β)) (poll : List BusCall), Poll m.cpu.core poll ∧
      n.bus.calls.toList = poll ++ [.read m.pc m.opcode] ∧
      n.cpu.core = { m.cpu.core with halted := false } ∧
      n.bus.bus = m.alert.readInstruction.2.bus ∧ m.recorded.step.2 = n.execute m.fetched := by
  have recorded : m.recorded.step.1 = .executed := m.step_fst_recorded.trans h
  have hm := m.recorded.step_cases
  generalize m.recorded.step = s at hm recorded ⊢
  cases hm with
  | executed _ hp =>
    obtain ⟨poll, hpoll, halert⟩ := m.recorded.sends_alert
    have read := m.readInstruction_recorded
    have instruction : m.recorded.alert.readInstruction.1 = m.fetched := (congrArg (·.1) read).symm
    have polled : m.recorded.alert.bus.calls.toList = poll := halert.log
    refine ⟨m.recorded.alert.readInstruction.2, poll, hpoll, ?_, ?_,
      (congrArg (·.2.bus) read).symm, by rw [instruction]⟩
    · rw [calls_readInstruction_recorded, polled]
    · change m.recorded.alert.cpu.core = _
      rw [core_alert, halted_alert hp]
      rfl
  | _ => simp at recorded

/-- The same, of the registers alone. -/
theorem recorded_step_of_executed {m : Machine β} (h : m.step.1 = .executed) :
    ∃ (n : Machine (Recorded β)) (poll : List BusCall), Poll m.cpu.core poll ∧
      n.bus.calls.toList = poll ++ [.read m.pc m.opcode] ∧ n.cpu.registers = m.cpu.registers ∧
      n.bus.bus = m.alert.readInstruction.2.bus ∧ m.recorded.step.2 = n.execute m.fetched := by
  obtain ⟨n, poll, hpoll, before, core, bus, ran⟩ := recorded_begin_of_executed h
  have registers : n.cpu.registers = m.cpu.registers := by
    rw [Cpu.registers, core]
    rfl
  exact ⟨n, poll, hpoll, before, registers, bus, ran⟩

/-- **The calls of an instruction that is watched.** After a look for interrupts come the bytes of
the instruction, and then data. Of these all loads and stores are where they were foreseen. -/
theorem calls_of_executed {m : Machine β} (h : m.step.1 = .executed) (hw : m.Watched)
    (hs : m.Steady) :
    ∃ poll data, Poll m.cpu.core poll ∧
      m.recorded.step.2.bus.calls.toList = poll ++ .read m.pc m.opcode :: .tick 4 ::
        (Microcode.fetchCalls m.shown (m.fetched.following m.pc) ++ data) ∧
      data.filterMap BusCall.place? = m.fetched.accesses m.cpu.registers m.shown := by
  obtain ⟨n, poll, hpoll, before, registers, bus, ran⟩ := recorded_step_of_executed h
  have pc : n.pc = m.pc := congrArg Registers.pc registers
  -- what was foreseen on the bus itself is what is found on the recorded one
  have foreseen := hw.accesses_ne_nil
  have found := hs
  rw [← registers] at foreseen
  rw [Steady, ← bus, ← pc] at found
  obtain ⟨data, hlog, hdata⟩ := calls_execute foreseen found
  rw [registers] at hdata
  rw [pc] at hlog
  refine ⟨poll, data, hpoll, ?_, hdata⟩
  rw [ran, hlog, before, List.append_assoc]
  rfl

/-- **What runs without leave to pass is not marked**, as far as it was looked for. -/
theorem not_mem_of_executed {m : Machine β} (h : m.step.1 = .executed)
    (hp : m.cpu.debugger.hold ≠ .pass) :
    ⟨.execute, m.pc⟩ ∉ m.cpu.debugger.breakpoints ∧
      ∀ b ∈ m.fetched.accesses m.cpu.registers m.shown, b ∉ m.cpu.debugger.breakpoints := by
  have hm := m.step_cases
  generalize m.step = s at hm h
  cases hm with
  | executed _ _ he ha =>
    rw [fetchBreakpoint?_alert, fetchBreakpoint?, Debugger.hit?_eq_none_iff] at he
    rw [accessBreakpoint?] at ha
    change m.alert.cpu.debugger.hit? _ = none at ha
    rw [hit?_alert, Debugger.hit?_eq_none_iff] at ha
    constructor
    · exact he.resolve_left hp _ (List.mem_singleton_self _)
    · have free := ha.resolve_left hp
      change ∀ b ∈ Instruction.accesses m.fetched m.alert.cpu.core.registers m.shown, _ at free
      rwa [registers_alert] at free
  | _ => simp at h

/-- **Nothing marked slips through.** In a session from the creation of a processor on there is
leave to pass if and only if the driver has resumed since the processor last made progress. What
runs without leave is not marked to be fetched. If it is watched and holds still, then after a look
for interrupts and the bytes of the instruction only data goes over the bus, loaded and stored where
it was foreseen, and nothing of it is loaded from or stored to an address that is marked. On a quiet
bus an instruction holds still if time alone does not change its bytes. -/
theorem unmarked_of_executed (config : Config) (bus : β) (actions : List Action) (m : Machine β) :
    let fresh : Machine β := ⟨.new config, bus⟩
    ((fresh.session actions).2.cpu.debugger.hold = .pass ↔
      Moment.Resumed (fresh.moments actions)) ∧
    (m.step.1 = .executed → m.cpu.debugger.hold ≠ .pass →
      ⟨.execute, m.pc⟩ ∉ m.cpu.debugger.breakpoints ∧
      (m.Watched → m.Steady → ∃ poll data, Poll m.cpu.core poll ∧
        m.recorded.step.2.bus.calls.toList = poll ++ .read m.pc m.opcode :: .tick 4 ::
          (Microcode.fetchCalls m.shown (m.fetched.following m.pc) ++ data) ∧
        data.filterMap BusCall.place? = m.fetched.accesses m.cpu.registers m.shown ∧
        (∀ a v, .read a v ∈ data → ⟨.read, a⟩ ∉ m.cpu.debugger.breakpoints) ∧
        ∀ a v, .write a v ∈ data → ⟨.write, a⟩ ∉ m.cpu.debugger.breakpoints)) ∧
    ∀ [QuietBus β], (∀ a ∈ m.fetched.following m.pc, ∀ count,
      Bus.peek ((Bus.tick · machineCycle)^[count] m.bus) a = Bus.peek m.bus a) → m.Steady := by
  intro fresh
  refine ⟨(hold_session config bus actions).pass, fun h hp => ?_, fun hs => steady_of_tick hs⟩
  obtain ⟨fetch, access⟩ := not_mem_of_executed h hp
  refine ⟨fetch, fun hw hs => ?_⟩
  obtain ⟨poll, data, hpoll, hlog, hdata⟩ := calls_of_executed h hw hs
  have free : ∀ call ∈ data, ∀ b, call.place? = some b → b ∉ m.cpu.debugger.breakpoints := by
    intro call hc b hb
    refine access b ?_
    rw [← hdata]
    exact List.mem_filterMap.mpr ⟨call, hc, hb⟩
  exact ⟨poll, data, hpoll, hlog, hdata, fun _ _ hc => free _ hc _ rfl,
    fun _ _ hc => free _ hc _ rfl⟩

/-- Memory with a store of the stack pointer that begins on its last page and ends on its first one.
-/
def wrappingStore : Ram := Ram.zero.load 0xFFFE [0x08, 0xFF, 0xC0]

/-- The driver resumes, which is used up by the first instruction, and then marks some places, the
bytes of the store among them. -/
def markingActions : List Action :=
  [.resume, .step, .jump 0xFFFE, .addBreakpoint ⟨.read, 0xFFFF⟩, .addBreakpoint ⟨.write, 0xC0FE⟩]

/-- The store runs, past the places that are marked. -/
theorem unmarked_of_executed_wrappingStore :
    let fresh : Machine Ram := ⟨.new .standard, wrappingStore⟩
    let m := (fresh.session markingActions).2
    m.step.1 = .executed ∧ m.cpu.debugger.hold ≠ .pass ∧
      ¬Moment.Resumed (fresh.moments markingActions) ∧ m.Watched ∧ m.Steady ∧
      ∃ poll data, m.recorded.step.2.bus.calls.toList = poll ++ .read 0xFFFE 0x08 :: .tick 4 ::
          (Microcode.fetchCalls m.shown [0xFFFF, 0x0000] ++ data) ∧
        data.filterMap BusCall.place? = [⟨.write, 0xC0FF⟩, ⟨.write, 0xC100⟩] ∧
        ∀ a v, .write a v ∈ data → ⟨.write, a⟩ ∉ m.cpu.debugger.breakpoints := by
  intro fresh m
  obtain ⟨pass, marks, steady⟩ :=
    unmarked_of_executed .standard wrappingStore markingActions m
  obtain ⟨executed, free, pc, opcode, following, places⟩ :
      m.step.1 = .executed ∧ m.cpu.debugger.hold = .free ∧ m.pc = 0xFFFE ∧ m.opcode = 0x08 ∧
        m.fetched.following m.pc = [0xFFFF, 0x0000] ∧
        m.fetched.accesses m.cpu.registers m.shown = [⟨.write, 0xC0FF⟩, ⟨.write, 0xC100⟩] := by
    decide +kernel
  have spent : m.cpu.debugger.hold ≠ .pass := by
    rw [free]
    nofun
  have watched : m.Watched := by
    rw [Watched, opcode]
    exact ⟨_, .inr .lowByte⟩
  have still (ram : Ram) (a : UInt16) (count : Nat) :
      Bus.peek ((Bus.tick · machineCycle)^[count] ram) a = Bus.peek ram a := by
    induction count generalizing ram with
    | zero => rfl
    | succ count ih => exact ih _
  have holds := steady fun a _ => still m.bus a
  obtain ⟨poll, data, -, hlog, hdata, -, stores⟩ := (marks executed spent).2 watched holds
  rw [following, pc, opcode] at hlog
  exact ⟨executed, spent, fun resumed => spent (pass.mpr resumed), watched, holds, poll, data, hlog,
    hdata.trans places, stores⟩

end GameBoy.Machine
