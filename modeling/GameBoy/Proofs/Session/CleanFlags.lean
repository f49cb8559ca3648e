import GameBoy.Proofs.Debugger.Unmarked
import GameBoy.Proofs.Instruction.CleanFlags
import GameBoy.Proofs.Session.Orders

/-!
# F holds flags and nothing else

The four bits of F that do not exist are zero at any time, whatever has been done to the processor
since its creation. Instructions see to that themselves
(`GameBoy.Instruction.execute_ensures_clean`); a driver can put any registers in, but they are
cleaned on the way (`GameBoy.Core.clean_start`, `GameBoy.Registers.Clean.assign`).

The bits would show in memory: the accumulator and the flags can be pushed on the stack, and are the
only place from which F gets there. `GameBoy.Machine.calls_of_push` says what a push sends over the
bus, and so the low nibble of what is pushed is zero as well (`GameBoy.Machine.clean_after`).
-/

namespace GameBoy

/-- Whatever registers a core starts with, it starts with clean ones. -/
theorem Core.clean_start (r : Registers) : (start r).registers.Clean := r.clean_masked

/-- A direct change leaves clean registers clean. -/
theorem Registers.Clean.assign {c : Core} (h : c.registers.Clean) (x : Assignment) :
    (c.assign x).registers.Clean := by
  cases x with
  | f value => exact c.registers.clean_setF value
  | af value => exact c.registers.clean_setAF value
  | _ => exact h

namespace Machine

variable {β : Type} [Bus β] {m : Machine β}

/-! ### One thing at a time -/

/-- An instruction that runs. -/
theorem clean_execute (h : m.cpu.registers.Clean) (i : Instruction) :
    (m.execute i).cpu.registers.Clean := by
  have start : Registers.Clean { m.cpu.core with ime := m.cpu.core.imeNext }.registers := h
  have ran := (i.execute_ensures_clean start).result (Bus.tick m.bus machineCycle)
  rw [execute]
  cases m.cpu.debugger.tracing <;> exact ran

/-- **A step leaves clean registers clean.** -/
theorem clean_step (h : m.cpu.registers.Clean) : m.step.2.cpu.registers.Clean := by
  have hm := m.step_cases
  have alert : m.alert.cpu.core.registers.Clean := by rwa [registers_alert]
  generalize m.step = s at hm ⊢
  cases hm with
  | blocked | stopped | held => exact h
  | halted | interrupted | caught | stalled => exact alert
  | executed =>
    have read : m.alert.readInstruction.2.cpu.registers.Clean := alert
    exact clean_execute read _

/-- **Whatever a driver does** leaves clean registers clean. -/
theorem clean_act (h : m.cpu.registers.Clean) (action : Action) :
    (m.act action).2.cpu.registers.Clean := by
  cases action with
  | step => exact clean_step h
  | reset => exact Core.clean_start _
  | resetTo registers => exact Core.clean_start registers
  | wakeFromStop =>
    change m.cpu.wakeFromStop.core.registers.Clean
    rw [Cpu.core_wakeFromStop]
    exact h
  | assign x => exact Registers.Clean.assign h x
  | acceptsInterrupt =>
    change m.acceptsInterrupt.2.cpu.registers.Clean
    rwa [cpu_acceptsInterrupt]
  | _ => exact h

/-- **A session leaves clean registers clean.** -/
theorem clean_session (h : m.cpu.registers.Clean) (actions : List Action) :
    (m.session actions).2.cpu.registers.Clean := by
  induction actions generalizing m with
  | nil => exact h
  | cons action rest ih => exact ih (clean_act h action)

/-! ### What is pushed -/

/-- A push sends the high byte and then the low byte, after the cycle in which its opcode was read
and an idle one. -/
theorem calls_execute_push (n : Machine (Recorded β)) (source : StackPair) :
    (n.execute (.push source)).bus.calls.toList = n.bus.calls.toList ++
      [.tick 4, .tick 4,
        .write (n.cpu.registers.sp - 1) (highByte (n.cpu.registers.stackPair source)), .tick 4,
        .write (n.cpu.registers.sp - 2) (lowByte (n.cpu.registers.stackPair source)), .tick 4] := by
  have ran : (n.execute (.push source)).bus = (n.runCode (.push source)).bus :=
    congrArg (·.bus) (n.bare_execute (.push source))
  have pushes : (n.runCode (.push source)).bus.calls =
      (((((n.bus.calls.push (.tick 4)).push (.tick 4)).push
        (.write (n.cpu.registers.sp - 1) (highByte (n.cpu.registers.stackPair source)))).push
        (.tick 4)).push
        (.write (n.cpu.registers.sp - 2) (lowByte (n.cpu.registers.stackPair source)))).push
        (.tick 4) := rfl
  rw [ran, pushes]
  simp

/-- **What a push sends over the bus.** -/
theorem calls_of_push {source : StackPair} (h : m.step.1 = .executed)
    (hi : m.fetched = .push source) :
    ∃ poll, Poll m.cpu.core poll ∧
      m.recorded.step.2.bus.calls.toList = poll ++
        [.read m.pc m.opcode, .tick 4, .tick 4,
          .write (m.cpu.registers.sp - 1) (highByte (m.cpu.registers.stackPair source)), .tick 4,
          .write (m.cpu.registers.sp - 2) (lowByte (m.cpu.registers.stackPair source)),
          .tick 4] := by
  obtain ⟨n, poll, hpoll, before, registers, -, ran⟩ := recorded_step_of_executed h
  refine ⟨poll, hpoll, ?_⟩
  rw [ran, hi, calls_execute_push, before, registers, List.append_assoc]
  rfl

/-- **F holds flags and nothing else.** Whatever has been asked of a processor since its creation,
the lower nibble of F is zero. If what it runs next is the push of the accumulator and the flags,
then these two bytes are what goes to the stack, and the lower nibble of the word is zero there. -/
theorem clean_after (config : Config) (bus : β) (orders : List Order) :
    let m := (⟨.new config, bus⟩ : Machine β).after orders
    m.cpu.registers.f &&& 0x0F = 0 ∧
    (m.step.1 = .executed → m.opcode = 0xF5 → ∃ poll, Poll m.cpu.core poll ∧
      m.recorded.step.2.bus.calls.toList = poll ++
        [.read m.pc 0xF5, .tick 4, .tick 4,
          .write (m.cpu.registers.sp - 1) m.cpu.registers.a, .tick 4,
          .write (m.cpu.registers.sp - 2) m.cpu.registers.f, .tick 4]) := by
  intro m
  obtain ⟨actions, reached⟩ := (⟨.new config, bus⟩ : Machine β).exists_session_after orders
  have fresh : (Cpu.new config).registers.Clean := Core.clean_start _
  have clean := clean_session (m := ⟨.new config, bus⟩) fresh actions
  rw [reached] at clean
  refine ⟨clean, fun executed opcode => ?_⟩
  have push : m.fetched = .push .af := by
    rw [fetched_eq, opcode]
    exact Instruction.decode_opcode (i := .push .af) rfl
  obtain ⟨poll, hpoll, calls⟩ := calls_of_push executed push
  refine ⟨poll, hpoll, ?_⟩
  rw [calls, opcode]
  simp only [Registers.stackPair, Registers.af, highByte_word, lowByte_word]

/-- Memory with the push of the accumulator and the flags after a pop of them. -/
def popping : Ram := (Ram.zero.load 0x0100 [0xF1, 0xF5]).load 0xC000 [0xFF, 0x12]

/-- The driver moves the stack there, and lets the pop run. -/
def poppingOrders : List Order := [.act (.assign (.sp 0xC000)), .runUntilHalt 1]

/-- The flags that are popped have every bit set, and those that are pushed have not. -/
theorem clean_after_popping :
    let m := (⟨.new .standard, popping⟩ : Machine Ram).after poppingOrders
    m.step.1 = .executed ∧ m.opcode = 0xF5 ∧ ∃ poll, Poll m.cpu.core poll ∧
      m.recorded.step.2.bus.calls.toList = poll ++
        [.read 0x0101 0xF5, .tick 4, .tick 4, .write 0xC001 0x12, .tick 4, .write 0xC000 0xF0,
          .tick 4] := by
  have clean := clean_after .standard popping poppingOrders
  have facts : let m := (⟨.new .standard, popping⟩ : Machine Ram).after poppingOrders
      m.step.1 = .executed ∧ m.opcode = 0xF5 ∧ m.pc = 0x0101 ∧ m.cpu.registers.sp = 0xC002 ∧
        m.cpu.registers.a = 0x12 ∧ m.cpu.registers.f = 0xF0 := by
    decide +kernel
  generalize (⟨.new .standard, popping⟩ : Machine Ram).after poppingOrders = m at clean facts ⊢
  obtain ⟨executed, opcode, pc, sp, a, f⟩ := facts
  obtain ⟨poll, hpoll, calls⟩ := clean.2 executed opcode
  rw [pc, sp, a, f] at calls
  exact ⟨executed, opcode, poll, hpoll, calls⟩

end Machine

end GameBoy
