import GameBoy.Proofs.Step.Course
import GameBoy.Proofs.Step.Outcome
import GameBoy.Session

/-!
# What a reset leaves behind

A reset starts the core afresh and gives the bus back to the processor. The clock, the record of
lengths and the whole of the debugger stay as they are. Of these the clock, the lengths and the
trace have no influence on what follows, and the breakpoints are meant to stay. What is left over is
the hold of the debugger on the processor. A processor that is held at a breakpoint is held there
after a reset too, and leave to pass a breakpoint is not withdrawn.

So a processor that has been reset goes on like a fresh one with the same breakpoints and under the
same hold (`GameBoy.Machine.history_resetTo`), which is like a fresh one with the same breakpoints
if the debugger has no hold on it (`GameBoy.Machine.history_resetTo_of_free`). If it has one the two
may part at once (`GameBoy.Machine.step_resetTo_marked`).
-/

namespace GameBoy.Machine

variable {β : Type}

/-- The machine whose processor has been started afresh with given registers. -/
def resetTo (m : Machine β) (registers : Registers) : Machine β := m.withCpu (·.resetTo registers)

/-- **A fresh processor in place of the one there is**, on the same bus, with the same breakpoints
and under the same hold. -/
def renewed (m : Machine β) (config : Config) : Machine β :=
  { m with
    cpu := (Cpu.new config).withDebugger fun d =>
      { d with breakpoints := m.cpu.debugger.breakpoints, hold := m.cpu.debugger.hold } }

/-- **A fresh processor in place of the one there is**, on the same bus and with the same
breakpoints, and not held. -/
def replaced (m : Machine β) (config : Config) : Machine β :=
  { m with
    cpu := (Cpu.new config).withDebugger ({ · with breakpoints := m.cpu.debugger.breakpoints }) }

/-- A fresh processor is not held. -/
theorem renewed_eq_replaced {m : Machine β} (free : m.cpu.debugger.hold = .free) (config : Config) :
    m.renewed config = m.replaced config := by
  rw [renewed, free]
  rfl

/-- **A processor that has been reset is like a fresh one** under the same hold, which begins to
count the time when the other is reset. -/
theorem alike_resetTo (m : Machine β) (registers : Registers) (config : Config) :
    Alike m.cpu.clock .zero (m.resetTo registers) ((m.renewed config).resetTo registers) where
  core := rfl
  blocked := rfl
  hold := rfl
  breakpoints := rfl
  bus := rfl
  elapsed := Nat.add_comm _ _

variable [Bus β]

/-- **A run after a reset is the run of a fresh processor** under the same hold. -/
theorem map_glance_history_resetTo (m : Machine β) (registers : Registers) (config : Config)
    (count : Nat) :
    (history step count (m.resetTo registers)).map (glance m.cpu.clock) =
      (history step count ((m.renewed config).resetTo registers)).map (glance .zero) :=
  ((m.alike_resetTo registers config).map_glance_history count).symm

/-- **A reset leaves nothing behind but the hold of the debugger.** The core starts with the given
registers, F cleaned, and nothing suspends it; the clock, the lengths and the debugger are left as
they are, and everything else is as in a fresh processor. From then on the machine is seen to do
what it would do with a fresh processor that has the same breakpoints and is under the same hold. -/
theorem history_resetTo (m : Machine β) (registers : Registers) :
    m.cpu.reset = m.cpu.resetTo (if m.cpu.skipBoot then .powerOn m.cpu.model else .zero) ∧
    (m.resetTo registers).cpu.core = ⟨registers.masked, false, false, false, false⟩ ∧
    (∀ trace, (m.resetTo registers).cpu =
      { (Cpu.new ⟨m.cpu.model, m.cpu.skipBoot, trace⟩).resetTo registers with
        clock := m.cpu.clock
        sizes := m.cpu.sizes
        debugger := m.cpu.debugger }) ∧
    ∀ config count,
      (history step count (m.resetTo registers)).map (glance m.cpu.clock) =
        (history step count ((m.renewed config).resetTo registers)).map (glance .zero) := by
  exact ⟨rfl, rfl, fun _ => rfl, m.map_glance_history_resetTo registers⟩

/-- **A reset leaves nothing behind** if the debugger has no hold on the processor. -/
theorem history_resetTo_of_free {m : Machine β} (free : m.cpu.debugger.hold = .free)
    (registers : Registers) (config : Config) (count : Nat) :
    (history step count (m.resetTo registers)).map (glance m.cpu.clock) =
      (history step count ((m.replaced config).resetTo registers)).map (glance .zero) := by
  rw [← renewed_eq_replaced free]
  exact m.map_glance_history_resetTo registers config count

/-- A machine in front of idle instructions, with a breakpoint on the first. -/
def marked : Machine Ram where
  cpu := (Cpu.new .standard).withDebugger fun d => (d.addBreakpoint ⟨.execute, 0x0100⟩).2
  bus := .zero

/-- The registers of a start at an address, zero but for the program counter. -/
def startAt (address : UInt16) : Registers := { Registers.zero with pc := address }

/-- **A reset does not let go of a processor** that is held, and does not withdraw leave to pass. At
an address without a breakpoint the one is trapped where a fresh processor would run, and at a
breakpoint the other runs where a fresh processor would be trapped. -/
theorem step_resetTo_marked :
    ((marked.session [.step, .resetTo (startAt 0x0200)]).2.step.1 = .trapped ∧
      (marked.session [.resetTo (startAt 0x0200)]).2.step.1 = .executed) ∧
    ((marked.session [.step, .resume, .resetTo (startAt 0x0100)]).2.step.1 = .executed ∧
      (marked.session [.resetTo (startAt 0x0100)]).2.step.1 = .trapped) := by
  refine ⟨⟨?held, ?elsewhere⟩, ?pass, ?there⟩
  case held =>
    exact (Verdict.held rfl rfl (by decide +kernel)).step_fst
  case elsewhere =>
    refine (Verdict.executed ⟨rfl, rfl, rfl⟩ (by decide) (by decide) ?_).step_fst
    rintro ⟨-, h | ⟨a, -, h⟩ | ⟨a, -, h⟩⟩
    · exact absurd h (by decide)
    · exact absurd h List.not_mem_nil
    · exact absurd h List.not_mem_nil
  case pass =>
    refine (Verdict.executed ⟨rfl, rfl, rfl⟩ (by decide) (by decide) ?_).step_fst
    exact fun h => h.1 rfl
  case there =>
    refine (Verdict.caught ⟨rfl, rfl, rfl⟩ (by decide) (by decide) ⟨?_, .inl ?_⟩).step_fst
    · decide
    · decide

end GameBoy.Machine
