import GameBoy.Cpu.Step

/-!
# What instructions do to the switches of the core

Beside the registers the core has four switches: two for interrupts, and one each for a halt and a
stop. Most instructions leave them alone. `GameBoy.Instruction.switched` says which ones do not, and
`GameBoy.Instruction.execute_ensures` that there is nothing more to it: whatever bytes an
instruction reads, what it comes to is that change of the switches with other registers.

`GameBoy.Microcode.Ensures` says that a program comes to a result of some kind whatever it reads.
-/

namespace GameBoy

namespace Microcode

variable {α γ : Type}

/-- **A program comes to a result of some kind**, whatever it reads. -/
inductive Ensures (P : α → Prop) : Microcode α → Prop
  | done {result : α} (h : P result) : Ensures P (done result)
  | idle {next : Microcode α} (h : Ensures P next) : Ensures P (idle next)
  | read {a : UInt16} {next : UInt8 → Microcode α} (h : ∀ value, Ensures P (next value)) :
    Ensures P (read a next)
  | write {a : UInt16} {v : UInt8} {next : Microcode α} (h : Ensures P next) :
    Ensures P (write a v next)

namespace Ensures

variable {P : α → Prop} {Q : γ → Prop} {code : Microcode α}

/-- A program run on a bus comes to such a result. -/
theorem result {β : Type} [Bus β] (h : code.Ensures P) (bus : β) : P (code.run bus).result := by
  induction h generalizing bus with
  | done h => exact h
  | idle _ ih => exact ih _
  | read _ ih => exact ih _ _
  | write _ ih => exact ih _

/-- Every program comes to some result. -/
theorem trivial (code : Microcode α) : code.Ensures fun _ => True := by
  induction code with
  | done => exact .done True.intro
  | idle _ ih => exact .idle ih
  | read _ _ ih => exact .read ih
  | write _ _ _ ih => exact .write ih

/-- **One program after another**: what the first one ensures is there for the second. -/
theorem bind {next : α → Microcode γ} (h : code.Ensures P) (hn : ∀ a, P a → (next a).Ensures Q) :
    (code >>= next).Ensures Q := by
  induction h with
  | done h => exact hn _ h
  | idle _ ih => exact .idle ih
  | read _ ih => exact .read ih
  | write _ ih => exact .write ih

/-- Only the end of a program matters if it is good whatever came before. -/
theorem bind_of_forall {next : α → Microcode γ} (code : Microcode α)
    (hn : ∀ a, (next a).Ensures Q) : (code >>= next).Ensures Q :=
  (trivial code).bind fun a _ => hn a

end Ensures

end Microcode

/-- **Two cores that differ in their registers only.** -/
structure Core.SameSwitches (c c' : Core) : Prop where
  ime : c'.ime = c.ime
  imeNext : c'.imeNext = c.imeNext
  halted : c'.halted = c.halted
  stopped : c'.stopped = c.stopped

namespace Instruction

open Microcode (Ensures)

/-- **The switches after an instruction.** -/
def switched (i : Instruction) (c : Core) : Core :=
  match i with
  | .stop => { c with stopped := true }
  | .halt => { c with halted := true }
  | .disableInterrupts => c.setIme false
  | .enableInterrupts => { c with imeNext := true }
  | .retInterrupt => c.setIme true
  | _ => c

/-- Only three instructions touch the switches for interrupts. -/
theorem interrupts_switched {i : Instruction} (c : Core) (hd : i ≠ .disableInterrupts)
    (he : i ≠ .enableInterrupts) (hr : i ≠ .retInterrupt) :
    (i.switched c).ime = c.ime ∧ (i.switched c).imeNext = c.imeNext := by
  cases i with
  | disableInterrupts => exact absurd rfl hd
  | enableInterrupts => exact absurd rfl he
  | retInterrupt => exact absurd rfl hr
  | _ => exact ⟨rfl, rfl⟩

/-- A branch comes to what its continuation comes to, if going on at the next instruction is as
good. -/
theorem branch_ensures {P : Core → Prop} {condition : Condition} {c : Core} {next : UInt16}
    {taken : Microcode Core} (h : taken.Ensures P) (hn : P (c.goto next)) :
    (branch condition c next taken).Ensures P := by
  rw [branch]
  split
  · exact h
  · exact .done hn

/-- **An instruction changes registers, and the switches as it is meant to.** -/
theorem execute_ensures (i : Instruction) (c : Core) :
    (i.execute c).Ensures (Core.SameSwitches (i.switched c)) := by
  cases i with
  | page =>
    rw [execute]
    refine .bind_of_forall (Microcode.fetchByte c.registers.pc) fun _ => ?_
    exact .bind_of_forall _ fun _ => .done ⟨rfl, rfl, rfl, rfl⟩
  | load target source =>
    refine .bind_of_forall _ fun _ => ?_
    exact .bind_of_forall _ fun _ => .done ⟨rfl, rfl, rfl, rfl⟩
  | loadByte target =>
    rw [execute]
    refine .bind_of_forall (Microcode.fetchByte c.registers.pc) fun _ => ?_
    exact .bind_of_forall _ fun _ => .done ⟨rfl, rfl, rfl, rfl⟩
  | accumulate op operand => exact .bind_of_forall _ fun _ => .done ⟨rfl, rfl, rfl, rfl⟩
  | increment operand | decrement operand =>
    refine .bind_of_forall _ fun _ => ?_
    exact .bind_of_forall _ fun _ => .done ⟨rfl, rfl, rfl, rfl⟩
  | jumpIf condition =>
    refine .read fun _ => .read fun _ => branch_ensures ?_ ⟨rfl, rfl, rfl, rfl⟩
    exact .idle (.done ⟨rfl, rfl, rfl, rfl⟩)
  | jumpRelativeIf condition =>
    refine .read fun _ => branch_ensures ?_ ⟨rfl, rfl, rfl, rfl⟩
    exact .idle (.done ⟨rfl, rfl, rfl, rfl⟩)
  | callIf condition =>
    refine .read fun _ => .read fun _ => branch_ensures ?_ ⟨rfl, rfl, rfl, rfl⟩
    exact .idle (.write (.write (.done ⟨rfl, rfl, rfl, rfl⟩)))
  | retIf condition =>
    refine .idle (branch_ensures ?_ ⟨rfl, rfl, rfl, rfl⟩)
    exact .read fun _ => .read fun _ => .idle (.done ⟨rfl, rfl, rfl, rfl⟩)
  | _ =>
    -- the others are laid out over their cycles once and for all
    repeat first
      | exact .done ⟨rfl, rfl, rfl, rfl⟩
      | refine .idle ?_
      | refine .read fun _ => ?_
      | refine .write ?_

end Instruction

namespace Machine

variable {β : Type} [Bus β]

/-- **The core after an instruction has run**: the decision about interrupts comes into force, the
switches change as the instruction says, and the registers are others. -/
theorem sameSwitches_execute (m : Machine β) (i : Instruction) :
    Core.SameSwitches (i.switched { m.cpu.core with ime := m.cpu.core.imeNext })
      (m.execute i).cpu.core := by
  have h := (i.execute_ensures { m.cpu.core with ime := m.cpu.core.imeNext }).result
    (Bus.tick m.bus machineCycle)
  rw [execute]
  cases m.cpu.debugger.tracing <;> exact h

end Machine

end GameBoy
