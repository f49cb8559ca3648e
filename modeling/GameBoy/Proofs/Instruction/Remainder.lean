import GameBoy.Proofs.Instruction.Accesses

/-!
# What is left of an instruction once its bytes have been fetched

An instruction fetches the bytes that follow its opcode before it does anything else, one after the
other and in ascending order (`GameBoy.Instruction.execute_begins`). With these bytes in hand it has
become a program that depends on registers and data alone, `GameBoy.Instruction.remainder`. How much
time an instruction takes, where it goes on and what it leaves on the stack are questions about this
program.

The bytes that are fetched are those that belong to the instruction, with one exception: a stop has
two bytes, of which the second one is never looked at.
-/

namespace GameBoy

namespace Microcode

variable {α : Type} {found : UInt16 → UInt8} {fetches : List UInt16} {code : Microcode α}

/-- **A program that begins with reading the bytes at some addresses**, if each of them is the one
that `found` has there. -/
inductive Begins (found : UInt16 → UInt8) : List UInt16 → Microcode α → Prop
  | nil {code : Microcode α} : Begins found [] code
  | cons {a : UInt16} {next : UInt8 → Microcode α} {fetches : List UInt16}
    (h : Begins found fetches (next (found a))) : Begins found (a :: fetches) (read a next)

/-- **What is left of a program** that has read a number of bytes. -/
def after (found : UInt16 → UInt8) : (count : Nat) → Microcode α → Microcode α
  | count + 1, read a next => (next (found a)).after found count
  | _, code => code

/-- A byte that is fetched first. -/
theorem begins_fetchByte (found : UInt16 → UInt8) (pc : UInt16) (next : UInt8 → Microcode α) :
    (fetchByte pc >>= next).Begins found [pc + 1] := .cons .nil

/-- What is left when it has been fetched. -/
theorem after_fetchByte (pc : UInt16) (next : UInt8 → Microcode α) :
    (fetchByte pc >>= next).after found 1 = next (found (pc + 1)) := rfl

/-- **What becomes of a bus** on which a program finds the bytes it begins with: they are fetched,
and then the program goes on as what is left of it. -/
theorem Begins.run_recorded {β : Type} [Bus β] (h : code.Begins found fetches) (r : Recorded β)
    (hr : Finds found r.bus fetches) :
    ∃ r' : Recorded β, r'.calls.toList = r.calls.toList ++ fetchCalls found fetches ∧
      (code.run r).result = ((code.after found fetches.length).run r').result ∧
      (code.run r).bus = ((code.after found fetches.length).run r').bus := by
  induction h generalizing r with
  | nil => exact ⟨r, (List.append_nil _).symm, rfl, rfl⟩
  | @cons a next fetches _ ih =>
    obtain _ | ⟨here, hrest⟩ := hr
    obtain ⟨r', hlog, hresult, hbus⟩ := ih (Bus.tick (Bus.read r a).2 machineCycle) hrest
    have value : (Bus.read r a).1 = found a := here
    refine ⟨r', ?_, ?_, ?_⟩
    · rw [hlog]
      simp [fetchCalls, here]
    · simp only [run, run.spend, value]
      exact hresult
    · simp only [run, run.spend, value]
      exact hbus

end Microcode

namespace Instruction

/-- **How many bytes of code an instruction fetches**, its opcode included: all that it has, except
that a stop passes over its second one. -/
def codeBytes : Instruction → Nat
  | .stop => 1
  | i => i.length

/-- The addresses of these bytes, for an instruction at `pc`. -/
def codeAddresses (i : Instruction) (pc : UInt16) : List UInt16 :=
  pc :: [pc + 1, pc + 2].take (i.codeBytes - 1)

/-- The opcode comes first. -/
theorem codeAddresses_eq (i : Instruction) (pc : UInt16) :
    i.codeAddresses pc = pc :: (i.codeAddresses pc).tail := rfl

/-- There are one to three of them, and no more than belong to the instruction. -/
theorem codeBytes_bounds (i : Instruction) :
    0 < i.codeBytes ∧ i.codeBytes ≤ i.length ∧ i.codeBytes ≤ 3 := by
  cases i <;> simp [codeBytes, length]

theorem length_codeAddresses (i : Instruction) (pc : UInt16) :
    (i.codeAddresses pc).length = i.codeBytes := by
  obtain ⟨pos, -, bound⟩ := i.codeBytes_bounds
  simp [codeAddresses]
  omega

/-- They follow one another. -/
theorem getElem_codeAddresses {i : Instruction} {pc : UInt16} {k : Nat}
    (h : k < (i.codeAddresses pc).length) : (i.codeAddresses pc)[k] = pc + UInt16.ofNat k := by
  have inside : k < i.codeBytes := i.length_codeAddresses pc ▸ h
  obtain ⟨-, -, bound⟩ := i.codeBytes_bounds
  match k with
  | 0 => simp [codeAddresses]
  | 1 => simp [codeAddresses]
  | 2 => simp [codeAddresses]
  | k + 3 => omega

/-- **The bytes of code lie within the instruction.** -/
theorem exists_lt_of_mem_codeAddresses {i : Instruction} {pc a : UInt16}
    (h : a ∈ i.codeAddresses pc) : ∃ k < i.length, a = pc + UInt16.ofNat k := by
  obtain ⟨k, hk, rfl⟩ := List.mem_iff_getElem.mp h
  have inside : k < i.codeBytes := i.length_codeAddresses pc ▸ hk
  obtain ⟨-, within, -⟩ := i.codeBytes_bounds
  exact ⟨k, Nat.lt_of_lt_of_le inside within, getElem_codeAddresses hk⟩

theorem codeBytes_eq_length {i : Instruction} (h : i ≠ .stop) : i.codeBytes = i.length := by
  cases i with
  | stop => exact absurd rfl h
  | _ => rfl

/-- If it is not a stop, the other bytes of an instruction are all fetched after its opcode. -/
theorem codeAddresses_eq_following {i : Instruction} (h : i ≠ .stop) (pc : UInt16) :
    i.codeAddresses pc = pc :: i.following pc := by
  rw [codeAddresses, codeBytes_eq_length h, following]

/-- **They are all bytes of the instruction**, if it is not a stop. -/
theorem codeAddresses_eq_map_range {i : Instruction} (h : i ≠ .stop) (pc : UInt16) :
    i.codeAddresses pc = (List.range i.length).map fun k => pc + UInt16.ofNat k := by
  have length : (i.codeAddresses pc).length = i.length := by
    rw [length_codeAddresses, codeBytes_eq_length h]
  refine List.ext_getElem (by simp [length]) fun k hk _ => ?_
  rw [getElem_codeAddresses hk, List.getElem_map, List.getElem_range]

/-- **What an instruction does** once the bytes after its opcode have been fetched. -/
def remainder (i : Instruction) (c : Core) (found : UInt16 → UInt8) : Microcode Core :=
  (i.execute c).after found (i.codeBytes - 1)

/-- An instruction of the second page has become one. -/
theorem remainder_page (c : Core) (found : UInt16 → UInt8) :
    page.remainder c found =
      (PageInstruction.decode (found (c.registers.pc + 1))).execute c.registers >>= fun r =>
        .done (c.proceed r (c.registers.pc + 2)) :=
  Microcode.after_fetchByte c.registers.pc fun opcode =>
    (PageInstruction.decode opcode).execute c.registers >>= fun r =>
      .done (c.proceed r (c.registers.pc + 2))

/-- **An instruction begins with fetching** the bytes after its opcode. -/
theorem execute_begins (i : Instruction) (c : Core) (found : UInt16 → UInt8) :
    (i.execute c).Begins found (i.codeAddresses c.registers.pc).tail := by
  cases i with
  | loadWord | storeAbsolute | loadAbsolute | storeStackPointer | jump | jumpIf | call | callIf =>
    exact .cons (.cons .nil)
  | page => exact Microcode.begins_fetchByte found c.registers.pc _
  | loadByte | storeHigh | loadHigh | loadStackAddress | accumulateByte | addStackPointer
  | jumpRelative | jumpRelativeIf => exact .cons .nil
  | _ => exact .nil

end Instruction

end GameBoy
