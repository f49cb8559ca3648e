import GameBoy.Proofs.Instruction.Computing

/-!
# The second page

The instructions of the second page follow a single scheme. The two bits on top choose between
shifting an operand and looking at, clearing or setting one of its bits, the three in the middle say
which shift or which bit, and the three at the bottom name the operand. As on the first page,
encoding goes the other way round, and decoding undoes it
(`GameBoy.PageInstruction.decode_opcode`); here every instruction has an opcode.

What an instruction of this page does to registers and memory is what the byte that leads to the
page does, once it has fetched the second one (`GameBoy.Instruction.effect_page`).
-/

namespace GameBoy

/-- The field that names a shift or rotate. -/
def Alu.ShiftOp.field : Alu.ShiftOp → UInt8
  | .rlc => 0
  | .rrc => 1
  | .rl => 2
  | .rr => 3
  | .sla => 4
  | .sra => 5
  | .swap => 6
  | .srl => 7

namespace PageInstruction

open Instruction (operands)

/-! ### Decoding and encoding -/

/-- **The opcode of an instruction of the second page.** -/
def opcode : PageInstruction → UInt8
  | .shift op operand => 8 * op.field + operand.field
  | .testBit bit operand => 0x40 + 8 * UInt8.ofNat bit + operand.field
  | .clearBit bit operand => 0x80 + 8 * UInt8.ofNat bit + operand.field
  | .setBit bit operand => 0xC0 + 8 * UInt8.ofNat bit + operand.field

/-- Every shift and rotate, in the order of the fields that name them. -/
def shifts : List Alu.ShiftOp := [.rlc, .rrc, .rl, .rr, .sla, .sra, .swap, .srl]

/-- **The second page**, in the order of opcodes. -/
def secondPage : List PageInstruction :=
  (shifts.flatMap fun op => operands.map (shift op)) ++
    ((List.finRange 8).flatMap fun bit => operands.map (testBit bit)) ++
    ((List.finRange 8).flatMap fun bit => operands.map (clearBit bit)) ++
    ((List.finRange 8).flatMap fun bit => operands.map (setBit bit))

/-- The rules compile to the page. -/
theorem table_toList : table.toList = secondPage := by decide +kernel

/-- The page lists the instructions in the order of their opcodes. -/
theorem map_opcode_secondPage : secondPage.map opcode = (List.range 256).map UInt8.ofNat := by
  decide +kernel

/-- The page lists all instructions that there are. -/
theorem mem_secondPage (i : PageInstruction) : i ∈ secondPage := by
  have shifts (op : Alu.ShiftOp) : op ∈ shifts := by cases op <;> decide
  have operands (operand : ByteOperand) : operand ∈ operands := by
    rcases operand with r | _
    · cases r <;> decide
    · decide
  cases i <;> simp [secondPage, shifts, operands]

/-- Decoding looks the opcode up in the page. -/
theorem secondPage_getElem? (opcode : UInt8) :
    secondPage[opcode.toNat]? = some (decode opcode) := by
  have h : opcode.toNat < table.size := by
    rw [size_table]
    exact opcode.toNat_lt
  rw [← table_toList, Array.getElem?_toList, Array.getElem?_eq_getElem h, decode]

/-- **Every opcode of the second page is the opcode of what it means there.** -/
theorem opcode_decode (opcode : UInt8) : (decode opcode).opcode = opcode := by
  have h := congrArg (·[opcode.toNat]?) map_opcode_secondPage
  simp only [List.getElem?_map, secondPage_getElem?, Option.map_some,
    List.getElem?_range opcode.toNat_lt, UInt8.ofNat_toNat] at h
  exact Option.some.inj h

/-- **An instruction of the second page is what its opcode means there.** -/
theorem decode_opcode (i : PageInstruction) : decode i.opcode = i := by
  obtain ⟨k, listed⟩ := List.mem_iff_getElem?.mp (mem_secondPage i)
  have named : some i.opcode = ((List.range 256)[k]?).map UInt8.ofNat := by
    rw [← List.getElem?_map, ← map_opcode_secondPage, List.getElem?_map, listed, Option.map_some]
  obtain ⟨k', number, opcode⟩ := Option.map_eq_some_iff.mp named.symm
  obtain ⟨bound, same⟩ := List.getElem?_eq_some_iff.mp number
  rw [List.length_range] at bound
  rw [List.getElem_range] at same
  have index : i.opcode.toNat = k := by
    rw [← opcode, ← same]
    exact UInt8.toNat_ofNat_of_lt' bound
  have found := secondPage_getElem? i.opcode
  rw [index, listed] at found
  exact (Option.some.inj found).symm

/-! ### Effects -/

/-- **The effect of an instruction of the second page** on registers and memory: it puts bytes into
different places, and stores what comes to be in memory and nothing else. -/
structure Effect (i : PageInstruction) (r : Registers) (memory : Memory)
    (changes : List (Place × UInt8)) : Prop where
  distinct : (changes.map Prod.fst).Nodup
  puts : ∃ r' memory', (i.execute r).Yields memory r' memory' (changes.filterMap Place.store?) ∧
    contents r' memory' = (contents r memory).put changes

variable (operand : ByteOperand) (r : Registers) (memory : Memory)

theorem effect_shift (op : Alu.ShiftOp) :
    let result := op.apply (contents r memory (operand.place r)) r.flags
    (shift op operand).Effect r memory
      [(operand.place r, result.value), (.flags, result.flags.toByte)] :=
  ⟨operand.distinct_place_flags r,
    operand.exists_update_yields r memory (op.apply · r.flags) fun r => r⟩

theorem effect_testBit (bit : Fin 8) :
    (testBit bit operand).Effect r memory
      [(.flags, (Alu.testBit bit (contents r memory (operand.place r)) r.flags).toByte)] := by
  have read := operand.read_yields r memory
  exact ⟨List.nodup_singleton _, _, memory, read.map _, contents_setFlags r memory _⟩

theorem effect_clearBit (bit : Fin 8) :
    (clearBit bit operand).Effect r memory
      [(operand.place r, Alu.clearBit bit (contents r memory (operand.place r)))] :=
  ⟨List.nodup_singleton _, operand.exists_replace_yields r memory (Alu.clearBit bit)⟩

theorem effect_setBit (bit : Fin 8) :
    (setBit bit operand).Effect r memory
      [(operand.place r, Alu.setBit bit (contents r memory (operand.place r)))] :=
  ⟨List.nodup_singleton _, operand.exists_replace_yields r memory (Alu.setBit bit)⟩

end PageInstruction

/-- **What leads to the second page** fetches one more byte, and has the effect of what this byte
means there. -/
theorem Instruction.effect_page {c : Core} {memory : Memory} {i : PageInstruction}
    {changes : List (Place × UInt8)} (opcode : memory.get (c.registers.pc + 1) = i.opcode)
    (h : i.Effect c.registers memory changes) : page.Effect c memory 2 changes := by
  obtain ⟨distinct, r', memory', yields, after⟩ := h
  rw [← i.decode_opcode, ← opcode] at yields
  have fetch := Microcode.Yields.fetchByte c.registers.pc
    (fun opcode => (PageInstruction.decode opcode).execute c.registers >>= fun r =>
      .done (c.proceed r (c.registers.pc + 2)))
    (yields.map _)
  exact ⟨rfl, rfl, distinct, _, memory', fetch, (contents_pc r' memory' _).trans after⟩

end GameBoy
