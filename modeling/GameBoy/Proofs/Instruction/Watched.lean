import GameBoy.Instruction.Access
import GameBoy.Proofs.Instruction.Encoding

/-!
# The loads and stores that are watched

Which opcodes the debugger watches for loads and stores, and where these go, written down opcode by
opcode: `GameBoy.LoadsFrom` and `GameBoy.StoresTo`. Nothing is said about any other opcode, so the
instructions that compute on memory, and those that use the stack, are in neither relation.

The processor finds the same places by decoding first and looking at the instruction then
(`GameBoy.Instruction.accesses`). That the two ways agree is
`GameBoy.Instruction.read_mem_accesses_decode` and
`GameBoy.Instruction.write_mem_accesses_decode`, and no watched access is an instruction fetch
(`GameBoy.Instruction.execute_not_mem_accesses`).
-/

namespace GameBoy

/-- **The loads that are watched**: an opcode, with the registers `r` and with `peek` showing the
bytes that follow it, loads from an address. -/
inductive LoadsFrom (r : Registers) (peek : UInt16 → UInt8) : UInt8 → UInt16 → Prop
  /-- `LD r,(HL)` for each of the seven registers. -/
  | hl {opcode : UInt8} (h : opcode ∈ [0x46, 0x4E, 0x56, 0x5E, 0x66, 0x6E, 0x7E]) :
    LoadsFrom r peek opcode r.hl
  /-- `LD A,(BC)`. -/
  | bc : LoadsFrom r peek 0x0A r.bc
  /-- `LD A,(DE)`. -/
  | de : LoadsFrom r peek 0x1A r.de
  /-- `LD A,(HL+)`. -/
  | hlIncrement : LoadsFrom r peek 0x2A r.hl
  /-- `LD A,(HL-)`. -/
  | hlDecrement : LoadsFrom r peek 0x3A r.hl
  /-- `LDH A,(a8)`. -/
  | high : LoadsFrom r peek 0xF0 (highPage (peek (r.pc + 1)))
  /-- `LD A,(C)`. -/
  | highC : LoadsFrom r peek 0xF2 (highPage r.c)
  /-- `LD A,(a16)`. -/
  | absolute : LoadsFrom r peek 0xFA (word (peek (r.pc + 2)) (peek (r.pc + 1)))

/-- **The stores that are watched**: an opcode, with the registers `r` and with `peek` showing the
bytes that follow it, stores to an address. -/
inductive StoresTo (r : Registers) (peek : UInt16 → UInt8) : UInt8 → UInt16 → Prop
  /-- `LD (HL),r` for each of the seven registers. -/
  | hl {opcode : UInt8} (h : opcode ∈ [0x70, 0x71, 0x72, 0x73, 0x74, 0x75, 0x77]) :
    StoresTo r peek opcode r.hl
  /-- `LD (HL),d8`. -/
  | hlByte : StoresTo r peek 0x36 r.hl
  /-- `LD (BC),A`. -/
  | bc : StoresTo r peek 0x02 r.bc
  /-- `LD (DE),A`. -/
  | de : StoresTo r peek 0x12 r.de
  /-- `LD (HL+),A`. -/
  | hlIncrement : StoresTo r peek 0x22 r.hl
  /-- `LD (HL-),A`. -/
  | hlDecrement : StoresTo r peek 0x32 r.hl
  /-- `LDH (a8),A`. -/
  | high : StoresTo r peek 0xE0 (highPage (peek (r.pc + 1)))
  /-- `LD (C),A`. -/
  | highC : StoresTo r peek 0xE2 (highPage r.c)
  /-- `LD (a16),A`. -/
  | absolute : StoresTo r peek 0xEA (word (peek (r.pc + 2)) (peek (r.pc + 1)))
  /-- The low byte of `LD (a16),SP`. -/
  | lowByte : StoresTo r peek 0x08 (word (peek (r.pc + 2)) (peek (r.pc + 1)))
  /-- The high byte of `LD (a16),SP`, which may wrap to address zero. -/
  | highByte : StoresTo r peek 0x08 (word (peek (r.pc + 2)) (peek (r.pc + 1)) + 1)

namespace Instruction

variable {r : Registers} {peek : UInt16 → UInt8} {opcode : UInt8} {a : UInt16}

/-- What an instruction touches is what its opcode touches. -/
theorem mem_accesses_decode (i : Instruction) (hi : i.hasOpcode = true) {b : Breakpoint}
    (h : b ∈ i.accesses r peek) : b ∈ (decode i.opcode).accesses r peek := by
  rwa [decode_opcode hi]

/-- What is watched is a load or a store, never the fetch of an instruction. -/
theorem execute_not_mem_accesses (i : Instruction) :
    (⟨.execute, a⟩ : Breakpoint) ∉ i.accesses r peek := by
  cases i with
  | load target source => cases target <;> cases source <;> simp [accesses, ByteOperand.isMemory]
  | loadByte target => cases target <;> simp [accesses, ByteOperand.isMemory]
  | _ => simp [accesses]

/-! ### Loads -/

/-- What an instruction is about to load from is loaded from by its opcode. -/
theorem loadsFrom_of_mem_accesses {i : Instruction} (hi : i.hasOpcode = true)
    (h : ⟨.read, a⟩ ∈ i.accesses r peek) : LoadsFrom r peek i.opcode a := by
  cases i with
  | load target source =>
    rcases source with s | _
    · cases target <;> simp [accesses, ByteOperand.isMemory] at h
    rcases target with t | _
    · obtain rfl : a = r.hl := by simpa [accesses, ByteOperand.isMemory] using h
      exact .hl (by cases t <;> decide)
    · -- memory copied to itself is no instruction
      exact absurd hi Bool.false_ne_true
  | loadByte target => cases target <;> simp [accesses, ByteOperand.isMemory] at h
  | loadIndirect pointer =>
    obtain rfl : a = r.pointer pointer := by simpa [accesses] using h
    cases pointer
    · exact .bc
    · exact .de
    · exact .hlIncrement
    · exact .hlDecrement
  | loadHigh =>
    obtain rfl : a = highPage (peek (r.pc + 1)) := by simpa [accesses] using h
    exact .high
  | loadHighC =>
    obtain rfl : a = highPage r.c := by simpa [accesses] using h
    exact .highC
  | loadAbsolute =>
    obtain rfl : a = word (peek (r.pc + 2)) (peek (r.pc + 1)) := by simpa [accesses] using h
    exact .absolute
  | _ => simp [accesses] at h

/-- What an opcode loads from is what the instruction is about to load from. -/
theorem mem_accesses_of_loadsFrom (h : LoadsFrom r peek opcode a) :
    ⟨.read, a⟩ ∈ (decode opcode).accesses r peek := by
  cases h with
  | hl h =>
    have key (x : ByteRegister) :
        ⟨.read, r.hl⟩ ∈ (decode (load (.register x) .atHL).opcode).accesses r peek :=
      mem_accesses_decode _ rfl (by simp [accesses, ByteOperand.isMemory])
    simp only [List.mem_cons, List.not_mem_nil, or_false] at h
    rcases h with rfl | rfl | rfl | rfl | rfl | rfl | rfl
    · exact key .b
    · exact key .c
    · exact key .d
    · exact key .e
    · exact key .h
    · exact key .l
    · exact key .a
  | bc => exact mem_accesses_decode (loadIndirect .bc) rfl (by simp [accesses, Registers.pointer])
  | de => exact mem_accesses_decode (loadIndirect .de) rfl (by simp [accesses, Registers.pointer])
  | hlIncrement =>
    exact mem_accesses_decode (loadIndirect .hlIncrement) rfl
      (by simp [accesses, Registers.pointer])
  | hlDecrement =>
    exact mem_accesses_decode (loadIndirect .hlDecrement) rfl
      (by simp [accesses, Registers.pointer])
  | high => exact mem_accesses_decode loadHigh rfl (by simp [accesses])
  | highC => exact mem_accesses_decode loadHighC rfl (by simp [accesses])
  | absolute => exact mem_accesses_decode loadAbsolute rfl (by simp [accesses])

/-- **The loads that are watched are those of the list above.** -/
theorem read_mem_accesses_decode :
    ⟨.read, a⟩ ∈ (decode opcode).accesses r peek ↔ LoadsFrom r peek opcode a := by
  constructor
  · intro h
    have hload := loadsFrom_of_mem_accesses (hasOpcode_decode opcode) h
    rwa [opcode_decode] at hload
  · exact mem_accesses_of_loadsFrom

/-! ### Stores -/

/-- What an instruction is about to store to is stored to by its opcode. -/
theorem storesTo_of_mem_accesses {i : Instruction} (hi : i.hasOpcode = true)
    (h : ⟨.write, a⟩ ∈ i.accesses r peek) : StoresTo r peek i.opcode a := by
  cases i with
  | load target source =>
    rcases target with t | _
    · cases source <;> simp [accesses, ByteOperand.isMemory] at h
    rcases source with s | _
    · obtain rfl : a = r.hl := by simpa [accesses, ByteOperand.isMemory] using h
      exact .hl (by cases s <;> decide)
    · exact absurd hi Bool.false_ne_true
  | loadByte target =>
    rcases target with t | _
    · simp [accesses, ByteOperand.isMemory] at h
    · obtain rfl : a = r.hl := by simpa [accesses, ByteOperand.isMemory] using h
      exact .hlByte
  | storeIndirect pointer =>
    obtain rfl : a = r.pointer pointer := by simpa [accesses] using h
    cases pointer
    · exact .bc
    · exact .de
    · exact .hlIncrement
    · exact .hlDecrement
  | storeHigh =>
    obtain rfl : a = highPage (peek (r.pc + 1)) := by simpa [accesses] using h
    exact .high
  | storeHighC =>
    obtain rfl : a = highPage r.c := by simpa [accesses] using h
    exact .highC
  | storeAbsolute =>
    obtain rfl : a = word (peek (r.pc + 2)) (peek (r.pc + 1)) := by simpa [accesses] using h
    exact .absolute
  | storeStackPointer =>
    simp only [accesses, List.mem_cons, Breakpoint.mk.injEq, true_and, List.not_mem_nil,
      or_false] at h
    rcases h with rfl | rfl
    · exact .lowByte
    · exact .highByte
  | _ => simp [accesses] at h

/-- What an opcode stores to is what the instruction is about to store to. -/
theorem mem_accesses_of_storesTo (h : StoresTo r peek opcode a) :
    ⟨.write, a⟩ ∈ (decode opcode).accesses r peek := by
  cases h with
  | hl h =>
    have key (x : ByteRegister) :
        ⟨.write, r.hl⟩ ∈ (decode (load .atHL (.register x)).opcode).accesses r peek :=
      mem_accesses_decode _ rfl (by simp [accesses, ByteOperand.isMemory])
    simp only [List.mem_cons, List.not_mem_nil, or_false] at h
    rcases h with rfl | rfl | rfl | rfl | rfl | rfl | rfl
    · exact key .b
    · exact key .c
    · exact key .d
    · exact key .e
    · exact key .h
    · exact key .l
    · exact key .a
  | hlByte =>
    exact mem_accesses_decode (loadByte .atHL) rfl (by simp [accesses, ByteOperand.isMemory])
  | bc => exact mem_accesses_decode (storeIndirect .bc) rfl (by simp [accesses, Registers.pointer])
  | de => exact mem_accesses_decode (storeIndirect .de) rfl (by simp [accesses, Registers.pointer])
  | hlIncrement =>
    exact mem_accesses_decode (storeIndirect .hlIncrement) rfl
      (by simp [accesses, Registers.pointer])
  | hlDecrement =>
    exact mem_accesses_decode (storeIndirect .hlDecrement) rfl
      (by simp [accesses, Registers.pointer])
  | high => exact mem_accesses_decode storeHigh rfl (by simp [accesses])
  | highC => exact mem_accesses_decode storeHighC rfl (by simp [accesses])
  | absolute => exact mem_accesses_decode storeAbsolute rfl (by simp [accesses])
  | lowByte => exact mem_accesses_decode storeStackPointer rfl (by simp [accesses])
  | highByte => exact mem_accesses_decode storeStackPointer rfl (by simp [accesses])

/-- **The stores that are watched are those of the list above.** -/
theorem write_mem_accesses_decode :
    ⟨.write, a⟩ ∈ (decode opcode).accesses r peek ↔ StoresTo r peek opcode a := by
  constructor
  · intro h
    have hstore := storesTo_of_mem_accesses (hasOpcode_decode opcode) h
    rwa [opcode_decode] at hstore
  · exact mem_accesses_of_storesTo

end Instruction

end GameBoy
