import GameBoy.Proofs.Instruction.Contents

/-!
# Loads and stores

The instructions that copy bytes: from a register, from memory or from the code itself, to a
register or to memory. `GameBoy.Copies` lists their opcodes, each with the places that change and
what comes to be in them; what is copied, and the address it is copied from or to, is taken from the
registers and memory as they were before.
-/

namespace GameBoy

/-- **What the opcodes that copy bytes do**, with given registers and memory: an opcode stands for
an instruction of some length, which puts some bytes into some places. -/
inductive Copies (r : Registers) (memory : Memory) :
    (opcode : UInt8) → (length : Nat) → (changes : List (Place × UInt8)) → Prop
  /-- `LD r,r'`, unless both are in memory. -/
  | operand (target source : ByteOperand) (h : target ≠ .atHL ∨ source ≠ .atHL) :
    Copies r memory (0x40 + 8 * target.field + source.field) 1
      [(target.place r, contents r memory (source.place r))]
  /-- `LD r,d8`. -/
  | byte (target : ByteOperand) :
    Copies r memory (0x06 + 8 * target.field) 2 [(target.place r, memory.get (r.pc + 1))]
  /-- `LD rr,d16`. -/
  | word (pair : RegisterPair) :
    Copies r memory (0x01 + 16 * pair.field) 3
      [(pair.highPlace, memory.get (r.pc + 2)), (pair.lowPlace, memory.get (r.pc + 1))]
  /-- `LD (BC),A`. -/
  | toBC : Copies r memory 0x02 1 [(.memory r.bc, r.a)]
  /-- `LD (DE),A`. -/
  | toDE : Copies r memory 0x12 1 [(.memory r.de, r.a)]
  /-- `LD (HL+),A`. -/
  | toHLIncrement :
    Copies r memory 0x22 1
      [(.memory r.hl, r.a), (.register .h, highByte (r.hl + 1)),
        (.register .l, lowByte (r.hl + 1))]
  /-- `LD (HL-),A`. -/
  | toHLDecrement :
    Copies r memory 0x32 1
      [(.memory r.hl, r.a), (.register .h, highByte (r.hl - 1)),
        (.register .l, lowByte (r.hl - 1))]
  /-- `LD A,(BC)`. -/
  | fromBC : Copies r memory 0x0A 1 [(.register .a, memory.get r.bc)]
  /-- `LD A,(DE)`. -/
  | fromDE : Copies r memory 0x1A 1 [(.register .a, memory.get r.de)]
  /-- `LD A,(HL+)`. -/
  | fromHLIncrement :
    Copies r memory 0x2A 1
      [(.register .a, memory.get r.hl), (.register .h, highByte (r.hl + 1)),
        (.register .l, lowByte (r.hl + 1))]
  /-- `LD A,(HL-)`. -/
  | fromHLDecrement :
    Copies r memory 0x3A 1
      [(.register .a, memory.get r.hl), (.register .h, highByte (r.hl - 1)),
        (.register .l, lowByte (r.hl - 1))]
  /-- `LDH (a8),A`. -/
  | toHigh :
    Copies r memory 0xE0 2 [(.memory (0xFF00 + (memory.get (r.pc + 1)).toUInt16), r.a)]
  /-- `LDH A,(a8)`. -/
  | fromHigh :
    Copies r memory 0xF0 2
      [(.register .a, memory.get (0xFF00 + (memory.get (r.pc + 1)).toUInt16))]
  /-- `LD (C),A`. -/
  | toHighC : Copies r memory 0xE2 1 [(.memory (0xFF00 + r.c.toUInt16), r.a)]
  /-- `LD A,(C)`. -/
  | fromHighC : Copies r memory 0xF2 1 [(.register .a, memory.get (0xFF00 + r.c.toUInt16))]
  /-- `LD (a16),A`. -/
  | toAbsolute :
    Copies r memory 0xEA 3
      [(.memory (GameBoy.word (memory.get (r.pc + 2)) (memory.get (r.pc + 1))), r.a)]
  /-- `LD A,(a16)`. -/
  | fromAbsolute :
    Copies r memory 0xFA 3
      [(.register .a,
        memory.get (GameBoy.word (memory.get (r.pc + 2)) (memory.get (r.pc + 1))))]
  /-- `LD (a16),SP`. -/
  | stackPointerTo :
    Copies r memory 0x08 3
      [(.memory (GameBoy.word (memory.get (r.pc + 2)) (memory.get (r.pc + 1))), lowByte r.sp),
        (.memory (GameBoy.word (memory.get (r.pc + 2)) (memory.get (r.pc + 1)) + 1),
          highByte r.sp)]
  /-- `LD SP,HL`. -/
  | stackPointer : Copies r memory 0xF9 1 [(.stackHigh, r.h), (.stackLow, r.l)]

/-- An address on the topmost page. -/
theorem highPage_eq (low : UInt8) : highPage low = 0xFF00 + low.toUInt16 := by
  revert low
  decide +kernel

/-- The bytes that a pointer changes after it has been used. -/
def Pointer.moves (pointer : Pointer) (r : Registers) : List (Place × UInt8) :=
  match pointer with
  | .bc | .de => []
  | .hlIncrement => [(.register .h, highByte (r.hl + 1)), (.register .l, lowByte (r.hl + 1))]
  | .hlDecrement => [(.register .h, highByte (r.hl - 1)), (.register .l, lowByte (r.hl - 1))]

/-- They are different from one another, and from any place but H and L. -/
theorem Pointer.distinct_moves (pointer : Pointer) (r : Registers) {p : Place}
    (h : ∀ x ∈ [ByteRegister.h, .l], p ≠ .register x) :
    (p :: (pointer.moves r).map Prod.fst).Nodup := by
  have hh := h .h (by decide)
  have hl := h .l (by decide)
  cases pointer <;> simp [moves, hh, hl]

/-- None of them is stored. -/
theorem Pointer.store?_moves (pointer : Pointer) (r : Registers) :
    (pointer.moves r).filterMap Place.store? = [] := by
  cases pointer <;> rfl

theorem contents_afterAccess (r : Registers) (memory : Memory) (pointer : Pointer) :
    contents (r.afterAccess pointer) memory = (contents r memory).put (pointer.moves r) := by
  cases pointer with
  | bc | de => rfl
  | hlIncrement => exact contents_setPair r memory .hl (r.hl + 1)
  | hlDecrement => exact contents_setPair r memory .hl (r.hl - 1)

namespace Instruction

variable (c : Core) (memory : Memory)

/-! ### Operands -/

theorem effect_load (target source : ByteOperand) :
    (load target source).Effect c memory 1
      [(target.place c.registers, contents c.registers memory (source.place c.registers))] := by
  have read := source.read_yields c.registers memory
  obtain ⟨r', memory', write, after⟩ := target.exists_write_yields c.registers memory
    (contents c.registers memory (source.place c.registers))
  refine ⟨rfl, rfl, List.nodup_singleton _, _, _, read.bind (write.map _), ?_⟩
  exact (contents_pc r' memory' _).trans after

theorem effect_loadByte (target : ByteOperand) :
    (loadByte target).Effect c memory 2
      [(target.place c.registers, memory.get (c.registers.pc + 1))] := by
  obtain ⟨r', memory', write, after⟩ := target.exists_write_yields c.registers memory
    (memory.get (c.registers.pc + 1))
  refine ⟨rfl, rfl, List.nodup_singleton _, _, _, .read (write.map _), ?_⟩
  exact (contents_pc r' memory' _).trans after

theorem effect_loadWord (pair : RegisterPair) :
    (loadWord pair).Effect c memory 3
      [(pair.highPlace, memory.get (c.registers.pc + 2)),
        (pair.lowPlace, memory.get (c.registers.pc + 1))] := by
  refine ⟨rfl, rfl, pair.distinct_places, ?_⟩
  rw [pair.store?_places]
  refine ⟨_, _, .read (.read .done), ?_⟩
  change contents { c.registers.setPair pair _ with pc := _ } memory = _
  rw [contents_pc, contents_setPair, highByte_word, lowByte_word]

/-! ### The accumulator -/

/-- The accumulator loaded, with nothing else different but the program counter. -/
theorem contents_load (r : Registers) (value : UInt8) (pc : UInt16) :
    contents { r with a := value, pc } memory =
      (contents r memory).put [(.register .a, value)] :=
  (contents_pc (r.setByte .a value) memory pc).trans (contents_setByte r memory .a value)

/-- A byte stored, with nothing else different but the program counter. -/
theorem contents_store (r : Registers) (address : UInt16) (value : UInt8) (pc : UInt16) :
    contents { r with pc } (memory.set address value) =
      (contents r memory).put [(.memory address, value)] :=
  (contents_pc r _ pc).trans (contents_set r memory address value)

theorem effect_storeIndirect (pointer : Pointer) :
    (storeIndirect pointer).Effect c memory 1
      ((.memory (c.registers.pointer pointer), c.registers.a) :: pointer.moves c.registers) := by
  refine ⟨rfl, rfl, pointer.distinct_moves _ nofun, ?_⟩
  rw [List.filterMap_cons, pointer.store?_moves]
  refine ⟨_, _, .write .done, ?_⟩
  change contents { c.registers.afterAccess pointer with pc := _ } (memory.set _ _) = _
  rw [contents_pc, contents_afterAccess, contents_set]
  rfl

theorem effect_loadIndirect (pointer : Pointer) :
    (loadIndirect pointer).Effect c memory 1
      ((.register .a, memory.get (c.registers.pointer pointer)) :: pointer.moves c.registers) := by
  have distinct := pointer.distinct_moves c.registers (p := .register .a) (by decide)
  refine ⟨rfl, rfl, distinct, ?_⟩
  rw [List.filterMap_cons, pointer.store?_moves]
  refine ⟨_, _, .read .done, ?_⟩
  change contents { (c.registers.setByte .a _).afterAccess pointer with pc := _ } memory = _
  rw [contents_pc, contents_afterAccess, contents_setByte]
  rfl

theorem effect_storeHigh :
    storeHigh.Effect c memory 2
      [(.memory (highPage (memory.get (c.registers.pc + 1))), c.registers.a)] :=
  ⟨rfl, rfl, List.nodup_singleton _, _, _, .read (.write .done), contents_store ..⟩

theorem effect_loadHigh :
    loadHigh.Effect c memory 2
      [(.register .a, memory.get (highPage (memory.get (c.registers.pc + 1))))] :=
  ⟨rfl, rfl, List.nodup_singleton _, _, _, .read (.read .done), contents_load memory c.registers ..⟩

theorem effect_storeHighC :
    storeHighC.Effect c memory 1 [(.memory (highPage c.registers.c), c.registers.a)] :=
  ⟨rfl, rfl, List.nodup_singleton _, _, _, .write .done, contents_store ..⟩

theorem effect_loadHighC :
    loadHighC.Effect c memory 1 [(.register .a, memory.get (highPage c.registers.c))] :=
  ⟨rfl, rfl, List.nodup_singleton _, _, _, .read .done, contents_load memory c.registers ..⟩

theorem effect_storeAbsolute :
    storeAbsolute.Effect c memory 3
      [(.memory (word (memory.get (c.registers.pc + 2)) (memory.get (c.registers.pc + 1))),
        c.registers.a)] :=
  ⟨rfl, rfl, List.nodup_singleton _, _, _, .read (.read (.write .done)), contents_store ..⟩

theorem effect_loadAbsolute :
    loadAbsolute.Effect c memory 3
      [(.register .a,
        memory.get
          (word (memory.get (c.registers.pc + 2)) (memory.get (c.registers.pc + 1))))] :=
  ⟨rfl, rfl, List.nodup_singleton _, _, _, .read (.read (.read .done)),
    contents_load memory c.registers ..⟩

/-! ### The stack pointer -/

theorem effect_storeStackPointer :
    let address := word (memory.get (c.registers.pc + 2)) (memory.get (c.registers.pc + 1))
    storeStackPointer.Effect c memory 3
      [(.memory address, lowByte c.registers.sp),
        (.memory (address + 1), highByte c.registers.sp)] := by
  intro address
  refine ⟨rfl, rfl, by simp, _, _, .read (.read (.write (.write .done))), ?_⟩
  change contents { c.registers with pc := _ } ((memory.set address _).set _ _) = _
  rw [contents_pc, contents_set, contents_set]
  rfl

theorem effect_loadStackPointer :
    loadStackPointer.Effect c memory 1
      [(.stackHigh, c.registers.h), (.stackLow, c.registers.l)] := by
  refine ⟨rfl, rfl, RegisterPair.sp.distinct_places, _, _, .idle .done, ?_⟩
  change contents { c.registers.setPair .sp (word _ _) with pc := _ } memory = _
  rw [contents_pc, contents_setPair, highByte_word, lowByte_word]
  rfl

end Instruction

/-- **The opcodes that copy bytes do what the list says**, in any core. -/
theorem Copies.effect {c : Core} {memory : Memory} {opcode : UInt8} {length : Nat}
    {changes : List (Place × UInt8)} (h : Copies c.registers memory opcode length changes) :
    (Instruction.decode opcode).Effect c memory length changes := by
  open Instruction in
  cases h with
  | operand target source h =>
    refine (effect_load c memory target source).decode ?_
    rcases target with x | _ <;> rcases source with y | _
    · rfl
    · rfl
    · rfl
    · exact absurd h (by simp)
  | byte target => exact (effect_loadByte c memory target).decode rfl
  | word pair => exact (effect_loadWord c memory pair).decode rfl
  | toBC => exact (effect_storeIndirect c memory .bc).decode rfl
  | toDE => exact (effect_storeIndirect c memory .de).decode rfl
  | toHLIncrement => exact (effect_storeIndirect c memory .hlIncrement).decode rfl
  | toHLDecrement => exact (effect_storeIndirect c memory .hlDecrement).decode rfl
  | fromBC => exact (effect_loadIndirect c memory .bc).decode rfl
  | fromDE => exact (effect_loadIndirect c memory .de).decode rfl
  | fromHLIncrement => exact (effect_loadIndirect c memory .hlIncrement).decode rfl
  | fromHLDecrement => exact (effect_loadIndirect c memory .hlDecrement).decode rfl
  | toHigh =>
    rw [← highPage_eq]
    exact (effect_storeHigh c memory).decode rfl
  | fromHigh =>
    rw [← highPage_eq]
    exact (effect_loadHigh c memory).decode rfl
  | toHighC =>
    rw [← highPage_eq]
    exact (effect_storeHighC c memory).decode rfl
  | fromHighC =>
    rw [← highPage_eq]
    exact (effect_loadHighC c memory).decode rfl
  | toAbsolute => exact (effect_storeAbsolute c memory).decode rfl
  | fromAbsolute => exact (effect_loadAbsolute c memory).decode rfl
  | stackPointerTo => exact (effect_storeStackPointer c memory).decode rfl
  | stackPointer => exact (effect_loadStackPointer c memory).decode rfl

end GameBoy
