import GameBoy.Proofs.Instruction.Contents

/-!
# Instructions that compute

The effect of the instructions that combine bytes, count them up or down, or move their bits. An
operation gives a byte and flags, and the instruction puts the one into the accumulator, or back
where the operand came from, and the others into F. Which operand it was that the byte came from
matters for nothing else: the operation knows the byte alone.

An operand may be changed in its place, with flags (`GameBoy.ByteOperand.exists_update_yields`) or
without (`GameBoy.ByteOperand.exists_replace_yields`). If it is in memory this place may well be in
the code of the instruction itself, which has been fetched by then.
-/

namespace GameBoy

open Instruction (accumulated)

/-! ### Bytes and flags -/

/-- A byte has been put somewhere, and then the flags are set. -/
theorem contents_result {r r' : Registers} {memory memory' : Memory} {p : Place}
    {result : Alu.Result}
    (h : contents r' memory' = Function.update (contents r memory) p result.value) :
    contents (r'.setFlags result.flags) memory' =
      (contents r memory).put [(p, result.value), (.flags, result.flags.toByte)] := by
  rw [contents_setFlags, h]
  rfl

/-- The accumulator and F as an operation on bytes leaves them. -/
theorem contents_accumulated (r : Registers) (memory : Memory) (result : Alu.Result) (pc : UInt16) :
    contents { accumulated r result with pc } memory =
      (contents r memory).put
        [(.register .a, result.value), (.flags, result.flags.toByte)] := by
  rw [contents_pc]
  exact contents_result (contents_setByte r memory .a result.value)

namespace ByteOperand

variable (operand : ByteOperand) (r : Registers) (memory : Memory)

/-- No operand is in F. -/
theorem distinct_place_flags : [operand.place r, .flags].Nodup := by
  cases operand <;> simp [place]

/-- **An operand is changed in its place**: an operation is applied to it, the byte goes back to
where it was, and the flags are set. What is done with the registers then does not matter. -/
theorem exists_update_yields {γ : Type} (operation : UInt8 → Alu.Result) (f : Registers → γ) :
    let result := operation (contents r memory (operand.place r))
    let changes := [(operand.place r, result.value), (.flags, result.flags.toByte)]
    ∃ r' memory',
      (operand.read r >>= fun value =>
        operand.write r (operation value).value >>= fun r' =>
          .done (f (r'.setFlags (operation value).flags))).Yields
        memory (f r') memory' (changes.filterMap Place.store?) ∧
      contents r' memory' = (contents r memory).put changes := by
  intro result changes
  have read := operand.read_yields r memory
  obtain ⟨r', memory', write, after⟩ := operand.exists_write_yields r memory result.value
  exact ⟨_, memory', read.bind (write.map _), contents_result after⟩

/-- **An operand is replaced in its place** by what a function makes of it, and F is left alone. -/
theorem exists_replace_yields (f : UInt8 → UInt8) :
    let changes := [(operand.place r, f (contents r memory (operand.place r)))]
    ∃ r' memory',
      (operand.read r >>= fun value => operand.write r (f value)).Yields
        memory r' memory' (changes.filterMap Place.store?) ∧
      contents r' memory' = (contents r memory).put changes := by
  intro changes
  have read := operand.read_yields r memory
  obtain ⟨r', memory', write, after⟩ := operand.exists_write_yields r memory
    (f (contents r memory (operand.place r)))
  exact ⟨r', memory', read.bind write, after⟩

end ByteOperand

namespace Instruction

variable (c : Core) (memory : Memory)

/-! ### The accumulator -/

/-- The accumulator and F are two places. -/
theorem distinct_accumulator_flags : [Place.register .a, .flags].Nodup := by decide

theorem effect_accumulate (op : Alu.AccumulatorOp) (operand : ByteOperand) :
    let result := op.apply c.registers.a
      (contents c.registers memory (operand.place c.registers)) c.registers.flags
    (accumulate op operand).Effect c memory 1
      [(.register .a, result.value), (.flags, result.flags.toByte)] := by
  have read := operand.read_yields c.registers memory
  exact ⟨rfl, rfl, distinct_accumulator_flags, _, _, read.map _, contents_accumulated ..⟩

theorem effect_accumulateByte (op : Alu.AccumulatorOp) :
    let result := op.apply c.registers.a (memory.get (c.registers.pc + 1)) c.registers.flags
    (accumulateByte op).Effect c memory 2
      [(.register .a, result.value), (.flags, result.flags.toByte)] :=
  ⟨rfl, rfl, distinct_accumulator_flags, _, _, .read .done, contents_accumulated ..⟩

theorem effect_rotate (op : AccumulatorRotate) :
    let result := op.shift.apply c.registers.a c.registers.flags
    (rotate op).Effect c memory 1
      [(.register .a, result.value), (.flags, { result.flags with zero := false }.toByte)] :=
  ⟨rfl, rfl, distinct_accumulator_flags, _, _, .done, contents_accumulated ..⟩

/-! ### Counting -/

theorem effect_increment (operand : ByteOperand) :
    let result := Alu.increment (contents c.registers memory (operand.place c.registers))
      c.registers.flags
    (increment operand).Effect c memory 1
      [(operand.place c.registers, result.value), (.flags, result.flags.toByte)] := by
  obtain ⟨r', memory', update, after⟩ := operand.exists_update_yields c.registers memory
    (Alu.increment · c.registers.flags) fun r => c.proceed r (c.registers.pc + 1)
  refine ⟨rfl, rfl, operand.distinct_place_flags _, _, _, update, ?_⟩
  exact (contents_pc r' memory' _).trans after

theorem effect_decrement (operand : ByteOperand) :
    let result := Alu.decrement (contents c.registers memory (operand.place c.registers))
      c.registers.flags
    (decrement operand).Effect c memory 1
      [(operand.place c.registers, result.value), (.flags, result.flags.toByte)] := by
  obtain ⟨r', memory', update, after⟩ := operand.exists_update_yields c.registers memory
    (Alu.decrement · c.registers.flags) fun r => c.proceed r (c.registers.pc + 1)
  refine ⟨rfl, rfl, operand.distinct_place_flags _, _, _, update, ?_⟩
  exact (contents_pc r' memory' _).trans after

/-! ### The stack pointer and a signed byte -/

/-- A sum of words has been put into a pair, and then the flags are set. -/
theorem contents_wideResult (r : Registers) (pair : RegisterPair) (result : Alu.WideResult)
    (pc : UInt16) :
    contents { (r.setPair pair result.value).setFlags result.flags with pc } memory =
      (contents r memory).put
        [(pair.highPlace, highByte result.value), (pair.lowPlace, lowByte result.value),
          (.flags, result.flags.toByte)] := by
  rw [contents_pc, contents_setFlags, contents_setPair]
  rfl

/-- The two halves of a pair and F are three places. -/
theorem distinct_pair_flags (pair : RegisterPair) :
    [pair.highPlace, pair.lowPlace, .flags].Nodup := by
  cases pair <;> decide

theorem effect_addStackPointer :
    let result := Alu.addOffset c.registers.sp (memory.get (c.registers.pc + 1))
    addStackPointer.Effect c memory 2
      [(.stackHigh, highByte result.value), (.stackLow, lowByte result.value),
        (.flags, result.flags.toByte)] :=
  ⟨rfl, rfl, distinct_pair_flags .sp, _, _, .read (.idle (.idle .done)),
    contents_wideResult memory c.registers .sp _ _⟩

theorem effect_loadStackAddress :
    let result := Alu.addOffset c.registers.sp (memory.get (c.registers.pc + 1))
    loadStackAddress.Effect c memory 2
      [(.register .h, highByte result.value), (.register .l, lowByte result.value),
        (.flags, result.flags.toByte)] :=
  ⟨rfl, rfl, distinct_pair_flags .hl, _, _, .read (.idle .done),
    contents_wideResult memory c.registers .hl _ _⟩

end Instruction

end GameBoy
