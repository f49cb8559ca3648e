import GameBoy.Proofs.Debugger.Unmarked
import GameBoy.Proofs.Disassembly.Printed
import GameBoy.Proofs.Step.Effect
import GameBoy.Proofs.Step.Transfer

/-!
# What is printed is what happens

The disassembler and the processor each work out the operand of an instruction by themselves, one
from bytes that it peeks at, the other from bytes that it fetches while time passes. In memory they
find the same ones, so a step does what the text of its instruction says:
`GameBoy.Machine.Obeys` is what each text says, and `GameBoy.Machine.obeys_of_executed` that it is
true. A jump goes where it is printed to go, loads and stores are made where they are printed, and
what is printed as a value is used.
-/

namespace GameBoy

/-- **A word moved by a distance**, down if there is a minus sign and else up. -/
def moved (w : UInt16) (negative : Bool) (distance : UInt8) : UInt16 :=
  if negative then w - distance.toUInt16 else w + distance.toUInt16

/-- A signed byte moves a word by its magnitude. -/
theorem add_signExtend (w : UInt16) (b : UInt8) :
    w + signExtend b = moved w (isNegative b) (magnitude b) := by
  have signed : signExtend b =
      if isNegative b then -(magnitude b).toUInt16 else (magnitude b).toUInt16 := by
    revert b
    decide +kernel
  rw [signed, moved]
  split
  · rw [UInt16.sub_eq_add_neg]
  · rfl

namespace Instruction

/-- The target of a restart is on the first page. -/
theorem restartAddress_eq (index : Fin 8) :
    restartAddress index = (lowByte (restartAddress index)).toUInt16 := by
  revert index
  decide

/-- Of the instructions that go elsewhere, those that have no operand are one byte long. -/
theorem length_of_transfers {i : Instruction} (h : i.transfers = true)
    (plain : i.template.gap = none) : i.length = 1 := by
  cases i with
  | jump | jumpIf | jumpRelative | jumpRelativeIf | call | callIf => cases plain
  | jumpHL | ret | retIf | retInterrupt | restart => rfl
  | _ => cases h

end Instruction

namespace Machine

/-- **The loads and stores of a step**: after a look for interrupts and the code of the instruction,
these are the places of all calls that go over the bus. -/
def Accesses (m : Machine Ram) (places : List Breakpoint) : Prop :=
  ∃ poll data, Poll m.cpu.core poll ∧ m.recorded.step.2.bus.calls.toList =
      poll ++ (Microcode.fetchCalls m.bus.memory.get m.codeAddresses ++ data) ∧
    data.filterMap BusCall.place? = places

/-- **The step does what is printed.** -/
def Obeys (m : Machine Ram) : Printed → Prop
  | .jump condition target | .jumpRelative condition target | .call condition target =>
    (∀ c ∈ condition, c.holds m.cpu.registers.flags = true) → m.step.2.pc = target
  | .restart target => m.step.2.pc = target.toUInt16
  | .storeHigh address | .storeAbsolute address => m.Accesses [⟨.write, address⟩]
  | .loadHigh address | .loadAbsolute address => m.Accesses [⟨.read, address⟩]
  | .storeStackPointer address => m.Accesses [⟨.write, address⟩, ⟨.write, address + 1⟩]
  | .loadByte target value => m.Effect 2 [(target.place m.cpu.registers, value)]
  | .loadWord target value =>
    m.Effect 3 [(target.highPlace, highByte value), (target.lowPlace, lowByte value)]
  | .accumulateByte op value =>
    let result := op.apply m.cpu.registers.a value m.cpu.registers.flags
    m.Effect 2 [(.register .a, result.value), (.flags, result.flags.toByte)]
  | .addStackPointer negative distance =>
    m.step.2.cpu.registers.sp = moved m.cpu.registers.sp negative distance
  | .loadStackAddress negative distance =>
    m.step.2.cpu.registers.hl = moved m.cpu.registers.sp negative distance ∧
      m.step.2.cpu.registers.sp = m.cpu.registers.sp

variable {m : Machine Ram}

/-! ### Where the step goes on -/

/-- **A branch that is taken goes to its target.** -/
theorem pc_of_transfers {i : Instruction} (h : m.step.1 = .executed) (fetched : m.fetched = i)
    (transfers : i.transfers = true) (taken : i.taken m.cpu.registers.flags = true) :
    m.step.2.pc = i.target m.cpu.registers m.bus.memory :=
  congrArg Core.pc (transfer_of_executed h fetched transfers taken).1

/-! ### Loads and stores -/

/-- Reading the opcode and letting the machine cycle pass is fetching the first byte of code. -/
theorem fetchCalls_cons (peek : UInt16 → UInt8) (pc : UInt16) (following : List UInt16)
    (before data : List BusCall) :
    before ++ [.read pc (peek pc)] ++
        .tick 4 :: (Microcode.fetchCalls peek following ++ data) =
      before ++ (Microcode.fetchCalls peek (pc :: following) ++ data) := by
  simp [Microcode.fetchCalls, machineCycle]

/-- **The loads and stores that are foreseen are made**, if there are any. -/
theorem accesses_of_executed (h : m.step.1 = .executed)
    (some : m.fetched.accesses m.cpu.registers m.bus.memory.get ≠ []) :
    m.Accesses (m.fetched.accesses m.cpu.registers m.bus.memory.get) := by
  obtain ⟨n, poll, hpoll, before, registers, bus, ran⟩ := recorded_step_of_executed h
  have pc : n.pc = m.pc := congrArg Registers.pc registers
  have same : n.bus.bus = m.bus := bus.trans m.retries_readInstruction.bus
  have opcode : m.opcode = m.bus.memory.get m.pc := by
    rw [opcode, bus_alert]
    rfl
  have finds : Finds m.bus.memory.get (Bus.tick n.bus.bus machineCycle)
      (m.fetched.following n.pc) := by
    rw [same]
    exact .of_tick fun a _ count => peek_iterate_tick_ram m.bus a (count + 1)
  have foreseen := some
  rw [← registers] at foreseen
  obtain ⟨data, hlog, hdata⟩ := calls_execute foreseen finds
  rw [registers] at hdata
  refine ⟨poll, data, hpoll, ?_, hdata⟩
  have long : m.fetched ≠ .stop := by
    intro stop
    rw [stop] at some
    exact some rfl
  rw [ran, hlog, before, pc, opcode, codeAddresses, Instruction.codeAddresses_eq_following long]
  exact fetchCalls_cons ..

/-! ### The stack pointer and a distance -/

/-- A word whose halves come to be in the stack pointer is there after the step. -/
theorem Effect.sp_eq {length : Nat} {changes : List (Place × UInt8)}
    (effect : m.Effect length changes) {w : UInt16} (high : (.stackHigh, highByte w) ∈ changes)
    (low : (.stackLow, lowByte w) ∈ changes) : m.step.2.cpu.registers.sp = w :=
  eq_of_bytes (effect.changed.changed high) (effect.changed.changed low)

/-- The stack pointer is kept if neither of its halves is changed. -/
theorem Effect.sp_kept {length : Nat} {changes : List (Place × UInt8)}
    (effect : m.Effect length changes) (high : .stackHigh ∉ changes.map Prod.fst)
    (low : .stackLow ∉ changes.map Prod.fst) :
    m.step.2.cpu.registers.sp = m.cpu.registers.sp :=
  eq_of_bytes (effect.changed.kept high) (effect.changed.kept low)

/-- A word whose halves come to be in H and L is there after the step. -/
theorem Effect.hl_eq {length : Nat} {changes : List (Place × UInt8)}
    (effect : m.Effect length changes) {w : UInt16} (high : (.register .h, highByte w) ∈ changes)
    (low : (.register .l, lowByte w) ∈ changes) : m.step.2.cpu.registers.hl = w := by
  have upper : m.step.2.cpu.registers.h = highByte w := effect.changed.changed high
  have lower : m.step.2.cpu.registers.l = lowByte w := effect.changed.changed low
  rw [Registers.hl, upper, lower, word_highByte_lowByte]

/-- **Adding to the stack pointer** moves it by the signed byte that comes next. -/
theorem sp_of_addStackPointer (h : m.step.1 = .executed) (fetched : m.fetched = .addStackPointer) :
    let offset := m.bus.memory.get (m.pc + 1)
    m.step.2.cpu.registers.sp =
      moved m.cpu.registers.sp (isNegative offset) (magnitude offset) := by
  intro offset
  let result := Alu.addOffset m.cpu.registers.sp offset
  have effect : m.Effect 2 [(.stackHigh, highByte result.value), (.stackLow, lowByte result.value),
      (.flags, result.flags.toByte)] :=
    effect_of_fetched h fetched fun c =>
      Instruction.effect_addStackPointer { c with registers := m.cpu.registers } m.bus.memory
  rw [← add_signExtend]
  exact effect.sp_eq List.mem_cons_self (List.mem_cons_of_mem _ List.mem_cons_self)

/-- **The sum of the stack pointer and the next byte** comes to be in HL, and the stack pointer is
kept. -/
theorem hl_of_loadStackAddress (h : m.step.1 = .executed)
    (fetched : m.fetched = .loadStackAddress) :
    let offset := m.bus.memory.get (m.pc + 1)
    m.step.2.cpu.registers.hl =
        moved m.cpu.registers.sp (isNegative offset) (magnitude offset) ∧
      m.step.2.cpu.registers.sp = m.cpu.registers.sp := by
  intro offset
  let result := Alu.addOffset m.cpu.registers.sp offset
  have effect : m.Effect 2 [(.register .h, highByte result.value),
      (.register .l, lowByte result.value), (.flags, result.flags.toByte)] :=
    effect_of_fetched h fetched fun c =>
      Instruction.effect_loadStackAddress { c with registers := m.cpu.registers } m.bus.memory
  rw [← add_signExtend]
  exact ⟨effect.hl_eq List.mem_cons_self (List.mem_cons_of_mem _ List.mem_cons_self),
    effect.sp_kept (by simp) (by simp)⟩

/-! ### What is printed -/

/-- **A step does what is printed**, if outline and digits are those of its instruction. -/
theorem obeys_of_outline {p : Printed} (h : m.step.1 = .executed)
    (outline : m.fetched.outline (m.bus.memory.get (m.pc + 1)) = p.outline)
    (digits : m.fetched.digits m.pc (m.bus.memory.get (m.pc + 1)) (m.bus.memory.get (m.pc + 2)) =
      p.digits) : m.Obeys p := by
  cases p with
  | jump condition | jumpRelative condition | call condition =>
    intro holds
    cases condition with
    | none =>
      have fetched := Printed.eq_of_outline outline rfl
      rw [fetched] at digits
      rw [pc_of_transfers h fetched rfl rfl]
      exact wordHex_inj.mp digits
    | some condition =>
      have fetched := Printed.eq_of_outline outline rfl
      rw [fetched] at digits
      rw [pc_of_transfers h fetched rfl (holds condition rfl)]
      exact wordHex_inj.mp digits
  | restart =>
    obtain ⟨index, fetched⟩ := Printed.exists_restart_of_outline outline
    rw [fetched] at digits
    rw [Obeys, pc_of_transfers h fetched rfl rfl, ← byteHex_inj.mp digits]
    exact Instruction.restartAddress_eq index
  | storeHigh address | loadHigh address =>
    have fetched := Printed.eq_of_outline outline rfl
    have accesses := accesses_of_executed h
    rw [fetched] at digits accesses
    obtain rfl : highPage (m.bus.memory.get (m.pc + 1)) = address :=
      wordHex_inj.mp ((Printed.wordHex_highPage _).trans digits)
    exact accesses (List.cons_ne_nil _ _)
  | storeAbsolute address | loadAbsolute address | storeStackPointer address =>
    have fetched := Printed.eq_of_outline outline rfl
    have accesses := accesses_of_executed h
    rw [fetched] at digits accesses
    obtain rfl : word (m.bus.memory.get (m.pc + 2)) (m.bus.memory.get (m.pc + 1)) = address :=
      wordHex_inj.mp digits
    exact accesses (List.cons_ne_nil _ _)
  | loadByte target value =>
    have fetched := Printed.eq_of_outline outline rfl
    rw [fetched] at digits
    obtain rfl : m.bus.memory.get (m.pc + 1) = value := byteHex_inj.mp digits
    exact effect_of_fetched h fetched fun c => Instruction.effect_loadByte _ _ target
  | loadWord target =>
    have fetched := Printed.eq_of_outline outline rfl
    rw [fetched] at digits
    rw [Obeys, ← wordHex_inj.mp digits, highByte_word, lowByte_word]
    exact effect_of_fetched h fetched fun c => Instruction.effect_loadWord _ _ target
  | accumulateByte op value =>
    have fetched := Printed.eq_of_outline outline rfl
    rw [fetched] at digits
    obtain rfl : m.bus.memory.get (m.pc + 1) = value := byteHex_inj.mp digits
    exact effect_of_fetched h fetched fun c => Instruction.effect_accumulateByte _ _ op
  | addStackPointer negative =>
    have fetched := Printed.eq_of_outline outline rfl
    rw [fetched] at digits outline
    have sign : isNegative (m.bus.memory.get (m.pc + 1)) = negative := (Outline.first.inj outline).2
    rw [Obeys, ← byteHex_inj.mp digits, ← sign]
    exact sp_of_addStackPointer h fetched
  | loadStackAddress negative =>
    have fetched := Printed.eq_of_outline outline rfl
    rw [fetched] at digits outline
    have sign : isNegative (m.bus.memory.get (m.pc + 1)) = negative := (Outline.first.inj outline).2
    rw [Obeys, ← byteHex_inj.mp digits, ← sign]
    exact hl_of_loadStackAddress h fetched

/-- **What is printed is what happens.** If a step runs an instruction, then it does what the text
of the instruction says, as it was disassembled before the step: a branch, if it is taken, goes where
it is printed to go; loads and stores are made at the address that is printed, and the stack pointer
is stored there and at the next one; a byte or a word that is printed is loaded, or is the operand;
and a signed byte that is printed is what the stack pointer is moved by, or what is added to it.
Every operand is printed in one of these ways. Unless a branch is taken, the step goes on as many
bytes later as the length says, which is also how much code has been fetched, except for a stop. The
branches that show no operand are one byte long. -/
theorem obeys_of_executed (h : m.step.1 = .executed) :
    let i := Instruction.decode (m.bus.memory.get m.pc)
    let text := (disassemble m.bus m.pc).1
    let length := (disassemble m.bus m.pc).2
    (∀ p : Printed, text = p.text → m.Obeys p) ∧
    (i.template.gap ≠ none ∨ i.calls = true → ∃ p : Printed, text = p.text) ∧
    (¬(i.transfers = true ∧ i.taken m.cpu.registers.flags = true) →
      m.step.2.pc = m.pc + UInt16.ofNat length) ∧
    (i ≠ .stop → m.codeAddresses = (List.range length).map fun k => m.pc + UInt16.ofNat k) ∧
    (i.transfers = true → i.template.gap = none → length = 1) := by
  intro i text length
  have fetched : m.fetched = i := m.fetched_ram
  have opcode : i.hasOpcode = true := Instruction.hasOpcode_decode _
  have shown : text = i.textAt m.bus.memory.get m.pc := disassemble_fst m.bus m.pc
  have long : length = i.length := disassemble_snd m.bus m.pc
  rw [shown, long]
  refine ⟨fun p printed => ?_, Printed.exists_text_eq opcode, fun stays => ?_, fun stop => ?_,
    Instruction.length_of_transfers⟩
  · obtain ⟨outline, digits⟩ := (Printed.textAt_eq_text_iff opcode).mp printed
    rw [← fetched] at outline digits
    exact obeys_of_outline h outline digits
  · have advance := pc_eq_next h
    rw [next, fetched] at advance
    exact advance fun transfers => Bool.eq_false_iff.mpr fun taken => stays ⟨transfers, taken⟩
  · rw [codeAddresses, fetched]
    exact Instruction.codeAddresses_eq_map_range stop m.pc

/-- A machine about to take its stack pointer as far down as one instruction can, past the beginning
of memory, with code that wraps around memory too. -/
def descending : Machine Ram where
  cpu :=
    { Cpu.new .standard with core := .start { Registers.zero with sp := 0x0010, pc := 0xFFFF } }
  bus := (Ram.zero.load 0xFFFF [0xE8]).load 0x0000 [0x80]

/-- The byte is printed as a distance of 128, and that is how far the stack pointer moves. -/
theorem obeys_of_executed_descending :
    descending.step.1 = .executed ∧
      disassemble descending.bus descending.pc = ("add sp, -$80", 2) ∧
      descending.step.2.cpu.registers.sp = 0x0010 - 0x0080 ∧ descending.step.2.pc = 0x0001 := by
  have h : descending.step.1 = .executed := step_fst_of_unmarked ⟨rfl, rfl, rfl⟩ rfl rfl rfl
  have opcode : descending.bus.memory.get descending.pc = 0xE8 := by decide +kernel
  have decoded : Instruction.decode (Bus.peek descending.bus descending.pc) = .addStackPointer := by
    rw [← Instruction.decode_opcode (i := .addStackPointer) rfl]
    exact congrArg Instruction.decode opcode
  have text : (disassemble descending.bus descending.pc).1 = "add sp, -$80" := by
    rw [disassemble_fst, decoded]
    decide +kernel
  have length : (disassemble descending.bus descending.pc).2 = 2 := by
    rw [disassemble_snd, decoded]
    rfl
  obtain ⟨obeys, -, advance, -⟩ := obeys_of_executed h
  have stays : (Instruction.decode (Bus.peek descending.bus descending.pc)).transfers = false := by
    rw [decoded]
    rfl
  rw [text] at obeys
  rw [length] at advance
  refine ⟨h, Prod.ext text length, obeys (.addStackPointer true 0x80) (by decide), ?_⟩
  exact advance fun moves => Bool.false_ne_true (stays.symm.trans moves.1)

end Machine

end GameBoy
