import GameBoy.Proofs.Instruction.Advance
import GameBoy.Proofs.Step.Timing

/-!
# Where a step goes on

A step that runs an instruction goes on at the next one, unless the instruction goes elsewhere. The
next instruction is as far away as this one is long, and that is also how far the code goes that is
fetched for it, what a call leaves on the stack, and where a relative jump counts from
(`GameBoy.Machine.advance_of_executed`). Addresses wrap around, so that an instruction may begin at
the end of memory and go on at its beginning.
-/

namespace GameBoy.Machine

variable {β : Type} [Bus β] {m : Machine β}

/-- The address after the instruction that a step runs. -/
def next (m : Machine β) : UInt16 := m.fetched.next m.pc

/-- **A step that does not go elsewhere** goes on at the next instruction. -/
theorem pc_eq_next (h : m.step.1 = .executed)
    (stays : m.fetched.transfers = true → m.fetched.taken m.cpu.registers.flags = false) :
    m.step.2.pc = m.next := by
  obtain ⟨-, r, c, -, registers, -, -, core⟩ := exists_remainder_of_executed h
  have pc : c.pc = m.pc := congrArg Registers.pc registers
  rw [← registers] at stays
  have ensures := Instruction.remainder_ensures_next m.found stays
  rw [Machine.pc, core, next, ← pc]
  exact ensures.result r

/-- **A call that is made**: what it does to the bus after its code has been fetched is to store the
address of the next instruction. -/
theorem calls_of_call (h : m.step.1 = .executed) (call : m.fetched.calls = true)
    (taken : m.fetched.taken m.cpu.registers.flags = true) :
    m.step.2.cpu.registers.sp = m.cpu.registers.sp - 2 ∧
    ∃ poll, Poll m.cpu.core poll ∧ m.recorded.step.2.bus.calls.toList =
      poll ++ (Microcode.fetchCalls m.found m.codeAddresses ++
        [.tick 4, .write (m.cpu.registers.sp - 1) (highByte m.next), .tick 4,
          .write (m.cpu.registers.sp - 2) (lowByte m.next), .tick 4]) := by
  obtain ⟨poll, r, c, hpoll, registers, hlog, hbus, core⟩ := exists_remainder_of_executed h
  have pc : c.pc = m.pc := congrArg Registers.pc registers
  rw [← registers] at taken
  obtain ⟨target, made⟩ := Instruction.remainder_eq_callTo m.found call taken
  rw [made, pc] at hbus core
  refine ⟨?_, poll, hpoll, ?_⟩
  · rw [← registers]
    exact congrArg (·.registers.sp) core
  · rw [hbus, Instruction.run_callTo_recorded, hlog, List.append_assoc, registers]
    rfl

/-- **A relative jump that is made** goes as far from the next instruction as the byte says that it
has fetched. -/
theorem pc_of_isRelative (h : m.step.1 = .executed) (relative : m.fetched.isRelative = true)
    (taken : m.fetched.taken m.cpu.registers.flags = true) :
    m.step.2.pc = m.next + signExtend (m.found (m.pc + 1)) := by
  obtain ⟨-, r, c, -, registers, -, -, core⟩ := exists_remainder_of_executed h
  have pc : c.pc = m.pc := congrArg Registers.pc registers
  rw [← registers] at taken
  rw [Instruction.remainder_eq_jumpTo m.found relative taken, pc] at core
  exact congrArg Core.pc core

/-- **What the second page does** is two bytes long, all of it. -/
theorem pc_of_opcode_eq (h : m.step.1 = .executed) (opcode : m.opcode = 0xCB) :
    m.fetched.length = 2 ∧ m.step.2.pc = m.pc + 2 := by
  have page : m.fetched = .page := by rwa [fetched_eq, Instruction.decode_eq_page_iff]
  have advance := pc_eq_next h
  rw [next, page] at advance
  rw [page]
  exact ⟨rfl, advance nofun⟩

/-- The address after an instruction is as many bytes on as it has. -/
theorem toNat_next (m : Machine β) :
    m.next.toNat = (m.pc.toNat + m.fetched.length) % 65536 := by
  rw [next, Instruction.next, UInt16.toNat_add, UInt16.toNat_ofNat']
  omega

/-- **Where a step goes on.** A step that runs an instruction goes on at the next one, unless the
instruction is a jump, a call, a return or a restart, without a condition or with one that holds.
The next instruction is as many bytes on as the instruction has, which is also how far the code goes
that is fetched; of what comes after this code, the loads and stores are those of data. A call and a
restart leave the address of the next instruction on the stack. A relative jump adds the distance,
which is a signed number, to the address of the next instruction. What the second page does is two
bytes long, all of it. -/
theorem advance_of_executed (h : m.step.1 = .executed) :
    let i := Instruction.decode m.opcode
    let second := PageInstruction.decode (m.found (m.pc + 1))
    let taken := i.taken m.cpu.registers.flags
    let next := m.pc + UInt16.ofNat i.length
    let fetches := Microcode.fetchCalls m.found (i.codeAddresses m.pc)
    let sp := m.cpu.registers.sp
    (¬(i.transfers = true ∧ taken = true) → m.step.2.pc = next) ∧
    (∀ a ∈ i.codeAddresses m.pc, ∃ k < i.length, a = m.pc + UInt16.ofNat k) ∧
    (∃ poll rest, Poll m.cpu.core poll ∧
      m.recorded.step.2.bus.calls.toList = poll ++ (fetches ++ rest) ∧
      (rest.filterMap BusCall.place?).length = i.dataBytes second taken) ∧
    (i.calls = true → taken = true → m.step.2.cpu.registers.sp = sp - 2 ∧
      ∃ poll, Poll m.cpu.core poll ∧ m.recorded.step.2.bus.calls.toList =
        poll ++ (fetches ++
          [.tick 4, .write (sp - 1) (highByte next), .tick 4, .write (sp - 2) (lowByte next),
            .tick 4])) ∧
    (i.isRelative = true → taken = true → (m.step.2.pc.toNat : Int) =
      (m.pc.toNat + i.length + (m.found (m.pc + 1)).toInt8.toInt) % 65536) ∧
    (m.opcode = 0xCB → i.length = 2 ∧ m.step.2.pc = m.pc + 2) := by
  intro i second taken next fetches sp
  have instruction : m.fetched = i := m.fetched_eq
  have code : Microcode.fetchCalls m.found m.codeAddresses = fetches := by
    rw [codeAddresses, instruction]
  have stays (elsewhere : ¬(i.transfers = true ∧ taken = true)) : m.step.2.pc = next := by
    have advance := pc_eq_next h
    rw [Machine.next, instruction] at advance
    exact advance fun transfers => Bool.eq_false_iff.mpr fun ht => elsewhere ⟨transfers, ht⟩
  refine ⟨stays, fun a => Instruction.exists_lt_of_mem_codeAddresses, ?_, ?_, ?_, ?_⟩
  · obtain ⟨poll, rest, hpoll, hlog, hplaces, -⟩ := exists_spending_of_executed h
    rw [code] at hlog
    rw [dataBytes, instruction] at hplaces
    exact ⟨poll, rest, hpoll, hlog, hplaces⟩
  · intro call made
    have pushed := calls_of_call h
    rw [code, Machine.next, instruction] at pushed
    exact pushed call made
  · intro relative made
    have target := pc_of_isRelative h
    rw [instruction] at target
    rw [target relative made, toNat_add_signExtend, toNat_next, instruction]
    omega
  · intro opcode
    rw [← instruction]
    exact pc_of_opcode_eq h opcode

/-- A machine about to jump as far back as a relative jump can, from the end of memory. -/
def recoiling : Machine Ram where
  cpu := { Cpu.new .standard with core := .start { Registers.zero with pc := 0xFFFF } }
  bus := (Ram.zero.load 0xFFFF [0x18]).load 0x0000 [0x80]

/-- A call whose code wraps around memory leaves the address after it on the stack, and a jump whose
code does so goes back to where it came from. -/
theorem advance_of_executed_recoiling :
    straddling.step.1 = .executed ∧
      (∃ poll, straddling.recorded.step.2.bus.calls.toList =
        poll ++ (Microcode.fetchCalls straddling.found [0xFFFE, 0xFFFF, 0x0000] ++
          [.tick 4, .write 0xBFFF 0x00, .tick 4, .write 0xBFFE 0x01, .tick 4])) ∧
      recoiling.step.1 = .executed ∧ recoiling.step.2.pc.toNat = 0xFF81 := by
  obtain ⟨opcode, call, h⟩ := opcode_straddling
  obtain ⟨-, -, -, pushes, -⟩ := advance_of_executed h
  rw [opcode, call] at pushes
  obtain ⟨-, poll, -, pushed⟩ := pushes rfl rfl
  have h' : recoiling.step.1 = .executed := step_fst_of_unmarked ⟨rfl, rfl, rfl⟩ rfl rfl rfl
  obtain ⟨-, -, -, -, jumps, -⟩ := advance_of_executed h'
  have opcode' : recoiling.opcode = 0x18 := by decide +kernel
  have jump : Instruction.decode 0x18 = .jumpRelative :=
    Instruction.decode_opcode (i := .jumpRelative) rfl
  have distance : recoiling.found (recoiling.pc + 1) = 0x80 := by
    rw [found_ram]
    · decide +kernel
    · rw [codeAddresses, fetched_eq, opcode', jump]
      exact List.mem_of_getElem? (i := 1) rfl
  rw [opcode', jump, distance] at jumps
  exact ⟨h, ⟨poll, pushed⟩, h', Int.ofNat.inj (jumps rfl rfl)⟩

end GameBoy.Machine
