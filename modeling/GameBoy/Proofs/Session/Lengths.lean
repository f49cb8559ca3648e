import GameBoy.Proofs.Session.Moments
import GameBoy.Proofs.Step.Timing

/-!
# The record of lengths

A processor keeps, for every address, the length of the instruction that was last fetched there
(`GameBoy.Cpu.sizeAt`). A step fetches an instruction if it runs one, or would have run one but for
a breakpoint on a load or a store, which is only found once the opcode has been read
(`GameBoy.Machine.Fetches`). All other steps leave the record alone, and so does the driver,
whatever is done to the memory that the opcode came from.

So the record is a function of the past: at each address it holds the length of the last fetch
(`GameBoy.Moment.lastFetch?`), and nothing where there was none.
-/

namespace GameBoy

namespace Instruction

/-- Instructions are one to three bytes long. -/
theorem length_bounds (i : Instruction) : 1 ≤ i.length ∧ i.length ≤ 3 := by
  cases i <;> simp [length]

/-- Only the first byte of code is at the address of the instruction. -/
theorem not_mem_tail_codeAddresses (i : Instruction) (pc : UInt16) :
    pc ∉ (i.codeAddresses pc).tail := by
  intro h
  have later : pc ∈ [pc + 1, pc + 2] := List.mem_of_mem_take h
  simp at later

end Instruction

variable {β : Type} [Bus β]

namespace Machine

variable {m : Machine β}

/-! ### Steps -/

/-- **A step that fetches an instruction**: it runs one, or is newly trapped without a breakpoint on
the fetch. -/
def Fetches (m : Machine β) : Prop :=
  m.step.1 = .executed ∨
    m.step.1 = .trapped ∧ m.cpu.debugger.trapped = false ∧
      ⟨.execute, m.pc⟩ ∉ m.cpu.debugger.breakpoints

instance (m : Machine β) : Decidable m.Fetches := inferInstanceAs (Decidable (_ ∨ _ ∧ _ ∧ _))

/-- A breakpoint that stops a fetch waits for it. -/
theorem mem_of_caught {b : Breakpoint} (h : m.alert.fetchBreakpoint? = some b) :
    ⟨.execute, m.pc⟩ ∈ m.cpu.debugger.breakpoints := by
  rw [fetchBreakpoint?_alert] at h
  obtain ⟨place, waits⟩ := Debugger.mem_of_hit? h
  rwa [List.mem_singleton.mp place] at waits

/-- Reading an opcode records the length of the instruction. -/
theorem sizes_readInstruction_alert (m : Machine β) :
    m.alert.readInstruction.2.cpu.sizes = m.cpu.sizes.set m.pc (some m.fetched.length) := by
  rw [← m.pc_alert, ← m.sizes_alert]
  rfl

/-- **A step records a length** if it fetches an instruction, and only then. -/
theorem sizes_step_cases (m : Machine β) :
    m.Fetches ∧ m.step.2.cpu.sizes = m.cpu.sizes.set m.pc (some m.fetched.length) ∨
      ¬m.Fetches ∧ m.step.2.cpu.sizes = m.cpu.sizes := by
  have hm := m.step_cases
  rw [Fetches]
  generalize m.step = s at hm ⊢
  cases hm with
  | blocked | stopped => exact .inr ⟨by simp, rfl⟩
  | held _ _ held => exact .inr ⟨by simp [held], rfl⟩
  | halted | interrupted => exact .inr ⟨by simp, m.sizes_alert⟩
  | caught b _ _ waits => exact .inr ⟨by simp [mem_of_caught waits], m.sizes_alert⟩
  | stalled b ready _ free waits =>
    refine .inl ⟨.inr ⟨rfl, ready.trapped, not_mem_of_stalled free waits⟩, ?_⟩
    exact m.sizes_readInstruction_alert
  | executed =>
    have ran := m.alert.readInstruction.2.bare_execute m.alert.readInstruction.1
    have sizes := congrArg (·.cpu.sizes) ran
    exact .inl ⟨.inl rfl, sizes.trans m.sizes_readInstruction_alert⟩

/-- A step that fetches an instruction runs it, or comes upon a breakpoint on a load or a store. -/
theorem step_of_fetches (h : m.Fetches) :
    (∃ b, m.alert.readInstruction.2.accessBreakpoint? m.alert.readInstruction.1 = some b ∧
      m.step = (.trapped, m.alert.readInstruction.2.trap b)) ∨
    m.step = (.executed, m.alert.readInstruction.2.execute m.alert.readInstruction.1) := by
  have hm := m.step_cases
  rw [Fetches] at h
  generalize m.step = s at hm h ⊢
  cases hm with
  | held _ _ held =>
    have free := (h.resolve_left (by simp)).2.1
    exact absurd (held.symm.trans free) (by simp)
  | caught b _ _ waits => exact absurd (mem_of_caught waits) (h.resolve_left (by simp)).2.2
  | stalled b _ _ _ hit => exact .inl ⟨b, hit, rfl⟩
  | executed => exact .inr rfl
  | _ => simp at h

/-- **A step that fetches an instruction reads its opcode**, first thing after the look for
interrupts. -/
theorem exists_read_of_fetches (h : m.Fetches) :
    ∃ poll rest, Poll m.cpu.core poll ∧
      m.recorded.step.2.bus.calls.toList = poll ++ .read m.pc m.opcode :: rest := by
  obtain ⟨poll, hpoll, halert⟩ := m.recorded.sends_alert
  have polled : m.recorded.alert.bus.calls.toList = poll := halert.log
  have read := m.calls_readInstruction_recorded
  rw [polled] at read
  have fetches : m.recorded.Fetches := by
    rw [Fetches, step_fst_recorded]
    exact h
  rcases step_of_fetches fetches with ⟨b, -, step⟩ | step
  · refine ⟨poll, [], hpoll, ?_⟩
    rw [step]
    exact read
  · obtain ⟨count, rest, -, -, ran⟩ :=
      m.recorded.alert.readInstruction.2.sends_execute m.recorded.alert.readInstruction.1
    refine ⟨poll, .tick 4 :: rest, hpoll, ?_⟩
    rw [step, ran.log, read, List.append_assoc, List.singleton_append]

/-- **A step that fetches an instruction and is trapped** has come upon a breakpoint on a load or a
store. -/
theorem exists_mem_of_fetches (h : m.Fetches) (trapped : m.step.1 = .trapped) :
    ∃ b ∈ m.fetched.accesses m.cpu.registers m.shown, b ∈ m.cpu.debugger.breakpoints := by
  rcases step_of_fetches h with ⟨b, hit, -⟩ | step
  · obtain ⟨place, waits⟩ := Debugger.mem_of_hit? hit
    have registers : m.alert.readInstruction.2.cpu.registers = m.cpu.registers := m.registers_alert
    rw [registers] at place
    have breakpoints := m.breakpoints_alert
    exact ⟨b, place, breakpoints ▸ waits⟩
  · rw [step] at trapped
    exact absurd trapped (by simp)

/-- Whatever else the driver does, no length is recorded. -/
theorem sizes_act {action : Action} (h : action ≠ .step) :
    (m.act action).2.cpu.sizes = m.cpu.sizes := by
  cases action with
  | step => exact absurd rfl h
  | wakeFromStop =>
    change m.cpu.wakeFromStop.sizes = _
    rw [Cpu.wakeFromStop]
    split <;> rfl
  | acceptsInterrupt => exact congrArg Cpu.sizes m.cpu_acceptsInterrupt
  | _ => rfl

end Machine

/-! ### Sessions -/

namespace Moment

/-- **An instruction is fetched at an address** at this moment. -/
def FetchesAt (s : Moment β) (a : UInt16) : Prop :=
  s.action = .step ∧ s.machine.Fetches ∧ s.machine.pc = a

instance (s : Moment β) (a : UInt16) : Decidable (s.FetchesAt a) :=
  inferInstanceAs (Decidable (_ ∧ _ ∧ _))

/-- **The last moment at which an instruction was fetched at an address**, if there is one. -/
def lastFetch? (past : List (Moment β)) (a : UInt16) : Option (Moment β) :=
  past.findRev? fun s => decide (s.FetchesAt a)

/-- The length of the instruction that is fetched at this moment, if one is. -/
def fetchedLength (s : Moment β) : Nat := (Instruction.decode s.machine.opcode).length

/-- **One moment more** is the last fetch if it is one. -/
theorem lastFetch?_concat (past : List (Moment β)) (s : Moment β) (a : UInt16) :
    lastFetch? (past ++ [s]) a = if s.FetchesAt a then some s else lastFetch? past a := by
  rw [lastFetch?, lastFetch?, List.findRev?_eq_find?_reverse, List.findRev?_eq_find?_reverse,
    List.reverse_concat, List.find?_cons]
  by_cases h : s.FetchesAt a <;> simp [h]

/-- There is a last fetch if there is one at all. -/
theorem isSome_lastFetch?_iff {past : List (Moment β)} {a : UInt16} :
    (lastFetch? past a).isSome = true ↔ ∃ s ∈ past, s.FetchesAt a := by
  rw [lastFetch?, List.findRev?_eq_find?_reverse, List.find?_isSome]
  simp

/-- **What a moment records.** -/
theorem sizeAt_next (s : Moment β) (a : UInt16) :
    s.next.cpu.sizeAt a =
      if s.FetchesAt a then some s.fetchedLength else s.machine.cpu.sizeAt a := by
  obtain ⟨m, action⟩ := s
  by_cases hs : action = .step
  · subst hs
    change m.step.2.cpu.sizes.get a = _
    rcases m.sizes_step_cases with ⟨fetches, sizes⟩ | ⟨idle, sizes⟩
    · rw [sizes, AddressMap.get_set, Machine.fetched_eq]
      simp only [FetchesAt, fetches, true_and]
      rfl
    · rw [sizes, if_neg fun h => idle h.2.1]
      rfl
  · rw [if_neg fun h => hs h.1]
    exact congrArg (AddressMap.get · a) (Machine.sizes_act hs)

end Moment

namespace Machine

open Moment

/-- **The record at the end of a session** is that of the last fetch in it, or the one there was. -/
theorem sizeAt_session (m : Machine β) (actions : List Action) (a : UInt16) :
    (m.session actions).2.cpu.sizeAt a =
      ((lastFetch? (m.moments actions) a).map fetchedLength).or (m.cpu.sizeAt a) := by
  induction actions using List.reverseRecOn with
  | nil => rfl
  | append_singleton actions action ih =>
    have last := sizeAt_next ⟨(m.session actions).2, action⟩ a
    rw [session_concat, moments_concat, lastFetch?_concat]
    split
    · rename_i fetches
      rwa [if_pos fetches] at last
    · rename_i elsewhere
      rw [if_neg elsewhere] at last
      exact last.trans ih

/-- **The record of lengths tells what was fetched.** In a session from the creation of a processor
on, the length on record for an address is that of the instruction last fetched there, whatever has
been done to memory or to the processor since, and there is none on record if none was fetched. A
length is one, two or three, and two for what the second page does. The opcode that it comes from is
one that was read over the bus, and either the instruction ran or a breakpoint waited for one of its
loads and stores. An address has no length on record if whenever it was part of an instruction it
was not the first byte. -/
theorem sizeAt_eq_lastFetch (config : Config) (bus : β) (actions : List Action) (a : UInt16) :
    let fresh : Machine β := ⟨.new config, bus⟩
    let past := fresh.moments actions
    let cpu := (fresh.session actions).2.cpu
    cpu.sizeAt a = (lastFetch? past a).map fetchedLength ∧
    ((∃ size, cpu.sizeAt a = some size) ↔ ∃ s ∈ past, s.FetchesAt a) ∧
    (∀ size, cpu.sizeAt a = some size → 1 ≤ size ∧ size ≤ 3) ∧
    (∀ s, lastFetch? past a = some s → s.machine.opcode = 0xCB → cpu.sizeAt a = some 2) ∧
    (∀ s ∈ past, s.FetchesAt a →
      (∃ poll rest, Poll s.machine.cpu.core poll ∧
        s.machine.recorded.step.2.bus.calls.toList = poll ++ .read a s.machine.opcode :: rest) ∧
      (s.machine.step.1 = .executed ∨ s.machine.step.1 = .trapped ∧
        ∃ b ∈ s.machine.fetched.accesses s.machine.cpu.registers s.machine.shown,
          b ∈ s.machine.cpu.debugger.breakpoints)) ∧
    ((∀ s ∈ past, s.action = .step → s.machine.Fetches → a ∈ s.machine.codeAddresses →
        a ∈ s.machine.codeAddresses.tail) → cpu.sizeAt a = none) := by
  intro fresh past cpu
  have record : cpu.sizeAt a = (lastFetch? past a).map fetchedLength := by
    have session := fresh.sizeAt_session actions a
    have nothing : fresh.cpu.sizeAt a = none := AddressMap.get_replicate none a
    rwa [nothing, Option.or_none] at session
  have known : (∃ size, cpu.sizeAt a = some size) ↔ ∃ s ∈ past, s.FetchesAt a := by
    rw [← Option.isSome_iff_exists, record, Option.isSome_map, isSome_lastFetch?_iff]
  refine ⟨record, known, ?_, ?_, ?_, ?_⟩
  · intro size hsize
    rw [record, Option.map_eq_some_iff] at hsize
    obtain ⟨s, -, rfl⟩ := hsize
    exact Instruction.length_bounds _
  · intro s last page
    rw [record, last, Option.map_some, fetchedLength, Instruction.decode_eq_page_iff.mpr page]
    rfl
  · rintro s - ⟨-, fetches, rfl⟩
    refine ⟨exists_read_of_fetches fetches, fetches.imp_right fun trapped => ?_⟩
    exact ⟨trapped.1, exists_mem_of_fetches fetches trapped.1⟩
  · intro inside
    rw [Option.eq_none_iff_forall_not_mem]
    intro size hsize
    obtain ⟨s, hs, step, fetches, rfl⟩ := known.mp ⟨size, hsize⟩
    have first : s.machine.pc ∈ s.machine.codeAddresses := List.mem_cons_self
    exact s.machine.fetched.not_mem_tail_codeAddresses _ (inside s hs step fetches first)

/-- An instruction of the second page. -/
def paged : Ram := Ram.zero.load 0x0100 [0xCB, 0x37]

/-- It runs, is overwritten by a jump, and a breakpoint stops the processor there after a reset. -/
def pagedActions : List Action :=
  [.step, .write 0x0100 0xC3, .reset, .addBreakpoint ⟨.execute, 0x0100⟩, .step]

/-- The length is still on record, and there is none for the second byte. -/
theorem sizeAt_eq_lastFetch_overwriting :
    ((⟨.new .standard, paged⟩ : Machine Ram).session pagedActions).1 =
        [.outcome .executed, .done, .done, .truth true, .outcome .trapped] ∧
      ((⟨.new .standard, paged⟩ : Machine Ram).session pagedActions).2.cpu.sizeAt 0x0100 = some 2 ∧
      ((⟨.new .standard, paged⟩ : Machine Ram).session pagedActions).2.cpu.sizeAt 0x0101 =
        none := by
  let m : Machine Ram := ⟨.new .standard, paged⟩
  obtain ⟨-, -, -, page, -, -⟩ := sizeAt_eq_lastFetch .standard paged pagedActions 0x0100
  obtain ⟨-, -, -, -, -, operand⟩ := sizeAt_eq_lastFetch .standard paged pagedActions 0x0101
  obtain ⟨replies, inside, opcode⟩ :
      (m.session pagedActions).1 =
          [.outcome .executed, .done, .done, .truth true, .outcome .trapped] ∧
        (∀ s ∈ m.moments pagedActions, s.action = .step → s.machine.Fetches →
          0x0101 ∈ s.machine.codeAddresses → 0x0101 ∈ s.machine.codeAddresses.tail) ∧
        (lastFetch? (m.moments pagedActions) 0x0100).map (·.machine.opcode) = some 0xCB := by
    decide +kernel
  obtain ⟨s, last, hs⟩ := Option.map_eq_some_iff.mp opcode
  exact ⟨replies, page s last hs, operand inside⟩

end Machine

end GameBoy
