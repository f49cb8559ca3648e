import GameBoy.Bus.Ram
import GameBoy.Proofs.Instruction.Advance
import GameBoy.Proofs.Instruction.Encoding
import Mathlib.Logic.Function.Basic

/-!
# What registers and memory hold

Whatever a program can compute with lies in a byte somewhere: in a register of one byte, in F, in
one half of the stack pointer, or in memory (`GameBoy.Place`). Only the program counter is left out,
of which it is easier to say where it goes. The registers and memory together are then a function
from places to bytes, `GameBoy.contents`.

What an instruction does can be said by a list of the places it changes, each with the byte it holds
afterwards. `GameBoy.Changes` says that a list tells everything, in that all other places hold what
they held before. To prove it, the changes are made one after the other (`GameBoy.Contents.put`),
and the lemmas of this file say which change of the contents goes with which change of the registers
or of memory.

Microcode is taken through by what it comes to in plain memory, where time changes nothing
(`GameBoy.Microcode.Yields`). `GameBoy.Instruction.Effect` puts the two together and is what the
following files prove of one instruction after the other.
-/

namespace GameBoy

/-- **A place that holds a byte.** -/
inductive Place where
  /-- A register of one byte. -/
  | register (r : ByteRegister)
  /-- The register F. -/
  | flags
  /-- The high byte of the stack pointer. -/
  | stackHigh
  /-- The low byte of the stack pointer. -/
  | stackLow
  /-- An address in memory. -/
  | memory (address : UInt16)
  deriving DecidableEq

/-- What all places hold. -/
abbrev Contents := Place → UInt8

/-- **What registers and memory hold**, place by place. -/
def contents (r : Registers) (memory : Memory) : Contents
  | .register x => r.byte x
  | .flags => r.f
  | .stackHigh => highByte r.sp
  | .stackLow => lowByte r.sp
  | .memory address => memory.get address

/-- **All that is different**: the places in a list hold the bytes that are listed with them, and
every other place holds what it held before. -/
structure Changes (before after : Contents) (changes : List (Place × UInt8)) : Prop where
  changed {p : Place} {value : UInt8} (h : (p, value) ∈ changes) : after p = value
  kept {p : Place} (h : p ∉ changes.map Prod.fst) : after p = before p

/-! ### Changes one after the other -/

/-- The contents with some bytes put into their places, the first one first. -/
def Contents.put (before : Contents) (changes : List (Place × UInt8)) : Contents :=
  changes.foldl (fun f change => Function.update f change.1 change.2) before

/-- **If no place is listed twice**, the bytes that have been put into the places of a list are all
that is different. -/
theorem changes_put (before : Contents) {changes : List (Place × UInt8)}
    (h : (changes.map Prod.fst).Nodup) : Changes before (before.put changes) changes := by
  induction changes generalizing before with
  | nil => exact ⟨fun h => absurd h List.not_mem_nil, fun _ => rfl⟩
  | cons change changes ih =>
    obtain ⟨p, value⟩ := change
    obtain ⟨fresh, distinct⟩ := List.nodup_cons.mp h
    obtain ⟨changed, kept⟩ := ih (Function.update before p value) distinct
    constructor
    · intro q w hq
      rcases List.mem_cons.mp hq with same | later
      · obtain ⟨rfl, rfl⟩ := Prod.mk.inj same
        exact (kept fresh).trans (Function.update_self ..)
      · exact changed later
    · intro q hq
      obtain ⟨other, later⟩ := not_or.mp (List.mem_cons.not.mp hq)
      exact (kept later).trans (Function.update_of_ne other ..)

/-! ### Operands and their places -/

/-- **The place of an operand.** -/
def ByteOperand.place (operand : ByteOperand) (r : Registers) : Place :=
  match operand with
  | .register x => .register x
  | .atHL => .memory r.hl

/-- The place of the high byte of a pair. -/
def RegisterPair.highPlace : RegisterPair → Place
  | .bc => .register .b
  | .de => .register .d
  | .hl => .register .h
  | .sp => .stackHigh

/-- The place of the low byte of a pair. -/
def RegisterPair.lowPlace : RegisterPair → Place
  | .bc => .register .c
  | .de => .register .e
  | .hl => .register .l
  | .sp => .stackLow

/-- The two halves of a pair are in different places. -/
theorem RegisterPair.distinct_places (pair : RegisterPair) :
    [pair.highPlace, pair.lowPlace].Nodup := by
  cases pair <;> decide

/-- The four bits of F that do not exist are zero in flags. -/
theorem Flags.toByte_and_mask (f : Flags) : f.toByte &&& mask = f.toByte := by
  cases f with
  | mk z n h c => revert z n h c; decide

/-! ### Registers and memory -/

section

variable (r : Registers) (memory : Memory)

/-- The program counter is not among the places. -/
@[simp] theorem contents_pc (pc : UInt16) : contents { r with pc } memory = contents r memory := by
  funext p
  cases p with
  | register x => cases x <;> rfl
  | _ => rfl

theorem contents_setByte (x : ByteRegister) (value : UInt8) :
    contents (r.setByte x value) memory =
      Function.update (contents r memory) (.register x) value := by
  funext p
  cases p with
  | register y => cases x <;> cases y <;> rfl
  | _ => cases x <;> rfl

theorem contents_setFlags (flags : Flags) :
    contents (r.setFlags flags) memory =
      Function.update (contents r memory) .flags flags.toByte := by
  have kept : flags.toByte &&& Flags.mask = flags.toByte := flags.toByte_and_mask
  funext p
  cases p with
  | register y => cases y <;> rfl
  | flags => exact kept
  | _ => rfl

/-- A word put into a pair is put into its two halves. -/
theorem contents_setPair (pair : RegisterPair) (value : UInt16) :
    contents (r.setPair pair value) memory =
      (contents r memory).put
        [(pair.highPlace, highByte value), (pair.lowPlace, lowByte value)] := by
  funext p
  cases p with
  | register y => cases pair <;> cases y <;> rfl
  | _ => cases pair <;> rfl

theorem contents_set (address : UInt16) (value : UInt8) :
    contents r (memory.set address value) =
      Function.update (contents r memory) (.memory address) value := by
  funext p
  cases p with
  | memory a =>
    simp only [contents, AddressMap.get_set, Function.update_apply, Place.memory.injEq, eq_comm]
  | _ => rfl

end

/-! ### Stores

What comes to be in memory has gone over the bus.
-/

/-- What is stored, and where, by a call that stores a byte. -/
def BusCall.store? : BusCall → Option (UInt16 × UInt8)
  | .write address value => some (address, value)
  | .read .. | .tick _ => none

/-- What is stored, and where, when a byte that comes to be in some place is in memory there. -/
def Place.store? : Place × UInt8 → Option (UInt16 × UInt8)
  | (.memory address, value) => some (address, value)
  | _ => none

/-- No half of a pair is in memory. -/
theorem RegisterPair.store?_places (pair : RegisterPair) (high low : UInt8) :
    [(pair.highPlace, high), (pair.lowPlace, low)].filterMap Place.store? = [] := by
  cases pair <;> rfl

/-- The stores among some calls. -/
def stores (calls : Array BusCall) : List (UInt16 × UInt8) := calls.toList.filterMap BusCall.store?

section

variable {β : Type} [Bus β] (r : Recorded β)

theorem stores_read (address : UInt16) : stores (Bus.read r address).2.calls = stores r.calls := by
  simp [stores, BusCall.store?]

theorem stores_write (address : UInt16) (value : UInt8) :
    stores (Bus.write r address value).calls = stores r.calls ++ [(address, value)] := by
  simp [stores, BusCall.store?]

theorem stores_tick (cycles : Nat) : stores (Bus.tick r cycles).calls = stores r.calls := by
  simp [stores, BusCall.store?]

end

/-! ### Programs run in memory -/

namespace Microcode

variable {α γ : Type} {code : Microcode α} {memory memory' : Memory} {a : α}
  {stored : List (UInt16 × UInt8)}

/-- **What a program comes to in memory**: with some bytes in memory it has a result, leaves other
bytes there, and has stored some on the way. Nothing but the program changes them, so that time does
not matter. -/
inductive Yields : Microcode α → Memory → α → Memory → List (UInt16 × UInt8) → Prop
  | done {memory : Memory} {a : α} : Yields (done a) memory a memory []
  | idle {next : Microcode α} {memory memory' : Memory} {a : α} {stored : List (UInt16 × UInt8)}
    (h : Yields next memory a memory' stored) : Yields (idle next) memory a memory' stored
  | read {address : UInt16} {next : UInt8 → Microcode α} {memory memory' : Memory} {a : α}
    {stored : List (UInt16 × UInt8)}
    (h : Yields (next (memory.get address)) memory a memory' stored) :
    Yields (read address next) memory a memory' stored
  | write {address : UInt16} {value : UInt8} {next : Microcode α} {memory memory' : Memory} {a : α}
    {stored : List (UInt16 × UInt8)} (h : Yields next (memory.set address value) a memory' stored) :
    Yields (write address value next) memory a memory' ((address, value) :: stored)

namespace Yields

/-- **This is what becomes of memory** when the program is run, and what goes over the bus. -/
theorem run (h : code.Yields memory a memory' stored) (r : Recorded Ram)
    (hr : r.bus.memory = memory) :
    (code.run r).result = a ∧ (code.run r).bus.bus.memory = memory' ∧
      stores (code.run r).bus.calls = stores r.calls ++ stored := by
  induction h generalizing r with
  | done => exact ⟨rfl, hr, (List.append_nil _).symm⟩
  | idle _ ih =>
    obtain ⟨result, bus, log⟩ := ih (Bus.tick r machineCycle) hr
    rw [stores_tick] at log
    exact ⟨result, bus, log⟩
  | @read address next _ _ _ _ _ ih =>
    subst hr
    obtain ⟨result, bus, log⟩ := ih (Bus.tick (Bus.read r address).2 machineCycle) rfl
    rw [stores_tick, stores_read] at log
    exact ⟨result, bus, log⟩
  | @write address value next _ _ _ _ _ ih =>
    subst hr
    obtain ⟨result, bus, log⟩ := ih (Bus.tick (Bus.write r address value) machineCycle) rfl
    rw [stores_tick, stores_write, List.append_assoc] at log
    exact ⟨result, bus, log⟩

/-- **One program after another.** -/
theorem bind {next : α → Microcode γ} {memory'' : Memory} {b : γ} {later : List (UInt16 × UInt8)}
    (h : code.Yields memory a memory' stored) (hn : (next a).Yields memory' b memory'' later) :
    (code >>= next).Yields memory b memory'' (stored ++ later) := by
  induction h with
  | done => exact hn
  | idle _ ih => exact .idle (ih hn)
  | read _ ih => exact .read (ih hn)
  | write _ ih => exact .write (ih hn)

/-- A byte that is fetched first. -/
theorem fetchByte (pc : UInt16) (next : UInt8 → Microcode α)
    (h : (next (memory.get (pc + 1))).Yields memory a memory' stored) :
    (Microcode.fetchByte pc >>= next).Yields memory a memory' stored :=
  .read h

/-- A program whose result is put to some use. -/
theorem map (h : code.Yields memory a memory' stored) (f : α → γ) :
    (code >>= fun a => .done (f a)).Yields memory (f a) memory' stored :=
  List.append_nil stored ▸ h.bind .done

end Yields

end Microcode

namespace ByteOperand

variable (operand : ByteOperand) (r : Registers) (memory : Memory)

/-- **Reading an operand** gives what is in its place. -/
theorem read_yields :
    (operand.read r).Yields memory (contents r memory (operand.place r)) memory [] := by
  cases operand with
  | register x => exact .done
  | atHL => exact .read .done

/-- **Writing an operand** changes what is in its place. -/
theorem exists_write_yields (value : UInt8) :
    ∃ r' memory', (operand.write r value).Yields memory r' memory'
        ([(operand.place r, value)].filterMap Place.store?) ∧
      contents r' memory' = Function.update (contents r memory) (operand.place r) value := by
  cases operand with
  | register x => exact ⟨_, _, .done, contents_setByte r memory x value⟩
  | atHL => exact ⟨_, _, .write .done, contents_set r memory r.hl value⟩

end ByteOperand

/-! ### The effect of an instruction -/

/-- **The effect of an instruction** on the registers of a core and on memory: it is of some length,
goes on at the next instruction, and puts bytes into different places. It stores what comes to be in
memory, in the order in which it is listed, and nothing else. -/
structure Instruction.Effect (i : Instruction) (c : Core) (memory : Memory) (length : Nat)
    (changes : List (Place × UInt8)) : Prop where
  length_eq : i.length = length
  stays : i.transfers = false
  distinct : (changes.map Prod.fst).Nodup
  puts : ∃ c' memory',
    (i.execute c).Yields memory c' memory' (changes.filterMap Place.store?) ∧
    contents c'.registers memory' = (contents c.registers memory).put changes

/-- The effect of what an opcode stands for. -/
theorem Instruction.Effect.decode {i : Instruction} {c : Core} {memory : Memory} {length : Nat}
    {changes : List (Place × UInt8)} (h : i.Effect c memory length changes)
    (hi : i.hasOpcode = true) :
    (Instruction.decode i.opcode).Effect c memory length changes := by
  rwa [Instruction.decode_opcode hi]

end GameBoy
