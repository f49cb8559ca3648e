import GameBoy.Bus.Ram
import GameBoy.Microcode

/-!
# The stack

Words that are pushed on the stack are popped from it in the opposite order, and the stack pointer
is back where it was (`GameBoy.Microcode.popWords_pushWords`). The stack grows downwards, and from
the lowest address on to the highest: there is nothing special about either of them. So all that
matters is how far an address is from the stack pointer, upwards from it for what is on the stack
and downwards for where the stack is yet to grow. Both distances are words, and for a stack that
does not fill more than all of memory they never lead to the same byte.

What carries the induction is that words lie on the stack (`GameBoy.Microcode.Stacked`). A push puts
one more on top of those that are there, provided there is room for it, and a pop takes it off.
-/

namespace GameBoy

namespace Microcode

variable {α γ β : Type}

/-- **One program after another** takes the cycles of both. -/
theorem run_bind [Bus β] (code : Microcode α) (next : α → Microcode γ) (bus : β) :
    (code >>= next).run bus =
      let first := code.run bus
      let second := (next first.result).run first.bus
      ⟨second.result, first.cycles + second.cycles, second.bus⟩ := by
  induction code generalizing bus with
  | done result =>
    change (next result).run bus = _
    simp only [run, Nat.zero_add]
  | idle rest ih =>
    change run.spend ((rest >>= next).run _) = _
    rw [ih]
    simp only [run, run.spend, Nat.add_right_comm]
  | read address rest ih =>
    change run.spend ((rest (Bus.read bus address).1 >>= next).run
      (Bus.tick (Bus.read bus address).2 machineCycle)) = _
    rw [ih]
    simp only [run, run.spend, Nat.add_right_comm]
  | write address value rest ih =>
    change run.spend ((rest >>= next).run _) = _
    rw [ih]
    simp only [run, run.spend, Nat.add_right_comm]

/-! ### Many words -/

/-- **Words pushed on the stack**, the first one first. The result is the new stack pointer. -/
def pushWords (sp : UInt16) : List UInt16 → Microcode UInt16
  | [] => pure sp
  | w :: ws => do
    let sp ← pushWord sp w
    pushWords sp ws

/-- **A number of words popped from the stack**, in the order in which they come, and the new stack
pointer. -/
def popWords (sp : UInt16) : Nat → Microcode (List UInt16 × UInt16)
  | 0 => pure ([], sp)
  | count + 1 => do
    let (w, sp) ← popWord sp
    let (ws, sp) ← popWords sp count
    pure (w :: ws, sp)

/-- Memory after a word has been pushed. -/
def pushed (memory : Memory) (sp w : UInt16) : Memory :=
  (memory.set (sp - 1) (highByte w)).set (sp - 2) (lowByte w)

variable (ram : Ram) (sp : UInt16)

theorem run_pushWords_cons (w : UInt16) (ws : List UInt16) :
    (pushWords sp (w :: ws)).run ram =
      let rest := (pushWords (sp - 2) ws).run ⟨pushed ram.memory sp w, ram.cycles + 8⟩
      ⟨rest.result, rest.cycles + 2, rest.bus⟩ := rfl

theorem run_popWords_succ (count : Nat) :
    (popWords sp (count + 1)).run ram =
      let w := word (ram.memory.get (sp + 1)) (ram.memory.get sp)
      let rest := (popWords (sp + 2) count).run ⟨ram.memory, ram.cycles + 8⟩
      ⟨(w :: rest.result.1, rest.result.2), rest.cycles + 2, rest.bus⟩ := by
  change run.spend (run.spend ((popWords (sp + 2) count >>= _).run _)) = _
  rw [run_bind]
  rfl

/-! ### Words on the stack -/

/-- **Words that lie on the stack**, from the stack pointer on upwards, each with its low byte
first. -/
def Stacked (memory : Memory) (sp : UInt16) : List UInt16 → Prop
  | [] => True
  | w :: ws => word (memory.get (sp + 1)) (memory.get sp) = w ∧ Stacked memory (sp + 2) ws

variable {ram sp} {memory memory' : Memory} {ws below : List UInt16}

/-- They still lie there if no byte on the stack is changed. -/
theorem Stacked.congr (h : Stacked memory sp ws)
    (same : ∀ a, (a - sp).toNat < 2 * ws.length → memory'.get a = memory.get a) :
    Stacked memory' sp ws := by
  induction ws generalizing sp with
  | nil => trivial
  | cons w ws ih =>
    obtain ⟨top, rest⟩ := h
    rw [List.length_cons] at same
    refine ⟨?_, ih rest fun a ha => same a ?_⟩
    · have low : (sp - sp).toNat = 0 := by rw [UInt16.sub_self]; rfl
      have high : (sp + 1 - sp).toNat = 1 := by rw [UInt16.add_comm, UInt16.add_sub_cancel]; rfl
      rw [same sp (by omega), same (sp + 1) (by omega), top]
    · have distance : a - sp = a - (sp + 2) + 2 := by grind
      rw [distance, UInt16.toNat_add]
      exact Nat.lt_of_le_of_lt (Nat.mod_le ..) (Nat.add_lt_add_right ha 2)

/-- **A push changes the two bytes below the stack pointer**, and no other. -/
theorem get_pushed_of_le (memory : Memory) (sp w : UInt16) {a : UInt16}
    (far : 2 ≤ (sp - 1 - a).toNat) : (pushed memory sp w).get a = memory.get a := by
  have high : sp - 1 ≠ a := by
    rintro rfl
    simp at far
  have low : sp - 2 ≠ a := by
    rintro rfl
    have distance : sp - 1 - (sp - 2) = 1 := by grind
    rw [distance] at far
    exact absurd far (by decide)
  rw [pushed, AddressMap.get_set, AddressMap.get_set, if_neg low, if_neg high]

/-- **A word that is pushed** comes to lie on top of the others, if there is room for it. -/
theorem Stacked.push (h : Stacked memory sp below) (room : below.length < 32768) (w : UInt16) :
    Stacked (pushed memory sp w) (sp - 2) (w :: below) := by
  have high : sp - 2 + 1 = sp - 1 := by grind
  have back : sp - 2 + 2 = sp := UInt16.sub_add_cancel ..
  constructor
  · simp [high, pushed, AddressMap.get_set]
  · -- going up from the stack pointer one would come to the two bytes below it last
    rw [back]
    refine h.congr fun a ha => get_pushed_of_le memory sp w ?_
    have hsp := sp.toNat_lt
    have ha' := a.toNat_lt
    simp only [UInt16.toNat_sub, UInt16.reduceToNat] at ha ⊢
    omega

/-- **Words are pushed one after the other**, and come to lie on top of those that there are, if
there is room for all of them. -/
theorem run_pushWords (ram : Ram) (ws : List UInt16) (h : Stacked ram.memory sp below)
    (room : ws.length + below.length ≤ 32768) :
    let outcome := (pushWords sp ws).run ram
    outcome.result = sp - 2 * UInt16.ofNat ws.length ∧ outcome.cycles = 2 * ws.length ∧
    outcome.bus.cycles = ram.cycles + 8 * ws.length ∧
    Stacked outcome.bus.memory outcome.result (ws.reverse ++ below) ∧
    ∀ a, 2 * ws.length ≤ (sp - 1 - a).toNat →
      outcome.bus.memory.get a = ram.memory.get a := by
  induction ws generalizing ram sp below with
  | nil => exact ⟨(UInt16.sub_zero sp).symm, rfl, rfl, h, fun _ _ => rfl⟩
  | cons w ws ih =>
    rw [List.length_cons] at room
    -- the words after the first one are pushed on top of it, and of all that lies below
    obtain ⟨result, cycles, clock, stacked, kept⟩ :=
      ih ⟨pushed ram.memory sp w, ram.cycles + 8⟩ (h.push (by omega) w)
        (by rw [List.length_cons]; omega)
    rw [run_pushWords_cons, List.length_cons, List.reverse_cons, List.append_assoc]
    dsimp only
    refine ⟨?_, ?_, ?_, stacked, fun a far => (kept a ?_).trans (get_pushed_of_le _ _ _ ?_)⟩
    · rw [result, UInt16.ofNat_add]
      grind
    · rw [cycles, Nat.mul_succ]
    · rw [clock, Nat.mul_succ, Nat.add_right_comm, Nat.add_assoc]
    · have hsp := sp.toNat_lt
      have ha := a.toNat_lt
      simp only [UInt16.toNat_sub, UInt16.reduceToNat] at far ⊢
      omega
    · omega

/-- **Words that lie on the stack are popped**, the one on top first. -/
theorem run_popWords (ram : Ram) {ws : List UInt16} (h : Stacked ram.memory sp ws) :
    (popWords sp ws.length).run ram =
      ⟨(ws, sp + 2 * UInt16.ofNat ws.length), 2 * ws.length,
        ⟨ram.memory, ram.cycles + 8 * ws.length⟩⟩ := by
  induction ws generalizing ram sp with
  | nil =>
    have same : sp + 2 * UInt16.ofNat 0 = sp := UInt16.add_zero sp
    rw [List.length_nil, same]
    rfl
  | cons w ws ih =>
    obtain ⟨top, rest⟩ := h
    have forward : sp + 2 + 2 * UInt16.ofNat ws.length = sp + 2 * UInt16.ofNat (ws.length + 1) := by
      rw [UInt16.ofNat_add]
      grind
    have clock : ram.cycles + 8 + 8 * ws.length = ram.cycles + 8 * (ws.length + 1) := by omega
    rw [List.length_cons, run_popWords_succ, top, ih ⟨ram.memory, ram.cycles + 8⟩ rest, ← forward,
      ← clock, Nat.mul_succ]

/-- **The last word pushed is the first one popped.** Words that are pushed on the stack from any
stack pointer on, no more of them than memory has room for, are popped in the opposite order by as
many pops, and the stack pointer is back where it was, however often it has passed from the lowest
address to the highest. Each push and each pop takes two machine cycles, which is eight clock
cycles. The bytes below the stack pointer that the words take up are the only ones in memory that
are not what they were. -/
theorem popWords_pushWords (ram : Ram) (sp : UInt16) {ws : List UInt16}
    (room : ws.length ≤ 32768) :
    let pushes := (pushWords sp ws).run ram
    let pops := (popWords pushes.result ws.length).run pushes.bus
    pops.result = (ws.reverse, sp) ∧
    machineCycle * pushes.cycles = 8 * ws.length ∧ machineCycle * pops.cycles = 8 * ws.length ∧
    pushes.bus.cycles = ram.cycles + 8 * ws.length ∧
    pops.bus.cycles = pushes.bus.cycles + 8 * ws.length ∧
    ∀ a, (∀ k < 2 * ws.length, a ≠ sp - UInt16.ofNat (k + 1)) →
      pops.bus.memory.get a = ram.memory.get a := by
  intro pushes pops
  obtain ⟨result, cycles, clock, stacked, kept⟩ :
      pushes.result = sp - 2 * UInt16.ofNat ws.length ∧ pushes.cycles = 2 * ws.length ∧
      pushes.bus.cycles = ram.cycles + 8 * ws.length ∧
      Stacked pushes.bus.memory pushes.result (ws.reverse ++ []) ∧
      ∀ a, 2 * ws.length ≤ (sp - 1 - a).toNat →
        pushes.bus.memory.get a = ram.memory.get a :=
    run_pushWords ram ws trivial room
  rw [List.append_nil] at stacked
  have popped := run_popWords pushes.bus stacked
  rw [List.length_reverse, result, UInt16.sub_add_cancel, ← result] at popped
  change pops = _ at popped
  simp only [popped, cycles, clock, machineCycle, true_and]
  refine ⟨by omega, by omega, fun a outside => kept a ?_⟩
  -- an address is among those below the stack pointer by its distance from the first of them
  refine Nat.not_lt.mp fun inside => outside (sp - 1 - a).toNat inside ?_
  rw [UInt16.ofNat_add, UInt16.ofNat_toNat]
  grind

/-- Three words pushed from an address next to the lowest one on. -/
theorem popWords_pushWords_wrapping :
    let pushes := (pushWords 0x0003 [0x1234, 0x5678, 0x9ABC]).run Ram.zero
    let pops := (popWords pushes.result 3).run pushes.bus
    pushes.result = 0xFFFD ∧ pops.result = ([0x9ABC, 0x5678, 0x1234], 0x0003) ∧
    pushes.bus.memory.get 0xFFFF = 0x78 ∧ pops.bus.memory.get 0x0003 = 0 ∧
    pops.bus.cycles = 48 := by
  intro pushes pops
  have room : ([0x1234, 0x5678, 0x9ABC] : List UInt16).length ≤ 32768 := by decide
  obtain ⟨popped, -, -, clock, clock', kept⟩ := popWords_pushWords Ram.zero 0x0003 room
  refine ⟨by decide, popped, by decide +kernel, kept 0x0003 ?_, clock'.trans ?_⟩
  · decide
  · rw [clock]
    rfl

end Microcode

end GameBoy
