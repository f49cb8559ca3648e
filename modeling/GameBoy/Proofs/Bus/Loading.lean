import GameBoy.Bus.Ram
import Mathlib.Data.List.Induction
import Mathlib.Data.Nat.ModEq
import Mathlib.Order.Bounds.Basic

/-!
# Loading memory

Values are loaded into memory one after the other, each at the address after the one before, and the
lowest address comes after the highest. So if there are more values than addresses, they go round
memory, and the later ones overwrite the earlier ones. The values that come to an address are known
by their places in the list (`GameBoy.AddressMap.landings`), and the last of them is the one that
stays (`GameBoy.Ram.get_load`).

The induction goes along the list from its end. What a list that is one value longer does is what
the shorter one does, and then one update at the address that comes next
(`GameBoy.AddressMap.load_concat`): either that is the address in question, and the last place in
the list is the one that counts, or it is another one, and nothing has changed there.
-/

namespace GameBoy

namespace AddressMap

variable {α : Type} {start a : UInt16} {count : Nat}

/-! ### Where values come to lie -/

/-- **The places in a list whose values come to an address**, when that many values are loaded from
another address on. -/
def landings (start : UInt16) (count : Nat) (a : UInt16) : Set Nat :=
  {i | i < count ∧ start.toNat + i ≡ a.toNat [MOD 65536]}

/-- Going on by a number of addresses is adding it, up to whole rounds. -/
theorem add_ofNat_eq_iff {i : Nat} :
    start + UInt16.ofNat i = a ↔ start.toNat + i ≡ a.toNat [MOD 65536] := by
  have inside : a.toNat % 65536 = a.toNat := Nat.mod_eq_of_lt a.toNat_lt
  rw [← UInt16.toNat_inj, UInt16.toNat_add, UInt16.toNat_ofNat', Nat.add_mod_mod, Nat.ModEq, inside]

theorem landings_zero : landings start 0 a = ∅ :=
  Set.eq_empty_of_forall_notMem fun i hi => i.not_lt_zero hi.1

/-- **One value more**, which comes to the address, is the last to do so. -/
theorem isGreatest_landings_succ (here : start + UInt16.ofNat count = a) :
    IsGreatest (landings start (count + 1) a) count :=
  ⟨⟨count.lt_succ_self, add_ofNat_eq_iff.mp here⟩, fun _ hi => Nat.le_of_lt_succ hi.1⟩

/-- **One value more**, which comes to another address, makes no difference to this one. -/
theorem landings_succ_of_ne (elsewhere : start + UInt16.ofNat count ≠ a) :
    landings start (count + 1) a = landings start count a := by
  ext i
  constructor
  · rintro ⟨hi, lands⟩
    refine ⟨Nat.lt_of_le_of_ne (Nat.le_of_lt_succ hi) ?_, lands⟩
    rintro rfl
    exact elsewhere (add_ofNat_eq_iff.mpr lands)
  · rintro ⟨hi, lands⟩
    exact ⟨Nat.lt_succ_of_lt hi, lands⟩

/-! ### What is loaded -/

/-- **A list is loaded in two parts**, the second one from where the first has come to. -/
theorem load_append (m : AddressMap α) (start : UInt16) (values more : List α) :
    m.load start (values ++ more) =
      (m.load start values).load (start + UInt16.ofNat values.length) more := by
  induction values generalizing m start with
  | nil =>
    have same : start + UInt16.ofNat 0 = start := UInt16.add_zero start
    rw [List.nil_append, List.length_nil, same]
    rfl
  | cons value values ih =>
    have next : start + 1 + UInt16.ofNat values.length =
        start + UInt16.ofNat (values.length + 1) := by
      rw [UInt16.ofNat_add]
      grind
    rw [List.length_cons, ← next]
    exact ih (m.set start value) (start + 1)

/-- **One value more** is put at the address that comes next. -/
theorem load_concat (m : AddressMap α) (start : UInt16) (values : List α) (value : α) :
    m.load start (values ++ [value]) =
      (m.load start values).set (start + UInt16.ofNat values.length) value :=
  m.load_append start values [value]

/-- **The last value that comes to an address stays there**, and an address to which none comes
keeps the value that it had. -/
theorem get_load_cases (m : AddressMap α) (start : UInt16) (values : List α) (a : UInt16) :
    (∃ i, IsGreatest (landings start values.length a) i ∧
        values[i]? = some ((m.load start values).get a)) ∨
      landings start values.length a = ∅ ∧ (m.load start values).get a = m.get a := by
  induction values using List.reverseRecOn with
  | nil => exact .inr ⟨landings_zero, rfl⟩
  | append_singleton values value ih =>
    rw [load_concat, get_set, List.length_append, List.length_singleton]
    by_cases here : start + UInt16.ofNat values.length = a
    · rw [if_pos here]
      exact .inl ⟨values.length, isGreatest_landings_succ here, List.getElem?_concat_length⟩
    · rw [if_neg here, landings_succ_of_ne here]
      rcases ih with ⟨i, last, found⟩ | untouched
      · exact .inl ⟨i, last, (List.getElem?_append_left last.1.1).trans found⟩
      · exact .inr untouched

end AddressMap

namespace Ram

/-- **Loading bytes into memory**, however many of them there are. Of the bytes that come to an
address, going round memory as often as they must, the last one is found there afterwards, and an
address to which none comes holds the byte that it held before. No time passes. To load bytes in two
parts, the second one from the address that comes next after the first, is to load them at once. -/
theorem get_load (ram : Ram) (start : UInt16) (bytes : List UInt8) :
    let loaded := ram.load start bytes
    (∀ a,
      (∃ i, IsGreatest (AddressMap.landings start bytes.length a) i ∧
          bytes[i]? = some (loaded.memory.get a)) ∨
        AddressMap.landings start bytes.length a = ∅ ∧
          loaded.memory.get a = ram.memory.get a) ∧
    loaded.cycles = ram.cycles ∧
    ∀ more, ram.load start (bytes ++ more) =
      loaded.load (start + UInt16.ofNat bytes.length) more := by
  intro loaded
  refine ⟨ram.memory.get_load_cases start bytes, rfl, fun more => ?_⟩
  exact congrArg (Ram.mk · ram.cycles) (ram.memory.load_append start bytes more)

/-- Bytes across the highest address. -/
example :
    let loaded := Ram.zero.load 0xFFFF [0x12, 0x34]
    loaded.memory.get 0xFFFF = 0x12 ∧ loaded.memory.get 0x0000 = 0x34 := by
  decide

end Ram

end GameBoy
