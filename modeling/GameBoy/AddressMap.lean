/-!
# Maps from addresses

A *bit tree* of depth `n` holds one value for every string of `n` bits: it is the complete binary
tree of that depth, with the values at its leaves. Depth sixteen gives one value for every address
of the processor, which is what `GameBoy.AddressMap` is. Reading and updating follow one path from
the root, and an update shares everything off that path with the map it came from, so keeping an
earlier map costs nothing.

* `GameBoy.BitTree.get_set` – an update changes the value at its own index and no other;
* `GameBoy.AddressMap.get_set` – the same at addresses;
* `GameBoy.AddressMap.load`, `GameBoy.AddressMap.dump` – many values at once;
* `GameBoy.AddressMap.ext` – two maps with the same value at every address are equal.
-/

namespace GameBoy

/-- **The complete binary tree of a given depth**, with values at its leaves. -/
inductive BitTree (α : Type) : Nat → Type where
  /-- At depth zero the tree is a single value. -/
  | leaf (value : α) : BitTree α 0
  /-- The indices whose top bit is clear lie in `low`, the others in `high`. -/
  | node {n : Nat} (low high : BitTree α n) : BitTree α (n + 1)

namespace BitTree

variable {α : Type}

/-- The tree holding one value everywhere. Its two halves are one tree. -/
def replicate (value : α) : (n : Nat) → BitTree α n
  | 0 => leaf value
  | n + 1 =>
    let half := replicate value n
    node half half

/-- The value at an index, of which only the lowest `n` bits count. -/
def get : {n : Nat} → BitTree α n → Nat → α
  | _, leaf value, _ => value
  | n + 1, node low high, i => if i.testBit n then high.get i else low.get i

/-- The tree with the value at one index replaced. -/
def set : {n : Nat} → BitTree α n → Nat → α → BitTree α n
  | _, leaf _, _, value => leaf value
  | n + 1, node low high, i, value =>
    if i.testBit n then node low (high.set i value) else node (low.set i value) high

@[simp] theorem get_replicate (value : α) (n i : Nat) : (replicate value n).get i = value := by
  induction n with
  | zero => rfl
  | succ n ih => simp [replicate, get, ih]

/-- **An update changes the value at its own index and no other**, two indices being the same when
they agree on the bits the tree looks at. -/
theorem get_set {n : Nat} (t : BitTree α n) (i j : Nat) (value : α) :
    (t.set i value).get j = if ∀ k < n, i.testBit k = j.testBit k then value else t.get j := by
  induction t with
  | leaf _ => simp [set, get]
  | @node n low high ihl ihh =>
    -- agreeing on all bits is agreeing on the top one and on those below
    have split : (∀ k < n + 1, i.testBit k = j.testBit k) ↔
        i.testBit n = j.testBit n ∧ ∀ k < n, i.testBit k = j.testBit k := by
      constructor
      · exact fun h => ⟨h n (by omega), fun k hk => h k (by omega)⟩
      · rintro ⟨hn, h⟩ k hk
        rcases Nat.lt_or_ge k n with hlt | hge
        · exact h k hlt
        · exact (show k = n by omega) ▸ hn
    simp only [split]
    cases hi : i.testBit n <;> cases hj : j.testBit n <;> simp [set, get, hi, hj, ihl, ihh]

/-- Only the bits that the tree looks at matter to an index. -/
theorem get_congr {n : Nat} (t : BitTree α n) {i j : Nat}
    (h : ∀ k < n, i.testBit k = j.testBit k) : t.get i = t.get j := by
  induction t with
  | leaf _ => rfl
  | @node n low high ihl ihh =>
    have below : ∀ k < n, i.testBit k = j.testBit k := fun k hk => h k (by omega)
    simp only [get, h n (by omega), ihl below, ihh below]

/-- **Two trees that agree at every index are equal.** -/
theorem ext {n : Nat} {t u : BitTree α n} (h : ∀ i, t.get i = u.get i) : t = u := by
  induction t with
  | leaf v =>
    cases u with
    | leaf w => exact congrArg leaf (h 0)
  | @node n low high ihl ihh =>
    cases u with
    | node low' high' =>
      congr 1
      · -- an index with a clear top bit leads to the lower half
        refine ihl fun i => ?_
        have below : ∀ k < n, i.testBit k = (i % 2 ^ n).testBit k := fun k hk => by
          simp [Nat.testBit_mod_two_pow, hk]
        have top : (i % 2 ^ n).testBit n = false := by simp [Nat.testBit_mod_two_pow]
        rw [get_congr low below, get_congr low' below]
        simpa [get, top] using h (i % 2 ^ n)
      · -- and one with a set top bit to the upper half
        refine ihh fun i => ?_
        have below : ∀ k < n, i.testBit k = (2 ^ n + i % 2 ^ n).testBit k := fun k hk => by
          simp [Nat.testBit_two_pow_add_gt hk, Nat.testBit_mod_two_pow, hk]
        have top : (2 ^ n + i % 2 ^ n).testBit n = true := by
          simp [Nat.testBit_two_pow_add_eq, Nat.testBit_mod_two_pow]
        rw [get_congr high below, get_congr high' below]
        simpa [get, top] using h (2 ^ n + i % 2 ^ n)

end BitTree

/-- **A value for every address.** -/
structure AddressMap (α : Type) where
  /-- The values, indexed by the sixteen bits of the address. -/
  tree : BitTree α 16

namespace AddressMap

variable {α : Type}

/-- The map with one value at every address. -/
def replicate (value : α) : AddressMap α := ⟨.replicate value 16⟩

/-- The value at an address. -/
def get (m : AddressMap α) (address : UInt16) : α := m.tree.get address.toNat

/-- The map with the value at one address replaced. -/
def set (m : AddressMap α) (address : UInt16) (value : α) : AddressMap α :=
  ⟨m.tree.set address.toNat value⟩

/-- **The map with values put at consecutive addresses**, from `address` on. The lowest address
follows the highest, so a list longer than there are addresses overwrites its own beginning. -/
def load (m : AddressMap α) (address : UInt16) : List α → AddressMap α
  | [] => m
  | value :: rest => (m.set address value).load (address + 1) rest

/-- The values at `count` consecutive addresses from `address` on, in the order of `load`. -/
def dump (m : AddressMap α) (address : UInt16) : (count : Nat) → List α
  | 0 => []
  | count + 1 => m.get address :: m.dump (address + 1) count

/-- Every address, in ascending order. -/
def addresses : List UInt16 := (List.range 0x10000).map UInt16.ofNat

/-- The addresses at which a second map differs from a first, with the value of the second, in
ascending order. -/
def changes [DecidableEq α] (before after : AddressMap α) : List (UInt16 × α) :=
  addresses.filterMap fun a => if before.get a = after.get a then none else some (a, after.get a)

@[simp] theorem get_replicate (value : α) (address : UInt16) :
    (replicate value).get address = value := by
  simp [replicate, get]

/-- **An update changes the value at its own address and no other.** -/
theorem get_set (m : AddressMap α) (a b : UInt16) (value : α) :
    (m.set a value).get b = if a = b then value else m.get b := by
  have agree : (∀ k < 16, a.toNat.testBit k = b.toNat.testBit k) ↔ a = b := by
    constructor
    · intro h
      refine UInt16.toNat_inj.mp (Nat.eq_of_testBit_eq fun k => ?_)
      rcases Nat.lt_or_ge k 16 with hk | hk
      · exact h k hk
      · -- an address has no bits above the sixteenth
        have small : ∀ c : UInt16, c.toNat.testBit k = false := fun c =>
          Nat.testBit_lt_two_pow
            (Nat.lt_of_lt_of_le c.toNat_lt (Nat.pow_le_pow_right (by decide) hk))
        rw [small a, small b]
    · rintro rfl _ _
      rfl
  simp [get, set, BitTree.get_set, agree]

/-- Two maps with the same value at every address are equal. -/
theorem ext {m n : AddressMap α} (h : ∀ a, m.get a = n.get a) : m = n := by
  cases m with | mk t =>
  cases n with | mk u =>
  refine congrArg mk (BitTree.ext fun i => ?_)
  -- the address with the bits of `i` that count
  have bits : ∀ k < 16, i.testBit k = (UInt16.ofNat i).toNat.testBit k := fun k hk => by
    rw [UInt16.toNat_ofNat', Nat.testBit_mod_two_pow, decide_eq_true hk, Bool.true_and]
  rw [t.get_congr bits, u.get_congr bits]
  exact h (UInt16.ofNat i)

end AddressMap

end GameBoy
