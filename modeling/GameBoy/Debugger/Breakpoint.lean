import GameBoy.Hex

/-!
# Breakpoints

A breakpoint is an address together with what must happen there: an instruction being fetched, a
byte being loaded, or a byte being stored.

The breakpoints of one kind form a set of addresses. It is kept as a strictly ascending list, so
that a set has one representation and is listed in one order, whatever was added to it when.

* `GameBoy.AddressSet` – a set of addresses, with `insert`, `erase` and membership;
* `GameBoy.Breakpoint` – one breakpoint;
* `GameBoy.Breakpoints` – a set of each kind.
-/

namespace GameBoy

/-! ### Sets of addresses -/

/-- **A finite set of addresses.** -/
structure AddressSet where
  /-- The members. -/
  toList : List UInt16
  /-- Members are in ascending order, none of them twice. -/
  ascending : toList.Pairwise (· < ·)
  deriving DecidableEq

namespace AddressSet

instance : Membership UInt16 AddressSet := ⟨fun s a => a ∈ s.toList⟩

instance (a : UInt16) (s : AddressSet) : Decidable (a ∈ s) :=
  inferInstanceAs (Decidable (a ∈ s.toList))

/-- The set without members. -/
def empty : AddressSet := ⟨[], .nil⟩

/-- An address put in its place in an ascending list. -/
def insertList (a : UInt16) : List UInt16 → List UInt16
  | [] => [a]
  | b :: rest =>
    if a < b then a :: b :: rest else if a = b then b :: rest else b :: insertList a rest

theorem mem_insertList {a x : UInt16} {l : List UInt16} : x ∈ insertList a l ↔ x = a ∨ x ∈ l := by
  induction l with
  | nil => simp [insertList]
  | cons b rest ih =>
    unfold insertList
    split
    · simp
    · split
      · rename_i h
        simp [h]
      · simp only [List.mem_cons, ih]
        exact or_left_comm

theorem pairwise_insertList {a : UInt16} {l : List UInt16} (h : l.Pairwise (· < ·)) :
    (insertList a l).Pairwise (· < ·) := by
  induction l with
  | nil => simp [insertList]
  | cons b rest ih =>
    obtain ⟨hb, hrest⟩ := List.pairwise_cons.mp h
    unfold insertList
    split
    · rename_i hab
      refine List.pairwise_cons.mpr ⟨fun x hx => ?_, h⟩
      rcases List.mem_cons.mp hx with rfl | hx
      · exact hab
      · exact UInt16.lt_trans hab (hb x hx)
    · split
      · exact h
      · rename_i hab hne
        refine List.pairwise_cons.mpr ⟨fun x hx => ?_, ih hrest⟩
        rcases mem_insertList.mp hx with rfl | hx
        · exact UInt16.lt_of_le_of_ne (UInt16.not_lt.mp hab) (Ne.symm hne)
        · exact hb x hx

/-- **The set with an address added.** -/
def insert (s : AddressSet) (a : UInt16) : AddressSet :=
  ⟨insertList a s.toList, pairwise_insertList s.ascending⟩

/-- **The set with an address taken away.** -/
def erase (s : AddressSet) (a : UInt16) : AddressSet :=
  ⟨s.toList.filter (· != a), s.ascending.filter _⟩

@[simp] theorem mem_insert {s : AddressSet} {a x : UInt16} : x ∈ s.insert a ↔ x = a ∨ x ∈ s :=
  mem_insertList

@[simp] theorem mem_erase {s : AddressSet} {a x : UInt16} : x ∈ s.erase a ↔ x ∈ s ∧ x ≠ a := by
  change x ∈ s.toList.filter _ ↔ x ∈ s.toList ∧ x ≠ a
  simp [List.mem_filter]

end AddressSet

/-! ### Breakpoints -/

/-- What a breakpoint waits for. -/
inductive BreakpointKind where
  /-- An instruction is about to be fetched. -/
  | execute
  /-- A byte is about to be loaded by an instruction whose loads are watched. -/
  | read
  /-- A byte is about to be stored by an instruction whose stores are watched. -/
  | write
  deriving DecidableEq, Repr

/-- **A place to stop at.** -/
structure Breakpoint where
  kind : BreakpointKind
  address : UInt16
  deriving DecidableEq, Repr

namespace Breakpoint

/-- The breakpoint as a list of breakpoints shows it. -/
def text (b : Breakpoint) : String :=
  (match b.kind with
    | .execute => "exec $"
    | .read => "read $"
    | .write => "write $") ++ wordHex b.address

/-- How the trace tells that the breakpoint was hit. -/
def hitText (b : Breakpoint) : String :=
  (match b.kind with
    | .execute => "breakpoint $"
    | .read => "read breakpoint $"
    | .write => "write breakpoint $") ++ wordHex b.address

end Breakpoint

/-- **The breakpoints in force**, a set of addresses for each kind. -/
structure Breakpoints where
  execute : AddressSet
  read : AddressSet
  write : AddressSet
  deriving DecidableEq

namespace Breakpoints

/-- No breakpoints. -/
def empty : Breakpoints := ⟨.empty, .empty, .empty⟩

/-- The addresses with a breakpoint of one kind. -/
def ofKind (s : Breakpoints) : BreakpointKind → AddressSet
  | .execute => s.execute
  | .read => s.read
  | .write => s.write

/-- The addresses with a breakpoint of one kind replaced. -/
def setKind (s : Breakpoints) (kind : BreakpointKind) (addresses : AddressSet) : Breakpoints :=
  match kind with
  | .execute => { s with execute := addresses }
  | .read => { s with read := addresses }
  | .write => { s with write := addresses }

instance : Membership Breakpoint Breakpoints := ⟨fun s b => b.address ∈ s.ofKind b.kind⟩

instance (b : Breakpoint) (s : Breakpoints) : Decidable (b ∈ s) :=
  inferInstanceAs (Decidable (b.address ∈ s.ofKind b.kind))

/-- A breakpoint added. -/
def insert (s : Breakpoints) (b : Breakpoint) : Breakpoints :=
  s.setKind b.kind ((s.ofKind b.kind).insert b.address)

/-- A breakpoint taken away. -/
def erase (s : Breakpoints) (b : Breakpoint) : Breakpoints :=
  s.setKind b.kind ((s.ofKind b.kind).erase b.address)

/-- **Every breakpoint in force**: those that wait for an instruction first, then for a load, then
for a store, each kind in the order of addresses. -/
def toList (s : Breakpoints) : List Breakpoint :=
  s.execute.toList.map (⟨.execute, ·⟩) ++ s.read.toList.map (⟨.read, ·⟩) ++
    s.write.toList.map (⟨.write, ·⟩)

end Breakpoints

end GameBoy
