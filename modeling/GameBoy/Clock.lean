/-!
# The clock

Time is counted in clock cycles from the creation of a processor, and never runs back. The processor
spends it in machine cycles of four.
-/

namespace GameBoy

/-- How many clock cycles a machine cycle has. -/
def machineCycle : Nat := 4

/-- **A point in time**: the clock cycles that have passed. -/
structure Clock where
  cycles : Nat
  deriving DecidableEq, Repr

namespace Clock

/-- The moment of creation. -/
def zero : Clock := ⟨0⟩

/-- The point in time a number of clock cycles later. -/
def advance (t : Clock) (cycles : Nat) : Clock := ⟨t.cycles + cycles⟩

/-- The clock cycles since an earlier point, and zero since a later one. -/
def since (t earlier : Clock) : Nat := t.cycles - earlier.cycles

instance : LT Clock := ⟨fun s t => s.cycles < t.cycles⟩

instance (s t : Clock) : Decidable (s < t) := inferInstanceAs (Decidable (s.cycles < t.cycles))

end Clock

end GameBoy
