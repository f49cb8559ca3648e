import GameBoy.Flags

/-!
# Branch conditions

A jump, call or return can hang on the zero flag or the carry flag, being set or being clear.
-/

namespace GameBoy

/-- **What a branch can hang on.** -/
inductive Condition where
  | notZero
  | zero
  | notCarry
  | carry
  deriving DecidableEq, Repr

namespace Condition

/-- The condition a field of two bits names; higher bits of the field do not count. -/
def ofField (field : Nat) : Condition :=
  match field % 4 with
  | 0 => .notZero
  | 1 => .zero
  | 2 => .notCarry
  | _ => .carry

/-- Whether the branch is taken under given flags. -/
def holds : Condition → Flags → Bool
  | .notZero, flags => !flags.zero
  | .zero, flags => flags.zero
  | .notCarry, flags => !flags.carry
  | .carry, flags => flags.carry

/-- How assembly text names the condition. -/
def name : Condition → String
  | .notZero => "nz"
  | .zero => "z"
  | .notCarry => "nc"
  | .carry => "c"

end Condition

end GameBoy
