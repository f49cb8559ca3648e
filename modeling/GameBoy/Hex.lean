/-!
# Hexadecimal text

Every report of this library writes bytes with two hexadecimal digits and words with four. The
disassembler and the trace use lower-case digits, the status line and the query values upper-case
ones; `GameBoy.LetterCase` is that choice.

* `GameBoy.hexText` – a number in at least a given count of digits;
* `GameBoy.byteHex`, `GameBoy.wordHex` – the two widths in use, in lower case;
* `GameBoy.byteHexUpper`, `GameBoy.wordHexUpper` – the same in upper case.
-/

namespace GameBoy

/-- Which letters stand for the digits ten to fifteen. -/
inductive LetterCase where
  | lower
  | upper
  deriving DecidableEq, Repr

/-- The digits of base sixteen, in order of their value. -/
def LetterCase.digits : LetterCase → List Char
  | .lower => ['0', '1', '2', '3', '4', '5', '6', '7', '8', '9', 'a', 'b', 'c', 'd', 'e', 'f']
  | .upper => ['0', '1', '2', '3', '4', '5', '6', '7', '8', '9', 'A', 'B', 'C', 'D', 'E', 'F']

/-- The digit that stands for the value of `n` modulo sixteen. -/
def LetterCase.digit (c : LetterCase) (n : Nat) : Char := c.digits.getD (n % 16) '0'

/-- **The last `width` hexadecimal digits of a number**, most significant first. -/
def hexDigits (c : LetterCase) : (width : Nat) → (n : Nat) → List Char
  | 0, _ => []
  | width + 1, n => hexDigits c width (n / 16) ++ [c.digit n]

/-- How many hexadecimal digits a number has; zero has none. -/
def hexLength (n : Nat) : Nat :=
  if h : n = 0 then 0 else hexLength (n / 16) + 1
  termination_by n
  decreasing_by exact Nat.div_lt_self (Nat.pos_of_ne_zero h) (by decide)

/-- A number in hexadecimal with no digit lost, padded with zeros to `width` digits. -/
def hexText (c : LetterCase) (width : Nat) (n : Nat) : String :=
  String.ofList (hexDigits c (max width (hexLength n)) n)

/-- A byte as two lower-case digits. -/
def byteHex (b : UInt8) : String := String.ofList (hexDigits .lower 2 b.toNat)

/-- A word as four lower-case digits. -/
def wordHex (w : UInt16) : String := String.ofList (hexDigits .lower 4 w.toNat)

/-- A byte as two upper-case digits. -/
def byteHexUpper (b : UInt8) : String := String.ofList (hexDigits .upper 2 b.toNat)

/-- A word as four upper-case digits. -/
def wordHexUpper (w : UInt16) : String := String.ofList (hexDigits .upper 4 w.toNat)

end GameBoy
