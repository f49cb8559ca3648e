/-!
# Bit patterns

An opcode's bits are partly fixed and partly fields. A *pattern* writes this down, one character for
each bit and the most significant one first: `0` and `1` stand for a fixed bit, a letter for a bit
of the field of that name. So `01dddsss` matches the numbers whose top two bits are `01`, with the
field `d` in bits five to three and the field `s` in the lowest three.

A letter may come back after other characters; the field then goes on with those bits. Upper and
lower case are different letters.

* `GameBoy.Decoder.Fields` – the fields decoded so far, with their values;
* `GameBoy.Decoder.expansions` – the numbers a pattern matches, each with its fields.
-/

namespace GameBoy.Decoder

/-- **The fields of one number**, each letter with the value of its bits. -/
structure Fields where
  /-- The letters in the order in which they first occur, no letter twice. -/
  entries : List (Char × Nat)
  deriving DecidableEq, Repr

namespace Fields

/-- No fields. -/
def empty : Fields := ⟨[]⟩

/-- The value of a field. A letter that does not occur has the value zero. -/
def get (f : Fields) (letter : Char) : Nat := (f.entries.lookup letter).getD 0

/-- A bit appended to the field `letter` among `entries`. -/
def append (letter : Char) (bit : Nat) : List (Char × Nat) → List (Char × Nat)
  | [] => [(letter, bit)]
  | (l, value) :: rest =>
    if l = letter then (l, 2 * value + bit) :: rest else (l, value) :: append letter bit rest

/-- **A further bit of a field**, below the bits it has already. -/
def push (f : Fields) (letter : Char) (bit : Nat) : Fields := ⟨append letter bit f.entries⟩

end Fields

/-- Whether a character may stand in a pattern: it is a fixed bit or an ASCII letter. -/
def isPatternChar (c : Char) : Bool := c == '0' || c == '1' || c.isAlpha

/-- **The numbers that continue `high` as the pattern says**, in ascending order, each with its
fields: those of `fields`, and the ones the pattern adds. Below a fixed bit there is one branch,
below a bit of a field there are two. -/
def expansions : (pattern : List Char) → (high : Nat) → (fields : Fields) → List (Nat × Fields)
  | [], high, fields => [(high, fields)]
  | '0' :: rest, high, fields => expansions rest (2 * high) fields
  | '1' :: rest, high, fields => expansions rest (2 * high + 1) fields
  | letter :: rest, high, fields =>
    expansions rest (2 * high) (fields.push letter 0) ++
      expansions rest (2 * high + 1) (fields.push letter 1)

end GameBoy.Decoder
