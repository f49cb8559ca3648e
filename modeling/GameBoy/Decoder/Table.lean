import GameBoy.Decoder.Pattern
import GameBoy.Hex

/-!
# Tables compiled from rules

A *rule* is a pattern and a generator, which makes a table entry out of the fields of a number the
pattern matches. A list of rules compiles into a table with an entry for every number below its
size. Where several rules match one number the last of them decides, so that a general rule can come
first and its exceptions after it.

Generators may have effects: they run in any monad, once for every number their pattern matches and
in ascending order of these numbers, also where a later rule replaces the entry they made.

* `GameBoy.Decoder.Rule.expand` – one rule applied to a table some of whose slots may be empty;
* `GameBoy.Decoder.compile` – a list of rules applied to an empty table, which they have to fill;
* `GameBoy.Decoder.TableError` – what can go wrong.
-/

namespace GameBoy.Decoder

/-- **Why rules make no table.** -/
inductive TableError where
  /-- A pattern holds a character that stands for no bit. -/
  | invalidCharacter (pattern : String) (found : Char)
  /-- A pattern has too many bits: not every number of that many bits has a slot in a table of this
  size, be it one that the pattern matches or not. -/
  | tooWide (pattern : String) (size : Nat)
  /-- No rule matches this number. -/
  | unmapped (slot : Nat)
  deriving DecidableEq, Repr

/-- The error in words. -/
def TableError.message : TableError → String
  | .invalidCharacter pattern found =>
    "pattern \"" ++ pattern ++ "\" contains invalid character '" ++ found.toString ++ "'"
  | .tooWide pattern size =>
    "pattern \"" ++ pattern ++ "\" does not fit a table of " ++ toString size ++ " entries"
  | .unmapped slot => "no rule covers slot 0x" ++ hexText .upper 2 slot

/-- **A pattern and what to make of the numbers it matches.** -/
structure Rule (m : Type → Type) (α : Type) where
  pattern : String
  /-- The entry for a number with given fields. -/
  generate : Fields → m α

/-- The widest table a number can index has two to this power slots. -/
def indexBits : Nat := 64

/-- How many numbers a pattern of a given width can tell apart: two to that power. -/
def span (width : Nat) : Nat := 1 <<< width

/-- **What is wrong with a pattern** for a table of a nominal size and an actual number of slots. A
character out of place is found before the width is looked at. -/
def patternError? (pattern : String) (size slots : Nat) : Option TableError :=
  match pattern.toList.find? fun c => !isPatternChar c with
  | some found => some (.invalidCharacter pattern found)
  | none =>
    let width := pattern.toList.length
    if indexBits ≤ width ∨ size < span width ∨ slots < span width then
      some (.tooWide pattern size)
    else none

namespace Rule

variable {m : Type → Type} [Monad m] {α : Type}

/-- The numbers a rule matches, in ascending order, each with its fields. -/
def targets (rule : Rule m α) : List (Nat × Fields) := expansions rule.pattern.toList 0 .empty

/-- The slots after the rule has made its entry for each of a list of numbers in turn. -/
def fill (rule : Rule m α) : List (Nat × Fields) → Array (Option α) → m (Array (Option α))
  | [], slots => pure slots
  | (slot, fields) :: rest, slots => do
    let entry ← rule.generate fields
    rule.fill rest (slots.setIfInBounds slot (some entry))

/-- **One rule applied to the slots of a table**: how many entries it made, and the slots with these
entries in place. A rule whose pattern is at fault makes none. -/
def expand (rule : Rule m α) (size : Nat) (slots : Array (Option α)) :
    m (Except TableError Nat × Array (Option α)) :=
  match patternError? rule.pattern size slots.size with
  | some error => pure (.error error, slots)
  | none => do
    let filled ← rule.fill rule.targets slots
    pure (.ok rule.targets.length, filled)

end Rule

section Compile

variable {m : Type → Type} [Monad m] {α : Type}

/-- Rules applied in turn, up to the first that is at fault. -/
def expandAll (size : Nat) :
    List (Rule m α) → Array (Option α) → m (Except TableError (Array (Option α)))
  | [], slots => pure (.ok slots)
  | rule :: rest, slots => do
    match ← rule.expand size slots with
    | (.error error, _) => pure (.error error)
    | (.ok _, slots) => expandAll size rest slots

/-- The entries of slots that are numbered from `slot` on, or the number of the first empty one. -/
def entries : (slot : Nat) → List (Option α) → Except TableError (List α)
  | _, [] => .ok []
  | slot, none :: _ => .error (.unmapped slot)
  | slot, some entry :: rest => (entry :: ·) <$> entries (slot + 1) rest

/-- **A table of `size` entries made by rules**, or what is wrong with the rules. -/
def compile (size : Nat) (rules : List (Rule m α)) : m (Except TableError (Array α)) := do
  match ← expandAll size rules (Array.replicate size none) with
  | .error error => pure (.error error)
  | .ok slots => pure (List.toArray <$> entries 0 slots.toList)

end Compile

end GameBoy.Decoder
