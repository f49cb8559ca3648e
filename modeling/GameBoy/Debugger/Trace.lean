import GameBoy.Hex

/-!
# The trace

A log of what the processor has done, one entry for each instruction that ran and for each event
between instructions. It keeps the latest entries, up to a fixed number, and forgets the oldest one
when a further entry would exceed it.

* `GameBoy.TraceEntry` – one entry, with its text;
* `GameBoy.Trace` – the log, whose bound is part of its type;
* `GameBoy.Trace.toList_record` – recording keeps the latest entries of what came before and the new
  one.
-/

namespace GameBoy

/-- What an entry tells of. -/
inductive TraceKind where
  /-- An instruction ran. -/
  | op
  /-- Something happened between instructions. -/
  | event
  deriving DecidableEq, Repr

/-- **One entry of the trace.** -/
structure TraceEntry where
  kind : TraceKind
  address : Option UInt16
  text : String
  comment : Option String
  deriving DecidableEq, Repr

/-- The entry in one line: where it happened, what it was, and a remark. -/
def TraceEntry.render (e : TraceEntry) : String :=
  (match e.address with
    | some address => "$" ++ wordHex address ++ "  "
    | none => "       ") ++
  (match e.kind with
    | .op => e.text
    | .event => "-- " ++ e.text) ++
  (match e.comment with
    | some comment => "  ; " ++ comment
    | none => "")

/-- How many entries a trace keeps. -/
def Trace.capacity : Nat := 1000

/-- **The latest entries, oldest first.** -/
structure Trace where
  entries : Array TraceEntry
  /-- There are never more than fit. -/
  size_le : entries.size ≤ Trace.capacity
  deriving DecidableEq

namespace Trace

/-- No entries. -/
def empty : Trace := ⟨#[], by decide⟩

/-- The entries, oldest first. -/
def toList (t : Trace) : List TraceEntry := t.entries.toList

/-- How many entries there are. -/
def size (t : Trace) : Nat := t.entries.size

/-- **A further entry**, for which the oldest one makes room where there is none. -/
def record (t : Trace) (e : TraceEntry) : Trace :=
  if h : t.entries.size < capacity then
    ⟨t.entries.push e, by rw [Array.size_push]; exact h⟩
  else
    ⟨(t.entries.extract 1 t.entries.size).push e, by
      have := t.size_le
      simp only [Array.size_push, Array.size_extract, capacity] at *
      omega⟩

/-- **Recording keeps the latest entries.** Of the old entries and the new one in a row, those that
remain are the last ones that fit. -/
theorem toList_record (t : Trace) (e : TraceEntry) :
    (t.record e).toList = (t.toList ++ [e]).drop (t.size + 1 - capacity) := by
  have hle := t.size_le
  unfold record
  split
  · -- there is room, and nothing is dropped
    rename_i h
    have : t.size + 1 - capacity = 0 := Nat.sub_eq_zero_of_le h
    simp [this, toList]
  · -- the trace is full, and exactly the oldest entry is dropped
    rename_i h
    have hsize : t.entries.size = capacity := Nat.le_antisymm hle (Nat.not_lt.mp h)
    have : t.size + 1 - capacity = 1 := by simp only [size, hsize]; omega
    rw [this, List.drop_append_of_le_length (by simp [toList, hsize, capacity])]
    simp [toList, List.take_of_length_le]

end Trace

end GameBoy
