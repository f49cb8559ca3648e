import GameBoy.Debugger
import Mathlib.Data.List.DropRight

/-!
# What the debugger records

Entries recorded one after another are what `GameBoy.Debugger.Records` keeps account of: which
entries they are, that they are kept only while tracing is on, and that of all entries in a row the
latest ones remain, as many as fit. Parts of a step that record something can be put together with
`GameBoy.Debugger.Records.trans`, and the trace after them is what the entries of all of them lead
to.
-/

namespace GameBoy

/-- Of a list and what is appended to it, the latest items are found among the latest items of the
list and what is appended. -/
theorem rtake_rtake_append {α : Type} (l r : List α) (n : Nat) :
    (l.rtake n ++ r).rtake n = (l ++ r).rtake n := by
  simp only [List.rtake_eq_reverse_take_reverse, List.reverse_append, List.reverse_reverse,
    List.take_append, List.take_take]
  rw [Nat.min_eq_left (Nat.sub_le _ _)]

namespace Trace

/-- A trace keeps all that it holds. -/
theorem rtake_toList (t : Trace) : t.toList.rtake capacity = t.toList := by
  have hle : t.toList.length ≤ capacity := t.size_le
  rw [List.rtake, Nat.sub_eq_zero_of_le hle, List.drop_zero]

/-- Recording keeps the latest entries of what came before and the new one. -/
theorem toList_record_eq_rtake (t : Trace) (e : TraceEntry) :
    (t.record e).toList = (t.toList ++ [e]).rtake capacity := by
  rw [toList_record, List.rtake, List.length_append, List.length_singleton]
  rfl

end Trace

namespace Debugger

/-- **A debugger has recorded some entries**, those of them that fit and only if it keeps a trace,
and has left its breakpoints as they were. -/
structure Records (d d' : Debugger) (entries : List TraceEntry) : Prop where
  tracing : d'.tracing = d.tracing
  breakpoints : d'.breakpoints = d.breakpoints
  toList : d'.trace.toList =
    (d.trace.toList ++ if d.tracing then entries else []).rtake Trace.capacity

variable {d d' d'' : Debugger} {entries entries' : List TraceEntry}

namespace Records

/-- Whatever becomes of the hold, nothing is recorded by it. -/
theorem of_hold (d : Debugger) (hold : Hold) : Records d { d with hold } [] where
  tracing := rfl
  breakpoints := rfl
  toList := by rw [ite_self, List.append_nil, Trace.rtake_toList]

/-- **One part after another** records the entries of both. -/
theorem trans (h : Records d d' entries) (h' : Records d' d'' entries') :
    Records d d'' (entries ++ entries') where
  tracing := h'.tracing.trans h.tracing
  breakpoints := h'.breakpoints.trans h.breakpoints
  toList := by
    rw [h'.toList, h.toList, h.tracing, rtake_rtake_append, List.append_assoc]
    split <;> rfl

end Records

/-- Recording an entry records it. -/
theorem records_record (d : Debugger) (e : TraceEntry) : Records d (d.record e) [e] := by
  rw [record]
  split
  · rename_i h
    refine ⟨rfl, rfl, ?_⟩
    rw [if_pos h]
    exact Trace.toList_record_eq_rtake _ _
  · rename_i h
    refine ⟨rfl, rfl, ?_⟩
    rw [if_neg h, List.append_nil, Trace.rtake_toList]

/-- A breakpoint that holds the processor records that it was hit. -/
theorem records_trap (d : Debugger) (b : Breakpoint) :
    Records d (d.trap b)
      [{ kind := .event, address := some b.address, text := b.hitText, comment := none }] :=
  (Records.of_hold d .trapped).trans (records_record _ _)

end Debugger

end GameBoy
