import GameBoy.Clock
import GameBoy.Debugger.Trace
import GameBoy.Interrupt.Lines
import GameBoy.Registers

/-!
# Saved records

The records that a debugger exchanges with other programs, and how they are saved: as documents made
of truth values, whole numbers, texts, lists, and records with named fields.

Reading back is strict about values and lenient about what surrounds them. A number has to fit its
width, a name has to be spelt as it is written, and every field has to be there except one that may
be empty; fields that are not asked for are passed over. A record may also be given as the list of
its fields, in their order and with none left out, and a name as a record with that name as its only
field, which is then empty.

* `GameBoy.Document` – the documents;
* `GameBoy.Saved` – the types that can be saved and read back.
-/

namespace GameBoy

/-- **What saved records are made of.** -/
inductive Document where
  | empty
  | flag (b : Bool)
  | number (n : Int)
  | text (s : String)
  | list (items : List Document)
  | record (fields : List (String × Document))
  /-- Something that no saved record contains. -/
  | other
  deriving Inhabited

/-- **The types that can be saved**, and read back from what was saved. -/
class Saved (α : Type) where
  save : α → Document
  /-- Nothing, if the document is not the saved form of any value. -/
  restore : Document → Option α

namespace Document

/-- The value of a field, if the record has it. -/
def field? (fields : List (String × Document)) (name : String) : Option Document :=
  fields.lookup name

/-- The natural number below a bound that a document is. -/
def natBelow? (bound : Nat) : Document → Option Nat
  | .number n => if 0 ≤ n ∧ n < bound then some n.toNat else none
  | _ => none

/-- The fields of a record that has to have all of `names`, in the order of `names`. Where `lenient`
says so of a name, its field may be missing and then is empty. -/
def fields? (names : List String) (lenient : String → Bool) : Document → Option (List Document)
  | .record fields => names.mapM fun name =>
    match field? fields name with
    | some value => some value
    | none => if lenient name then some .empty else none
  | .list items => if items.length = names.length then some items else none
  | _ => none

/-- The value among `all` whose name a document is. -/
def named? {α : Type} (all : List α) (name : α → String) : Document → Option α
  | .text s => all.find? fun x => name x == s
  | .record [(s, .empty)] => all.find? fun x => name x == s
  | _ => none

end Document

open Document (natBelow? fields? named?)

instance : Saved Bool where
  save := .flag
  restore
    | .flag b => some b
    | _ => none

instance : Saved String where
  save := .text
  restore
    | .text s => some s
    | _ => none

instance : Saved UInt8 where
  save b := .number b.toNat
  restore d := (natBelow? UInt8.size d).map UInt8.ofNat

instance : Saved UInt16 where
  save w := .number w.toNat
  restore d := (natBelow? UInt16.size d).map UInt16.ofNat

instance {α : Type} [Saved α] : Saved (Option α) where
  save
    | some x => Saved.save x
    | none => .empty
  restore
    | .empty => some none
    | d => (Saved.restore d).map some

/-- A point in time is saved as a number of 64 bits. -/
instance : Saved Clock where
  save t := .number t.cycles
  restore d := (natBelow? UInt64.size d).map Clock.mk

instance : Saved Model where
  save m := .text m.name
  restore := named? Model.all Model.name

/-- The name under which an interrupt is saved. -/
def Interrupt.savedName : Interrupt → String
  | .vblank => "VBlank"
  | .lcdStat => "LcdStat"
  | .timer => "Timer"
  | .serial => "Serial"
  | .joypad => "Joypad"

instance : Saved Interrupt where
  save i := .text i.savedName
  restore := named? Interrupt.all Interrupt.savedName

/-- The name under which the kind of a trace entry is saved. -/
def TraceKind.savedName : TraceKind → String
  | .op => "op"
  | .event => "event"

instance : Saved TraceKind where
  save k := .text k.savedName
  restore := named? [.op, .event] TraceKind.savedName

instance : Saved TraceEntry where
  save e := .record
    [("kind", Saved.save e.kind), ("address", Saved.save e.address), ("text", Saved.save e.text),
     ("comment", Saved.save e.comment)]
  restore d := do
    let lenient := fun name => name == "address" || name == "comment"
    match ← fields? ["kind", "address", "text", "comment"] lenient d with
    | [kind, address, text, comment] => do
      let kind ← Saved.restore kind
      let address ← Saved.restore address
      let text ← Saved.restore text
      let comment ← Saved.restore comment
      pure { kind, address, text, comment }
    | _ => none

instance : Saved InterruptState where
  save s := .record
    [("ime", Saved.save s.ime), ("ime_next", Saved.save s.imeNext),
     ("requested", Saved.save s.requested), ("enabled", Saved.save s.enabled)]
  restore d := do
    match ← fields? ["ime", "ime_next", "requested", "enabled"] (fun _ => false) d with
    | [ime, imeNext, requested, enabled] => do
      let ime ← Saved.restore ime
      let imeNext ← Saved.restore imeNext
      let requested ← Saved.restore requested
      let enabled ← Saved.restore enabled
      pure { ime, imeNext, requested, enabled }
    | _ => none

instance : Saved Registers where
  save r := .record
    [("a", Saved.save r.a), ("f", Saved.save r.f), ("b", Saved.save r.b), ("c", Saved.save r.c),
     ("d", Saved.save r.d), ("e", Saved.save r.e), ("h", Saved.save r.h), ("l", Saved.save r.l),
     ("sp", Saved.save r.sp), ("pc", Saved.save r.pc)]
  restore doc := do
    match ← fields? ["a", "f", "b", "c", "d", "e", "h", "l", "sp", "pc"] (fun _ => false) doc with
    | [a, f, b, c, d, e, h, l, sp, pc] => do
      let a ← Saved.restore a
      let f ← Saved.restore f
      let b ← Saved.restore b
      let c ← Saved.restore c
      let d ← Saved.restore d
      let e ← Saved.restore e
      let h ← Saved.restore h
      let l ← Saved.restore l
      let sp ← Saved.restore sp
      let pc ← Saved.restore pc
      pure { a, f, b, c, d, e, h, l, sp, pc }
    | _ => none

end GameBoy
