import GameBoy.Flags
import GameBoy.Model
import GameBoy.Operand
import GameBoy.Word

/-!
# The register file

Eight registers of one byte, the stack pointer and the program counter. Six of the byte registers
pair up as BC, DE and HL, and the accumulator pairs with the flags as AF.

A `GameBoy.Registers` is a plain record of values, and its byte F may hold anything; whoever puts
flags into it goes through `GameBoy.Registers.setF`, which drops the bits that do not exist, and a
record from outside is cleaned by `GameBoy.Registers.masked`.
-/

namespace GameBoy

/-- **The contents of the registers.** -/
structure Registers where
  a : UInt8
  f : UInt8
  b : UInt8
  c : UInt8
  d : UInt8
  e : UInt8
  h : UInt8
  l : UInt8
  sp : UInt16
  pc : UInt16
  deriving DecidableEq, Repr

namespace Registers

/-- Zero in every register. -/
def zero : Registers := ⟨0, 0, 0, 0, 0, 0, 0, 0, 0, 0⟩

/-- **What the boot program of a model leaves behind.** -/
def powerOn : Model → Registers
  | .dmg => ⟨0x01, 0xB0, 0x00, 0x13, 0x00, 0xD8, 0x01, 0x4D, 0xFFFE, 0x0100⟩
  | .mgb => ⟨0xFF, 0xB0, 0x00, 0x13, 0x00, 0xD8, 0x01, 0x4D, 0xFFFE, 0x0100⟩
  | .cgb => ⟨0x11, 0x80, 0x00, 0x00, 0xFF, 0x56, 0x00, 0x0D, 0xFFFE, 0x0100⟩

/-! ### Flags -/

/-- The flags held in F. -/
def flags (r : Registers) : Flags := .ofByte r.f

/-- Whether F has any of the bits of `bits`. -/
def flag (r : Registers) (bits : UInt8) : Bool := r.f &&& bits != 0

/-- F replaced by a byte, whose lower nibble is dropped. -/
def setF (r : Registers) (value : UInt8) : Registers := { r with f := value &&& Flags.mask }

/-- F replaced by given flags. -/
def setFlags (r : Registers) (flags : Flags) : Registers := r.setF flags.toByte

/-- The same contents with the lower nibble of F cleared. -/
def masked (r : Registers) : Registers := r.setF r.f

/-! ### Pairs -/

/-- The accumulator and the flags. -/
def af (r : Registers) : UInt16 := word r.a r.f

/-- The pair BC. -/
def bc (r : Registers) : UInt16 := word r.b r.c

/-- The pair DE. -/
def de (r : Registers) : UInt16 := word r.d r.e

/-- The pair HL. -/
def hl (r : Registers) : UInt16 := word r.h r.l

/-- The accumulator and the flags replaced; the lower nibble of F is dropped. -/
def setAF (r : Registers) (value : UInt16) : Registers :=
  { r with a := highByte value }.setF (lowByte value)

/-- The pair BC replaced. -/
def setBC (r : Registers) (value : UInt16) : Registers :=
  { r with b := highByte value, c := lowByte value }

/-- The pair DE replaced. -/
def setDE (r : Registers) (value : UInt16) : Registers :=
  { r with d := highByte value, e := lowByte value }

/-- The pair HL replaced. -/
def setHL (r : Registers) (value : UInt16) : Registers :=
  { r with h := highByte value, l := lowByte value }

/-! ### Operands -/

/-- The contents of a byte register. -/
def byte (r : Registers) : ByteRegister → UInt8
  | .b => r.b
  | .c => r.c
  | .d => r.d
  | .e => r.e
  | .h => r.h
  | .l => r.l
  | .a => r.a

/-- A byte register replaced. -/
def setByte (r : Registers) (register : ByteRegister) (value : UInt8) : Registers :=
  match register with
  | .b => { r with b := value }
  | .c => { r with c := value }
  | .d => { r with d := value }
  | .e => { r with e := value }
  | .h => { r with h := value }
  | .l => { r with l := value }
  | .a => { r with a := value }

/-- The contents of a register pair. -/
def pair (r : Registers) : RegisterPair → UInt16
  | .bc => r.bc
  | .de => r.de
  | .hl => r.hl
  | .sp => r.sp

/-- A register pair replaced. -/
def setPair (r : Registers) (pair : RegisterPair) (value : UInt16) : Registers :=
  match pair with
  | .bc => r.setBC value
  | .de => r.setDE value
  | .hl => r.setHL value
  | .sp => { r with sp := value }

/-- The contents of a pair as they are pushed. -/
def stackPair (r : Registers) : StackPair → UInt16
  | .bc => r.bc
  | .de => r.de
  | .hl => r.hl
  | .af => r.af

/-- A pair replaced by a word that was popped. -/
def setStackPair (r : Registers) (pair : StackPair) (value : UInt16) : Registers :=
  match pair with
  | .bc => r.setBC value
  | .de => r.setDE value
  | .hl => r.setHL value
  | .af => r.setAF value

/-- The address a pointer points to. -/
def pointer (r : Registers) : Pointer → UInt16
  | .bc => r.bc
  | .de => r.de
  | .hlIncrement | .hlDecrement => r.hl

/-- The registers after an access through a pointer, which may move HL by one. -/
def afterAccess (r : Registers) : Pointer → Registers
  | .bc | .de => r
  | .hlIncrement => r.setHL (r.hl + 1)
  | .hlDecrement => r.setHL (r.hl - 1)

end Registers

end GameBoy
