import Dmg.Word

/-
  The register file of the processor: eight bytes that pair
  up into words, the stack pointer, the program counter, and
  the four flags in the upper half of F.

  Key definitions include:
    * `Flag`
    * `Flag.mask`
    * `Flags`
    * `Registers`
    * `Registers.setFlag`
    * `Registers.setFlags`
-/

namespace Dmg

------------------------------------------------------------
-- Flags
------------------------------------------------------------

/- Zero, subtraction, half carry, carry. -/
inductive Flag where
  | z
  | n
  | h
  | c
deriving DecidableEq, Repr

namespace Flag

/- The number of a flag's bit in F. -/
def position : Flag → Fin 8
  | .z => 7
  | .n => 6
  | .h => 5
  | .c => 4

/- The bit of a flag in F. -/
def mask
    (x : Flag) : UInt8 :=
  bitMask x.position

theorem position_eq_iff
    {x y : Flag} :
    x.position = y.position ↔ x = y := by
  cases x <;> cases y <;> decide

end Flag

/- A value for each of the four flags. -/
structure Flags where
  z : Bool
  n : Bool
  h : Bool
  c : Bool
deriving DecidableEq, Repr

namespace Flags

/- The value of one flag. -/
def get
    (fl : Flags) : Flag → Bool
  | .z => fl.z
  | .n => fl.n
  | .h => fl.h
  | .c => fl.c

/- The byte F that holds exactly these flags. -/
def toByte
    (fl : Flags) : UInt8 :=
  (if fl.z then 0x80 else 0) ||| (if fl.n then 0x40 else 0) |||
    (if fl.h then 0x20 else 0) ||| (if fl.c then 0x10 else 0)

theorem bit_toByte
    (fl : Flags)
    (x : Flag) :
    bit fl.toByte x.position = fl.get x := by
  cases fl with
  | mk z n h c =>
      cases x <;> cases z <;> cases n <;> cases h <;>
        cases c <;> decide

end Flags

------------------------------------------------------------
-- Register File
------------------------------------------------------------

/- All registers; zero unless said otherwise. -/
structure Registers where
  a : UInt8 := 0
  f : UInt8 := 0
  b : UInt8 := 0
  c : UInt8 := 0
  d : UInt8 := 0
  e : UInt8 := 0
  h : UInt8 := 0
  l : UInt8 := 0
  sp : UInt16 := 0
  pc : UInt16 := 0
deriving DecidableEq, Repr

namespace Registers

/- The registers as a program finds them at 0x0100. -/
def atEntry : Registers where
  a := 0x01
  f := 0xB0
  b := 0x00
  c := 0x13
  d := 0x00
  e := 0xD8
  h := 0x01
  l := 0x4D
  sp := 0xFFFE
  pc := 0x0100

/- A with F; the low half of F does not show. -/
def af
    (r : Registers) : UInt16 :=
  word r.a (r.f &&& 0xF0)

def bc
    (r : Registers) : UInt16 :=
  word r.b r.c

def de
    (r : Registers) : UInt16 :=
  word r.d r.e

def hl
    (r : Registers) : UInt16 :=
  word r.h r.l

/- Set A and F; the low half of F becomes zero. -/
def setAF
    (r : Registers)
    (w : UInt16) : Registers :=
  { r with a := highByte w, f := lowByte w &&& 0xF0 }

def setBC
    (r : Registers)
    (w : UInt16) : Registers :=
  { r with b := highByte w, c := lowByte w }

def setDE
    (r : Registers)
    (w : UInt16) : Registers :=
  { r with d := highByte w, e := lowByte w }

def setHL
    (r : Registers)
    (w : UInt16) : Registers :=
  { r with h := highByte w, l := lowByte w }

theorem hl_setHL
    (r : Registers)
    (w : UInt16) :
    (r.setHL w).hl = w :=
  word_highByte_lowByte w

/- Whether a flag is set. -/
def flag
    (r : Registers)
    (x : Flag) : Bool :=
  bit r.f x.position

/- Set or clear one flag and keep the rest of F. -/
def setFlag
    (r : Registers)
    (x : Flag)
    (on : Bool) : Registers :=
  { r with f := setBit r.f x.position on }

/- Setting a flag changes that flag only. -/
theorem flag_setFlag
    (r : Registers)
    (x y : Flag)
    (on : Bool) :
    (r.setFlag x on).flag y =
      if x = y then on else r.flag y := by
  simp only [flag, setFlag, bit_setBit,
    Flag.position_eq_iff]

/- Clear all of F. -/
def clearFlags
    (r : Registers) : Registers :=
  { r with f := 0 }

/- Set all four flags; the low half of F becomes zero. -/
def setFlags
    (r : Registers)
    (fl : Flags) : Registers :=
  { r with f := fl.toByte }

theorem flag_setFlags
    (r : Registers)
    (fl : Flags)
    (x : Flag) :
    (r.setFlags fl).flag x = fl.get x :=
  fl.bit_toByte x

end Registers

end Dmg
