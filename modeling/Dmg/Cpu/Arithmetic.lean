import Dmg.Cpu.Registers
import Dmg.Cpu.Instruction

/-
  Arithmetic of the processor: each operation yields its
  result and the flags that report on it.

  Carries are told from exact sums and differences of natural
  numbers; results wrap at the register's width.

  Key definitions include:
    * `Arithmetic.add`
    * `Arithmetic.sub`
    * `AluOp.apply`
    * `ShiftOp.apply`
    * `Arithmetic.decimalAdjust`
    * `Arithmetic.addWord`
    * `Arithmetic.addOffset`
-/

namespace Dmg

namespace Arithmetic

------------------------------------------------------------
-- Eight-Bit Sums And Differences
------------------------------------------------------------

/- Sum of two bytes and a carry. -/
def add
    (a v : UInt8)
    (carry : Bool) : UInt8 × Flags :=
  let k := carryBit carry
  let r := a + v + k
  (r,
    { z := r == 0
      n := false
      h := 0x0F < a.toNat % 16 + v.toNat % 16 + k.toNat
      c := 0xFF < a.toNat + v.toNat + k.toNat })

/- Difference of two bytes less a borrow. -/
def sub
    (a v : UInt8)
    (borrow : Bool) : UInt8 × Flags :=
  let k := carryBit borrow
  let r := a - v - k
  (r,
    { z := r == 0
      n := true
      h := a.toNat % 16 < v.toNat % 16 + k.toNat
      c := a.toNat < v.toNat + k.toNat })

/- The flags of a bitwise operation. -/
def bitwiseFlags
    (r : UInt8)
    (half : Bool) : Flags where
  z := r == 0
  n := false
  h := half
  c := false

------------------------------------------------------------
-- Decimal Adjustment
------------------------------------------------------------

/-
  The correction that turns a binary sum or difference of
  packed decimal bytes into a packed decimal byte.  After a
  subtraction only the flags count; after an addition also a
  digit above nine does.
-/
def decimalCorrection
    (a : UInt8)
    (n h c : Bool) : UInt8 :=
  let low := h || (!n && 0x09 < a.toNat % 16)
  let high := c || (!n && 0x99 < a.toNat)
  (if high then 0x60 else 0) ||| (if low then 0x06 else 0)

/- The adjusted byte, and whether the high digit was corrected. -/
def decimalAdjust
    (a : UInt8)
    (n h c : Bool) : UInt8 × Bool :=
  let k := decimalCorrection a n h c
  (if n then a - k else a + k, 0x60 ≤ k)

------------------------------------------------------------
-- Sixteen-Bit Sums
------------------------------------------------------------

/- Sum of two words, with the carries out of bits 11 and 15. -/
def addWord
    (x y : UInt16) : UInt16 × Bool × Bool :=
  (x + y,
    0x0FFF < x.toNat % 0x1000 + y.toNat % 0x1000,
    0xFFFF < x.toNat + y.toNat)

/-
  Sum of a word and a signed byte, with the carries out of
  bits 3 and 7 of the unsigned sum of the low bytes.
-/
def addOffset
    (base : UInt16)
    (offset : UInt8) : UInt16 × Bool × Bool :=
  (base + signExtend offset,
    0x0F < base.toNat % 16 + offset.toNat % 16,
    0xFF < base.toNat % 256 + offset.toNat)

end Arithmetic

------------------------------------------------------------
-- Operations On The Accumulator
------------------------------------------------------------

/-
  The new accumulator and flags of an operation on the
  accumulator, a byte and the carry flag.  A comparison has
  the flags of a subtraction and leaves the accumulator.
-/
def AluOp.apply
    (op : AluOp)
    (a v : UInt8)
    (carry : Bool) : UInt8 × Flags :=
  match op with
  | .add => Arithmetic.add a v false
  | .adc => Arithmetic.add a v carry
  | .sub => Arithmetic.sub a v false
  | .sbc => Arithmetic.sub a v carry
  | .and =>
      (a &&& v, Arithmetic.bitwiseFlags (a &&& v) true)
  | .xor =>
      (a ^^^ v, Arithmetic.bitwiseFlags (a ^^^ v) false)
  | .or =>
      (a ||| v, Arithmetic.bitwiseFlags (a ||| v) false)
  | .cp => (a, (Arithmetic.sub a v false).2)

------------------------------------------------------------
-- Rotations And Shifts
------------------------------------------------------------

namespace ShiftOp

/- The shifted byte; the carry flag enters RL and RR. -/
def result
    (op : ShiftOp)
    (v : UInt8)
    (carry : Bool) : UInt8 :=
  match op with
  | .rlc => (v <<< 1) ||| (v >>> 7)
  | .rrc => (v >>> 1) ||| (v <<< 7)
  | .rl => (v <<< 1) ||| carryBit carry
  | .rr => (v >>> 1) ||| (carryBit carry <<< 7)
  | .sla => v <<< 1
  | .sra => (v >>> 1) ||| (v &&& 0x80)
  | .swap => (v <<< 4) ||| (v >>> 4)
  | .srl => v >>> 1

/- The bit shifted out. -/
def shiftedOut
    (op : ShiftOp)
    (v : UInt8) : Bool :=
  match op with
  | .rlc | .rl | .sla => bit v 7
  | .rrc | .rr | .sra | .srl => bit v 0
  | .swap => false

/- The shifted byte and the flags that report on it. -/
def apply
    (op : ShiftOp)
    (v : UInt8)
    (carry : Bool) : UInt8 × Flags :=
  let r := op.result v carry
  (r,
    { z := r == 0
      n := false
      h := false
      c := op.shiftedOut v })

end ShiftOp

end Dmg
