import Dmg.Cpu.Execute
import Dmg.Proofs.Cpu.BitFields

/-
  Results and flags of each operation, told in whole numbers.

  A sum overflows out of its lowest bits, and a difference
  borrows into them; half carry is the overflow or borrow of
  the lowest four bits of a byte, or twelve of a word, and
  carry that of all of them.

  Key definitions include:
    * `Rules.carries`, `Rules.borrows`
    * `Rules.alu`
    * `Rules.shift`
    * `Rules.decimal`
    * `Rules.addWord`, `Rules.addOffset`

  Main results:
    * `AluOp.apply_eq_rule`
    * `ShiftOp.apply_eq_rule`
    * `Arithmetic.decimalAdjust_eq_rule`
    * `Arithmetic.addWord_eq_rule`
    * `Arithmetic.addOffset_eq_rule`
-/

namespace Dmg

------------------------------------------------------------
-- Rules
------------------------------------------------------------

namespace Rules

/- Whether a sum overflows out of the digits below `m`. -/
def carries
    (m a b k : Nat) : Bool :=
  m ≤ a % m + b % m + k

/- Whether a difference borrows into the digits below `m`. -/
def borrows
    (m a b k : Nat) : Bool :=
  a % m < b % m + k

/- A result with its zero flag and the three others. -/
def report
    (r : UInt8)
    (n h c : Bool) : UInt8 × Flags :=
  (r, ⟨r.toNat == 0, n, h, c⟩)

/- Two bytes and a carry added. -/
def add
    (a v : UInt8)
    (k : Nat) : UInt8 × Flags :=
  report (UInt8.ofNat (a.toNat + v.toNat + k)) false
    (carries 0x10 a.toNat v.toNat k)
    (carries 0x100 a.toNat v.toNat k)

/- A byte and a borrow subtracted from a byte. -/
def sub
    (a v : UInt8)
    (k : Nat) : UInt8 × Flags :=
  report (UInt8.ofInt (a.toNat - v.toNat - k)) true
    (borrows 0x10 a.toNat v.toNat k)
    (borrows 0x100 a.toNat v.toNat k)

/-
  The accumulator and flags after an operation on it.  AND
  always sets the half carry; OR and XOR clear it.
-/
def alu
    (op : AluOp)
    (a v : UInt8)
    (carry : Bool) : UInt8 × Flags :=
  match op with
  | .add => add a v 0
  | .adc => add a v carry.toNat
  | .sub => sub a v 0
  | .sbc => sub a v carry.toNat
  | .and => report (a &&& v) false true false
  | .xor => report (a ^^^ v) false false false
  | .or => report (a ||| v) false false false
  | .cp => (a, (sub a v 0).2)

/- The value of a rotated or shifted byte. -/
def shifted
    (op : ShiftOp)
    (v : Nat)
    (carry : Bool) : Nat :=
  match op with
  | .rlc => 2 * v % 256 + v / 128
  | .rrc => v / 2 + 128 * (v % 2)
  | .rl => 2 * v % 256 + carry.toNat
  | .rr => v / 2 + 128 * carry.toNat
  | .sla => 2 * v % 256
  | .sra => v / 2 + 128 * (v / 128)
  | .swap => 16 * (v % 16) + v / 16
  | .srl => v / 2

/- The bit that leaves a rotated or shifted byte. -/
def leaving
    (op : ShiftOp)
    (v : Nat) : Bool :=
  match op with
  | .rlc | .rl | .sla => 128 ≤ v
  | .rrc | .rr | .sra | .srl => v % 2 == 1
  | .swap => false

/- A byte and the flags after a rotation or shift. -/
def shift
    (op : ShiftOp)
    (v : UInt8)
    (carry : Bool) : UInt8 × Flags :=
  report (UInt8.ofNat (shifted op v.toNat carry)) false false
    (leaving op v.toNat)

/-
  Decimal adjustment, the low digit first.  After an addition
  the high digit is adjusted if it exceeds nine once the low
  one has been.
-/
def decimal
    (a : UInt8)
    (n h c : Bool) : UInt8 × Bool :=
  if n then
    let low : Int := if h then a.toNat - 0x06 else a.toNat
    (UInt8.ofInt (if c then low - 0x60 else low), c)
  else
    let low :=
      if h || 9 < a.toNat % 16 then a.toNat + 0x06
      else a.toNat
    let high := c || 0x9F < low
    (UInt8.ofNat (if high then low + 0x60 else low), high)

/- Two words added, with half carry and carry. -/
def addWord
    (x y : UInt16) : UInt16 × Bool × Bool :=
  (UInt16.ofNat (x.toNat + y.toNat),
    carries 0x1000 x.toNat y.toNat 0,
    carries 0x10000 x.toNat y.toNat 0)

/- The number that a byte stands for as an offset. -/
def offset
    (v : UInt8) : Int :=
  if v.toNat < 128 then v.toNat else v.toNat - 256

/- A word moved by an offset. -/
def moved
    (base : UInt16)
    (v : UInt8) : UInt16 :=
  UInt16.ofInt (base.toNat + offset v)

/-
  A word moved by an offset, with the flags of the unsigned
  sum of its low byte and the byte of the offset.
-/
def addOffset
    (base : UInt16)
    (v : UInt8) : UInt16 × Bool × Bool :=
  (moved base v,
    carries 0x10 base.toNat v.toNat 0,
    carries 0x100 base.toNat v.toNat 0)

------------------------------------------------------------
-- Rules For Registers
------------------------------------------------------------

/- Set or clear a flag, or keep it. -/
def change
    (x : Flag)
    (on : Option Bool)
    (r : Registers) : Registers :=
  match on with
  | none => r
  | some on => r.setFlag x on

/- Change the flags that are given and keep the rest of F. -/
def changeFlags
    (z n h c : Option Bool)
    (r : Registers) : Registers :=
  change .c c (change .h h (change .n n (change .z z r)))

/- An operation on the accumulator and a byte. -/
def accumulate
    (op : AluOp)
    (v : UInt8)
    (r : Registers) : Registers :=
  let (a, fl) := alu op r.a v (r.flag .c)
  { r with a := a }.setFlags fl

/- The flags of a byte plus one, carry apart. -/
def incFlags
    (v : UInt8)
    (r : Registers) : Registers :=
  let fl := (add v 1 0).2
  changeFlags (some fl.z) (some fl.n) (some fl.h) none r

/- The flags of a byte less one, carry apart. -/
def decFlags
    (v : UInt8)
    (r : Registers) : Registers :=
  let fl := (sub v 1 0).2
  changeFlags (some fl.z) (some fl.n) (some fl.h) none r

/- Rotate the accumulator and clear the zero flag. -/
def rotateA
    (op : ShiftOp)
    (r : Registers) : Registers :=
  let (a, fl) := shift op r.a (r.flag .c)
  { r with a := a }.setFlags { fl with z := false }

/- Adjust the accumulator; the subtraction flag is kept. -/
def adjustDecimal
    (r : Registers) : Registers :=
  let (a, c) :=
    decimal r.a (r.flag .n) (r.flag .h) (r.flag .c)
  changeFlags (some (a.toNat == 0)) none (some false) (some c)
    { r with a := a }

/- Add a word to HL; the zero flag is kept. -/
def addToHL
    (w : UInt16)
    (r : Registers) : Registers :=
  let (sum, h, c) := addWord r.hl w
  (changeFlags none (some false) (some h) (some c) r).setHL
    sum

/- Add an offset to SP. -/
def addToSP
    (v : UInt8)
    (r : Registers) : Registers :=
  let (sum, h, c) := addOffset r.sp v
  { changeFlags (some false) (some false) (some h) (some c) r
      with sp := sum }

/- Set HL to SP moved by an offset. -/
def loadHLFromSP
    (v : UInt8)
    (r : Registers) : Registers :=
  let (sum, h, c) := addOffset r.sp v
  (changeFlags (some false) (some false) (some h) (some c)
    r).setHL sum

end Rules

------------------------------------------------------------
-- Agreement Of Operations
------------------------------------------------------------

open Rules

theorem beq_zero_eq_toNat
    (r : UInt8) :
    (r == 0) = (r.toNat == 0) := by
  rw [Bool.eq_iff_iff, beq_iff_eq, beq_iff_eq]
  exact UInt8.toNat_inj.symm

theorem toNat_carryBit
    (carry : Bool) :
    (carryBit carry).toNat = carry.toNat := by
  cases carry <;> rfl

theorem Arithmetic.add_eq_rule
    (a v : UInt8)
    (carry : Bool) :
    Arithmetic.add a v carry =
      Rules.add a v carry.toNat := by
  have hSum :
      a + v + carryBit carry =
        UInt8.ofNat (a.toNat + v.toNat + carry.toNat) := by
    rw [← toNat_carryBit]
    simp
  have hCarry :
      decide (0xFF < a.toNat + v.toNat + carry.toNat) =
        carries 0x100 a.toNat v.toNat carry.toNat := by
    have hA := a.toNat_lt
    have hV := v.toNat_lt
    simp only [carries, decide_eq_decide]
    omega
  simp only [Arithmetic.add, Rules.add, Rules.report, hSum,
    toNat_carryBit, beq_zero_eq_toNat, hCarry]
  rfl

theorem toNat_ofInt_byte
    (x : Int) :
    (UInt8.ofInt x).toNat = (x % 256).toNat := by
  have hLow : 0 ≤ x % 256 := Int.emod_nonneg x (by decide)
  have hHigh : x % 256 < 256 :=
    Int.emod_lt_of_pos x (by decide)
  change (x % 256).toNat % 256 = (x % 256).toNat
  omega

theorem toNat_ofInt_word
    (x : Int) :
    (UInt16.ofInt x).toNat = (x % 65536).toNat := by
  have hLow : 0 ≤ x % 65536 := Int.emod_nonneg x (by decide)
  have hHigh : x % 65536 < 65536 :=
    Int.emod_lt_of_pos x (by decide)
  change (x % 65536).toNat % 65536 = (x % 65536).toNat
  omega

theorem Arithmetic.sub_eq_rule
    (a v : UInt8)
    (borrow : Bool) :
    Arithmetic.sub a v borrow =
      Rules.sub a v borrow.toNat := by
  have hA := a.toNat_lt
  have hV := v.toNat_lt
  have hDifference :
      a - v - carryBit borrow =
        UInt8.ofInt
          (a.toNat - v.toNat - borrow.toNat) := by
    apply UInt8.toNat_inj.mp
    rw [toNat_ofInt_byte, ← toNat_carryBit]
    have hK := (carryBit borrow).toNat_lt
    simp only [UInt8.toNat_sub]
    omega
  have hBorrow :
      decide (a.toNat < v.toNat + borrow.toNat) =
        borrows 0x100 a.toNat v.toNat borrow.toNat := by
    simp only [borrows, decide_eq_decide]
    omega
  simp only [Arithmetic.sub, Rules.sub, Rules.report,
    hDifference, toNat_carryBit, beq_zero_eq_toNat, hBorrow]
  rfl

/- Operations on the accumulator follow their rules. -/
theorem AluOp.apply_eq_rule
    (op : AluOp)
    (a v : UInt8)
    (carry : Bool) :
    op.apply a v carry = alu op a v carry := by
  cases op with
  | add => exact Arithmetic.add_eq_rule a v false
  | adc => exact Arithmetic.add_eq_rule a v carry
  | sub => exact Arithmetic.sub_eq_rule a v false
  | sbc => exact Arithmetic.sub_eq_rule a v carry
  | cp =>
      have hSub := Arithmetic.sub_eq_rule a v false
      simp only [AluOp.apply, alu, hSub]
      rfl
  | _ =>
      simp only [AluOp.apply, alu, Arithmetic.bitwiseFlags,
        Rules.report, beq_zero_eq_toNat]

/- Rotations and shifts follow their rules. -/
theorem ShiftOp.apply_eq_rule
    (op : ShiftOp)
    (v : UInt8)
    (carry : Bool) :
    op.apply v carry = shift op v carry := by
  revert v
  cases op <;> cases carry <;>
    exact forall_byte (by decide +kernel)

/- Decimal adjustment follows its rule. -/
theorem Arithmetic.decimalAdjust_eq_rule
    (a : UInt8)
    (n h c : Bool) :
    Arithmetic.decimalAdjust a n h c =
      decimal a n h c := by
  revert a
  cases n <;> cases h <;> cases c <;>
    exact forall_byte (by decide +kernel)

theorem Arithmetic.addWord_eq_rule
    (x y : UInt16) :
    Arithmetic.addWord x y = Rules.addWord x y := by
  have hSum : x + y = UInt16.ofNat (x.toNat + y.toNat) := by
    simp
  have hX := x.toNat_lt
  have hY := y.toNat_lt
  have hFull :
      decide (0xFFFF < x.toNat + y.toNat) =
        carries 0x10000 x.toNat y.toNat 0 := by
    simp only [carries, decide_eq_decide]
    omega
  simp only [Arithmetic.addWord, Rules.addWord, hSum, hFull]
  rfl

theorem toNat_signExtend
    (v : UInt8) :
    (signExtend v).toNat =
      if v.toNat < 128 then v.toNat
      else 0xFF00 + v.toNat := by
  revert v
  exact forall_byte (by decide +kernel)

theorem add_signExtend
    (base : UInt16)
    (v : UInt8) :
    base + signExtend v = moved base v := by
  apply UInt16.toNat_inj.mp
  rw [UInt16.toNat_add, toNat_signExtend]
  unfold moved
  rw [toNat_ofInt_word]
  unfold offset
  split <;> omega

theorem Arithmetic.addOffset_eq_rule
    (base : UInt16)
    (v : UInt8) :
    Arithmetic.addOffset base v = Rules.addOffset base v := by
  have hV := v.toNat_lt
  have hFull :
      decide (0xFF < base.toNat % 256 + v.toNat) =
        carries 0x100 base.toNat v.toNat 0 := by
    simp only [carries, decide_eq_decide]
    omega
  simp only [Arithmetic.addOffset, Rules.addOffset,
    add_signExtend, hFull]
  rfl

------------------------------------------------------------
-- Agreement Of Registers
------------------------------------------------------------

/- Different bits may be set in any order. -/
theorem setBit_comm
    (b : UInt8)
    {i j : Fin 8}
    (hNe : i ≠ j)
    (x y : Bool) :
    setBit (setBit b i x) j y = setBit (setBit b j y) i x := by
  apply byte_ext
  intro k
  simp only [bit_setBit]
  by_cases hJ : j = k
  · by_cases hI : i = k
    · exact absurd (hI.trans hJ.symm) hNe
    · simp only [hJ, hI, if_true, if_false]
  · simp only [hJ, if_false]

namespace Registers

theorem setFlag_comm
    (r : Registers)
    {x y : Flag}
    (hNe : x ≠ y)
    (on on' : Bool) :
    (r.setFlag x on).setFlag y on' =
      (r.setFlag y on').setFlag x on := by
  have hPositions : x.position ≠ y.position := by
    rw [ne_eq, Flag.position_eq_iff]
    exact hNe
  simp only [setFlag, setBit_comm r.f hPositions]

theorem accumulate_eq_rule
    (op : AluOp)
    (v : UInt8)
    (r : Registers) :
    r.accumulate op v = Rules.accumulate op v r := by
  unfold accumulate Rules.accumulate
  rw [AluOp.apply_eq_rule]

theorem incFlags_eq_rule
    (v : UInt8)
    (r : Registers) :
    r.incFlags v = Rules.incFlags v r := by
  have hFlags : ∀ v : UInt8,
      (v + 1 == 0) = (Rules.add v 1 0).2.z ∧
        (v &&& 0x0F == 0x0F) = (Rules.add v 1 0).2.h :=
    forall_byte (by decide +kernel)
  unfold incFlags
  rw [(hFlags v).1, (hFlags v).2]
  rfl

theorem decFlags_eq_rule
    (v : UInt8)
    (r : Registers) :
    r.decFlags v = Rules.decFlags v r := by
  have hFlags : ∀ v : UInt8,
      (v - 1 == 0) = (Rules.sub v 1 0).2.z ∧
        (v &&& 0x0F == 0) = (Rules.sub v 1 0).2.h :=
    forall_byte (by decide +kernel)
  unfold decFlags
  rw [(hFlags v).1, (hFlags v).2]
  rfl

theorem rotateA_eq_rule
    (op : ShiftOp)
    (r : Registers) :
    r.rotateA op = Rules.rotateA op r := by
  unfold rotateA Rules.rotateA
  rw [ShiftOp.apply_eq_rule]

theorem adjustDecimal_eq_rule
    (r : Registers) :
    r.adjustDecimal = Rules.adjustDecimal r := by
  unfold adjustDecimal Rules.adjustDecimal
  rw [Arithmetic.decimalAdjust_eq_rule]
  rcases decimal r.a (r.flag .n) (r.flag .h) (r.flag .c) with
    ⟨a, c⟩
  -- The zero flag is set last here, and first in the rule.
  have hZC : Flag.z ≠ .c := by decide
  have hZH : Flag.z ≠ .h := by decide
  have hHC : Flag.h ≠ .c := by decide
  let t : Registers := { r with a := a }
  change
    ((t.setFlag .c c).setFlag .h false).setFlag .z (a == 0) =
      ((t.setFlag .z (a.toNat == 0)).setFlag .h
        false).setFlag .c c
  rw [← setFlag_comm (t.setFlag .c c) hZH,
    ← setFlag_comm t hZC, ← setFlag_comm _ hHC,
    beq_zero_eq_toNat]

theorem addToHL_eq_rule
    (w : UInt16)
    (r : Registers) :
    r.addToHL w = Rules.addToHL w r := by
  unfold addToHL Rules.addToHL
  rw [Arithmetic.addWord_eq_rule]
  rfl

theorem offsetFlags_eq_rule
    (h c : Bool)
    (r : Registers) :
    r.offsetFlags h c =
      changeFlags (some false) (some false) (some h) (some c)
        r := by
  have hZN : Flag.z ≠ .n := by decide
  unfold offsetFlags changeFlags change
  simp only
  rw [setFlag_comm r hZN]

theorem addToSP_eq_rule
    (v : UInt8)
    (r : Registers) :
    r.addToSP v = Rules.addToSP v r := by
  unfold addToSP Rules.addToSP
  simp only [Arithmetic.addOffset_eq_rule,
    offsetFlags_eq_rule]

theorem loadHLFromSP_eq_rule
    (v : UInt8)
    (r : Registers) :
    r.loadHLFromSP v = Rules.loadHLFromSP v r := by
  unfold loadHLFromSP Rules.loadHLFromSP
  simp only [Arithmetic.addOffset_eq_rule,
    offsetFlags_eq_rule]

end Registers

end Dmg
