import Dmg.Proofs.Checked.Bounds
import Dmg.Proofs.Cpu.Cost
import Dmg.Proofs.Cpu.FlagRules

/-
  The processor with its sums and tables checked.

  Carries are read off sums and differences that are wider
  than a byte or a word, or off sums of some of their digits.
  None of these overflows, so that a checked step is a step,
  whatever the registers hold.  Counting, branches and the
  stack wrap.

  Key definitions include:
    * `AluOp.evalChecked`
    * `Core.executeChecked`
    * `Core.stepChecked`

  Main results:
    * `AluOp.evalChecked_eq`
    * `Core.executeChecked_eq`
    * `Core.stepChecked_eq`
-/

namespace Dmg

open Checked

------------------------------------------------------------
-- Digits
------------------------------------------------------------

theorem toNat_and_0F
    (a : UInt8) :
    (a &&& 0x0F).toNat = a.toNat % 16 := by
  rw [UInt8.toNat_and]
  exact Nat.and_two_pow_sub_one_eq_mod a.toNat 4

theorem toNat_and_000F
    (x : UInt16) :
    (x &&& 0x000F).toNat = x.toNat % 16 := by
  rw [UInt16.toNat_and]
  exact Nat.and_two_pow_sub_one_eq_mod x.toNat 4

theorem toNat_and_00FF
    (x : UInt16) :
    (x &&& 0x00FF).toNat = x.toNat % 256 := by
  rw [UInt16.toNat_and]
  exact Nat.and_two_pow_sub_one_eq_mod x.toNat 8

theorem toNat_and_0FFF
    (x : UInt16) :
    (x &&& 0x0FFF).toNat = x.toNat % 4096 := by
  rw [UInt16.toNat_and]
  exact Nat.and_two_pow_sub_one_eq_mod x.toNat 12

------------------------------------------------------------
-- Arithmetic
------------------------------------------------------------

namespace Arithmetic

/-
  Sum of two bytes and a carry: the low digits are added as
  bytes, the bytes as words.
-/
def addChecked
    (a v : UInt8)
    (carry : Bool) : Option (UInt8 × Flags) := do
  let k := (carryBit carry).toNat
  let low ← Checked.add 8 (a &&& 0x0F).toNat
    (v &&& 0x0F).toNat
  let half ← Checked.add 8 low k
  let sum ← Checked.add 16 a.toNat v.toNat
  let full ← Checked.add 16 sum k
  let r := full.toUInt8
  some (r,
    { z := r == 0
      n := false
      h := 0x0F < half
      c := 0xFF < full })

/-
  Difference of two bytes less a borrow, in signed words.
-/
def subChecked
    (a v : UInt8)
    (borrow : Bool) : Option (UInt8 × Flags) := do
  let k : Int := (carryBit borrow).toNat
  let low ← signed 16
    ((a &&& 0x0F).toNat - (v &&& 0x0F).toNat)
  let half ← signed 16 (low - k)
  let difference ← signed 16 (a.toNat - v.toNat)
  let full ← signed 16 (difference - k)
  let r := UInt8.ofInt full
  some (r,
    { z := r == 0
      n := true
      h := half < 0
      c := full < 0 })

/-
  Sum of two words: all but the highest digit are added as
  words, the words as double words.
-/
def addWordChecked
    (x y : UInt16) : Option (UInt16 × Bool × Bool) := do
  let half ← Checked.add 16 (x &&& 0x0FFF).toNat
    (y &&& 0x0FFF).toNat
  let full ← Checked.add 32 x.toNat y.toNat
  some (x + y, 0x0FFF < half, 0xFFFF < full)

/- Sum of a word and a signed byte. -/
def addOffsetChecked
    (base : UInt16)
    (offset : UInt8) : Option (UInt16 × Bool × Bool) := do
  let offset := signExtend offset
  let half ← Checked.add 16 (base &&& 0x000F).toNat
    (offset &&& 0x000F).toNat
  let full ← Checked.add 16 (base &&& 0x00FF).toNat
    (offset &&& 0x00FF).toNat
  some (base + offset, 0x000F < half, 0x00FF < full)

theorem addChecked_eq
    (a v : UInt8)
    (carry : Bool) :
    addChecked a v carry = some (add a v carry) := by
  have ha := a.toNat_lt
  have hv := v.toNat_lt
  have hk : (carryBit carry).toNat ≤ 1 := by
    cases carry <;> decide
  have hLow :
      Checked.add 8 (a.toNat % 16) (v.toNat % 16) =
        some (a.toNat % 16 + v.toNat % 16) :=
    add_of_lt (by omega)
  have hHalf :
      Checked.add 8 (a.toNat % 16 + v.toNat % 16)
          (carryBit carry).toNat =
        some (a.toNat % 16 + v.toNat % 16 +
          (carryBit carry).toNat) :=
    add_of_lt (by omega)
  have hSum :
      Checked.add 16 a.toNat v.toNat =
        some (a.toNat + v.toNat) :=
    add_of_lt (by omega)
  have hFull :
      Checked.add 16 (a.toNat + v.toNat)
          (carryBit carry).toNat =
        some (a.toNat + v.toNat + (carryBit carry).toNat) :=
    add_of_lt (by omega)
  have hResult :
      (a.toNat + v.toNat + (carryBit carry).toNat).toUInt8 =
        a + v + carryBit carry := by
    simp
  simp only [addChecked, toNat_and_0F, hLow, hHalf, hSum,
    hFull, Option.bind_eq_bind, Option.bind_some, hResult]
  rfl

theorem subChecked_eq
    (a v : UInt8)
    (borrow : Bool) :
    subChecked a v borrow = some (sub a v borrow) := by
  have ha := a.toNat_lt
  have hv := v.toNat_lt
  have hk : (carryBit borrow).toNat ≤ 1 := by
    cases borrow <;> decide
  let low : Int := (a.toNat % 16 : Nat) - (v.toNat % 16 : Nat)
  let difference : Int := a.toNat - v.toNat
  let k : Int := (carryBit borrow).toNat
  have hLow : signed 16 low = some low :=
    signed_of (by omega) (by omega)
  have hHalf : signed 16 (low - k) = some (low - k) :=
    signed_of (by omega) (by omega)
  have hDifference :
      signed 16 difference = some difference :=
    signed_of (by omega) (by omega)
  have hFull :
      signed 16 (difference - k) = some (difference - k) :=
    signed_of (by omega) (by omega)
  have hHalfSign :
      decide (low - k < 0) =
        decide (a.toNat % 16 <
          v.toNat % 16 + (carryBit borrow).toNat) := by
    apply decide_eq_decide.mpr
    omega
  have hFullSign :
      decide (difference - k < 0) =
        decide (a.toNat <
          v.toNat + (carryBit borrow).toNat) := by
    apply decide_eq_decide.mpr
    omega
  have hResult :
      UInt8.ofInt (difference - k) =
        a - v - carryBit borrow := by
    apply UInt8.toNat_inj.mp
    rw [toNat_ofInt_byte]
    simp only [UInt8.toNat_sub]
    omega
  simp only [low, difference, k] at *
  simp only [subChecked, toNat_and_0F, hLow, hHalf,
    hDifference, hFull, Option.bind_eq_bind,
    Option.bind_some, hResult, hHalfSign, hFullSign]
  rfl

theorem addWordChecked_eq
    (x y : UInt16) :
    addWordChecked x y = some (addWord x y) := by
  have hx := x.toNat_lt
  have hy := y.toNat_lt
  have hHalf :
      Checked.add 16 (x.toNat % 4096) (y.toNat % 4096) =
        some (x.toNat % 4096 + y.toNat % 4096) :=
    add_of_lt (by omega)
  have hFull :
      Checked.add 32 x.toNat y.toNat =
        some (x.toNat + y.toNat) :=
    add_of_lt (by omega)
  simp only [addWordChecked, toNat_and_0FFF, hHalf, hFull,
    Option.bind_eq_bind, Option.bind_some]
  rfl

theorem addOffsetChecked_eq
    (base : UInt16)
    (offset : UInt8) :
    addOffsetChecked base offset =
      some (addOffset base offset) := by
  have hBase := base.toNat_lt
  have hOffset := offset.toNat_lt
  have hLow :
      (signExtend offset).toNat % 16 = offset.toNat % 16 := by
    rw [toNat_signExtend]
    split <;> omega
  have hByte :
      (signExtend offset).toNat % 256 = offset.toNat := by
    rw [toNat_signExtend]
    split <;> omega
  have hHalf :
      Checked.add 16 (base.toNat % 16) (offset.toNat % 16) =
        some (base.toNat % 16 + offset.toNat % 16) :=
    add_of_lt (by omega)
  have hFull :
      Checked.add 16 (base.toNat % 256) offset.toNat =
        some (base.toNat % 256 + offset.toNat) :=
    add_of_lt (by omega)
  simp only [addOffsetChecked, toNat_and_000F,
    toNat_and_00FF, hLow, hByte, hHalf, hFull,
    Option.bind_eq_bind, Option.bind_some]
  rfl

end Arithmetic

/- An operation on the accumulator, a byte and the carry. -/
def AluOp.evalChecked
    (op : AluOp)
    (a v : UInt8)
    (carry : Bool) : Option (UInt8 × Flags) :=
  match op with
  | .add => Arithmetic.addChecked a v false
  | .adc => Arithmetic.addChecked a v carry
  | .sub => Arithmetic.subChecked a v false
  | .sbc => Arithmetic.subChecked a v carry
  | .cp => do
      let (_, fl) ← Arithmetic.subChecked a v false
      some (a, fl)
  | .and | .xor | .or => some (op.apply a v carry)

theorem AluOp.evalChecked_eq
    (op : AluOp)
    (a v : UInt8)
    (carry : Bool) :
    op.evalChecked a v carry = some (op.apply a v carry) := by
  cases op with
  | add => exact Arithmetic.addChecked_eq a v false
  | adc => exact Arithmetic.addChecked_eq a v carry
  | sub => exact Arithmetic.subChecked_eq a v false
  | sbc => exact Arithmetic.subChecked_eq a v carry
  | cp =>
      unfold evalChecked
      rw [Arithmetic.subChecked_eq]
      rfl
  | and | xor | or => rfl

------------------------------------------------------------
-- Registers
------------------------------------------------------------

namespace Registers

/- Apply an operation to the accumulator and a byte. -/
def accumulateChecked
    (op : AluOp)
    (v : UInt8)
    (r : Registers) : Option Registers := do
  let (a, fl) ← op.evalChecked r.a v (r.flag .c)
  some ({ r with a := a }.setFlags fl)

/- Add a word to HL. -/
def addToHLChecked
    (w : UInt16)
    (r : Registers) : Option Registers := do
  let (sum, half, full) ← Arithmetic.addWordChecked r.hl w
  some ((((r.setFlag .n false).setFlag .h half).setFlag .c
    full).setHL sum)

/- Add a signed byte to SP. -/
def addToSPChecked
    (offset : UInt8)
    (r : Registers) : Option Registers := do
  let (sum, half, full) ←
    Arithmetic.addOffsetChecked r.sp offset
  some { r.offsetFlags half full with sp := sum }

/- Set HL to SP and a signed byte. -/
def loadHLFromSPChecked
    (offset : UInt8)
    (r : Registers) : Option Registers := do
  let (sum, half, full) ←
    Arithmetic.addOffsetChecked r.sp offset
  some ((r.offsetFlags half full).setHL sum)

theorem accumulateChecked_eq
    (op : AluOp)
    (v : UInt8)
    (r : Registers) :
    r.accumulateChecked op v = some (r.accumulate op v) := by
  unfold accumulateChecked
  rw [AluOp.evalChecked_eq]
  rfl

theorem addToHLChecked_eq
    (w : UInt16)
    (r : Registers) :
    r.addToHLChecked w = some (r.addToHL w) := by
  unfold addToHLChecked
  rw [Arithmetic.addWordChecked_eq]
  rfl

theorem addToSPChecked_eq
    (offset : UInt8)
    (r : Registers) :
    r.addToSPChecked offset = some (r.addToSP offset) := by
  unfold addToSPChecked
  rw [Arithmetic.addOffsetChecked_eq]
  rfl

theorem loadHLFromSPChecked_eq
    (offset : UInt8)
    (r : Registers) :
    r.loadHLFromSPChecked offset =
      some (r.loadHLFromSP offset) := by
  unfold loadHLFromSPChecked
  rw [Arithmetic.addOffsetChecked_eq]
  rfl

end Registers

------------------------------------------------------------
-- Instructions
------------------------------------------------------------

/- The table of opcodes at an opcode. -/
def Instruction.ofOpcodeChecked
    (op : UInt8) : Option (Option Instruction) :=
  opcodeRows[op.toNat]?

/- The table of prefixed opcodes at an opcode. -/
def PrefixedInstruction.ofOpcodeChecked
    (op : UInt8) : Option PrefixedInstruction :=
  prefixedRows[op.toNat]?

theorem Instruction.ofOpcodeChecked_eq
    (op : UInt8) :
    ofOpcodeChecked op = some (ofOpcode? op) := by
  apply Array.getElem?_eq_getElem

theorem PrefixedInstruction.ofOpcodeChecked_eq
    (op : UInt8) :
    ofOpcodeChecked op = some (ofOpcode op) := by
  apply Array.getElem?_eq_getElem

namespace Core

variable {β : Type} [Bus β]

/- Change the registers by something that is checked. -/
def mapRegsChecked
    (f : Registers → Option Registers)
    (s : Core β) : Option (Core β) := do
  let regs ← f s.cpu.regs
  some (s.mapRegs fun _ => regs)

omit [Bus β] in
theorem mapRegsChecked_eq
    {f : Registers → Option Registers}
    {g : Registers → Registers}
    (h : ∀ r, f r = some (g r))
    (s : Core β) :
    s.mapRegsChecked f = some (s.mapRegs g) := by
  unfold mapRegsChecked
  rw [h]
  rfl

/-
  The effect of an instruction.  Those that are left as they
  are move bytes, combine bits and count with wrapping.
-/
def executeChecked
    (i : Instruction)
    (imm : UInt16)
    (s : Core β) : Option (Flow × Core β) :=
  match i with
  | .extended => do
      let op := lowByte imm
      let i ← PrefixedInstruction.ofOpcodeChecked op
      let s := s.note (.executingPrefixed op i)
      some (.extended i.ticks, s.executePrefixed i)
  | .addHL p => do
      let w := s.pair p
      let s ← s.mapRegsChecked (·.addToHLChecked w)
      some (.next, s)
  | .alu op src => do
      let (v, s) := s.get src
      let s ← s.mapRegsChecked (·.accumulateChecked op v)
      some (.next, s)
  | .aluByte op => do
      let v := lowByte imm
      let s ← s.mapRegsChecked (·.accumulateChecked op v)
      some (.next, s)
  | .addSP => do
      let v := lowByte imm
      let s ← s.mapRegsChecked (·.addToSPChecked v)
      some (.next, s)
  | .loadHLSP => do
      let v := lowByte imm
      let s ← s.mapRegsChecked (·.loadHLFromSPChecked v)
      some (.next, s)
  | _ => some (s.execute i imm)

theorem executeChecked_eq
    (i : Instruction)
    (imm : UInt16)
    (s : Core β) :
    s.executeChecked i imm = some (s.execute i imm) := by
  cases i with
  | extended =>
      simp only [executeChecked,
        PrefixedInstruction.ofOpcodeChecked_eq]
      rfl
  | addHL p =>
      have hRegs :=
        mapRegsChecked_eq
          (Registers.addToHLChecked_eq (s.pair p)) s
      simp only [executeChecked, hRegs]
      rfl
  | alu op src =>
      rcases hGet : s.get src with ⟨v, t⟩
      have hRegs :=
        mapRegsChecked_eq
          (Registers.accumulateChecked_eq op v) t
      simp only [executeChecked, execute, hGet, hRegs]
      rfl
  | aluByte op =>
      have hRegs :=
        mapRegsChecked_eq
          (Registers.accumulateChecked_eq op (lowByte imm)) s
      simp only [executeChecked, hRegs]
      rfl
  | addSP =>
      have hRegs :=
        mapRegsChecked_eq
          (Registers.addToSPChecked_eq (lowByte imm)) s
      simp only [executeChecked, hRegs]
      rfl
  | loadHLSP =>
      have hRegs :=
        mapRegsChecked_eq
          (Registers.loadHLFromSPChecked_eq (lowByte imm)) s
      simp only [executeChecked, hRegs]
      rfl
  | _ => rfl

------------------------------------------------------------
-- Steps
------------------------------------------------------------

/-
  Perform an instruction.  Its ticks and those of a prefixed
  instruction are bytes, and their sum a double word.
-/
def performChecked
    (pc : UInt16)
    (i : Instruction)
    (s : Core β) : Option (Nat × Core β) := do
  let (imm, s) := s.fetchImmediate i.immediate
  let s := s.note (.executing pc i imm)
  match ← s.executeChecked i imm with
  | (.next, s) => do
      let ticks ← unsigned 8 i.ticks
      some (ticks, (s.skip i.immediate).settleEnable)
  | (.jump, s) => do
      let ticks ← unsigned 8 i.takenTicks
      some (ticks, s.settleEnable)
  | (.extended more, s) => do
      let ticks ← Checked.add 32 i.ticks more
      some (ticks, (s.skip i.immediate).settleEnable)

/- Fetch and perform the instruction at PC. -/
def runInstructionChecked
    (s : Core β) : Option (StepResult × Core β) := do
  let pc := s.cpu.regs.pc
  let (op, s) := s.fetch
  match ← Instruction.ofOpcodeChecked op with
  | none =>
      let fault : DecodeFault := ⟨op, pc⟩
      some (.error fault, s.lock fault)
  | some i => do
      let (ticks, s) ← s.performChecked pc i
      some (.ok ticks, s)

/- Enter the handler that is due, or run an instruction. -/
def proceedChecked
    (s : Core β) : Option (StepResult × Core β) :=
  match s.interrupts.serviceable with
  | some i => some (.ok interruptTicks, s.enterHandler i)
  | none => s.runInstructionChecked

/- One step. -/
def stepChecked
    (s : Core β) : Option (StepResult × Core β) :=
  match s.cpu.locked with
  | some fault => some (.error fault, s)
  | none =>
      if s.cpu.stopped then some (.ok idleTicks, s)
      else if s.cpu.halted then
        if s.interrupts.pending == 0 then
          some (.ok idleTicks, s)
        else s.wake.proceedChecked
      else s.proceedChecked

theorem performChecked_eq
    (pc : UInt16)
    (i : Instruction)
    (s : Core β) :
    s.performChecked pc i = some (s.perform pc i) := by
  have hTicks := (stepCost_ticks i).most
  have hTaken := (stepCost_takenTicks i).most
  unfold performChecked perform
  rcases s.fetchImmediate i.immediate with ⟨imm, t⟩
  simp only [executeChecked_eq, Option.bind_eq_bind,
    Option.bind_some]
  rcases hResult :
      (t.note (.executing pc i imm)).execute i imm with
    ⟨flow, u⟩
  have hNext : unsigned 8 i.ticks = some i.ticks :=
    unsigned_of_lt (by omega)
  have hJump : unsigned 8 i.takenTicks = some i.takenTicks :=
    unsigned_of_lt (by omega)
  cases flow with
  | next => simp only [hNext, Option.bind_some]
  | jump => simp only [hJump, Option.bind_some]
  | extended more =>
      obtain ⟨rfl, rfl⟩ :=
        execute_extended (congrArg Prod.fst hResult)
      let more :=
        (PrefixedInstruction.ofOpcode (lowByte imm)).ticks
      have hMost : Instruction.extended.ticks + more ≤ 24 :=
        (stepCost_prefixed _).most
      have hSum :
          Checked.add 32 Instruction.extended.ticks more =
            some (Instruction.extended.ticks + more) :=
        add_of_lt (by omega)
      simp only [more] at hSum
      simp only [hSum, Option.bind_some]

theorem runInstructionChecked_eq
    (s : Core β) :
    s.runInstructionChecked = some s.runInstruction := by
  unfold runInstructionChecked runInstruction
  rcases s.fetch with ⟨op, t⟩
  simp only [Instruction.ofOpcodeChecked_eq,
    Option.bind_eq_bind, Option.bind_some]
  cases Instruction.ofOpcode? op with
  | none => rfl
  | some i =>
      simp only [performChecked_eq, Option.bind_some]

theorem proceedChecked_eq
    (s : Core β) :
    s.proceedChecked = some s.proceed := by
  unfold proceedChecked proceed
  cases s.interrupts.serviceable with
  | none => exact runInstructionChecked_eq s
  | some i => rfl

/- No sum overflows in a step and no table is left. -/
theorem stepChecked_eq
    (s : Core β) :
    s.stepChecked = some s.step := by
  unfold stepChecked step
  cases s.cpu.locked with
  | some fault => rfl
  | none =>
      simp only [proceedChecked_eq]
      split
      · rfl
      · split
        · split <;> rfl
        · rfl

end Core

end Dmg
