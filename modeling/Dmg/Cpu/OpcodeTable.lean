import Dmg.Cpu.Instruction

/-
  The instruction named by each opcode, row by row, and the
  instruction named by each byte after the prefix 0xCB.

  Eleven opcodes name nothing.

  Key definitions include:
    * `opcodeRows`
    * `Instruction.ofOpcode?`
    * `prefixedRows`
    * `PrefixedInstruction.ofOpcode`
-/

namespace Dmg

------------------------------------------------------------
-- Opcodes
------------------------------------------------------------

/- Opcodes 0x00 to 0x3F. -/
def mixedRows : List (Option Instruction) :=
  [some .nop, some (.loadWord .bc), some (.storeA .bc),
   some (.incPair .bc), some (.inc .b), some (.dec .b),
   some (.loadByte .b), some .rlca,
   some .storeSP, some (.addHL .bc), some (.loadA .bc),
   some (.decPair .bc), some (.inc .c), some (.dec .c),
   some (.loadByte .c), some .rrca,
   some .stop, some (.loadWord .de), some (.storeA .de),
   some (.incPair .de), some (.inc .d), some (.dec .d),
   some (.loadByte .d), some .rla,
   some (.jumpRelative none), some (.addHL .de),
   some (.loadA .de), some (.decPair .de), some (.inc .e),
   some (.dec .e), some (.loadByte .e), some .rra,
   some (.jumpRelative (some .nz)), some (.loadWord .hl),
   some (.storeA .hlUp), some (.incPair .hl), some (.inc .h),
   some (.dec .h), some (.loadByte .h), some .daa,
   some (.jumpRelative (some .z)), some (.addHL .hl),
   some (.loadA .hlUp), some (.decPair .hl), some (.inc .l),
   some (.dec .l), some (.loadByte .l), some .cpl,
   some (.jumpRelative (some .nc)), some (.loadWord .sp),
   some (.storeA .hlDown), some (.incPair .sp),
   some (.inc .atHL), some (.dec .atHL),
   some (.loadByte .atHL), some .scf,
   some (.jumpRelative (some .c)), some (.addHL .sp),
   some (.loadA .hlDown), some (.decPair .sp), some (.inc .a),
   some (.dec .a), some (.loadByte .a), some .ccf]

/- Opcodes 0x40 to 0x7F. -/
def loadRows : List (Option Instruction) :=
  [some (.load .b .b), some (.load .b .c), some (.load .b .d),
   some (.load .b .e), some (.load .b .h), some (.load .b .l),
   some (.load .b .atHL), some (.load .b .a),
   some (.load .c .b), some (.load .c .c), some (.load .c .d),
   some (.load .c .e), some (.load .c .h), some (.load .c .l),
   some (.load .c .atHL), some (.load .c .a),
   some (.load .d .b), some (.load .d .c), some (.load .d .d),
   some (.load .d .e), some (.load .d .h), some (.load .d .l),
   some (.load .d .atHL), some (.load .d .a),
   some (.load .e .b), some (.load .e .c), some (.load .e .d),
   some (.load .e .e), some (.load .e .h), some (.load .e .l),
   some (.load .e .atHL), some (.load .e .a),
   some (.load .h .b), some (.load .h .c), some (.load .h .d),
   some (.load .h .e), some (.load .h .h), some (.load .h .l),
   some (.load .h .atHL), some (.load .h .a),
   some (.load .l .b), some (.load .l .c), some (.load .l .d),
   some (.load .l .e), some (.load .l .h), some (.load .l .l),
   some (.load .l .atHL), some (.load .l .a),
   some (.load .atHL .b), some (.load .atHL .c),
   some (.load .atHL .d), some (.load .atHL .e),
   some (.load .atHL .h), some (.load .atHL .l), some .halt,
   some (.load .atHL .a),
   some (.load .a .b), some (.load .a .c), some (.load .a .d),
   some (.load .a .e), some (.load .a .h), some (.load .a .l),
   some (.load .a .atHL), some (.load .a .a)]

/- Opcodes 0x80 to 0xBF. -/
def accumulatorRows : List (Option Instruction) :=
  [some (.alu .add .b), some (.alu .add .c),
   some (.alu .add .d), some (.alu .add .e),
   some (.alu .add .h), some (.alu .add .l),
   some (.alu .add .atHL), some (.alu .add .a),
   some (.alu .adc .b), some (.alu .adc .c),
   some (.alu .adc .d), some (.alu .adc .e),
   some (.alu .adc .h), some (.alu .adc .l),
   some (.alu .adc .atHL), some (.alu .adc .a),
   some (.alu .sub .b), some (.alu .sub .c),
   some (.alu .sub .d), some (.alu .sub .e),
   some (.alu .sub .h), some (.alu .sub .l),
   some (.alu .sub .atHL), some (.alu .sub .a),
   some (.alu .sbc .b), some (.alu .sbc .c),
   some (.alu .sbc .d), some (.alu .sbc .e),
   some (.alu .sbc .h), some (.alu .sbc .l),
   some (.alu .sbc .atHL), some (.alu .sbc .a),
   some (.alu .and .b), some (.alu .and .c),
   some (.alu .and .d), some (.alu .and .e),
   some (.alu .and .h), some (.alu .and .l),
   some (.alu .and .atHL), some (.alu .and .a),
   some (.alu .xor .b), some (.alu .xor .c),
   some (.alu .xor .d), some (.alu .xor .e),
   some (.alu .xor .h), some (.alu .xor .l),
   some (.alu .xor .atHL), some (.alu .xor .a),
   some (.alu .or .b), some (.alu .or .c), some (.alu .or .d),
   some (.alu .or .e), some (.alu .or .h), some (.alu .or .l),
   some (.alu .or .atHL), some (.alu .or .a),
   some (.alu .cp .b), some (.alu .cp .c), some (.alu .cp .d),
   some (.alu .cp .e), some (.alu .cp .h), some (.alu .cp .l),
   some (.alu .cp .atHL), some (.alu .cp .a)]

/- Opcodes 0xC0 to 0xFF. -/
def controlRows : List (Option Instruction) :=
  [some (.ret (some .nz)), some (.pop .bc),
   some (.jump (some .nz)), some (.jump none),
   some (.call (some .nz)), some (.push .bc),
   some (.aluByte .add), some (.restart 0),
   some (.ret (some .z)), some (.ret none),
   some (.jump (some .z)), some .extended,
   some (.call (some .z)), some (.call none),
   some (.aluByte .adc), some (.restart 1),
   some (.ret (some .nc)), some (.pop .de),
   some (.jump (some .nc)), none, some (.call (some .nc)),
   some (.push .de), some (.aluByte .sub), some (.restart 2),
   some (.ret (some .c)), some .reti, some (.jump (some .c)),
   none, some (.call (some .c)), none, some (.aluByte .sbc),
   some (.restart 3),
   some .storeHigh, some (.pop .hl), some .storeHighC, none,
   none, some (.push .hl), some (.aluByte .and),
   some (.restart 4),
   some .addSP, some .jumpHL, some .storeDirect, none, none,
   none, some (.aluByte .xor), some (.restart 5),
   some .loadHigh, some (.pop .af), some .loadHighC, some .di,
   none, some (.push .af), some (.aluByte .or),
   some (.restart 6),
   some .loadHLSP, some .loadSPHL, some .loadDirect, some .ei,
   none, none, some (.aluByte .cp), some (.restart 7)]

/- The instructions of all opcodes in order. -/
def opcodeRows : Array (Option Instruction) :=
  (mixedRows ++ loadRows ++ accumulatorRows ++
    controlRows).toArray

theorem size_opcodeRows :
    opcodeRows.size = 256 := by
  decide +kernel

/- The instruction that an opcode names, if any. -/
def Instruction.ofOpcode?
    (op : UInt8) : Option Instruction :=
  have h : op.toNat < opcodeRows.size := by
    rw [size_opcodeRows]
    exact op.toNat_lt
  opcodeRows[op.toNat]

------------------------------------------------------------
-- Prefixed Opcodes
------------------------------------------------------------

/- An instruction for each of the eight operands. -/
def forEachOperand
    (i : Operand → PrefixedInstruction) :
    List PrefixedInstruction :=
  Operand.all.map i

open PrefixedInstruction in
/-
  All prefixed instructions in order: the shifts, then the
  tests, resets and sets of each bit, each for all operands.
-/
def prefixedRows : Array PrefixedInstruction :=
  (ShiftOp.all.flatMap (forEachOperand <| shift ·) ++
    (List.finRange 8).flatMap (forEachOperand <| test ·) ++
    (List.finRange 8).flatMap (forEachOperand <| reset ·) ++
    (List.finRange 8).flatMap
      (forEachOperand <| set ·)).toArray

theorem size_prefixedRows :
    prefixedRows.size = 256 := by
  decide +kernel

/- The instruction that a byte names after the prefix. -/
def PrefixedInstruction.ofOpcode
    (op : UInt8) : PrefixedInstruction :=
  have h : op.toNat < prefixedRows.size := by
    rw [size_prefixedRows]
    exact op.toNat_lt
  prefixedRows[op.toNat]

end Dmg
