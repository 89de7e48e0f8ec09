import Dmg.Cpu.OpcodeTable

/-
  The instruction set read off the bits of an opcode.

  An opcode is made of three fields, of two, three and three
  bits; the middle one is made of two more.  Each field is an
  index into a short list of operands or operations, and the
  fields say what bytes follow the opcode.

  Key definitions include:
    * `Fields`
    * `Fields.ofByte`
    * `Fields.decode`
    * `Fields.decodePrefixed`

  Main results:
    * `Instruction.ofOpcode?_eq_decode`
    * `PrefixedInstruction.ofOpcode_eq_decode`
-/

namespace Dmg

------------------------------------------------------------
-- Fields
------------------------------------------------------------

/- The three fields of an opcode. -/
structure Fields where
  x : Fin 4
  y : Fin 8
  z : Fin 8
deriving DecidableEq, Repr

namespace Fields

/- The fields of a byte, the highest first. -/
def ofByte
    (op : UInt8) : Fields where
  x := Fin.ofNat 4 (op.toNat / 64)
  y := Fin.ofNat 8 (op.toNat / 8)
  z := Fin.ofNat 8 op.toNat

/- The upper two bits of the middle field. -/
def p
    (f : Fields) : Fin 4 :=
  Fin.ofNat 4 (f.y.val / 2)

/- The lowest bit of the middle field. -/
def q
    (f : Fields) : Bool :=
  f.y.val % 2 == 1

------------------------------------------------------------
-- What Fields Stand For
------------------------------------------------------------

def operand : Fin 8 → Operand
  | 0 => .b
  | 1 => .c
  | 2 => .d
  | 3 => .e
  | 4 => .h
  | 5 => .l
  | 6 => .atHL
  | 7 => .a

def pair : Fin 4 → Pair
  | 0 => .bc
  | 1 => .de
  | 2 => .hl
  | 3 => .sp

def stackPair : Fin 4 → StackPair
  | 0 => .bc
  | 1 => .de
  | 2 => .hl
  | 3 => .af

def pointer : Fin 4 → Pointer
  | 0 => .bc
  | 1 => .de
  | 2 => .hlUp
  | 3 => .hlDown

def condition : Fin 4 → Condition
  | 0 => .nz
  | 1 => .z
  | 2 => .nc
  | 3 => .c

def aluOp : Fin 8 → AluOp
  | 0 => .add
  | 1 => .adc
  | 2 => .sub
  | 3 => .sbc
  | 4 => .and
  | 5 => .xor
  | 6 => .or
  | 7 => .cp

def shiftOp : Fin 8 → ShiftOp
  | 0 => .rlc
  | 1 => .rrc
  | 2 => .rl
  | 3 => .rr
  | 4 => .sla
  | 5 => .sra
  | 6 => .swap
  | 7 => .srl

/- The operations on the accumulator and flags alone. -/
def accumulatorOp : Fin 8 → Instruction
  | 0 => .rlca
  | 1 => .rrca
  | 2 => .rla
  | 3 => .rra
  | 4 => .daa
  | 5 => .cpl
  | 6 => .scf
  | 7 => .ccf

------------------------------------------------------------
-- Decoding
------------------------------------------------------------

/- An instruction and the bytes that follow its opcode. -/
abbrev Decoded := Instruction × Immediate

/- Opcodes whose upper field is zero. -/
def decodeMixed
    (f : Fields) : Option Decoded :=
  match f.z with
  | 0 =>
      match f.y with
      | 0 => some (.nop, .none)
      | 1 => some (.storeSP, .word)
      | 2 => some (.stop, .byte)
      | 3 => some (.jumpRelative none, .byte)
      | y =>
          some (.jumpRelative
            (condition (Fin.ofNat 4 y.val)), .byte)
  | 1 =>
      if f.q then some (.addHL (pair f.p), .none)
      else some (.loadWord (pair f.p), .word)
  | 2 =>
      if f.q then some (.loadA (pointer f.p), .none)
      else some (.storeA (pointer f.p), .none)
  | 3 =>
      if f.q then some (.decPair (pair f.p), .none)
      else some (.incPair (pair f.p), .none)
  | 4 => some (.inc (operand f.y), .none)
  | 5 => some (.dec (operand f.y), .none)
  | 6 => some (.loadByte (operand f.y), .byte)
  | 7 => some (accumulatorOp f.y, .none)

/- Opcodes whose upper field is one: loads, and HALT. -/
def decodeLoad
    (f : Fields) : Option Decoded :=
  if f.y = 6 ∧ f.z = 6 then some (.halt, .none)
  else some (.load (operand f.y) (operand f.z), .none)

/- Opcodes whose upper field is three. -/
def decodeControl
    (f : Fields) : Option Decoded :=
  let cond := condition (Fin.ofNat 4 f.y.val)
  match f.z with
  | 0 =>
      match f.y with
      | 4 => some (.storeHigh, .byte)
      | 5 => some (.addSP, .byte)
      | 6 => some (.loadHigh, .byte)
      | 7 => some (.loadHLSP, .byte)
      | _ => some (.ret (some cond), .none)
  | 1 =>
      if f.q then
        match f.p with
        | 0 => some (.ret none, .none)
        | 1 => some (.reti, .none)
        | 2 => some (.jumpHL, .none)
        | 3 => some (.loadSPHL, .none)
      else some (.pop (stackPair f.p), .none)
  | 2 =>
      match f.y with
      | 4 => some (.storeHighC, .none)
      | 5 => some (.storeDirect, .word)
      | 6 => some (.loadHighC, .none)
      | 7 => some (.loadDirect, .word)
      | _ => some (.jump (some cond), .word)
  | 3 =>
      match f.y with
      | 0 => some (.jump none, .word)
      | 1 => some (.extended, .byte)
      | 6 => some (.di, .none)
      | 7 => some (.ei, .none)
      | _ => none
  | 4 =>
      if f.y < 4 then some (.call (some cond), .word)
      else none
  | 5 =>
      if f.q then
        if f.p = 0 then some (.call none, .word) else none
      else some (.push (stackPair f.p), .none)
  | 6 => some (.aluByte (aluOp f.y), .byte)
  | 7 => some (.restart f.y, .none)

/- What the fields of an opcode stand for, if anything. -/
def decode
    (f : Fields) : Option Decoded :=
  match f.x with
  | 0 => f.decodeMixed
  | 1 => f.decodeLoad
  | 2 => some (.alu (aluOp f.y) (operand f.z), .none)
  | 3 => f.decodeControl

/- What the fields of a prefixed opcode stand for. -/
def decodePrefixed
    (f : Fields) : PrefixedInstruction :=
  match f.x with
  | 0 => .shift (shiftOp f.y) (operand f.z)
  | 1 => .test f.y (operand f.z)
  | 2 => .reset f.y (operand f.z)
  | 3 => .set f.y (operand f.z)

end Fields

------------------------------------------------------------
-- The Tables
------------------------------------------------------------

/- The rows of the table are what their opcodes' bits say. -/
theorem Instruction.ofOpcode?_eq_decode
    (op : UInt8) :
    (Instruction.ofOpcode? op).map
        (fun i => (i, i.immediate)) =
      (Fields.ofByte op).decode := by
  revert op
  exact forall_byte (by decide +kernel)

theorem PrefixedInstruction.ofOpcode_eq_decode
    (op : UInt8) :
    PrefixedInstruction.ofOpcode op =
      (Fields.ofByte op).decodePrefixed := by
  revert op
  exact forall_byte (by decide +kernel)

end Dmg
