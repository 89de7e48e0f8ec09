import Dmg.Text.Hex

/-
  The instruction set: operands, operations and, for each
  instruction, its mnemonic, the bytes that follow its opcode
  and its cost in clock ticks.

  Key definitions include:
    * `Operand`, `Pair`, `StackPair`, `Pointer`, `Condition`
    * `AluOp`, `ShiftOp`
    * `Instruction`
    * `Instruction.immediate`
    * `Instruction.mnemonic`
    * `Instruction.ticks`
    * `Instruction.takenTicks`
    * `PrefixedInstruction`
-/

namespace Dmg

------------------------------------------------------------
-- Operands
------------------------------------------------------------

/- A byte register, or the byte in memory that HL points at. -/
inductive Operand where
  | b
  | c
  | d
  | e
  | h
  | l
  | atHL
  | a
deriving DecidableEq, Repr

/- All byte operands, in the order of their codes. -/
def Operand.all : List Operand :=
  [.b, .c, .d, .e, .h, .l, .atHL, .a]

def Operand.text : Operand → String
  | .b => "B"
  | .c => "C"
  | .d => "D"
  | .e => "E"
  | .h => "H"
  | .l => "L"
  | .atHL => "(HL)"
  | .a => "A"

/- A word operand of loads and 16-bit arithmetic. -/
inductive Pair where
  | bc
  | de
  | hl
  | sp
deriving DecidableEq, Repr

def Pair.text : Pair → String
  | .bc => "BC"
  | .de => "DE"
  | .hl => "HL"
  | .sp => "SP"

/- A word operand of PUSH and POP. -/
inductive StackPair where
  | bc
  | de
  | hl
  | af
deriving DecidableEq, Repr

def StackPair.text : StackPair → String
  | .bc => "BC"
  | .de => "DE"
  | .hl => "HL"
  | .af => "AF"

/-
  Where A is loaded from or stored to: at BC, at DE, or at HL
  with HL then stepped up or down.
-/
inductive Pointer where
  | bc
  | de
  | hlUp
  | hlDown
deriving DecidableEq, Repr

def Pointer.text : Pointer → String
  | .bc => "(BC)"
  | .de => "(DE)"
  | .hlUp => "(HL+)"
  | .hlDown => "(HL-)"

/- When a branch is taken. -/
inductive Condition where
  | nz
  | z
  | nc
  | c
deriving DecidableEq, Repr

def Condition.text : Condition → String
  | .nz => "NZ"
  | .z => "Z"
  | .nc => "NC"
  | .c => "C"

------------------------------------------------------------
-- Operations
------------------------------------------------------------

/- The operations on A and a byte, in the order of their codes. -/
inductive AluOp where
  | add
  | adc
  | sub
  | sbc
  | and
  | xor
  | or
  | cp
deriving DecidableEq, Repr

/- The mnemonic up to the second operand. -/
def AluOp.text : AluOp → String
  | .add => "ADD A,"
  | .adc => "ADC A,"
  | .sub => "SUB "
  | .sbc => "SBC A,"
  | .and => "AND "
  | .xor => "XOR "
  | .or => "OR "
  | .cp => "CP "

/- Rotations and shifts, in the order of their codes. -/
inductive ShiftOp where
  | rlc
  | rrc
  | rl
  | rr
  | sla
  | sra
  | swap
  | srl
deriving DecidableEq, Repr

/- All rotations and shifts, in the order of their codes. -/
def ShiftOp.all : List ShiftOp :=
  [.rlc, .rrc, .rl, .rr, .sla, .sra, .swap, .srl]

def ShiftOp.text : ShiftOp → String
  | .rlc => "RLC"
  | .rrc => "RRC"
  | .rl => "RL"
  | .rr => "RR"
  | .sla => "SLA"
  | .sra => "SRA"
  | .swap => "SWAP"
  | .srl => "SRL"

/- The bytes that follow an opcode. -/
inductive Immediate where
  | none
  | byte
  | word
deriving DecidableEq, Repr

/- The number of bytes that follow an opcode. -/
def Immediate.width : Immediate → Nat
  | .none => 0
  | .byte => 1
  | .word => 2

------------------------------------------------------------
-- Instructions
------------------------------------------------------------

/-
  The instructions that an opcode names by itself.  A branch
  without condition is always taken.
-/
inductive Instruction where
  | nop
  | stop
  | halt
  | di
  | ei
  | extended
  | load (dst src : Operand)
  | loadByte (dst : Operand)
  | loadWord (dst : Pair)
  | storeA (p : Pointer)
  | loadA (p : Pointer)
  | storeSP
  | inc (o : Operand)
  | dec (o : Operand)
  | incPair (p : Pair)
  | decPair (p : Pair)
  | addHL (p : Pair)
  | rlca
  | rrca
  | rla
  | rra
  | daa
  | cpl
  | scf
  | ccf
  | alu (op : AluOp) (src : Operand)
  | aluByte (op : AluOp)
  | jumpRelative (cond : Option Condition)
  | jump (cond : Option Condition)
  | jumpHL
  | call (cond : Option Condition)
  | ret (cond : Option Condition)
  | reti
  | restart (n : Fin 8)
  | push (p : StackPair)
  | pop (p : StackPair)
  | storeHigh
  | loadHigh
  | storeHighC
  | loadHighC
  | storeDirect
  | loadDirect
  | addSP
  | loadHLSP
  | loadSPHL
deriving DecidableEq, Repr

namespace Instruction

/- The bytes that follow the opcode. -/
def immediate : Instruction → Immediate
  | .stop | .extended | .loadByte _ | .aluByte _
  | .jumpRelative _ | .storeHigh | .loadHigh
  | .addSP | .loadHLSP => .byte
  | .loadWord _ | .storeSP | .jump _ | .call _
  | .storeDirect | .loadDirect => .word
  | _ => .none

/- A branch's condition with a comma, or nothing. -/
def conditionText : Option Condition → String
  | none => ""
  | some cond => cond.text ++ ","

/- The address of a restart. -/
def restartAddress
    (n : Fin 8) : UInt16 :=
  (n.val * 8).toUInt16

/- The assembler's name of an instruction. -/
def mnemonic : Instruction → String
  | .nop => "NOP"
  | .stop => "STOP"
  | .halt => "HALT"
  | .di => "DI"
  | .ei => "EI"
  | .extended => "PREFIX CB"
  | .load dst src => "LD " ++ dst.text ++ "," ++ src.text
  | .loadByte dst => "LD " ++ dst.text ++ ",d8"
  | .loadWord dst => "LD " ++ dst.text ++ ",d16"
  | .storeA p => "LD " ++ p.text ++ ",A"
  | .loadA p => "LD A," ++ p.text
  | .storeSP => "LD (a16),SP"
  | .inc o => "INC " ++ o.text
  | .dec o => "DEC " ++ o.text
  | .incPair p => "INC " ++ p.text
  | .decPair p => "DEC " ++ p.text
  | .addHL p => "ADD HL," ++ p.text
  | .rlca => "RLCA"
  | .rrca => "RRCA"
  | .rla => "RLA"
  | .rra => "RRA"
  | .daa => "DAA"
  | .cpl => "CPL"
  | .scf => "SCF"
  | .ccf => "CCF"
  | .alu op src => op.text ++ src.text
  | .aluByte op => op.text ++ "d8"
  | .jumpRelative c => "JR " ++ conditionText c ++ "r8"
  | .jump c => "JP " ++ conditionText c ++ "a16"
  | .jumpHL => "JP HL"
  | .call c => "CALL " ++ conditionText c ++ "a16"
  | .ret none => "RET"
  | .ret (some cond) => "RET " ++ cond.text
  | .reti => "RETI"
  | .restart n =>
      "RST " ++ Hex.byte (lowByte (restartAddress n)) ++ "H"
  | .push p => "PUSH " ++ p.text
  | .pop p => "POP " ++ p.text
  | .storeHigh => "LDH (a8),A"
  | .loadHigh => "LDH A,(a8)"
  | .storeHighC => "LD (C),A"
  | .loadHighC => "LD A,(C)"
  | .storeDirect => "LD (a16),A"
  | .loadDirect => "LD A,(a16)"
  | .addSP => "ADD SP,r8"
  | .loadHLSP => "LD HL,SP+r8"
  | .loadSPHL => "LD SP,HL"

/- Four ticks, or more where memory is read at HL. -/
def operandTicks
    (o : Operand)
    (register memory : Nat) : Nat :=
  if o = .atHL then memory else register

/-
  The cost of an instruction whose branch, if it is a
  conditional one, is not taken.
-/
def ticks : Instruction → Nat
  | .load .atHL _ | .load _ .atHL => 8
  | .loadByte dst => operandTicks dst 8 12
  | .loadWord _ => 12
  | .storeA _ | .loadA _ => 8
  | .storeSP => 20
  | .inc o | .dec o => operandTicks o 4 12
  | .incPair _ | .decPair _ | .addHL _ => 8
  | .alu _ src => operandTicks src 4 8
  | .aluByte _ => 8
  | .jumpRelative none => 12
  | .jumpRelative (some _) => 8
  | .jump none => 16
  | .jump (some _) => 12
  | .call none => 24
  | .call (some _) => 12
  | .ret none | .reti => 16
  | .ret (some _) => 8
  | .restart _ | .push _ => 16
  | .pop _ => 12
  | .storeHigh | .loadHigh => 12
  | .storeHighC | .loadHighC => 8
  | .storeDirect | .loadDirect => 16
  | .addSP => 16
  | .loadHLSP => 12
  | .loadSPHL => 8
  | _ => 4

/- The cost of an instruction whose branch is taken. -/
def takenTicks : Instruction → Nat
  | .jumpRelative _ => 12
  | .jump _ => 16
  | .call _ => 24
  | .ret (some _) => 20
  | i => i.ticks

/- A listing of the fixed properties of an instruction. -/
def summary
    (i : Instruction) : String :=
  "Instruction \x7b mnemonic: \"" ++ i.mnemonic ++
    "\", width: " ++ toString i.immediate.width ++
    ", ticks: " ++ toString i.ticks ++
    ", taken_ticks: " ++ toString i.takenTicks ++ " \x7d"

end Instruction

------------------------------------------------------------
-- Prefixed Instructions
------------------------------------------------------------

/- The instructions named by the byte after the prefix 0xCB. -/
inductive PrefixedInstruction where
  | shift (op : ShiftOp) (o : Operand)
  | test (i : Fin 8) (o : Operand)
  | reset (i : Fin 8) (o : Operand)
  | set (i : Fin 8) (o : Operand)
deriving DecidableEq, Repr

namespace PrefixedInstruction

def mnemonic : PrefixedInstruction → String
  | .shift op o => op.text ++ " " ++ o.text
  | .test i o => "BIT " ++ toString i.val ++ "," ++ o.text
  | .reset i o => "RES " ++ toString i.val ++ "," ++ o.text
  | .set i o => "SET " ++ toString i.val ++ "," ++ o.text

/- The cost beyond that of the prefix. -/
def ticks : PrefixedInstruction → Nat
  | .test _ o => Instruction.operandTicks o 4 8
  | .shift _ o | .reset _ o | .set _ o =>
      Instruction.operandTicks o 4 12

/- A listing of the fixed properties of an instruction. -/
def summary
    (i : PrefixedInstruction) : String :=
  "CbInstruction \x7b mnemonic: \"" ++ i.mnemonic ++
    "\", ticks: " ++ toString i.ticks ++ " \x7d"

end PrefixedInstruction

end Dmg
