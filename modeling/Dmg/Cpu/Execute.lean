import Dmg.Cpu.Core
import Dmg.Cpu.OpcodeTable

/-
  The effect of each instruction.

  An instruction begins with PC at the first byte after its
  opcode, and says whether PC is still to move past the bytes
  that follow the opcode or has been set by a branch.

  Key definitions include:
    * `Flow`
    * `Core.executePrefixed`
    * `Core.execute`
-/

namespace Dmg

/-
  How an instruction ends: PC moves past its bytes, or a
  branch has set PC, or PC moves on and a prefixed
  instruction adds ticks of its own.
-/
inductive Flow where
  | next
  | jump
  | extended (ticks : Nat)
deriving DecidableEq, Repr

namespace Registers

------------------------------------------------------------
-- Effects On Registers
------------------------------------------------------------

/- Apply an operation to the accumulator and a byte. -/
def accumulate
    (op : AluOp)
    (v : UInt8)
    (r : Registers) : Registers :=
  let (a, fl) := op.apply r.a v (r.flag .c)
  { r with a := a }.setFlags fl

/- The flags of a byte counted up; carry is kept. -/
def incFlags
    (v : UInt8)
    (r : Registers) : Registers :=
  ((r.setFlag .z (v + 1 == 0)).setFlag .n false).setFlag .h
    (v &&& 0x0F == 0x0F)

/- The flags of a byte counted down; carry is kept. -/
def decFlags
    (v : UInt8)
    (r : Registers) : Registers :=
  ((r.setFlag .z (v - 1 == 0)).setFlag .n true).setFlag .h
    (v &&& 0x0F == 0)

/- Rotate the accumulator; the zero flag is cleared. -/
def rotateA
    (op : ShiftOp)
    (r : Registers) : Registers :=
  let (a, fl) := op.apply r.a (r.flag .c)
  { r with a := a }.setFlags { fl with z := false }

/- Adjust the accumulator after decimal arithmetic. -/
def adjustDecimal
    (r : Registers) : Registers :=
  let (a, high) :=
    Arithmetic.decimalAdjust r.a
      (r.flag .n) (r.flag .h) (r.flag .c)
  let r := (r.setFlag .c high).setFlag .h false
  { r.setFlag .z (a == 0) with a := a }

/- Invert the accumulator. -/
def complement
    (r : Registers) : Registers :=
  ({ r with a := ~~~r.a }.setFlag .n true).setFlag .h true

/- Set or clear the carry flag; the zero flag is kept. -/
def setCarry
    (on : Bool)
    (r : Registers) : Registers :=
  ((r.setFlag .n false).setFlag .h false).setFlag .c on

/- Add a word to HL; the zero flag is kept. -/
def addToHL
    (w : UInt16)
    (r : Registers) : Registers :=
  let (sum, half, full) := Arithmetic.addWord r.hl w
  (((r.setFlag .n false).setFlag .h half).setFlag .c
    full).setHL sum

/- The flags of a signed byte added to SP. -/
def offsetFlags
    (half full : Bool)
    (r : Registers) : Registers :=
  (((r.setFlag .n false).setFlag .z false).setFlag .h
    half).setFlag .c full

/- Add a signed byte to SP. -/
def addToSP
    (offset : UInt8)
    (r : Registers) : Registers :=
  let (sum, half, full) := Arithmetic.addOffset r.sp offset
  { r.offsetFlags half full with sp := sum }

/- Set HL to SP and a signed byte. -/
def loadHLFromSP
    (offset : UInt8)
    (r : Registers) : Registers :=
  let (sum, half, full) := Arithmetic.addOffset r.sp offset
  (r.offsetFlags half full).setHL sum

/- The flags of a tested bit; carry is kept. -/
def testFlags
    (set : Bool)
    (r : Registers) : Registers :=
  ((r.setFlag .z !set).setFlag .n false).setFlag .h true

end Registers

namespace Core

variable {β : Type} [Bus β]

------------------------------------------------------------
-- Effects On Processor And Bus
------------------------------------------------------------

/- Set or clear the master enable and forget any EI. -/
@[specialize]
def forceMaster
    (on : Bool)
    (s : Core β) : Core β :=
  match s.mapInterrupts (·.setMaster on) with
  | ⟨cpu, bus⟩ =>
      ⟨{ cpu with
          enablePending := false
          enableDelay := false }, bus⟩

/-
  Suspend until an interrupt is pending.  If one is pending
  already and the master enable is clear, do not suspend, but
  let the next fetch leave PC in place.
-/
@[specialize]
def halt
    (s : Core β) : Core β :=
  let ic := s.interrupts
  match s with
  | ⟨cpu, bus⟩ =>
      if ic.master || ic.pending == 0 then
        ⟨{ cpu with halted := true }, bus⟩
      else
        ⟨{ cpu with haltBug := true }, bus⟩

/- Stop for good. -/
@[specialize]
def stop
    (s : Core β) : Core β :=
  match s.note (.cpuStopped (s.cpu.regs.pc - 1)) with
  | ⟨cpu, bus⟩ =>
      ⟨{ cpu with stopped := true, halted := false }, bus⟩

/- Have the master enable set after the next instruction. -/
def enableLater
    (s : Core β) : Core β :=
  match s with
  | ⟨cpu, bus⟩ => ⟨{ cpu with enablePending := true }, bus⟩

/- Branch if a condition holds. -/
@[inline]
def branch
    (cond : Option Condition)
    (taken : Core β → Core β)
    (s : Core β) : Flow × Core β :=
  if s.holds cond then (.jump, taken s) else (.next, s)

/- Push the address of what follows, and branch. -/
@[specialize]
def callTo
    (width addr : UInt16)
    (s : Core β) : Core β :=
  (s.push (s.cpu.regs.pc + width)).jumpTo addr

/- Branch to the address on the stack. -/
@[specialize]
def returnToCaller
    (s : Core β) : Core β :=
  let (addr, s) := s.pop
  s.jumpTo addr

/- Where A is loaded from or stored to. -/
def pointer
    (s : Core β) : Pointer → UInt16
  | .bc => s.cpu.regs.bc
  | .de => s.cpu.regs.de
  | .hlUp | .hlDown => s.cpu.regs.hl

/- Step HL if the pointer says so. -/
def stepPointer
    (p : Pointer)
    (s : Core β) : Core β :=
  match p with
  | .bc | .de => s
  | .hlUp => s.mapRegs fun r => r.setHL (r.hl + 1)
  | .hlDown => s.mapRegs fun r => r.setHL (r.hl - 1)

/- Load the accumulator from an address. -/
@[specialize]
def loadAFrom
    (addr : UInt16)
    (s : Core β) : Core β :=
  let (v, s) := s.read addr
  s.mapRegs fun r => { r with a := v }

/- Store the accumulator at an address. -/
@[specialize]
def storeAAt
    (addr : UInt16)
    (s : Core β) : Core β :=
  s.write addr s.cpu.regs.a

/- The address of a byte in the topmost page. -/
def highPage
    (offset : UInt8) : UInt16 :=
  0xFF00 ||| offset.toUInt16

------------------------------------------------------------
-- Prefixed Instructions
------------------------------------------------------------

/- The effect of an instruction after the prefix. -/
@[specialize]
def executePrefixed
    (i : PrefixedInstruction)
    (s : Core β) : Core β :=
  match i with
  | .shift op o =>
      let (v, s) := s.get o
      let (v, fl) := op.apply v (s.cpu.regs.flag .c)
      (s.mapRegs (·.setFlags fl)).set o v
  | .test i o =>
      let (v, s) := s.get o
      s.mapRegs (·.testFlags (bit v i))
  | .reset i o =>
      let (v, s) := s.get o
      s.set o (v &&& ~~~bitMask i)
  | .set i o =>
      let (v, s) := s.get o
      s.set o (v ||| bitMask i)

------------------------------------------------------------
-- Instructions
------------------------------------------------------------

/-
  The effect of an instruction, given the value that follows
  its opcode.
-/
@[specialize]
def execute
    (i : Instruction)
    (imm : UInt16)
    (s : Core β) : Flow × Core β :=
  match i with
  | .nop => (.next, s)
  | .stop => (.next, s.stop)
  | .halt => (.next, s.halt)
  | .di => (.next, s.forceMaster false)
  | .ei => (.next, s.enableLater)
  | .extended =>
      let op := lowByte imm
      let i := PrefixedInstruction.ofOpcode op
      let s := s.note (.executingPrefixed op i)
      (.extended i.ticks, s.executePrefixed i)
  | .load dst src =>
      let (v, s) := s.get src
      (.next, s.set dst v)
  | .loadByte dst => (.next, s.set dst (lowByte imm))
  | .loadWord dst => (.next, s.setPair dst imm)
  | .storeA p =>
      (.next, (s.storeAAt (s.pointer p)).stepPointer p)
  | .loadA p =>
      (.next, (s.loadAFrom (s.pointer p)).stepPointer p)
  | .storeSP => (.next, s.writeWord imm s.cpu.regs.sp)
  | .inc o =>
      let (v, s) := s.get o
      (.next, (s.mapRegs (·.incFlags v)).set o (v + 1))
  | .dec o =>
      let (v, s) := s.get o
      (.next, (s.mapRegs (·.decFlags v)).set o (v - 1))
  | .incPair p => (.next, s.setPair p (s.pair p + 1))
  | .decPair p => (.next, s.setPair p (s.pair p - 1))
  | .addHL p =>
      let w := s.pair p
      (.next, s.mapRegs (·.addToHL w))
  | .rlca => (.next, s.mapRegs (·.rotateA .rlc))
  | .rrca => (.next, s.mapRegs (·.rotateA .rrc))
  | .rla => (.next, s.mapRegs (·.rotateA .rl))
  | .rra => (.next, s.mapRegs (·.rotateA .rr))
  | .daa => (.next, s.mapRegs (·.adjustDecimal))
  | .cpl => (.next, s.mapRegs (·.complement))
  | .scf => (.next, s.mapRegs (·.setCarry true))
  | .ccf =>
      (.next, s.mapRegs fun r => r.setCarry !(r.flag .c))
  | .alu op src =>
      let (v, s) := s.get src
      (.next, s.mapRegs (·.accumulate op v))
  | .aluByte op =>
      (.next, s.mapRegs (·.accumulate op (lowByte imm)))
  | .jumpRelative cond =>
      s.branch cond fun s =>
        s.jumpTo
          (s.cpu.regs.pc + 1 + signExtend (lowByte imm))
  | .jump cond => s.branch cond (·.jumpTo imm)
  | .jumpHL => (.jump, s.jumpTo s.cpu.regs.hl)
  | .call cond => s.branch cond (·.callTo 2 imm)
  | .ret cond => s.branch cond (·.returnToCaller)
  | .reti => (.jump, (s.forceMaster true).returnToCaller)
  | .restart n =>
      (.jump, s.callTo 0 (Instruction.restartAddress n))
  | .push p => (.next, s.push (s.stackPair p))
  | .pop p =>
      let (w, s) := s.pop
      (.next, s.setStackPair p w)
  | .storeHigh =>
      (.next, s.storeAAt (highPage (lowByte imm)))
  | .loadHigh =>
      (.next, s.loadAFrom (highPage (lowByte imm)))
  | .storeHighC =>
      (.next, s.storeAAt (highPage s.cpu.regs.c))
  | .loadHighC =>
      (.next, s.loadAFrom (highPage s.cpu.regs.c))
  | .storeDirect => (.next, s.storeAAt imm)
  | .loadDirect => (.next, s.loadAFrom imm)
  | .addSP => (.next, s.mapRegs (·.addToSP (lowByte imm)))
  | .loadHLSP =>
      (.next, s.mapRegs (·.loadHLFromSP (lowByte imm)))
  | .loadSPHL =>
      (.next, s.mapRegs fun r => { r with sp := r.hl })

end Core

end Dmg
