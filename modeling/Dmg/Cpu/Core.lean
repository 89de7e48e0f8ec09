import Dmg.Bus
import Dmg.Cpu.Arithmetic

/-
  The processor, and the processor joined to a bus: access to
  registers, memory operands and the stack.

  Key definitions include:
    * `Cpu`
    * `Core`
    * `Core.get`
    * `Core.set`
    * `Core.push`
    * `Core.pop`
    * `Core.holds`
-/

namespace Dmg

------------------------------------------------------------
-- Processor
------------------------------------------------------------

/-
  The registers and latches of the processor.

  `haltBug` says that the next fetch leaves PC in place.
  `enablePending` and `enableDelay` carry an EI over the two
  instruction ends after which the master enable is set.
  `locked` holds the fault of an opcode without instruction.
-/
structure Cpu where
  regs : Registers := .atEntry
  halted : Bool := false
  stopped : Bool := false
  haltBug : Bool := false
  enablePending : Bool := false
  enableDelay : Bool := false
  locked : Option DecodeFault := none
deriving DecidableEq, Repr

/- A processor and the bus that it is joined to. -/
structure Core (β : Type) where
  cpu : Cpu
  bus : β

namespace Core

variable {β : Type} [Bus β]

------------------------------------------------------------
-- Registers
------------------------------------------------------------

/- Change the registers. -/
@[inline]
def mapRegs
    (f : Registers → Registers)
    (s : Core β) : Core β :=
  match s with
  | ⟨cpu, bus⟩ =>
      ⟨{ cpu with regs := f cpu.regs }, bus⟩

/- Set the program counter. -/
def jumpTo
    (pc : UInt16)
    (s : Core β) : Core β :=
  s.mapRegs fun r => { r with pc := pc }

/- The value of a word operand. -/
def pair
    (s : Core β) : Pair → UInt16
  | .bc => s.cpu.regs.bc
  | .de => s.cpu.regs.de
  | .hl => s.cpu.regs.hl
  | .sp => s.cpu.regs.sp

/- Set a word operand. -/
def setPair
    (p : Pair)
    (w : UInt16)
    (s : Core β) : Core β :=
  match p with
  | .bc => s.mapRegs (·.setBC w)
  | .de => s.mapRegs (·.setDE w)
  | .hl => s.mapRegs (·.setHL w)
  | .sp => s.mapRegs fun r => { r with sp := w }

/- The value of an operand of PUSH. -/
def stackPair
    (s : Core β) : StackPair → UInt16
  | .bc => s.cpu.regs.bc
  | .de => s.cpu.regs.de
  | .hl => s.cpu.regs.hl
  | .af => s.cpu.regs.af

/- Set an operand of POP. -/
def setStackPair
    (p : StackPair)
    (w : UInt16)
    (s : Core β) : Core β :=
  match p with
  | .bc => s.mapRegs (·.setBC w)
  | .de => s.mapRegs (·.setDE w)
  | .hl => s.mapRegs (·.setHL w)
  | .af => s.mapRegs (·.setAF w)

/- Whether a branch on a condition is taken. -/
def holds
    (s : Core β) : Option Condition → Bool
  | none => true
  | some .nz => !s.cpu.regs.flag .z
  | some .z => s.cpu.regs.flag .z
  | some .nc => !s.cpu.regs.flag .c
  | some .c => s.cpu.regs.flag .c

------------------------------------------------------------
-- Memory
------------------------------------------------------------

/- Read a byte from the bus. -/
@[specialize]
def read
    (addr : UInt16)
    (s : Core β) : UInt8 × Core β :=
  match s with
  | ⟨cpu, bus⟩ =>
      let (v, bus) := Bus.read addr bus
      (v, ⟨cpu, bus⟩)

/- Write a byte to the bus. -/
@[specialize]
def write
    (addr : UInt16)
    (v : UInt8)
    (s : Core β) : Core β :=
  match s with
  | ⟨cpu, bus⟩ => ⟨cpu, Bus.write addr v bus⟩

/- Read a word from the bus. -/
@[specialize]
def readWord
    (addr : UInt16)
    (s : Core β) : UInt16 × Core β :=
  match s with
  | ⟨cpu, bus⟩ =>
      let (w, bus) := Bus.readWord addr bus
      (w, ⟨cpu, bus⟩)

/- Write a word to the bus. -/
@[specialize]
def writeWord
    (addr w : UInt16)
    (s : Core β) : Core β :=
  match s with
  | ⟨cpu, bus⟩ => ⟨cpu, Bus.writeWord addr w bus⟩

/- Report an event. -/
@[inline]
def note
    (m : Message)
    (s : Core β) : Core β :=
  match s with
  | ⟨cpu, bus⟩ => ⟨cpu, Bus.note m bus⟩

/- The interrupt controller behind the bus. -/
@[inline]
def interrupts
    (s : Core β) : InterruptController :=
  Bus.interrupts s.bus

/- Change the interrupt controller behind the bus. -/
@[specialize]
def mapInterrupts
    (f : InterruptController → InterruptController)
    (s : Core β) : Core β :=
  match s with
  | ⟨cpu, bus⟩ =>
      ⟨cpu, Bus.setInterrupts (f (Bus.interrupts bus)) bus⟩

------------------------------------------------------------
-- Byte Operands
------------------------------------------------------------

/- The value of a byte operand. -/
@[specialize]
def get
    (o : Operand)
    (s : Core β) : UInt8 × Core β :=
  match o with
  | .b => (s.cpu.regs.b, s)
  | .c => (s.cpu.regs.c, s)
  | .d => (s.cpu.regs.d, s)
  | .e => (s.cpu.regs.e, s)
  | .h => (s.cpu.regs.h, s)
  | .l => (s.cpu.regs.l, s)
  | .atHL => s.read s.cpu.regs.hl
  | .a => (s.cpu.regs.a, s)

/- Set a byte operand. -/
@[specialize]
def set
    (o : Operand)
    (v : UInt8)
    (s : Core β) : Core β :=
  match o with
  | .b => s.mapRegs fun r => { r with b := v }
  | .c => s.mapRegs fun r => { r with c := v }
  | .d => s.mapRegs fun r => { r with d := v }
  | .e => s.mapRegs fun r => { r with e := v }
  | .h => s.mapRegs fun r => { r with h := v }
  | .l => s.mapRegs fun r => { r with l := v }
  | .atHL => s.write s.cpu.regs.hl v
  | .a => s.mapRegs fun r => { r with a := v }

------------------------------------------------------------
-- Stack
------------------------------------------------------------

/- Lower SP by two and store a word there. -/
@[specialize]
def push
    (w : UInt16)
    (s : Core β) : Core β :=
  let s := s.mapRegs fun r => { r with sp := r.sp - 2 }
  s.writeWord s.cpu.regs.sp w

/- Load the word at SP and raise SP by two. -/
@[specialize]
def pop
    (s : Core β) : UInt16 × Core β :=
  let (w, s) := s.readWord s.cpu.regs.sp
  (w, s.mapRegs fun r => { r with sp := r.sp + 2 })

end Core

end Dmg
