import Dmg.Proofs.Cpu.Event
import Dmg.Proofs.Cpu.FlagRules

/-
  Instructions as sequences of machine cycles.

  Each access to the bus takes a cycle of four ticks, and some
  instructions take further cycles inside the processor.  The
  program counter moves as bytes are fetched.  What an opcode
  does is read off its bits, and its cost is the number of
  cycles it takes.

  Key definitions include:
    * `Clocked`, `Microcode`
    * `Microcode.effect`
    * `Microcode.instruction`
    * `Microcode.step`
-/

namespace Dmg

------------------------------------------------------------
-- Cycles
------------------------------------------------------------

/- A processor on its bus, and the ticks spent so far. -/
structure Clocked (β : Type) where
  core : Core β
  ticks : Nat

/- What is done to a processor in some number of cycles. -/
abbrev Microcode (β α : Type) :=
  StateM (Clocked β) α

namespace Microcode

------------------------------------------------------------
-- Processor
------------------------------------------------------------

section Processor

variable {β : Type}

/- A cycle inside the processor. -/
def cycle : Microcode β Unit :=
  modify fun t => { t with ticks := t.ticks + 4 }

def registers : Microcode β Registers :=
  return (← get).core.cpu.regs

def modifyCpu
    (f : Cpu → Cpu) : Microcode β Unit :=
  modify fun t =>
    { t with core := { t.core with cpu := f t.core.cpu } }

def modifyRegisters
    (f : Registers → Registers) : Microcode β Unit :=
  modifyCpu fun cpu => { cpu with regs := f cpu.regs }

def jumpTo
    (pc : UInt16) : Microcode β Unit :=
  modifyRegisters fun r => { r with pc := pc }

def setPair
    (p : Pair)
    (w : UInt16) : Microcode β Unit :=
  modifyRegisters fun r =>
    match p with
    | .bc => r.setBC w
    | .de => r.setDE w
    | .hl => r.setHL w
    | .sp => { r with sp := w }

def setStackPair
    (p : StackPair)
    (w : UInt16) : Microcode β Unit :=
  modifyRegisters fun r =>
    match p with
    | .bc => r.setBC w
    | .de => r.setDE w
    | .hl => r.setHL w
    | .af => r.setAF w

def pair
    (p : Pair) : Microcode β UInt16 := do
  let r ← registers
  match p with
  | .bc => return r.bc
  | .de => return r.de
  | .hl => return r.hl
  | .sp => return r.sp

def stackPair
    (p : StackPair) : Microcode β UInt16 := do
  let r ← registers
  match p with
  | .bc => return r.bc
  | .de => return r.de
  | .hl => return r.hl
  | .af => return r.af

/- The address that a pointer holds, before it is stepped. -/
def pointer
    (p : Pointer) : Microcode β UInt16 := do
  let r ← registers
  match p with
  | .bc => return r.bc
  | .de => return r.de
  | .hlUp | .hlDown => return r.hl

def stepPointer
    (p : Pointer) : Microcode β Unit :=
  modifyRegisters fun r =>
    match p with
    | .bc | .de => r
    | .hlUp => r.setHL (r.hl + 1)
    | .hlDown => r.setHL (r.hl - 1)

/- Whether a branch is taken. -/
def holds
    (cond : Option Condition) : Microcode β Bool := do
  let r ← registers
  match cond with
  | none => return true
  | some .nz => return !r.flag .z
  | some .z => return r.flag .z
  | some .nc => return !r.flag .c
  | some .c => return r.flag .c

end Processor

------------------------------------------------------------
-- Bus
------------------------------------------------------------

variable {β : Type} [Bus β]

/- A byte of the bus, read at no cost. -/
def peek
    (addr : UInt16) : Microcode β UInt8 :=
  modifyGet fun t =>
    let (v, bus) := Bus.read addr t.core.bus
    (v, { t with core := { t.core with bus := bus } })

def read
    (addr : UInt16) : Microcode β UInt8 := do
  cycle
  peek addr

def write
    (addr : UInt16)
    (v : UInt8) : Microcode β Unit := do
  cycle
  modify fun t =>
    { t with
      core := { t.core with
        bus := Bus.write addr v t.core.bus } }

/- A word is read low byte first. -/
def readWord
    (addr : UInt16) : Microcode β UInt16 := do
  let lo ← read addr
  let hi ← read (addr + 1)
  return word hi lo

/- A word is written low byte first. -/
def writeWord
    (addr w : UInt16) : Microcode β Unit := do
  write addr (lowByte w)
  write (addr + 1) (highByte w)

def report
    (m : Message) : Microcode β Unit :=
  modify fun t =>
    { t with
      core := { t.core with
        bus := Bus.note m t.core.bus } }

def interrupts : Microcode β InterruptController :=
  return Bus.interrupts (← get).core.bus

def setMaster
    (on : Bool) : Microcode β Unit :=
  modify fun t =>
    let ic := Bus.interrupts t.core.bus
    { t with
      core := { t.core with
        bus :=
          Bus.setInterrupts { ic with master := on }
            t.core.bus } }

def getOperand
    (o : Operand) : Microcode β UInt8 := do
  let r ← registers
  match o with
  | .b => return r.b
  | .c => return r.c
  | .d => return r.d
  | .e => return r.e
  | .h => return r.h
  | .l => return r.l
  | .atHL => read r.hl
  | .a => return r.a

def setOperand
    (o : Operand)
    (v : UInt8) : Microcode β Unit := do
  match o with
  | .b => modifyRegisters fun r => { r with b := v }
  | .c => modifyRegisters fun r => { r with c := v }
  | .d => modifyRegisters fun r => { r with d := v }
  | .e => modifyRegisters fun r => { r with e := v }
  | .h => modifyRegisters fun r => { r with h := v }
  | .l => modifyRegisters fun r => { r with l := v }
  | .atHL => write (← registers).hl v
  | .a => modifyRegisters fun r => { r with a := v }

def push
    (w : UInt16) : Microcode β Unit := do
  let sp := (← registers).sp - 2
  modifyRegisters fun r => { r with sp := sp }
  writeWord sp w

def pop : Microcode β UInt16 := do
  let sp := (← registers).sp
  let w ← readWord sp
  modifyRegisters fun r => { r with sp := sp + 2 }
  return w

/- The byte at PC, which moves past it. -/
def fetch : Microcode β UInt8 := do
  let pc := (← registers).pc
  let v ← read pc
  jumpTo (pc + 1)
  return v

/- The byte at PC, at no cost. -/
def fetchFree : Microcode β UInt8 := do
  let pc := (← registers).pc
  let v ← peek pc
  jumpTo (pc + 1)
  return v

/- The bytes after an opcode; only that of STOP is free. -/
def fetchImmediate
    (i : Instruction) :
    Immediate → Microcode β UInt16
  | .none => return 0
  | .byte => do
      let v ← if i = .stop then fetchFree else fetch
      return v.toUInt16
  | .word => do
      let lo ← fetch
      let hi ← fetch
      return word hi lo

------------------------------------------------------------
-- Instructions
------------------------------------------------------------

/- The address of a byte in the topmost page. -/
def topmost
    (v : UInt8) : UInt16 :=
  UInt16.ofNat (0xFF00 + v.toNat)

/- The effect of a prefixed instruction. -/
def prefixed :
    PrefixedInstruction → Microcode β Unit
  | .shift op o => do
      let v ← getOperand o
      let carry := (← registers).flag .c
      let (v, fl) := Rules.shift op v carry
      modifyRegisters (·.setFlags fl)
      setOperand o v
  | .test i o => do
      let v ← getOperand o
      modifyRegisters
        (Rules.changeFlags (some !(bit v i)) (some false)
          (some true) none)
  | .reset i o => do
      setOperand o (setBit (← getOperand o) i false)
  | .set i o => do
      setOperand o (setBit (← getOperand o) i true)

/-
  The effect of an instruction whose opcode is at `pc`, given
  the value that follows the opcode.
-/
def effect
    (pc : UInt16)
    (i : Instruction)
    (imm : UInt16) : Microcode β Unit := do
  match i with
  | .nop => return
  | .stop =>
      report (.cpuStopped pc)
      modifyCpu fun cpu =>
        { cpu with stopped := true, halted := false }
  | .halt =>
      let ic ← interrupts
      if !ic.master && ic.pending != 0 then
        modifyCpu fun cpu => { cpu with haltBug := true }
      else
        modifyCpu fun cpu => { cpu with halted := true }
  | .di => setMaster false
  | .ei =>
      modifyCpu fun cpu => { cpu with enableDelay := true }
  | .extended =>
      let op := lowByte imm
      let i := (Fields.ofByte op).decodePrefixed
      report (.executingPrefixed op i)
      prefixed i
  | .load dst src => setOperand dst (← getOperand src)
  | .loadByte dst => setOperand dst (lowByte imm)
  | .loadWord dst => setPair dst imm
  | .storeA p =>
      write (← pointer p) (← registers).a
      stepPointer p
  | .loadA p =>
      let v ← read (← pointer p)
      modifyRegisters fun r => { r with a := v }
      stepPointer p
  | .storeSP => writeWord imm (← registers).sp
  | .inc o =>
      let v ← getOperand o
      modifyRegisters (Rules.incFlags v)
      setOperand o (v + 1)
  | .dec o =>
      let v ← getOperand o
      modifyRegisters (Rules.decFlags v)
      setOperand o (v - 1)
  | .incPair p =>
      cycle
      setPair p ((← pair p) + 1)
  | .decPair p =>
      cycle
      setPair p ((← pair p) - 1)
  | .addHL p =>
      cycle
      modifyRegisters (Rules.addToHL (← pair p))
  | .rlca => modifyRegisters (Rules.rotateA .rlc)
  | .rrca => modifyRegisters (Rules.rotateA .rrc)
  | .rla => modifyRegisters (Rules.rotateA .rl)
  | .rra => modifyRegisters (Rules.rotateA .rr)
  | .daa => modifyRegisters Rules.adjustDecimal
  | .cpl =>
      modifyRegisters fun r =>
        Rules.changeFlags none (some true) (some true) none
          { r with a := ~~~r.a }
  | .scf =>
      modifyRegisters
        (Rules.changeFlags none (some false) (some false)
          (some true))
  | .ccf =>
      modifyRegisters fun r =>
        Rules.changeFlags none (some false) (some false)
          (some !(r.flag .c)) r
  | .alu op src =>
      modifyRegisters (Rules.accumulate op (← getOperand src))
  | .aluByte op =>
      modifyRegisters (Rules.accumulate op (lowByte imm))
  | .jumpRelative cond =>
      if ← holds cond then
        cycle
        jumpTo (Rules.moved (← registers).pc (lowByte imm))
  | .jump cond =>
      if ← holds cond then
        cycle
        jumpTo imm
  | .jumpHL => jumpTo (← registers).hl
  | .call cond =>
      if ← holds cond then
        cycle
        push (← registers).pc
        jumpTo imm
  | .ret none =>
      let addr ← pop
      cycle
      jumpTo addr
  | .ret (some cond) =>
      cycle
      if ← holds (some cond) then
        let addr ← pop
        cycle
        jumpTo addr
  | .reti =>
      setMaster true
      let addr ← pop
      cycle
      jumpTo addr
  | .restart n =>
      cycle
      push (← registers).pc
      jumpTo (UInt16.ofNat (8 * n.val))
  | .push p =>
      cycle
      push (← stackPair p)
  | .pop p => setStackPair p (← pop)
  | .storeHigh =>
      write (topmost (lowByte imm)) (← registers).a
  | .loadHigh =>
      let v ← read (topmost (lowByte imm))
      modifyRegisters fun r => { r with a := v }
  | .storeHighC =>
      let r ← registers
      write (topmost r.c) r.a
  | .loadHighC =>
      let v ← read (topmost (← registers).c)
      modifyRegisters fun r => { r with a := v }
  | .storeDirect => write imm (← registers).a
  | .loadDirect =>
      let v ← read imm
      modifyRegisters fun r => { r with a := v }
  | .addSP =>
      cycle
      cycle
      modifyRegisters (Rules.addToSP (lowByte imm))
  | .loadHLSP =>
      cycle
      modifyRegisters (Rules.loadHLFromSP (lowByte imm))
  | .loadSPHL =>
      cycle
      modifyRegisters fun r => { r with sp := r.hl }

/- Lock the processor, with PC back at the opcode. -/
def lock
    (fault : DecodeFault) : Microcode β Unit := do
  report (.cpuLocked fault (← registers))
  modifyCpu fun cpu =>
    { cpu with
      regs := { cpu.regs with pc := fault.pc }
      locked := some fault }

/- Perform the instruction that an opcode at `pc` names. -/
def dispatch
    (pc : UInt16)
    (op : UInt8) :
    Microcode β (Except DecodeFault Unit) := do
  match (Fields.ofByte op).decode with
  | none =>
      lock ⟨op, pc⟩
      return .error ⟨op, pc⟩
  | some (i, kind) =>
      let imm ← fetchImmediate i kind
      report (.executing pc i imm)
      effect pc i imm
      return .ok ()

/- Fetch and perform the instruction at PC. -/
def instruction :
    Microcode β (Except DecodeFault Unit) := do
  let pc := (← registers).pc
  let op ← fetch
  dispatch pc op

/- One instruction, with its cost in ticks. -/
def step
    (s : Core β) : StepResult × Core β :=
  match instruction ⟨s, 0⟩ with
  | (.error e, t) => (.error e, t.core)
  | (.ok _, t) => (.ok t.ticks, t.core)

end Microcode

end Dmg
