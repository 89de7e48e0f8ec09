import Dmg.Cpu.Execute

/-
  One step of the processor: an idle moment while halted or
  stopped, the entry to an interrupt handler, or one
  instruction.

  An opcode without instruction locks the processor: that step
  and all later ones fail with the same fault.

  Key definitions include:
    * `interruptTicks`
    * `idleTicks`
    * `Core.fetch`
    * `Core.fetchImmediate`
    * `Core.perform`
    * `Core.enterHandler`
    * `Core.step`
-/

namespace Dmg

/- The cost of the entry to an interrupt handler. -/
def interruptTicks : Nat := 12

/- The cost of a step of a halted or stopped processor. -/
def idleTicks : Nat := 4

/- The result of a step: its cost, or why it failed. -/
abbrev StepResult := Except DecodeFault Nat

namespace Core

variable {β : Type} [Bus β]

------------------------------------------------------------
-- Fetching
------------------------------------------------------------

/-
  Read the opcode at PC and move past it, unless an unheeded
  HALT holds PC in place for this fetch.
-/
@[specialize]
def fetch
    (s : Core β) : UInt8 × Core β :=
  let (op, s) := s.read s.cpu.regs.pc
  match s with
  | ⟨cpu, bus⟩ =>
      if cpu.haltBug then
        (op, ⟨{ cpu with haltBug := false }, bus⟩)
      else
        let regs := { cpu.regs with pc := cpu.regs.pc + 1 }
        (op, ⟨{ cpu with regs := regs }, bus⟩)

/- Read the value at PC that follows an opcode. -/
@[specialize]
def fetchImmediate
    (kind : Immediate)
    (s : Core β) : UInt16 × Core β :=
  match kind with
  | .none => (0, s)
  | .byte =>
      let (v, s) := s.read s.cpu.regs.pc
      (v.toUInt16, s)
  | .word => s.readWord s.cpu.regs.pc

------------------------------------------------------------
-- Instructions
------------------------------------------------------------

/- Move PC past the bytes that follow an opcode. -/
def skip
    (kind : Immediate)
    (s : Core β) : Core β :=
  s.mapRegs fun r =>
    { r with pc := r.pc + kind.width.toUInt16 }

/-
  Let an EI take effect: the first end of an instruction
  after it arms the enable, the second sets it.
-/
@[specialize]
def settleEnable
    (s : Core β) : Core β :=
  if s.cpu.enableDelay then
    match s.mapInterrupts (·.setMaster true) with
    | ⟨cpu, bus⟩ => ⟨{ cpu with enableDelay := false }, bus⟩
  else if s.cpu.enablePending then
    match s with
    | ⟨cpu, bus⟩ =>
        ⟨{ cpu with
            enablePending := false
            enableDelay := true }, bus⟩
  else s

/- Perform an instruction whose opcode was fetched at `pc`. -/
@[specialize]
def perform
    (pc : UInt16)
    (i : Instruction)
    (s : Core β) : Nat × Core β :=
  let (imm, s) := s.fetchImmediate i.immediate
  let s := s.note (.executing pc i imm)
  match s.execute i imm with
  | (.next, s) =>
      (i.ticks, (s.skip i.immediate).settleEnable)
  | (.jump, s) => (i.takenTicks, s.settleEnable)
  | (.extended more, s) =>
      (i.ticks + more, (s.skip i.immediate).settleEnable)

/- Lock the processor on an opcode without instruction. -/
@[specialize]
def lock
    (fault : DecodeFault)
    (s : Core β) : Core β :=
  match s.note (.cpuLocked fault s.cpu.regs) with
  | ⟨cpu, bus⟩ =>
      ⟨{ cpu with
          regs := { cpu.regs with pc := fault.pc }
          locked := some fault }, bus⟩

/- Fetch and perform the instruction at PC. -/
@[specialize]
def runInstruction
    (s : Core β) : StepResult × Core β :=
  let pc := s.cpu.regs.pc
  let (op, s) := s.fetch
  match Instruction.ofOpcode? op with
  | none =>
      let fault : DecodeFault := ⟨op, pc⟩
      (.error fault, s.lock fault)
  | some i =>
      let (ticks, s) := s.perform pc i
      (.ok ticks, s)

------------------------------------------------------------
-- Interrupts
------------------------------------------------------------

/-
  The address to return to after a handler: PC, or the HALT
  before it if that was not heeded.
-/
def returnAddress
    (cpu : Cpu) : UInt16 :=
  if cpu.haltBug then cpu.regs.pc - 1 else cpu.regs.pc

/- Acknowledge a source and enter its handler. -/
@[specialize]
def enterHandler
    (i : Interrupt)
    (s : Core β) : Core β :=
  match s.mapInterrupts (·.acknowledge i) with
  | ⟨cpu, bus⟩ =>
      let pc := returnAddress cpu
      let s : Core β := ⟨{ cpu with haltBug := false }, bus⟩
      let s := s.push pc
      let ic := s.interrupts
      let s := s.note
        (.interruptEntered i pc s.cpu.regs.sp
          ic.readRequests ic.enable)
      s.jumpTo i.vector

/- Enter the handler that is due, or run an instruction. -/
@[specialize]
def proceed
    (s : Core β) : StepResult × Core β :=
  match s.interrupts.serviceable with
  | some i => (.ok interruptTicks, s.enterHandler i)
  | none => s.runInstruction

------------------------------------------------------------
-- Steps
------------------------------------------------------------

/- Leave the suspended state. -/
def wake
    (s : Core β) : Core β :=
  match s with
  | ⟨cpu, bus⟩ => ⟨{ cpu with halted := false }, bus⟩

/- One step, with its cost in ticks. -/
@[specialize]
def step
    (s : Core β) : StepResult × Core β :=
  match s.cpu.locked with
  | some fault => (.error fault, s)
  | none =>
      if s.cpu.stopped then (.ok idleTicks, s)
      else if s.cpu.halted then
        if s.interrupts.pending == 0 then
          (.ok idleTicks, s)
        else s.wake.proceed
      else s.proceed

end Core

end Dmg
