import Dmg.Proofs.Cpu.InstructionSet
import Dmg.Proofs.Cpu.MasterEnable

/-
  What an instruction does to the latches of the processor.

  The latches are a small machine of their own.  An
  instruction moves them in a way told by the instruction
  alone, HALT apart, which also looks at the interrupt
  controller; and the end of an instruction moves the latches
  of EI on.

  Key definitions include:
    * `Bus.QuietReads`
    * `InterruptController.suspends`
    * `Cpu.latch`
    * `Cpu.settle`

  Main results:
    * `Core.cpu_execute`
    * `Core.cpu_executed`
-/

namespace Dmg

/-
  A bus on which reads and reports are not felt: the interrupt
  controller stays as it is, and a read answers what it would
  have answered before another read.
-/
class Bus.QuietReads
    (β : Type)
    [Bus β] : Prop extends Bus.KeepsMaster β where
  interrupts_read :
    ∀ (addr : UInt16) (bus : β),
      Bus.interrupts (Bus.read addr bus).2 =
        Bus.interrupts bus
  interrupts_note :
    ∀ (m : Message) (bus : β),
      Bus.interrupts (Bus.note m bus) = Bus.interrupts bus
  read_read :
    ∀ (addr other : UInt16) (bus : β),
      (Bus.read addr (Bus.read other bus).2).1 =
        (Bus.read addr bus).1

instance : Bus.QuietReads FlatMemory where
  interrupts_read _ _ := rfl
  interrupts_note _ _ := rfl
  read_read _ _ _ := rfl

------------------------------------------------------------
-- Latches
------------------------------------------------------------

namespace InterruptController

/- Whether a HALT suspends the processor. -/
def suspends
    (ic : InterruptController) : Bool :=
  ic.master || ic.pending == 0

variable {ic : InterruptController}

theorem suspends_of_none
    (h : ic.pending = 0) :
    ic.suspends = true := by
  unfold suspends
  rw [h]
  exact Bool.or_true _

theorem suspends_of_pending
    (hClear : ic.master = false)
    (hPending : ic.pending ≠ 0) :
    ic.suspends = false := by
  unfold suspends
  rw [hClear, beq_eq_false_iff_ne.mpr hPending]
  rfl

end InterruptController

namespace Cpu

/- What an instruction itself does to the latches. -/
def latch
    (suspends : Bool)
    (cpu : Cpu) : Instruction → Cpu
  | .stop => { cpu with stopped := true, halted := false }
  | .halt =>
      { cpu with
        halted := cpu.halted || suspends
        haltBug := cpu.haltBug || !suspends }
  | .di | .reti =>
      { cpu with
        enablePending := false
        enableDelay := false }
  | .ei => { cpu with enablePending := true }
  | _ => cpu

/- What the end of an instruction does to the latches. -/
def settle
    (cpu : Cpu) : Cpu :=
  { cpu with
    enablePending := cpu.enablePending && cpu.enableDelay
    enableDelay := cpu.enablePending && !cpu.enableDelay }

variable (cpu : Cpu) {i : Instruction}

theorem latch_of_not_latches
    (h : i.latches = false)
    (suspends : Bool) :
    cpu.latch suspends i = cpu := by
  cases i <;> first | rfl | cases h

/- Registers have no part in it. -/
theorem latch_regs
    (suspends : Bool)
    (regs : Registers)
    (i : Instruction) :
    Cpu.latch suspends { cpu with regs := regs } i =
      { cpu.latch suspends i with regs := regs } := by
  cases i <;> rfl

/- Only opcodes without instruction lock. -/
theorem latch_locked
    (suspends : Bool)
    (i : Instruction) :
    (cpu.latch suspends i).locked = cpu.locked := by
  cases i <;> rfl

/- Only STOP stops. -/
theorem latch_stopped
    (h : i ≠ .stop)
    (suspends : Bool) :
    (cpu.latch suspends i).stopped = cpu.stopped := by
  cases i with
  | stop => exact absurd rfl h
  | _ => rfl

/- Only a HALT that suspends halts. -/
theorem latch_halted
    {suspends : Bool}
    (hAwake : cpu.halted = false)
    (h : i = .halt → suspends = false) :
    (cpu.latch suspends i).halted = false := by
  cases i with
  | stop => rfl
  | halt =>
      change (cpu.halted || suspends) = false
      rw [hAwake, h rfl]
      rfl
  | _ => exact hAwake

/- Only HALT arms its bug. -/
theorem latch_haltBug
    (h : i ≠ .halt)
    (suspends : Bool) :
    (cpu.latch suspends i).haltBug = cpu.haltBug := by
  cases i with
  | halt => exact absurd rfl h
  | _ => rfl

end Cpu

------------------------------------------------------------
-- Instructions
------------------------------------------------------------

namespace Core

variable {β : Type} [Bus β]

theorem cpu_halt
    (s : Core β) :
    s.halt.cpu = s.cpu.latch s.interrupts.suspends .halt := by
  rcases s with ⟨⟨regs, h, l₂, bug, l₄, l₅, l₆⟩, bus⟩
  unfold halt InterruptController.suspends Cpu.latch
  dsimp only
  split
  · rename_i hSuspends
    rw [hSuspends, Bool.or_true, Bool.not_true, Bool.or_false]
  · rename_i hNot
    rw [Bool.eq_false_iff.mpr hNot, Bool.or_false,
      Bool.not_false, Bool.or_true]

/- An instruction moves the latches, and changes registers. -/
theorem cpu_execute
    (i : Instruction)
    (imm : UInt16)
    (s : Core β) :
    (s.execute i imm).2.cpu =
      { s.cpu.latch s.interrupts.suspends i with
        regs := (s.execute i imm).2.cpu.regs } := by
  cases hLatches : i.latches with
  | false =>
      rw [Cpu.latch_of_not_latches _ hLatches]
      exact (execute_works hLatches imm s).cpu
  | true =>
      cases i with
      | stop => rfl
      | halt =>
          have hHalt := cpu_halt s
          change s.halt.cpu =
            { s.cpu.latch s.interrupts.suspends .halt with
              regs := s.halt.cpu.regs }
          rw [hHalt]
      | di => rfl
      | ei => rfl
      | reti =>
          have hReturn :=
            (returnToCaller_works (s.forceMaster true)).cpu
          rcases s with ⟨cpu, bus⟩
          exact hReturn
      | _ => cases hLatches

theorem interrupts_halt
    (s : Core β) :
    s.halt.interrupts = s.interrupts := by
  rcases s with ⟨cpu, bus⟩
  simp only [halt]
  split <;> rfl

theorem cpu_settleEnable
    (s : Core β) :
    s.settleEnable.cpu = s.cpu.settle := by
  rcases s with ⟨⟨regs, halted, stopped, bug, p, d, l⟩, bus⟩
  cases d <;> cases p <;> rfl

theorem interrupts_settleEnable
    [Bus.KeepsMaster β]
    (s : Core β) :
    s.settleEnable.interrupts =
      { s.interrupts with
        master :=
          s.interrupts.master || s.cpu.enableDelay } := by
  rcases s with ⟨⟨regs, halted, stopped, bug, p, d, l⟩, bus⟩
  cases d with
  | true =>
      have hSet :=
        interrupts_mapInterrupts (·.setMaster true)
          (⟨{}, bus⟩ : Core β)
      rw [Bool.or_true]
      exact hSet
  | false =>
      rw [Bool.or_false]
      cases p <;> rfl

theorem cpu_outcome
    (i : Instruction)
    (imm : UInt16)
    (s : Core β) :
    (s.outcome i imm).2.cpu =
      { s.cpu.latch s.interrupts.suspends i with
        regs := (s.outcome i imm).2.cpu.regs } := by
  have hExecuted := cpu_execute i imm s
  unfold outcome
  rcases hResult : s.execute i imm with ⟨flow, t⟩
  rw [hResult] at hExecuted
  cases flow with
  | next => exact (congrArg (fun cpu : Cpu =>
      { cpu with regs := (t.skip i.immediate).cpu.regs })
      hExecuted :)
  | jump => exact hExecuted
  | extended more => exact (congrArg (fun cpu : Cpu =>
      { cpu with regs := (t.skip i.immediate).cpu.regs })
      hExecuted :)

variable [Bus.QuietReads β]

theorem interrupts_fetchImmediate
    (kind : Immediate)
    (s : Core β) :
    (s.fetchImmediate kind).2.interrupts = s.interrupts := by
  cases kind with
  | none => rfl
  | byte => exact Bus.QuietReads.interrupts_read _ _
  | word =>
      exact (Bus.QuietReads.interrupts_read _ _).trans
        (Bus.QuietReads.interrupts_read _ _)

theorem interrupts_fetch
    (s : Core β) :
    s.fetch.2.interrupts = s.interrupts := by
  rw [fetch_eq]
  exact Bus.QuietReads.interrupts_read _ _

theorem cpu_perform
    (pc : UInt16)
    (i : Instruction)
    (s : Core β) :
    (s.perform pc i).2.cpu =
      { (s.cpu.latch s.interrupts.suspends i).settle with
        regs := (s.perform pc i).2.cpu.regs } := by
  have hCpu := fetchImmediate_cpu i.immediate s
  have hInterrupts := interrupts_fetchImmediate i.immediate s
  rw [perform_eq_outcome]
  rcases hImm : s.fetchImmediate i.immediate with ⟨imm, t⟩
  rw [hImm] at hCpu hInterrupts
  let u := t.note (.executing pc i imm)
  have hLatched := cpu_outcome i imm u
  have hSame : u.interrupts = s.interrupts :=
    (Bus.QuietReads.interrupts_note _ _).trans hInterrupts
  have hKept : u.cpu = s.cpu := hCpu
  rw [hSame, hKept] at hLatched
  change (u.outcome i imm).2.settleEnable.cpu = _
  rw [cpu_settleEnable]
  exact congrArg Cpu.settle hLatched

/-
  A step that executes an instruction ends any suspension and
  uses up the bug of HALT; then the instruction moves the
  latches.
-/
theorem cpu_executed
    {s : Core β}
    {i : Instruction}
    (h : s.event = .executed i) :
    s.step.2.cpu =
      { (Cpu.latch s.interrupts.suspends
          { s.cpu with halted := false, haltBug := false }
          i).settle with
        regs := s.step.2.cpu.regs } := by
  let t := s.wake.fetch.2
  let awake : Cpu :=
    { s.cpu with halted := false, haltBug := false }
  have hCpu :
      t.cpu = { awake with regs := t.cpu.regs } := by
    unfold t
    rw [fetch_eq]
    rfl
  have hInterrupts : t.interrupts = s.interrupts :=
    interrupts_fetch s.wake
  have hPerformed := cpu_perform s.cpu.regs.pc i t
  rw [hInterrupts, hCpu, Cpu.latch_regs] at hPerformed
  rw [step_eq, h]
  exact hPerformed

end Core

end Dmg
