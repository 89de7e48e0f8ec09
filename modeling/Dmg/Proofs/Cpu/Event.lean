import Dmg.Proofs.Cpu.Work

/-
  What one step of the processor does, told from the state
  before it.

  Key definitions include:
    * `Core.Event`
    * `Core.event`
    * `Core.afterSteps`

  Main results:
    * `Core.step_eq`, which gives a step for each event
    * `Core.fetch_eq`
-/

namespace Dmg

/- Nothing is serviced without master enable or request. -/
theorem InterruptController.serviceable_of_quiet
    {ic : InterruptController}
    (h : ic.master = false ∨ ic.pending = 0) :
    ic.serviceable = none := by
  unfold serviceable
  rcases h with hMaster | hNone
  · rw [hMaster]
    rfl
  · rw [hNone, bne_self_eq_false, Bool.and_false]
    rfl

namespace Core

/-
  A step is idle, enters a handler, executes an instruction
  or fails.
-/
inductive Event where
  | idle
  | entered (i : Interrupt)
  | executed (i : Instruction)
  | failed (fault : DecodeFault)
deriving DecidableEq, Repr

variable {β : Type} [Bus β]

/- Whether the processor is suspended and nothing wakes it. -/
def suspended
    (s : Core β) : Bool :=
  s.cpu.stopped ||
    (s.cpu.halted && s.interrupts.pending == 0)

/- The event of an instruction that is due at PC. -/
def instructionEvent
    (s : Core β) : Event :=
  let op := (Bus.read s.cpu.regs.pc s.bus).1
  match Instruction.ofOpcode? op with
  | none => .failed ⟨op, s.cpu.regs.pc⟩
  | some i => .executed i

/- What the next step does. -/
def event
    (s : Core β) : Event :=
  match s.cpu.locked with
  | some fault => .failed fault
  | none =>
      if s.suspended then .idle
      else
        match s.interrupts.serviceable with
        | some i => .entered i
        | none => s.instructionEvent

------------------------------------------------------------
-- Fetching
------------------------------------------------------------

/- Registers after the opcode at PC has been fetched. -/
def fetchedRegs
    (cpu : Cpu) : Registers :=
  if cpu.haltBug then cpu.regs
  else { cpu.regs with pc := cpu.regs.pc + 1 }

theorem fetch_eq
    (s : Core β) :
    s.fetch =
      ((Bus.read s.cpu.regs.pc s.bus).1,
        ⟨{ s.cpu with
            regs := fetchedRegs s.cpu
            haltBug := false },
          (Bus.read s.cpu.regs.pc s.bus).2⟩) := by
  rcases s with ⟨⟨regs, halted, stopped, bug, p, d, l⟩, bus⟩
  cases bug <;> rfl

omit [Bus β] in
theorem wake_eq_self
    {s : Core β}
    (h : s.cpu.halted = false) :
    s.wake = s := by
  rcases s with ⟨⟨regs, halted, stopped, bug, p, d, l⟩, bus⟩
  cases h
  rfl

------------------------------------------------------------
-- Steps
------------------------------------------------------------

/- The state of a processor that fails with a fault. -/
def failedState
    (fault : DecodeFault)
    (s : Core β) : Core β :=
  if s.cpu.locked.isSome then s
  else s.wake.fetch.2.lock fault

/- A processor that is not suspended proceeds, awake. -/
theorem step_of_not_suspended
    {s : Core β}
    (hLocked : s.cpu.locked = none)
    (h : s.suspended = false) :
    s.step = s.wake.proceed := by
  obtain ⟨hStopped, hWaits⟩ :
      s.cpu.stopped = false ∧
        (s.cpu.halted && s.interrupts.pending == 0) =
          false := by
    simpa [suspended] using h
  unfold step
  simp only [hLocked, hStopped, Bool.false_eq_true,
    if_false]
  cases hHalted : s.cpu.halted with
  | false =>
      rw [wake_eq_self hHalted]
      rfl
  | true =>
      rw [hHalted, Bool.true_and] at hWaits
      simp only [hWaits, Bool.false_eq_true, if_false,
        if_true]

theorem step_of_suspended
    {s : Core β}
    (hLocked : s.cpu.locked = none)
    (h : s.suspended = true) :
    s.step = (.ok idleTicks, s) := by
  unfold step
  simp only [hLocked]
  cases hStopped : s.cpu.stopped with
  | true => rfl
  | false =>
      have hWaits :
          s.cpu.halted = true ∧
            (s.interrupts.pending == 0) = true := by
        simpa [suspended, hStopped] using h
      simp only [hWaits.1, hWaits.2, Bool.false_eq_true,
        if_false, if_true]

/- The instruction due at PC is run after any wake-up. -/
theorem runInstruction_wake
    {s : Core β}
    (hLocked : s.cpu.locked = none) :
    s.wake.runInstruction =
      match s.instructionEvent with
      | .idle => (.ok idleTicks, s)
      | .entered i =>
          (.ok interruptTicks, s.wake.enterHandler i)
      | .executed i =>
          let r := s.wake.fetch.2.perform s.cpu.regs.pc i
          (.ok r.1, r.2)
      | .failed fault =>
          (.error fault, s.failedState fault) := by
  have hOpcode :
      s.wake.fetch.1 = (Bus.read s.cpu.regs.pc s.bus).1 := by
    rw [fetch_eq]
    rfl
  unfold instructionEvent failedState runInstruction
  rw [← hOpcode, hLocked]
  rcases s.wake.fetch with ⟨op, t⟩
  cases hOp : Instruction.ofOpcode? op with
  | none => simp only [hOp]; rfl
  | some i => simp only [hOp]; rfl

/- The step of each event. -/
theorem step_eq
    (s : Core β) :
    s.step =
      match s.event with
      | .idle => (.ok idleTicks, s)
      | .entered i =>
          (.ok interruptTicks, s.wake.enterHandler i)
      | .executed i =>
          let r := s.wake.fetch.2.perform s.cpu.regs.pc i
          (.ok r.1, r.2)
      | .failed fault =>
          (.error fault, s.failedState fault) := by
  cases hLocked : s.cpu.locked with
  | some fault =>
      simp only [step, event, failedState, hLocked,
        Option.isSome_some, if_true]
  | none =>
      cases hSuspended : s.suspended with
      | true =>
          rw [step_of_suspended hLocked hSuspended]
          simp only [event, hLocked, hSuspended, if_true]
      | false =>
          rw [step_of_not_suspended hLocked hSuspended]
          simp only [event, hLocked, hSuspended,
            Bool.false_eq_true, if_false]
          -- Waking leaves the controller and PC alone.
          change
            (match s.interrupts.serviceable with
              | some i =>
                  (Except.ok interruptTicks,
                    s.wake.enterHandler i)
              | none => s.wake.runInstruction) = _
          cases s.interrupts.serviceable with
          | some i => rfl
          | none => exact runInstruction_wake hLocked

/- The state after a number of steps. -/
def afterSteps : Nat → Core β → Core β
  | 0, s => s
  | n + 1, s => afterSteps n s.step.2

end Core

end Dmg
