import Dmg.Proofs.Cpu.Recorded

/-
  Processors that have come to a stand: locked on an opcode
  without instruction, or stopped.

  A step that locks the processor undoes what it began: the
  opcode has been fetched, PC has moved, a HALT has been left
  and its bug made use of, and only the latches show it.

  Key definitions include:
    * `Core.Reached`
    * `Cpu.LockedOn`

  Main results:
    * `Core.step_of_failed`
    * `Core.Reached.lockedOn`
-/

namespace Dmg

------------------------------------------------------------
-- Runs On A Bus
------------------------------------------------------------

/-
  A processor after any number of steps since a reset.  The
  bus may be anything between two steps.
-/
inductive Core.Reached
    {β : Type}
    [Bus β] : Core β → Prop where
  | reset
      (bus : β) :
      Reached ⟨{}, bus⟩
  | step
      {s : Core β}
      (h : Reached s) :
      Reached s.step.2
  | between
      {s : Core β}
      (h : Reached s)
      (bus : β) :
      Reached ⟨s.cpu, bus⟩

namespace Core

variable {β : Type} [Bus β]

/- What a step keeps, a run keeps. -/
theorem Reached.invariant
    {P : Cpu → Prop}
    (hReset : P {})
    (hStep : ∀ s : Core β, P s.cpu → P s.step.2.cpu)
    {s : Core β}
    (h : Reached s) :
    P s.cpu := by
  induction h with
  | reset bus => exact hReset
  | step _ ih => exact hStep _ ih
  | between _ bus ih => exact ih

------------------------------------------------------------
-- Standing Still
------------------------------------------------------------

section Standing

variable {s : Core β} {fault : DecodeFault}

/- A locked processor fails and does nothing else. -/
theorem step_of_locked
    (h : s.cpu.locked = some fault) :
    s.step = (.error fault, s) := by
  simp only [step, h]

/- A stopped processor passes time and does nothing else. -/
theorem step_of_stopped
    (hLocked : s.cpu.locked = none)
    (h : s.cpu.stopped = true) :
    s.step = (.ok idleTicks, s) := by
  have hSuspended : s.suspended = true := by
    unfold suspended
    rw [h, Bool.true_or]
  exact step_of_suspended hLocked hSuspended

theorem accesses_of_locked
    (h : s.cpu.locked = some fault) :
    s.accesses = [] := by
  unfold accesses
  rw [step_of_locked (s := s.recorded) h]
  rfl

theorem accesses_of_stopped
    (hLocked : s.cpu.locked = none)
    (h : s.cpu.stopped = true) :
    s.accesses = [] := by
  unfold accesses
  rw [step_of_stopped (s := s.recorded) hLocked h]
  rfl

------------------------------------------------------------
-- Failing
------------------------------------------------------------

/- A step fails if that is its event. -/
theorem event_of_error
    (h : s.step.1 = .error fault) :
    s.event = .failed fault := by
  rw [step_eq] at h
  cases hEvent : s.event with
  | idle =>
      rw [hEvent] at h
      cases h
  | entered i =>
      rw [hEvent] at h
      cases h
  | executed i =>
      rw [hEvent] at h
      cases h
  | failed other =>
      rw [hEvent] at h
      cases h
      rfl

/-
  A processor fails for the first time at an opcode without
  instruction, when it is not suspended.
-/
theorem failed_at_opcode
    (hLocked : s.cpu.locked = none)
    (hEvent : s.event = .failed fault) :
    s.cpu.stopped = false ∧
      Instruction.ofOpcode? fault.opcode = none ∧
      fault =
        ⟨(Bus.read s.cpu.regs.pc s.bus).1,
          s.cpu.regs.pc⟩ := by
  unfold event at hEvent
  simp only [hLocked] at hEvent
  cases hSuspended : s.suspended with
  | true =>
      rw [hSuspended, if_pos rfl] at hEvent
      cases hEvent
  | false =>
      rw [hSuspended, if_neg Bool.false_ne_true] at hEvent
      have hStopped : s.cpu.stopped = false := by
        cases hStopped : s.cpu.stopped with
        | false => rfl
        | true =>
            unfold suspended at hSuspended
            rw [hStopped] at hSuspended
            cases hSuspended
      cases hServe : s.interrupts.serviceable with
      | some i =>
          rw [hServe] at hEvent
          cases hEvent
      | none =>
          rw [hServe] at hEvent
          unfold instructionEvent at hEvent
          cases hOp :
              Instruction.ofOpcode?
                (Bus.read s.cpu.regs.pc s.bus).1 with
          | some i =>
              simp only [hOp] at hEvent
              cases hEvent
          | none =>
              simp only [hOp] at hEvent
              cases hEvent
              exact ⟨hStopped, hOp, rfl⟩

/-
  A step that locks the processor changes three latches, and
  its bus by a read and a report.
-/
theorem step_of_failed
    (hLocked : s.cpu.locked = none)
    (hEvent : s.event = .failed fault) :
    s.step =
      (.error fault,
        ⟨{ s.cpu with
            halted := false
            haltBug := false
            locked := some fault },
          Bus.note (.cpuLocked fault (fetchedRegs s.cpu))
            (Bus.read s.cpu.regs.pc s.bus).2⟩) := by
  have hPc : fault.pc = s.cpu.regs.pc :=
    congrArg DecodeFault.pc
      (failed_at_opcode hLocked hEvent).2.2
  have hUnlocked :
      s.failedState fault = s.wake.fetch.2.lock fault := by
    unfold failedState
    rw [hLocked]
    rfl
  rw [step_eq, hEvent]
  simp only [hUnlocked, fetch_eq]
  rcases s with ⟨⟨regs, halted, stopped, bug, p, d, l⟩, bus⟩
  unfold lock
  simp only [hPc]
  cases bug <;> rfl

end Standing

------------------------------------------------------------
-- Latches That Only A Stand Sets
------------------------------------------------------------

section Latches

variable (s : Core β)

theorem settleEnable_stand :
    s.settleEnable.cpu.locked = s.cpu.locked ∧
      s.settleEnable.cpu.stopped = s.cpu.stopped := by
  unfold settleEnable
  split
  · exact ⟨rfl, rfl⟩
  · split <;> exact ⟨rfl, rfl⟩

theorem locked_execute
    (i : Instruction)
    (imm : UInt16) :
    (s.execute i imm).2.cpu.locked = s.cpu.locked := by
  cases hLatches : i.latches with
  | false => rw [(execute_works hLatches imm s).cpu]
  | true =>
      cases i with
      | stop => rfl
      | halt =>
          simp only [execute, halt]
          split <;> rfl
      | di => rfl
      | ei => rfl
      | reti =>
          change
            (s.forceMaster true).returnToCaller.cpu.locked =
              _
          rw [(returnToCaller_works _).cpu]
          rfl
      | _ => cases hLatches

theorem locked_perform
    (pc : UInt16)
    (i : Instruction) :
    (s.perform pc i).2.cpu.locked = s.cpu.locked := by
  have hFetched := (fetchImmediate_works i.immediate s).cpu
  unfold perform
  rcases hImm : s.fetchImmediate i.immediate with ⟨imm, t⟩
  rw [hImm] at hFetched
  have hKept : t.cpu.locked = s.cpu.locked :=
    (congrArg Cpu.locked hFetched :)
  have hExecuted :
      ((t.note (.executing pc i imm)).execute i
        imm).2.cpu.locked = s.cpu.locked :=
    (locked_execute _ i imm).trans hKept
  rcases hResult :
      (t.note (.executing pc i imm)).execute i imm with
    ⟨flow, u⟩
  rw [hResult] at hExecuted
  simp only [hResult]
  cases flow <;>
    exact (settleEnable_stand _).1.trans hExecuted

theorem locked_enterHandler
    (i : Interrupt) :
    (s.enterHandler i).cpu.locked = s.cpu.locked := by
  let t : Core β :=
    ⟨{ s.cpu with haltBug := false },
      (s.mapInterrupts (·.acknowledge i)).bus⟩
  have hPushed := (push_works (returnAddress s.cpu) t).cpu
  change (t.push (returnAddress s.cpu)).cpu.locked = _
  rw [hPushed]

/- STOP stops the processor. -/
theorem stopped_perform_stop
    (pc : UInt16) :
    (s.perform pc .stop).2.cpu.stopped = true :=
  (settleEnable_stand _).2

/- A step that does not fail locks nothing. -/
theorem locked_step
    (h : ∀ fault, s.event ≠ .failed fault) :
    s.step.2.cpu.locked = none := by
  have hLocked : s.cpu.locked = none := by
    cases hLocked : s.cpu.locked with
    | none => rfl
    | some fault =>
        refine absurd ?_ (h fault)
        unfold event
        rw [hLocked]
  rw [step_eq]
  cases hEvent : s.event with
  | idle => exact hLocked
  | entered i =>
      exact (locked_enterHandler s.wake i).trans hLocked
  | executed i =>
      refine (locked_perform _ _ i).trans ?_
      rw [fetch_eq]
      exact hLocked
  | failed fault => exact absurd hEvent (h fault)

end Latches

end Core

------------------------------------------------------------
-- Locked Processors
------------------------------------------------------------

/-
  A processor that stands on its fault: it is at an opcode
  without instruction and no other latch suspends it.
-/
structure Cpu.LockedOn
    (fault : DecodeFault)
    (cpu : Cpu) : Prop where
  hole : Instruction.ofOpcode? fault.opcode = none
  pc : cpu.regs.pc = fault.pc
  halted : cpu.halted = false
  stopped : cpu.stopped = false
  haltBug : cpu.haltBug = false

/- Locking it on its fault would change nothing. -/
theorem Cpu.LockedOn.lock_eq_self
    {cpu : Cpu}
    {fault : DecodeFault}
    (h : cpu.LockedOn fault)
    (hLocked : cpu.locked = some fault) :
    { cpu with
        halted := false
        haltBug := false
        locked := some fault } = cpu := by
  rcases h with ⟨-, -, hHalted, -, hBug⟩
  rcases cpu with ⟨regs, halted, stopped, bug, p, d, l⟩
  cases hHalted
  cases hBug
  cases hLocked
  rfl

namespace Core

variable {β : Type} [Bus β]

theorem lockedOn_step
    (s : Core β)
    (h : ∀ fault,
      s.cpu.locked = some fault → s.cpu.LockedOn fault)
    (fault : DecodeFault)
    (hAfter : s.step.2.cpu.locked = some fault) :
    s.step.2.cpu.LockedOn fault := by
  by_cases hFails : ∃ other, s.event = .failed other
  · rcases hFails with ⟨other, hEvent⟩
    cases hLocked : s.cpu.locked with
    | some first =>
        rw [step_of_locked hLocked] at hAfter ⊢
        exact h fault hAfter
    | none =>
        obtain ⟨hStopped, hHole, hFault⟩ :=
          failed_at_opcode hLocked hEvent
        rw [step_of_failed hLocked hEvent] at hAfter ⊢
        cases hAfter
        exact ⟨hHole, (congrArg DecodeFault.pc hFault).symm,
          rfl, hStopped, rfl⟩
  · have hNone :=
      locked_step s fun other hEvent => hFails ⟨other, hEvent⟩
    rw [hNone] at hAfter
    cases hAfter

/- On a run from reset a lock is one on an opcode at PC. -/
theorem Reached.lockedOn
    {s : Core β}
    (h : Reached s)
    (fault : DecodeFault)
    (hLocked : s.cpu.locked = some fault) :
    s.cpu.LockedOn fault := by
  refine h.invariant
    (P := fun cpu => ∀ fault,
      cpu.locked = some fault → cpu.LockedOn fault)
    ?_ lockedOn_step fault hLocked
  intro fault hNone
  cases hNone

end Core

end Dmg
