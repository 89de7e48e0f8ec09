import Dmg.Proofs.Cpu.Latches
import Dmg.Proofs.Cpu.Recorded
import Dmg.Proofs.Cpu.Service

/-
  The boundaries between the steps of a processor.

  At a boundary requests may arrive, and memory may change.
  What is kept from the end of a step to the next boundary is
  the processor itself and the master enable, so that only
  steps move the latches.

  Key definitions include:
    * `InterruptController.Foremost`
    * `Core.Follows`, `Core.Boundaries`
    * `Core.loaded`
    * `Core.Running`
    * `Core.begun`
    * `Core.Executes`, `Core.Enters`
    * `Core.pushing`
    * `Core.AfterEi`

  Main results:
    * `Core.event_of_pending`
    * `Core.enters_of_event`
    * `Core.requests_of_no_write`
    * `Core.AfterEi.enableDelay`
-/

namespace Dmg

------------------------------------------------------------
-- Priority
------------------------------------------------------------

namespace InterruptController

/- A pending source, and none of higher priority is. -/
structure Foremost
    (ic : InterruptController)
    (i : Interrupt) : Prop where
  pending : ic.isPending i = true
  first :
    ∀ j, ic.isPending j = true → i.position ≤ j.position

variable {ic : InterruptController}

theorem foremost_of_cons
    {i : Interrupt}
    {rest : List Interrupt}
    (hSources : ic.pendingSources = i :: rest) :
    ic.Foremost i := by
  have hOrdered :
      ic.pendingSources.Pairwise fun j k =>
        j.position ≤ k.position :=
    List.Pairwise.filter _ (by decide)
  rw [hSources, List.pairwise_cons] at hOrdered
  constructor
  · exact isPending_of_cons hSources
  · intro j hj
    have hMem := mem_pendingSources_iff.mpr hj
    rw [hSources] at hMem
    rcases List.mem_cons.mp hMem with rfl | hRest
    · exact Fin.le_refl _
    · exact hOrdered.1 j hRest

theorem pendingSources_eq_cons
    (hPending : ic.pending ≠ 0) :
    ∃ i rest, ic.pendingSources = i :: rest := by
  apply List.exists_cons_of_ne_nil
  intro hNone
  exact hPending (pendingSources_eq_nil_iff.mp hNone)

/- Something is pending exactly if some source is. -/
theorem pending_ne_zero_iff :
    ic.pending ≠ 0 ↔ ∃ i, ic.isPending i = true := by
  constructor
  · intro hPending
    rcases pendingSources_eq_cons hPending with
      ⟨i, rest, hSources⟩
    exact ⟨i, isPending_of_cons hSources⟩
  · rintro ⟨i, hi⟩ hZero
    have hMem := mem_pendingSources_iff.mpr hi
    rw [pendingSources_eq_nil_iff.mpr hZero] at hMem
    cases hMem

/- With the master enable set, the foremost is serviced. -/
theorem serviceable_of_pending
    (hMaster : ic.master = true)
    (hPending : ic.pending ≠ 0) :
    ∃ i, ic.serviceable = some i ∧ ic.Foremost i := by
  rcases pendingSources_eq_cons hPending with
    ⟨i, rest, hSources⟩
  exact ⟨i, serviceable_of_cons hSources hMaster,
    foremost_of_cons hSources⟩

end InterruptController

namespace Core

variable {β : Type} [Bus β] {s t : Core β}

------------------------------------------------------------
-- Boundaries
------------------------------------------------------------

/-
  The second state is at the boundary after the first: one
  step has been taken.  Since then anything may have happened
  on the bus that leaves the master enable alone.
-/
structure Follows
    (s t : Core β) : Prop where
  cpu : t.cpu = s.step.2.cpu
  master : t.interrupts.master = s.step.2.interrupts.master

/- The states at successive boundaries. -/
def Boundaries
    (run : Nat → Core β) : Prop :=
  ∀ n, Follows (run n) (run (n + 1))

/- A processor with a program at the entry point. -/
def loaded
    (program : List UInt8)
    (ic : InterruptController) : Core FlatMemory :=
  ⟨{}, { program.zipIdx.foldl
      (fun m (v, i) => m.poke (0x0100 + i.toUInt16) v)
      ({} : FlatMemory) with interrupts := ic }⟩

/- A processor that is due to do something. -/
structure Running
    (s : Core β) : Prop where
  locked : s.cpu.locked = none
  stopped : s.cpu.stopped = false
  halted : s.cpu.halted = false

theorem follows_step
    (s : Core β) :
    Follows s s.step.2 :=
  ⟨rfl, rfl⟩

theorem Boundaries.shift
    {run : Nat → Core β}
    (h : Boundaries run)
    (k : Nat) :
    Boundaries fun n => run (k + n) :=
  fun n => h (k + n)

theorem afterSteps_succ
    (n : Nat)
    (s : Core β) :
    s.afterSteps (n + 1) = (s.afterSteps n).step.2 := by
  induction n generalizing s with
  | zero => rfl
  | succ n ih => exact ih s.step.2

/- Boundaries at which nothing happens. -/
theorem boundaries_afterSteps
    (s : Core β) :
    Boundaries fun n => s.afterSteps n := by
  intro n
  have hNext := follows_step (s.afterSteps n)
  rw [← afterSteps_succ] at hNext
  exact hNext

/- The steps of a processor move its enabling state. -/
theorem Follows.enabling_eq
    [Bus.KeepsMaster β]
    (h : Follows s t) :
    t.enabling = s.enabling.after s.event := by
  rw [← enabling_step]
  unfold enabling
  rw [h.cpu, h.master]

------------------------------------------------------------
-- Events
------------------------------------------------------------

/- A processor that is not suspended and not interrupted. -/
theorem event_of_quiet
    (hLocked : s.cpu.locked = none)
    (hSuspended : s.suspended = false)
    (hQuiet : s.interrupts.master = false ∨
      s.interrupts.pending = 0) :
    s.event = s.instructionEvent := by
  unfold event
  simp only [hLocked, hSuspended, Bool.false_eq_true, if_false,
    InterruptController.serviceable_of_quiet hQuiet]

theorem Running.suspended
    (h : s.Running) :
    s.suspended = false := by
  unfold Core.suspended
  rw [h.stopped, h.halted]
  rfl

theorem Running.event_eq
    (h : s.Running)
    (hQuiet : s.interrupts.master = false ∨
      s.interrupts.pending = 0) :
    s.event = s.instructionEvent :=
  event_of_quiet h.locked h.suspended hQuiet

theorem instructionEvent_of_opcode
    {i : Instruction}
    (h : Instruction.ofOpcode?
      (Bus.read s.cpu.regs.pc s.bus).1 = some i) :
    s.instructionEvent = .executed i := by
  unfold instructionEvent
  simp only [h]

/- A pending source wakes a halted processor. -/
theorem suspended_of_pending
    (hStopped : s.cpu.stopped = false)
    (hPending : s.interrupts.pending ≠ 0) :
    s.suspended = false := by
  unfold suspended
  rw [hStopped, beq_eq_false_iff_ne.mpr hPending,
    Bool.and_false]
  rfl

/- It is entered if the master enable is set. -/
theorem event_of_pending
    (hLocked : s.cpu.locked = none)
    (hStopped : s.cpu.stopped = false)
    (hMaster : s.interrupts.master = true)
    (hPending : s.interrupts.pending ≠ 0) :
    ∃ i, s.event = .entered i ∧ s.interrupts.Foremost i := by
  obtain ⟨i, hServiced, hForemost⟩ :=
    InterruptController.serviceable_of_pending hMaster hPending
  refine ⟨i, ?_, hForemost⟩
  unfold event
  simp only [hLocked, suspended_of_pending hStopped hPending,
    Bool.false_eq_true, if_false, hServiced]

------------------------------------------------------------
-- Executions
------------------------------------------------------------

/- The state in which an instruction begins: it is fetched. -/
def begun
    (s : Core β) : Core β :=
  ⟨{ s.cpu with
      halted := false
      haltBug := false
      regs := fetchedRegs s.cpu },
    (Bus.read s.cpu.regs.pc s.bus).2⟩

/- A step executes an instruction, and completes it. -/
structure Executes
    (s : Core β)
    (i : Instruction) : Prop where
  event : s.event = .executed i
  result :
    s.step.1 = .ok (s.begun.perform s.cpu.regs.pc i).1
  state : s.step.2 = (s.begun.perform s.cpu.regs.pc i).2

theorem fetch_wake
    (s : Core β) :
    s.wake.fetch.2 = s.begun := by
  rw [fetch_eq]
  rfl

theorem executes_of_event
    {i : Instruction}
    (h : s.event = .executed i) :
    s.Executes i := by
  constructor
  · exact h
  · rw [step_eq, h, ← fetch_wake]
  · rw [step_eq, h, ← fetch_wake]

theorem interrupts_begun
    [Bus.QuietReads β]
    (s : Core β) :
    s.begun.interrupts = s.interrupts :=
  Bus.QuietReads.interrupts_read _ _

/-
  Registers after an instruction of one byte that leaves
  registers alone.
-/
theorem regs_of_executed
    {i : Instruction}
    {effect : Core β → Core β}
    (hEvent : s.event = .executed i)
    (hWidth : i.immediate = .none)
    (hEffect :
      ∀ imm (u : Core β), u.execute i imm = (.next, effect u))
    (hKept :
      ∀ u : Core β, (effect u).cpu.regs = u.cpu.regs) :
    s.step.2.cpu.regs = fetchedRegs s.cpu := by
  let u := s.begun.note (.executing s.cpu.regs.pc i 0)
  have hOutcome : u.outcome i 0 = (i.ticks, effect u) := by
    unfold outcome
    simp only [hEffect, hWidth, skip_none]
  rw [(executes_of_event hEvent).state, perform_eq_outcome,
    hWidth]
  change (u.outcome i 0).2.settleEnable.cpu.regs = _
  rw [hOutcome, cpu_settleEnable]
  exact hKept u

------------------------------------------------------------
-- Entries
------------------------------------------------------------

/- The accesses that push a word on the stack. -/
def pushing
    (sp w : UInt16) : List Access :=
  [.write (sp - 2) (lowByte w),
    .write (sp - 2 + 1) (highByte w)]

/- A step enters the handler of a source, to return to PC. -/
structure Enters
    (s : Core β)
    (i : Interrupt)
    (pc : UInt16) : Prop where
  event : s.event = .entered i
  cost : s.step.1 = .ok 12
  accesses : s.accesses = pushing s.cpu.regs.sp pc
  cpu :
    s.step.2.cpu =
      { s.cpu with
        halted := false
        haltBug := false
        regs :=
          { s.cpu.regs with
            sp := s.cpu.regs.sp - 2
            pc := i.vector } }

theorem accesses_of_entered
    {i : Interrupt}
    (h : s.event = .entered i) :
    s.accesses =
      pushing s.cpu.regs.sp (returnAddress s.cpu) := by
  have hRecorded : s.recorded.event = .entered i :=
    s.event_recorded.trans h
  unfold accesses
  rw [step_eq, hRecorded]
  rfl

theorem enters_of_event
    {i : Interrupt}
    (h : s.event = .entered i) :
    s.Enters i (returnAddress s.cpu) where
  event := h
  cost := by
    rw [step_eq, h]
    rfl
  accesses := accesses_of_entered h
  cpu := by
    rw [step_eq, h]
    rfl

------------------------------------------------------------
-- Requests
------------------------------------------------------------

section Quiet

variable [Bus.QuietReads β]

/- As long as nothing is written, requests stay. -/
theorem steady_requests
    (ic : InterruptController) :
    Bus.Steady fun r : Recorded β =>
      (∀ addr v, .write addr v ∉ r.accesses) →
        (Bus.interrupts r.bus).requests = ic.requests where
  read addr r h := by
    intro hNone
    have hSame :=
      Bus.QuietReads.interrupts_read addr r.bus
    have hBefore := h fun a v hWrite =>
      hNone a v (List.mem_append_left _ hWrite)
    exact (congrArg InterruptController.requests hSame).trans
      hBefore
  write addr v r h := by
    intro hNone
    exact absurd
      (List.mem_append_right _ (List.mem_singleton.mpr rfl))
      (hNone addr v)
  setMaster on r h := by
    intro hNone
    have hSet :=
      Bus.KeepsMaster.interrupts_setInterrupts
        ((Bus.interrupts r.bus).setMaster on) r.bus
    exact (congrArg InterruptController.requests hSet).trans
      (h hNone)
  note m r _ h := by
    intro hNone
    have hSame := Bus.QuietReads.interrupts_note m r.bus
    exact (congrArg InterruptController.requests hSame).trans
      (h hNone)

/- A step that writes nothing and enters no handler. -/
theorem requests_of_no_write
    (hEntered : ∀ i, s.event ≠ .entered i)
    (hNone : ∀ addr v, .write addr v ∉ s.accesses) :
    s.step.2.interrupts.requests = s.interrupts.requests := by
  have hGranted : s.granted = s.bus := by
    unfold granted
    split
    · next i hEvent => exact absurd hEvent (hEntered i)
    · rfl
  have hDone :=
    step_steady (steady_requests s.interrupts)
      (s := s.recorded)
      (fun _ => by
        rw [s.granted_recorded, hGranted]
        rfl)
      hNone
  rw [s.step_recorded]
  exact hDone

end Quiet

------------------------------------------------------------
-- After An EI
------------------------------------------------------------

/- The step before this boundary executed EI. -/
def AfterEi
    (s : Core β) : Prop :=
  ∃ before : Core β,
    before.event = .executed .ei ∧ Follows before s

variable [Bus.KeepsMaster β]

theorem AfterEi.master_or_enableDelay
    (h : s.AfterEi) :
    (s.interrupts.master || s.cpu.enableDelay) = true := by
  rcases h with ⟨before, hEvent, hFollows⟩
  have hEnabling := hFollows.enabling_eq
  rw [hEvent, Enabling.after_ei] at hEnabling
  have hEither :
      (s.enabling.master || s.enabling.delay) = true := by
    rw [hEnabling]
    split
    · rfl
    · exact Bool.or_true _
  exact hEither

/- Its EI takes effect at the end of the next step. -/
theorem AfterEi.enableDelay
    (h : s.AfterEi)
    (hClear : s.interrupts.master = false) :
    s.cpu.enableDelay = true := by
  have hEither := h.master_or_enableDelay
  rw [hClear, Bool.false_or] at hEither
  exact hEither

end Core

end Dmg
