import Dmg.Proofs.Cpu.Boundary
import Dmg.Proofs.Cpu.Standstill

/-
  HALT, and the time that the processor spends in it.

  A HALT suspends the processor if the master enable is set or
  nothing is pending.  Then it stands still, however many
  boundaries go by, up to the first at which something is
  pending.

  Key definitions include:
    * `Core.AtHalt`
    * `Core.Waits`
    * `Core.Resumes`

  Main results:
    * `Core.AtHalt.cpu_step`
    * `Core.Boundaries.waits`
    * `Core.Boundaries.halt_suspends`
-/

namespace Dmg

namespace Core

variable {β : Type} [Bus β] {s t : Core β}

------------------------------------------------------------
-- The HALT
------------------------------------------------------------

/- A HALT is about to be executed, and its bug is unarmed. -/
structure AtHalt
    (s : Core β) : Prop extends Running s where
  haltBug : s.cpu.haltBug = false
  opcode : (Bus.read s.cpu.regs.pc s.bus).1 = 0x76

theorem AtHalt.event
    (h : s.AtHalt)
    (hQuiet : s.interrupts.master = false ∨
      s.interrupts.pending = 0) :
    s.event = .executed .halt := by
  rw [h.event_eq hQuiet]
  apply instructionEvent_of_opcode
  rw [h.opcode]
  rfl

theorem fetchedRegs_of_unarmed
    {cpu : Cpu}
    (h : cpu.haltBug = false) :
    fetchedRegs cpu =
      { cpu.regs with pc := cpu.regs.pc + 1 } := by
  unfold fetchedRegs
  rw [h]
  rfl

variable [Bus.QuietReads β]

/- HALT suspends the processor, or arms its bug. -/
theorem AtHalt.cpu_step
    (h : s.AtHalt)
    (hQuiet : s.interrupts.master = false ∨
      s.interrupts.pending = 0) :
    s.step.2.cpu =
      { s.cpu with
        regs := { s.cpu.regs with pc := s.cpu.regs.pc + 1 }
        halted := s.interrupts.suspends
        haltBug := !s.interrupts.suspends
        enablePending :=
          s.cpu.enablePending && s.cpu.enableDelay
        enableDelay :=
          s.cpu.enablePending && !s.cpu.enableDelay } := by
  have hEvent := h.event hQuiet
  have hRegs :
      s.step.2.cpu.regs =
        { s.cpu.regs with pc := s.cpu.regs.pc + 1 } := by
    rw [← fetchedRegs_of_unarmed h.haltBug]
    apply regs_of_executed hEvent rfl fun _ _ => rfl
    intro u
    rw [cpu_halt]
    rfl
  rw [cpu_executed hEvent, hRegs]
  rfl

/- An EI before it takes effect. -/
theorem AtHalt.interrupts_step
    (h : s.AtHalt)
    (hQuiet : s.interrupts.master = false ∨
      s.interrupts.pending = 0) :
    s.step.2.interrupts =
      { s.interrupts with
        master :=
          s.interrupts.master || s.cpu.enableDelay } := by
  let u := s.begun.note (.executing s.cpu.regs.pc .halt 0)
  have hBefore : u.interrupts = s.interrupts :=
    (Bus.QuietReads.interrupts_note _ _).trans
      s.interrupts_begun
  rw [(executes_of_event (h.event hQuiet)).state]
  change (u.halt.skip .none).settleEnable.interrupts = _
  rw [skip_none, interrupts_settleEnable, interrupts_halt,
    hBefore, cpu_halt]
  rfl

------------------------------------------------------------
-- Waiting
------------------------------------------------------------

/-
  The second state waits in the HALT that the first was about
  to execute.
-/
structure Waits
    (s t : Core β) : Prop where
  locked : t.cpu.locked = none
  stopped : t.cpu.stopped = false
  halted : t.cpu.halted = true
  haltBug : t.cpu.haltBug = false
  regs :
    t.cpu.regs =
      { s.cpu.regs with pc := s.cpu.regs.pc + 1 }
  master :
    t.interrupts.master =
      (s.interrupts.master || s.cpu.enableDelay)

/- A HALT with nothing pending begins the wait. -/
theorem AtHalt.waits
    (h : s.AtHalt)
    (hNone : s.interrupts.pending = 0)
    (hFollows : Follows s t) :
    Waits s t := by
  have hSuspends : s.interrupts.suspends = true :=
    InterruptController.suspends_of_none hNone
  have hCpu := hFollows.cpu.trans (h.cpu_step (.inr hNone))
  rw [hSuspends] at hCpu
  have hMaster :=
    congrArg InterruptController.master
      (h.interrupts_step (.inr hNone))
  constructor
  · rw [hCpu]
    exact h.locked
  · rw [hCpu]
    exact h.stopped
  · rw [hCpu]
  · rw [hCpu]
    rfl
  · rw [hCpu]
  · exact hFollows.master.trans hMaster

namespace Waits

omit [Bus.QuietReads β]

variable (h : Waits s t) (hNone : t.interrupts.pending = 0)

include h hNone

theorem suspended :
    t.suspended = true := by
  unfold Core.suspended
  rw [h.halted, hNone]
  exact Bool.or_true _

/- Nothing happens while nothing is pending. -/
theorem step :
    t.step = (.ok 4, t) :=
  step_of_suspended h.locked (h.suspended hNone)

theorem accesses :
    t.accesses = [] := by
  have hStill :
      t.recorded.step = (.ok idleTicks, t.recorded) :=
    step_of_suspended h.locked (h.suspended hNone)
  unfold Core.accesses
  rw [hStill]
  rfl

/- So the wait goes on. -/
theorem next
    {u : Core β}
    (hFollows : Follows t u) :
    Waits s u := by
  have hStep := h.step hNone
  have hCpu := hFollows.cpu
  have hMaster := hFollows.master
  rw [hStep] at hCpu hMaster
  constructor
  · rw [hCpu]
    exact h.locked
  · rw [hCpu]
    exact h.stopped
  · rw [hCpu]
    exact h.halted
  · rw [hCpu]
    exact h.haltBug
  · rw [hCpu]
    exact h.regs
  · rw [hMaster]
    exact h.master

end Waits

/- It lasts as long as nothing is pending at the boundaries. -/
theorem Boundaries.waits
    {run : Nat → Core β}
    (hRun : Boundaries run)
    (hHalt : (run 0).AtHalt)
    {n : Nat}
    (hNone : ∀ k ≤ n, (run k).interrupts.pending = 0) :
    Waits (run 0) (run (n + 1)) := by
  induction n with
  | zero => exact hHalt.waits (hNone 0 (Nat.le_refl 0)) (hRun 0)
  | succ n ih =>
      have hBefore := ih fun k hk =>
        hNone k (Nat.le_succ_of_le hk)
      exact hBefore.next (hNone (n + 1) (Nat.le_refl _))
        (hRun (n + 1))

------------------------------------------------------------
-- Going On
------------------------------------------------------------

/-
  A step goes on with the instruction at PC, as if the
  processor had not been suspended.  The opcode is fetched as
  usual, and the interrupt controller changes by what the
  instruction does.
-/
structure Resumes
    (s : Core β) : Prop where
  step : s.step = s.wake.step
  event : s.event = s.instructionEvent
  executes :
    ∀ i,
      Instruction.ofOpcode?
          (Bus.read s.cpu.regs.pc s.bus).1 = some i →
        s.Executes i
  fetched :
    s.begun.cpu.regs =
      { s.cpu.regs with pc := s.cpu.regs.pc + 1 }
  interrupts : s.begun.interrupts = s.interrupts
  requests :
    (∀ addr v, .write addr v ∉ s.accesses) →
      s.step.2.interrupts.requests = s.interrupts.requests

/- A processor that is woken does not stay halted. -/
theorem awake_of_pending
    (hLocked : s.cpu.locked = none)
    (hStopped : s.cpu.stopped = false)
    (hPending : s.interrupts.pending ≠ 0) :
    s.step.2.cpu.halted = false := by
  cases hMaster : s.interrupts.master with
  | true =>
      obtain ⟨i, hEvent, -⟩ :=
        event_of_pending hLocked hStopped hMaster hPending
      rw [(enters_of_event hEvent).cpu]
  | false =>
      have hEvent :=
        event_of_quiet hLocked
          (suspended_of_pending hStopped hPending)
          (.inl hMaster)
      cases hOpcode :
          Instruction.ofOpcode?
            (Bus.read s.cpu.regs.pc s.bus).1 with
      | none =>
          unfold instructionEvent at hEvent
          simp only [hOpcode] at hEvent
          rw [step_of_failed hLocked hEvent]
      | some i =>
          have hExecuted :=
            hEvent.trans (instructionEvent_of_opcode hOpcode)
          -- Even another HALT does not suspend here.
          rw [cpu_executed hExecuted]
          exact Cpu.latch_halted _ rfl fun _ =>
            InterruptController.suspends_of_pending hMaster
              hPending

namespace Waits

variable
  (h : Waits s t)
  (hPending : t.interrupts.pending ≠ 0)

include h hPending

/- The wait ends in the foremost handler. -/
omit [Bus.QuietReads β] in
theorem enters
    (hMaster : t.interrupts.master = true) :
    ∃ i, t.interrupts.Foremost i ∧
      t.Enters i (s.cpu.regs.pc + 1) := by
  obtain ⟨i, hEvent, hForemost⟩ :=
    event_of_pending h.locked h.stopped hMaster hPending
  have hReturn : returnAddress t.cpu = s.cpu.regs.pc + 1 := by
    unfold returnAddress
    rw [h.haltBug, h.regs]
    rfl
  exact ⟨i, hForemost, hReturn ▸ enters_of_event hEvent⟩

/- Or it ends behind the HALT. -/
theorem resumes
    (hClear : t.interrupts.master = false) :
    t.Resumes := by
  have hAwake := suspended_of_pending h.stopped hPending
  have hEvent := event_of_quiet h.locked hAwake (.inl hClear)
  constructor
  · have hRunning : t.wake.Running :=
      ⟨h.locked, h.stopped, rfl⟩
    rw [step_of_not_suspended h.locked hAwake,
      step_of_not_suspended hRunning.locked
        hRunning.suspended]
    rfl
  · exact hEvent
  · intro i hOpcode
    exact executes_of_event
      (hEvent.trans (instructionEvent_of_opcode hOpcode))
  · exact fetchedRegs_of_unarmed h.haltBug
  · exact t.interrupts_begun
  · exact requests_of_no_write
      (event_ne_entered (.inl hClear))

end Waits

------------------------------------------------------------
-- Suspension
------------------------------------------------------------

/-
  A HALT with nothing pending suspends the processor.  At
  every following boundary at which nothing is pending it
  stands still, for four ticks and without an access.  At the
  first at which something is pending it goes on: it enters
  the foremost handler, to return behind the HALT, if the
  master enable is set, be it by an EI right before the HALT;
  otherwise it executes the instruction behind the HALT.
-/
theorem Boundaries.halt_suspends
    {run : Nat → Core β}
    (hRun : Boundaries run)
    (hHalt : (run 0).AtHalt)
    {n : Nat}
    (hNone : ∀ k ≤ n, (run k).interrupts.pending = 0) :
    let s := run 0
    let pc := s.cpu.regs.pc + 1
    (∀ k, 1 ≤ k → k ≤ n →
      (run k).step = (.ok 4, run k) ∧
        (run k).accesses = [] ∧
        (run k).cpu.regs = { s.cpu.regs with pc := pc }) ∧
      let t := run (n + 1)
      t.interrupts.pending ≠ 0 →
        t.step.2.cpu.halted = false ∧
          t.cpu.regs = { s.cpu.regs with pc := pc } ∧
          t.interrupts.master =
            (s.interrupts.master || s.cpu.enableDelay) ∧
          (s.AfterEi → t.interrupts.master = true) ∧
          (t.interrupts.master = true →
            ∃ i, t.interrupts.Foremost i ∧ t.Enters i pc) ∧
          (t.interrupts.master = false → t.Resumes) := by
  intro s pc
  have hWaits :
      ∀ k ≤ n, Waits s (run (k + 1)) := by
    intro k hk
    exact hRun.waits hHalt fun j hj =>
      hNone j (Nat.le_trans hj hk)
  constructor
  · intro k hFrom hTo
    obtain ⟨j, rfl⟩ := Nat.exists_eq_add_of_le' hFrom
    have hWait := hWaits j (Nat.le_of_succ_le hTo)
    have hQuiet := hNone (j + 1) hTo
    exact ⟨hWait.step hQuiet, hWait.accesses hQuiet,
      hWait.regs⟩
  · intro t hPending
    have hWait : Waits s t := hWaits n (Nat.le_refl n)
    refine ⟨awake_of_pending hWait.locked hWait.stopped
        hPending, hWait.regs, hWait.master, ?_, ?_, ?_⟩
    · intro hAfter
      rw [hWait.master]
      exact hAfter.master_or_enableDelay
    · exact hWait.enters hPending
    · exact hWait.resumes hPending

/- EI and HALT, with VBlank enabled in IE. -/
def enableAndHalt : Core FlatMemory :=
  loaded [0xFB, 0x76] { master := false, enable := 0x01 }

/- The EI is executed; VBlank is requested two steps later. -/
def haltUntilVBlank : Nat → Core FlatMemory
  | 0 => enableAndHalt.step.2
  | n + 1 =>
      let t := (haltUntilVBlank n).step.2
      if n = 2 then t.mapInterrupts (·.request .vblank) else t

theorem boundaries_haltUntilVBlank :
    Boundaries haltUntilVBlank := by
  intro n
  let t := (haltUntilVBlank n).step.2
  change Follows (haltUntilVBlank n)
    (if n = 2 then t.mapInterrupts (·.request .vblank) else t)
  split <;> exact ⟨rfl, rfl⟩

/- It stands still twice, and then enters the handler. -/
theorem halt_suspends_untilVBlank :
    let s := haltUntilVBlank 0
    let t := haltUntilVBlank 3
    s.AtHalt ∧ s.AfterEi ∧
      (haltUntilVBlank 2).step = (.ok 4, haltUntilVBlank 2) ∧
      t.step.2.cpu.halted = false ∧
      ∃ i, t.interrupts.Foremost i ∧ t.Enters i 0x0102 := by
  intro s t
  have hT : haltUntilVBlank (2 + 1) = t := rfl
  have hHalt : s.AtHalt :=
    ⟨⟨by decide +kernel, by decide +kernel,
      by decide +kernel⟩, by decide +kernel,
      by decide +kernel⟩
  have hAfter : s.AfterEi :=
    ⟨enableAndHalt, by decide +kernel, follows_step _⟩
  have hNone :
      ∀ k ≤ 2, (haltUntilVBlank k).interrupts.pending = 0 := by
    decide +kernel
  obtain ⟨hStands, hEnds⟩ :=
    boundaries_haltUntilVBlank.halt_suspends hHalt hNone
  rw [hT] at hEnds
  obtain ⟨hAwake, -, -, hEnabled, hEnters, -⟩ :=
    hEnds (by decide +kernel)
  have hPc : s.cpu.regs.pc + 1 = 0x0102 := by
    decide +kernel
  rw [hPc] at hEnters
  exact ⟨hHalt, hAfter, (hStands 2 (by decide) (by decide)).1,
    hAwake, hEnters (hEnabled hAfter)⟩

end Core

end Dmg
