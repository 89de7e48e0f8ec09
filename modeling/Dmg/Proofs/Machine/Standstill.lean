import Dmg.Proofs.Machine.Action
import Dmg.Proofs.Machine.Frame

/-
  Machines that have come to a stand.

  A step that fails leaves everything as it was but three
  latches of the processor, and from then on the machine fails
  in the same way.  A machine that has executed STOP passes
  time and does nothing else.  Neither is helped by buttons,
  writes or requests: it takes a restart.

  Key definitions include:
    * `Board.SameStorage`
    * `Machine.FailsWith`
    * `Machine.Idles`

  Main results:
    * `Machine.fails_for_good`
    * `Machine.idles_for_good`
    * `Machine.standstill`
-/

namespace Dmg

------------------------------------------------------------
-- Boards
------------------------------------------------------------

/-
  Memory, plain registers, buttons, the serial line and what
  enables interrupts are the same.
-/
structure Board.SameStorage
    (a b : Board) : Prop where
  rom : b.rom = a.rom
  videoRam : b.videoRam = a.videoRam
  cartridgeRam : b.cartridgeRam = a.cartridgeRam
  workRam : b.workRam = a.workRam
  spriteRam : b.spriteRam = a.spriteRam
  registers : b.registers = a.registers
  highRam : b.highRam = a.highRam
  joypad : b.joypad = a.joypad
  serial : b.serial = a.serial
  master : b.interrupts.master = a.interrupts.master
  enable : b.interrupts.enable = a.interrupts.enable

/- Time moves the timer and the LCD and requests interrupts. -/
theorem Board.sameStorage_advance
    (cost now : Nat)
    (b : Board)
    (journal : Journal) :
    SameStorage b (b.advance cost now journal).1 := by
  have hRequested := requested_advance cost now b journal
  exact ⟨rfl, rfl, rfl, rfl, rfl, rfl, rfl, rfl, rfl,
    hRequested.master, hRequested.enable⟩

namespace Machine

------------------------------------------------------------
-- Standing Machines
------------------------------------------------------------

/-
  Every step and every frame fails with the same fault, makes
  no access, changes nothing and reports nothing.
-/
structure FailsWith
    (fault : DecodeFault)
    (m : Machine) : Prop where
  step :
    ∀ journal, m.step journal = ((.error fault, m), journal)
  runFrame :
    ∀ journal,
      m.runFrame journal = ((.error fault, m), journal)
  accesses :
    ∀ journal, (m.core journal).accesses = []

/-
  Every step passes four ticks, makes no access and changes
  neither a register nor memory nor the master enable, and a
  frame takes no step.
-/
structure Idles
    (m : Machine) : Prop where
  step :
    ∀ journal, ∃ n k,
      m.step journal = ((.ok 4, n), k) ∧
        n.cpu = m.cpu ∧
        n.ticks = m.ticks + 4 ∧
        Board.SameStorage m.board n.board
  runFrame :
    ∀ journal, m.runFrame journal = ((.ok (), m), journal)
  accesses :
    ∀ journal, (m.core journal).accesses = []

section Standing

variable {m : Machine} {fault : DecodeFault}

/- A frame that does not continue takes no step. -/
theorem FrameLoop.eq_of_ended
    {deadline : Nat}
    {j : Journal}
    {r : (FrameResult × Machine) × Journal}
    (hLoop : FrameLoop deadline m j r)
    (h : m.continues deadline = false) :
    r = ((.ok (), m), j) := by
  cases hLoop with
  | ended _ => rfl
  | failed hTest _ => exact absurd hTest (by simp [h])
  | completed hTest _ _ => exact absurd hTest (by simp [h])
  | again hTest _ _ _ => exact absurd hTest (by simp [h])

/- A frame whose first step fails ends with it. -/
theorem FrameLoop.eq_of_error
    {deadline : Nat}
    {n : Machine}
    {j k : Journal}
    {r : (FrameResult × Machine) × Journal}
    (hLoop : FrameLoop deadline m j r)
    (h : m.continues deadline = true)
    (hError : m.step j = ((.error fault, n), k)) :
    r = ((.error fault, n), k) := by
  cases hLoop with
  | ended hTest => exact absurd hTest (by simp [h])
  | failed _ hStep =>
      rw [hError] at hStep
      cases hStep
      rfl
  | completed _ hStep _ =>
      rw [hError] at hStep
      cases hStep
  | again _ hStep _ _ =>
      rw [hError] at hStep
      cases hStep

------------------------------------------------------------
-- Locked Machines
------------------------------------------------------------

theorem step_of_locked
    (h : m.cpu.locked = some fault)
    (journal : Journal) :
    m.step journal = ((.error fault, m), journal) := by
  have hCore :
      (m.core journal).step =
        (.error fault, m.core journal) :=
    Core.step_of_locked h
  rcases m.step_outcome journal with
    ⟨e, hError, hStep⟩ | ⟨cost, hOk, -⟩
  · rw [hCore] at hError hStep
    cases hError
    exact hStep
  · rw [hCore] at hOk
    cases hOk

theorem failsWith_of_locked
    (hLocked : m.cpu.locked = some fault)
    (hStopped : m.cpu.stopped = false) :
    FailsWith fault m := by
  have hContinues :
      m.continues (m.ticks + frameTicks) = true := by
    have hLater : m.ticks < m.ticks + frameTicks :=
      Nat.lt_add_of_pos_right (by decide)
    unfold continues
    rw [hStopped, decide_eq_true hLater]
    rfl
  refine ⟨step_of_locked hLocked, ?_, ?_⟩
  · intro journal
    exact (frameLoop_runFrame m journal).eq_of_error
      hContinues (step_of_locked hLocked journal)
  · intro journal
    exact Core.accesses_of_locked hLocked

------------------------------------------------------------
-- Stopped Machines
------------------------------------------------------------

theorem idles_of_stopped
    (hLocked : m.cpu.locked = none)
    (hStopped : m.cpu.stopped = true) :
    Idles m := by
  refine ⟨?_, ?_, ?_⟩
  · intro journal
    have hCore :
        (m.core journal).step =
          (.ok idleTicks, m.core journal) :=
      Core.step_of_stopped hLocked hStopped
    rcases m.step_outcome journal with
      ⟨e, hError, -⟩ | ⟨cost, hOk, hStep⟩
    · rw [hCore] at hError
      cases hError
    · rw [hCore] at hOk hStep
      cases hOk
      exact ⟨_, _, hStep, rfl, rfl,
        Board.sameStorage_advance _ _ _ _⟩
  · intro journal
    apply (frameLoop_runFrame m journal).eq_of_ended
    unfold continues
    rw [hStopped, Bool.not_true, Bool.and_false]
  · intro journal
    exact Core.accesses_of_stopped hLocked hStopped

end Standing

------------------------------------------------------------
-- Whatever Happens
------------------------------------------------------------

/-
  A processor that a step leaves alone, with the master
  enable, is left alone by all but a restart.
-/
theorem kept_standing
    {cpu : Cpu}
    {on : Bool}
    (hStands : ∀ w : Wired,
      (⟨cpu, w⟩ : Core Wired).step.2 = ⟨cpu, w⟩) :
    Kept fun m =>
      m.cpu = cpu ∧ m.board.interrupts.master = on where
  step m journal h := by
    rcases h with ⟨rfl, hMaster⟩
    obtain ⟨-, hCpu, hRequested⟩ := m.step_core journal
    have hStill : (m.core journal).step.2 = m.core journal :=
      hStands _
    rw [hStill] at hCpu hRequested
    exact ⟨hCpu, hRequested.master.trans hMaster⟩
  takeFrame _ h := h
  setButton button held m journal h := by
    have hSet := m.board.undisturbed_setButton button held
    unfold Machine.setButton
    cases m.board.presses button held <;>
      exact ⟨h.1, hSet.master.trans h.2⟩
  write addr v m journal h :=
    ⟨h.1, (m.board.undisturbed_write addr v).master.trans h.2⟩
  request _ _ h := h

variable {m : Machine} {as : List Action}

/- A locked machine fails until it is restarted. -/
theorem fails_for_good
    {fault : DecodeFault}
    (hLocked : m.cpu.locked = some fault)
    (hStopped : m.cpu.stopped = false)
    (hKeeps : ∀ a ∈ as, a.restarts = false)
    (journal : Journal) :
    FailsWith fault (m.afterRun as journal) := by
  have hStands (w : Wired) :
      (⟨m.cpu, w⟩ : Core Wired).step.2 = ⟨m.cpu, w⟩ := by
    rw [Core.step_of_locked hLocked]
  obtain ⟨hCpu, -⟩ :=
    run_kept (kept_standing hStands) hKeeps ⟨rfl, rfl⟩ journal
  rw [← hCpu] at hLocked hStopped
  exact failsWith_of_locked hLocked hStopped

/- A stopped machine idles until it is restarted. -/
theorem idles_for_good
    (hLocked : m.cpu.locked = none)
    (hStopped : m.cpu.stopped = true)
    (hKeeps : ∀ a ∈ as, a.restarts = false)
    (journal : Journal) :
    let p := m.afterRun as journal
    p.cpu = m.cpu ∧
      p.board.interrupts.master = m.board.interrupts.master ∧
      Idles p := by
  have hStands (w : Wired) :
      (⟨m.cpu, w⟩ : Core Wired).step.2 = ⟨m.cpu, w⟩ := by
    rw [Core.step_of_stopped hLocked hStopped]
  obtain ⟨hCpu, hMaster⟩ :=
    run_kept (kept_standing hStands) hKeeps ⟨rfl, rfl⟩ journal
  refine ⟨hCpu, hMaster, ?_⟩
  rw [← hCpu] at hLocked hStopped
  exact idles_of_stopped hLocked hStopped

------------------------------------------------------------
-- Failing
------------------------------------------------------------

/-
  A step that fails.  The fault names the byte at PC, which
  is no instruction's opcode.  Three latches of the processor
  may have changed, and the fault is reported the first time.
-/
structure Failed
    (m : Machine)
    (journal : Journal)
    (fault : DecodeFault)
    (n : Machine)
    (after : Journal) : Prop where
  hole : Instruction.ofOpcode? fault.opcode = none
  pc : fault.pc = m.cpu.regs.pc
  opcode :
    m.cpu.locked = none →
      fault.opcode = m.read m.cpu.regs.pc
  machine :
    n =
      { m with
        cpu := { m.cpu with
          halted := false
          haltBug := false
          locked := some fault } }
  stopped : m.cpu.stopped = false
  journal :
    after =
      if m.cpu.locked.isSome then journal
      else
        journal.note
          (.cpuLocked fault (Core.fetchedRegs m.cpu))

theorem failed_of_error
    {m n : Machine}
    {fault : DecodeFault}
    {j k : Journal}
    (hBegun : m.Begun)
    (h : m.step j = ((.error fault, n), k)) :
    Failed m j fault n k := by
  have hError : (m.core j).step.1 = .error fault := by
    rw [← (m.step_core j).1, h]
  cases hLocked : m.cpu.locked with
  | some first =>
      have hOn : m.cpu.LockedOn first :=
        (hBegun ⟨m.board, j⟩).lockedOn first hLocked
      have hStep := step_of_locked hLocked j
      rw [h] at hStep
      cases hStep
      refine ⟨hOn.hole, hOn.pc.symm, ?_, ?_, hOn.stopped, ?_⟩
      · intro hNone
        rw [hLocked] at hNone
        cases hNone
      · rw [hOn.lock_eq_self hLocked]
      · rw [hLocked]
        rfl
  | none =>
      have hEvent := Core.event_of_error hError
      obtain ⟨hStopped, hHole, hFault⟩ :=
        Core.failed_at_opcode (s := m.core j) hLocked hEvent
      have hCore :=
        Core.step_of_failed (s := m.core j) hLocked hEvent
      rcases m.step_outcome j with
        ⟨e, hFirst, hStep⟩ | ⟨cost, hOk, -⟩
      · rw [h, hCore] at hStep
        cases hStep
        refine ⟨hHole, congrArg DecodeFault.pc hFault, ?_,
          rfl, hStopped, ?_⟩
        · intro _
          exact congrArg DecodeFault.opcode hFault
        · rw [hLocked]
          rfl
      · rw [hError] at hOk
        cases hOk

/- STOP stops the processor. -/
theorem stopped_of_stop
    (m : Machine)
    (j : Journal)
    (h : (m.core j).event = .executed .stop) :
    (m.step j).1.2.cpu.stopped = true := by
  rw [(m.step_core j).2.1, Core.step_eq, h]
  exact Core.stopped_perform_stop _ _

theorem Begun.locked_of_stopped
    {m : Machine}
    (hBegun : m.Begun)
    (h : m.cpu.stopped = true) :
    m.cpu.locked = none := by
  cases hLocked : m.cpu.locked with
  | none => rfl
  | some fault =>
      have hOn :=
        (hBegun ⟨m.board, {}⟩).lockedOn fault hLocked
      have hNot := hOn.stopped
      rw [h] at hNot
      cases hNot

------------------------------------------------------------
-- Standstill
------------------------------------------------------------

/-
  What brings a machine to a stand, and that only a restart
  ends it.

  A step that fails has left everything as it was but three
  latches.  From then on every step and every frame fails with
  that fault and changes nothing, whatever is done to the
  machine.  STOP likewise leaves a machine that idles.
-/
theorem standstill
    (as : List Action)
    (j₀ j : Journal) :
    let m := afterRun as {} j₀
    (∀ fault n k,
        m.step j = ((.error fault, n), k) →
          Failed m j fault n k ∧
            ∀ bs l,
              (∀ b ∈ bs, b.restarts = false) →
                FailsWith fault (n.afterRun bs l)) ∧
      ((m.core j).event = .executed .stop →
        (m.step j).1.2.cpu.stopped = true) ∧
      (m.cpu.stopped = true →
        ∀ bs l,
          (∀ b ∈ bs, b.restarts = false) →
            let p := m.afterRun bs l
            p.cpu = m.cpu ∧
              p.board.interrupts.master =
                m.board.interrupts.master ∧
              Idles p) ∧
      ∀ b l,
        b.restarts = true →
          (m.perform b l).1.2.cpu = {} := by
  intro m
  have hBegun : m.Begun := run_reached as j₀
  refine ⟨?_, m.stopped_of_stop j, ?_, ?_⟩
  · intro fault n k hError
    have hFailed := failed_of_error hBegun hError
    refine ⟨hFailed, ?_⟩
    intro bs l hKeeps
    apply fails_for_good _ _ hKeeps l
    · rw [hFailed.machine]
    · rw [hFailed.machine]
      exact hFailed.stopped
  · intro hStopped bs l hKeeps
    exact idles_for_good (hBegun.locked_of_stopped hStopped)
      hStopped hKeeps l
  · intro b l hRestarts
    rcases perform_restart hRestarts m l with ⟨rom, hNew⟩
    rw [hNew]

/- A machine after putting in a program of one opcode. -/
def beginningWith
    (op : UInt8) : Machine :=
  { board := { rom := (Cartridge.beginningWith op).rom } }

/-
  A program that begins with 0xD3 locks the machine in a step,
  and one that begins with STOP stops it.
-/
theorem standstill_at_entry :
    (∃ n k,
        (beginningWith 0xD3).step {} =
            ((.error ⟨0xD3, 0x0100⟩, n), k) ∧
          FailsWith ⟨0xD3, 0x0100⟩
            (n.afterRun [.write 0x0100 0, .request .timer] {})) ∧
      let m := ((beginningWith 0x10).step {}).1.2
      m.cpu.stopped = true ∧
        Idles
          (m.afterRun [.setButton .start true, .step] {}) := by
  let put (op : UInt8) : Action :=
    .load (Cartridge.beginningWith op).rom.toArray
  have hPut (op : UInt8) :
      afterRun [put op] {} {} = beginningWith op := by
    rw [afterRun_cons, perform_beginningWith op {} rfl]
    exact afterRun_nil _ _
  constructor
  · have hEvent :
        ((beginningWith 0xD3).core {}).event =
          .failed ⟨0xD3, 0x0100⟩ := by
      decide +kernel
    obtain ⟨hFails, -⟩ := standstill [put 0xD3] {} {}
    rw [hPut] at hFails
    rcases hStep : (beginningWith 0xD3).step {} with
      ⟨⟨result, n⟩, k⟩
    have hResult :
        result = .error ⟨0xD3, 0x0100⟩ := by
      have hCore := ((beginningWith 0xD3).step_core {}).1
      rw [hStep, Core.step_eq, hEvent] at hCore
      exact hCore
    subst hResult
    refine ⟨n, k, rfl, (hFails _ n k hStep).2 _ _ ?_⟩
    simp [Action.restarts, Action.loads]
  · have hEvent :
        ((beginningWith 0x10).core {}).event =
          .executed .stop := by
      decide +kernel
    obtain ⟨-, hStop, -⟩ := standstill [put 0x10] {} {}
    rw [hPut] at hStop
    have hStopped := hStop hEvent
    have hAfter :
        afterRun [put 0x10, .step] {} {} =
          ((beginningWith 0x10).step {}).1.2 := by
      rw [afterRun_cons, perform_beginningWith 0x10 {} rfl]
      rfl
    obtain ⟨-, -, hIdles, -⟩ :=
      standstill [put 0x10, .step] {} {}
    rw [hAfter] at hIdles
    refine ⟨hStopped, (hIdles hStopped _ _ ?_).2.2⟩
    simp [Action.restarts, Action.loads]

end Machine

end Dmg
