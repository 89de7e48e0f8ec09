import Dmg.Proofs.Lcd.RequestTimes
import Dmg.Proofs.Machine.DeviceRequests
import Dmg.Proofs.Machine.Rows
import Dmg.Proofs.Memory.Footprint

/-
  No interrupt request is lost, and none is invented.

  A step of the machine changes the request register from
  several sides: the processor acknowledges the source whose
  handler it enters, a program may start a transfer, and then
  the timer and the LCD controller follow.  Unless the
  register itself is written, each of them moves its own bit
  and leaves the others as they are.

  Key definitions include:
    * `Access.SpareRequests`, `Access.StartTransfer`
    * `Machine.Asked`

  Main results:
    * `Board.isRequested_write`
    * `Machine.isRequested_executed`
    * `Machine.Reachable.isRequested_step`
    * `Machine.Reachable.lcd_requests_step`
-/

namespace Dmg

------------------------------------------------------------
-- Writes
------------------------------------------------------------

namespace Board

/- Two registers make or withdraw requests when written. -/
theorem requests_write
    {addr : UInt16}
    (hAddr : addr ≠ 0xFF0F)
    (hPort : addr ≠ 0xFF02)
    (v : UInt8)
    (b : Board) :
    (b.write addr v).interrupts.requests =
      b.interrupts.requests := by
  unfold write
  cases hLoc : Location.ofAddress addr with
  | interruptRequests =>
      exact absurd (Location.eq_address hLoc (by decide))
        hAddr
  | serialControl =>
      exact absurd (Location.eq_address hLoc (by decide))
        hPort
  | spriteCopy =>
      rcases b.copySprites_cases v with
        ⟨ram, registers, -, -, hCopy⟩
      change (b.copySprites v).interrupts.requests = _
      rw [hCopy]
  | videoRam k =>
      change (b.writeVideo k v).interrupts.requests = _
      simp only [writeVideo]
      split <;> rfl
  | _ => rfl

/-
  A write elsewhere than to IF withdraws no request, and the
  one it can make is that of a transfer.
-/
theorem isRequested_write
    {addr : UInt16}
    (hAddr : addr ≠ 0xFF0F)
    (v : UInt8)
    (b : Board)
    (i : Interrupt) :
    (b.write addr v).interrupts.isRequested i = true ↔
      b.interrupts.isRequested i = true ∨
        i = .serial ∧ addr = 0xFF02 ∧
          Serial.starts v = true := by
  by_cases hPort : addr = 0xFF02
  · have hWrite :
        (b.write addr v).interrupts =
          if Serial.starts v = true then
            b.interrupts.request .serial
          else b.interrupts := by
      rw [hPort]
      rfl
    rw [hWrite,
      (InterruptController.adds_ite _ .serial).requests]
    simp only [hPort, true_and]
  · have hSame := b.requests_write hAddr hPort v
    unfold InterruptController.isRequested
    simp only [hSame, hPort, false_and, and_false, or_false]

end Board

------------------------------------------------------------
-- Accesses
------------------------------------------------------------

namespace Access

/- No access writes IF. -/
def SpareRequests
    (as : List Access) : Prop :=
  ∀ v, .write 0xFF0F v ∉ as

/- Some access starts a transfer on the serial line. -/
def StartTransfer
    (as : List Access) : Prop :=
  ∃ v, .write 0xFF02 v ∈ as ∧ Serial.starts v = true

variable {as : List Access}

theorem SpareRequests.of_append
    {bs : List Access}
    (h : SpareRequests (as ++ bs)) :
    SpareRequests as := by
  intro v hv
  exact h v (List.mem_append_left bs hv)

theorem startTransfer_read
    {addr : UInt16}
    {v : UInt8} :
    StartTransfer (as ++ [.read addr v]) ↔
      StartTransfer as := by
  unfold StartTransfer
  simp only [List.mem_append, List.mem_singleton,
    reduceCtorEq, or_false]

theorem startTransfer_write
    {addr : UInt16}
    {v : UInt8} :
    StartTransfer (as ++ [.write addr v]) ↔
      StartTransfer as ∨
        addr = 0xFF02 ∧ Serial.starts v = true := by
  unfold StartTransfer
  constructor
  · rintro ⟨u, hMem, hStarts⟩
    rcases List.mem_append.mp hMem with hOld | hNew
    · exact .inl ⟨u, hOld, hStarts⟩
    · cases List.mem_singleton.mp hNew
      exact .inr ⟨rfl, hStarts⟩
  · rintro (⟨u, hOld, hStarts⟩ | ⟨rfl, hStarts⟩)
    · exact ⟨u, List.mem_append_left _ hOld, hStarts⟩
    · exact ⟨v, List.mem_append_right _
        (List.mem_singleton.mpr rfl), hStarts⟩

end Access

/-
  As long as no access has written IF, the requests are those
  from the start, and that of a transfer if one was started.
-/
theorem Wired.steady_requests
    (ic : InterruptController) :
    Bus.Steady fun r : Recorded Wired =>
      Access.SpareRequests r.accesses →
        ∀ i,
          r.bus.board.interrupts.isRequested i = true ↔
            ic.isRequested i = true ∨
              i = .serial ∧
                Access.StartTransfer r.accesses where
  read addr r h := by
    intro hSpare i
    have hBefore := h hSpare.of_append i
    exact hBefore.trans
      (or_congr_right
        (and_congr_right fun _ =>
          Access.startTransfer_read.symm))
  write addr v r h := by
    intro hSpare i
    have hBefore := h hSpare.of_append i
    have hAddr : addr ≠ 0xFF0F := by
      rintro rfl
      exact hSpare v (List.mem_append_right _
        (List.mem_singleton.mpr rfl))
    have hWritten :=
      r.bus.board.isRequested_write hAddr v i
    calc _ ↔ _ := hWritten
      _ ↔ (ic.isRequested i = true ∨
            i = .serial ∧ Access.StartTransfer r.accesses) ∨
          i = .serial ∧ addr = 0xFF02 ∧
            Serial.starts v = true := or_congr_left hBefore
      _ ↔ _ := by
        rw [or_assoc, ← and_or_left,
          ← Access.startTransfer_write]
        rfl
  setMaster on r h := h
  note m r _ h := h

------------------------------------------------------------
-- The Processor
------------------------------------------------------------

namespace Machine

variable {m n : Machine} {journal : Journal}

/- What is requested when the processor begins its accesses. -/
theorem isRequested_granted
    (i : Interrupt) :
    (m.core journal).granted.board.interrupts.isRequested i =
        true ↔
      m.board.interrupts.isRequested i = true ∧
        (m.core journal).event ≠ .entered i := by
  unfold Core.granted
  cases hEvent : (m.core journal).event with
  | entered k =>
      have hGranted :=
        m.board.interrupts.isRequested_acknowledge k i
      have hSame :
          Core.Event.entered k ≠ .entered i ↔
            (k != i) = true := by
        simp only [ne_eq, Core.Event.entered.injEq, bne_iff_ne]
      rw [hSame, and_comm, ← Bool.and_eq_true, ← hGranted]
      rfl
  | _ =>
      simp only [ne_eq, reduceCtorEq, not_false_eq_true,
        and_true]
      rfl

/-
  The processor clears the request of the source whose handler
  it enters, and makes that of a transfer it has started.
-/
theorem isRequested_executed
    (hSpare :
      Access.SpareRequests (m.core journal).accesses)
    (i : Interrupt) :
    let b := (m.executed journal).board
    b.interrupts.isRequested i = true ↔
      m.board.interrupts.isRequested i = true ∧
          (m.core journal).event ≠ .entered i ∨
        i = .serial ∧
          Access.StartTransfer
            (m.core journal).accesses := by
  intro b
  let s := m.core journal
  let ic := s.granted.board.interrupts
  have hStart :
      Access.SpareRequests s.recorded.granted.accesses →
        ∀ i,
          s.recorded.granted.bus.board.interrupts.isRequested
              i = true ↔
            ic.isRequested i = true ∨
              i = .serial ∧
                Access.StartTransfer
                  s.recorded.granted.accesses := by
    intro _ k
    rw [s.granted_recorded]
    unfold Access.StartTransfer
    simp only [List.not_mem_nil, false_and, exists_false,
      and_false, or_false]
    rfl
  have hDone :=
    Core.step_steady (Wired.steady_requests ic) hStart hSpare i
  have hBus : b = s.recorded.step.2.bus.bus.board := by
    unfold b executed
    rw [Core.step_recorded]
    rfl
  rw [hBus, hDone, isRequested_granted]
  rfl

------------------------------------------------------------
-- The Machine
------------------------------------------------------------

/-
  The device of a source asks for it in a step from one
  machine to another: the LCD controller when it enters the
  vertical blank, and when it enters a mode or reaches a line
  that is selected; the timer when it is reloaded; the serial
  line when a transfer is started.
-/
def Asked
    (m : Machine)
    (journal : Journal)
    (cost : Nat)
    (n : Machine) : Interrupt → Prop
  | .vblank =>
      n.board.interrupts.isEnabled .vblank = true ∧
        n.board.lcd.beam.mode ≠ m.board.lcd.beam.mode ∧
        n.board.lcd.beam.mode = .vblank
  | .lcdStat =>
      let regs := n.board.lcd.regs
      let before := m.board.lcd.beam
      let after := n.board.lcd.beam
      n.board.interrupts.isEnabled .lcdStat = true ∧
        (after.mode ≠ before.mode ∧
            (∃ k, after.mode.selectBit? = some k ∧
              regs.selected k = true) ∨
          after.line ≠ before.line ∧
            after.line = regs.lineCompare.toNat ∧
            regs.selected 6 = true)
  | .timer => (m.executed journal).board.timer.Reloads cost
  | .serial =>
      Access.StartTransfer (m.core journal).accesses
  | .joypad => False

/-
  The devices of a machine on time ask for what the processor
  has started on the serial line, and for what the board asks
  for while it follows.
-/
theorem OnTime.asked_iff
    (hTime : m.OnTime)
    {cost : Nat}
    (hBoard :
      let w := m.executed journal
      n.board =
        (w.board.advance cost (m.ticks + cost) w.journal).1)
    (i : Interrupt) :
    m.Asked journal cost n i ↔
      i = .serial ∧
          Access.StartTransfer (m.core journal).accesses ∨
        (m.executed journal).board.Asks cost n.board i := by
  let w := m.executed journal
  have hBeam : w.board.lcd.beam = m.board.lcd.beam :=
    (hTime.executed_beam journal).trans hTime.beam.symm
  have hRegs : n.board.lcd.regs = w.board.lcd.regs := by
    rw [hBoard]
    exact Raster.advanceTo_regs _ _ _ _
  have hEnabled (i : Interrupt) :
      n.board.interrupts.isEnabled i =
        w.board.interrupts.isEnabled i := by
    rw [hBoard]
    exact (Board.requested_advance _ _ _ _).isEnabled i
  unfold Board.Asks
  rw [← hEnabled, ← hRegs, hBeam]
  cases i <;>
    simp [Asked, LcdRegisters.Asks, LcdRegisters.EntryAsks,
      LcdRegisters.LineAsks]

/- The devices follow the processor until the end of a step. -/
theorem board_of_step
    {cost : Nat}
    {later : Journal}
    (hStep : m.step journal = ((.ok cost, n), later)) :
    let w := m.executed journal
    n.board =
      (w.board.advance cost (m.ticks + cost) w.journal).1 := by
  rcases m.step_outcome journal with
    ⟨e, -, hOther⟩ | ⟨cost', -, hOther⟩
  · rw [hStep] at hOther
    cases hOther
  · rw [hStep] at hOther
    cases hOther
    rfl

/- The step that enters a handler leaves PC at its vector. -/
theorem pc_of_entered
    {i : Interrupt}
    (hEvent : (m.core journal).event = .entered i) :
    (m.step journal).1.2.cpu.regs.pc = i.vector := by
  rw [(m.step_core journal).2.1, Core.step_eq, hEvent]
  rfl

/-
  Unless a step writes IF, a source is requested after it if
  it was before and its handler has not been entered, or if
  its device has asked for it.  So no request is lost, at most
  one is taken, and none is invented.
-/
theorem Reachable.isRequested_step
    (h : m.Reachable)
    {cost : Nat}
    {later : Journal}
    (hStep : m.step journal = ((.ok cost, n), later))
    (hSpare :
      Access.SpareRequests (m.core journal).accesses) :
    let before := m.board.interrupts
    let after := n.board.interrupts
    let event := (m.core journal).event
    (∀ i,
        after.isRequested i = true ↔
          before.isRequested i = true ∧ event ≠ .entered i ∨
            m.Asked journal cost n i) ∧
      (∀ i k,
        before.isRequested i = true →
        after.isRequested i = false →
        before.isRequested k = true →
        after.isRequested k = false →
          i = k) ∧
      ∀ i, event = .entered i → n.cpu.regs.pc = i.vector := by
  intro before after event
  let w := m.executed journal
  let now := m.ticks + cost
  have hTime := h.onTime
  have hMost : cost ≤ 24 := (stepped_of_ok hStep).stepCost.most
  have hBoard :
      n.board = (w.board.advance cost now w.journal).1 :=
    board_of_step hStep
  have hSoon :
      w.board.lcd.beam.residue +
          (now - w.board.lcd.beam.lastTicks) <
        w.board.lcd.beam.mode.budget + 80 := by
    have hResidue := Position.residue_lt_budget m.ticks
    have hBeam : w.board.lcd.beam = Beam.at m.ticks :=
      hTime.executed_beam journal
    rw [hBeam]
    change Position.residue m.ticks + (now - m.ticks) <
      (Position.mode m.ticks).budget + 80
    omega
  have hAll (i : Interrupt) :
      after.isRequested i = true ↔
        before.isRequested i = true ∧ event ≠ .entered i ∨
          m.Asked journal cost n i := by
    have hAdds := Board.adds_advance cost hSoon w.journal
    rw [← hBoard] at hAdds
    calc after.isRequested i = true
        ↔ w.board.interrupts.isRequested i = true ∨
            w.board.Asks cost n.board i :=
          hAdds.requests i
      _ ↔ (before.isRequested i = true ∧
              event ≠ .entered i ∨
            i = .serial ∧
              Access.StartTransfer
                (m.core journal).accesses) ∨
            w.board.Asks cost n.board i :=
          or_congr_left (isRequested_executed hSpare i)
      _ ↔ before.isRequested i = true ∧
              event ≠ .entered i ∨
            m.Asked journal cost n i := by
          rw [or_assoc, hTime.asked_iff hBoard]
  have hCleared
      (i : Interrupt)
      (hBefore : before.isRequested i = true)
      (hAfter : after.isRequested i = false) :
      event = .entered i := by
    by_cases hEvent : event = .entered i
    · exact hEvent
    · have hKept := (hAll i).mpr (.inl ⟨hBefore, hEvent⟩)
      rw [hAfter] at hKept
      cases hKept
  refine ⟨hAll, ?_, ?_⟩
  · intro i k hi hi' hk hk'
    have hEntered := hCleared i hi hi'
    rw [hCleared k hk hk'] at hEntered
    cases hEntered
    rfl
  · intro i hEvent
    have hPc := m.pc_of_entered hEvent
    rw [hStep] at hPc
    exact hPc

/- A machine whose program starts a transfer, at 0x106. -/
def sending : Machine :=
  let rom := Vector.replicate romSize 0
  let rom := rom.set 0x104 0x3E
  let rom := rom.set 0x105 0x81
  let rom := rom.set 0x106 0xE0
  let rom := rom.set 0x107 0x02
  (reset { board := { rom } } {}).1

/- The store to the control register makes the request. -/
theorem isRequested_sending :
    let m := sending.after 5
    let r := m.step {}
    m.Reachable ∧ r.1.1 = .ok 12 ∧
      Access.SpareRequests (m.core {}).accesses ∧
      m.board.interrupts.isRequested .serial = false ∧
      r.1.2.board.interrupts.isRequested .serial = true := by
  intro m r
  have hReachable : m.Reachable :=
    Reachable.after (.reset _ _) 5
  have hResult : r.1.1 = .ok 12 := by
    have hCost : r.1.1.toOption = some 12 := by
      decide +kernel
    cases hAnswer : r.1.1 with
    | error e =>
        rw [hAnswer] at hCost
        cases hCost
    | ok cost =>
        rw [hAnswer] at hCost
        cases hCost
        rfl
  have hBefore :
      m.board.interrupts.isRequested .serial = false := by
    decide +kernel
  have hAccesses :
      (m.core {}).accesses =
        [.read 0x106 0xE0, .read 0x107 0x02,
          .write 0xFF02 0x81] := by
    decide +kernel
  have hSpare :
      Access.SpareRequests (m.core {}).accesses := by
    rw [hAccesses]
    intro v hv
    simp at hv
  have hStarted :
      Access.StartTransfer (m.core {}).accesses := by
    rw [hAccesses]
    exact ⟨0x81, by simp, by decide⟩
  have hStep : m.step {} = ((.ok 12, r.1.2), r.2) := by
    rw [← hResult]
    rfl
  have hAll := (hReachable.isRequested_step hStep hSpare).1
  exact ⟨hReachable, hResult, hSpare, hBefore,
    (hAll .serial).mpr (.inr hStarted)⟩

------------------------------------------------------------
-- The LCD Controller
------------------------------------------------------------

/- A step of the processor leaves the controller in time. -/
theorem Reachable.executed_lcd
    (h : m.Reachable)
    (journal : Journal) :
    Lcd.Reached m.ticks (m.executed journal).board.lcd := by
  have hBefore :
      Lcd.Reached m.board.lcd.beam.lastTicks m.board.lcd := by
    rw [h.lcd_reached.beam]
    exact h.lcd_reached
  have hAfter :=
    executed_invariant Lcd.invariant_reached hBefore journal
  rw [h.onTime.executed_beam journal] at hAfter
  exact hAfter

/-
  Unless a step writes IF, the two interrupts of the controller
  are requested after it if they were before and have not been
  taken, or if they are enabled and one of their ticks has been
  passed in the step.
-/
theorem Reachable.lcd_requests_step
    (h : m.Reachable)
    {cost : Nat}
    {later : Journal}
    (hStep : m.step journal = ((.ok cost, n), later))
    (hSpare :
      Access.SpareRequests (m.core journal).accesses) :
    let before := m.board.interrupts
    let after := n.board.interrupts
    let event := (m.core journal).event
    (after.isRequested .vblank = true ↔
        before.isRequested .vblank = true ∧
            event ≠ .entered .vblank ∨
          after.isEnabled .vblank = true ∧
            ∃ k, m.ticks < k * 70224 + 144 * 456 ∧
              k * 70224 + 144 * 456 ≤ n.ticks) ∧
      (after.isRequested .lcdStat = true ↔
        before.isRequested .lcdStat = true ∧
            event ≠ .entered .lcdStat ∨
          after.isEnabled .lcdStat = true ∧
            ∃ T, m.ticks < T ∧ T ≤ n.ticks ∧
              n.board.lcd.regs.StatusDue T) := by
  intro before after event
  let w := m.executed journal
  have hAdds :=
    Board.adds_until (h.executed_lcd journal)
      (Nat.le_add_right m.ticks cost) cost w.journal
  have hRegs : n.board.lcd.regs = w.board.lcd.regs := by
    rw [board_of_step hStep]
    exact Raster.advanceTo_regs _ _ _ _
  rw [← board_of_step hStep, ← (stepped_of_ok hStep).ticks,
    ← hRegs] at hAdds
  have hEach
      (i : Interrupt)
      (hTimer : i ≠ .timer)
      (hSerial : i ≠ .serial) :
      after.isRequested i = true ↔
        before.isRequested i = true ∧ event ≠ .entered i ∨
          after.isEnabled i = true ∧
            ∃ T, m.ticks < T ∧ T ≤ n.ticks ∧
              n.board.lcd.regs.Due T i := by
    have hExecuted := isRequested_executed hSpare i
    have hAfter := hAdds.requests i
    rw [← hAdds.toRequested.isEnabled] at hAfter
    simp only [hTimer, hSerial, false_and, false_or, or_false]
      at hExecuted hAfter
    exact hAfter.trans (or_congr_left hExecuted)
  have hBlank := hEach .vblank (by decide) (by decide)
  rw [Lcd.vblank_due_iff] at hBlank
  exact ⟨hBlank, hEach .lcdStat (by decide) (by decide)⟩

end Machine

end Dmg
