import Dmg.Machine
import Dmg.Proofs.Board
import Dmg.Proofs.Cpu.Cost
import Dmg.Proofs.Lcd.Position

/-
  The clock of the machine: the beam is where the count of
  ticks says, whatever has been done to the machine.

  Key definitions include:
    * `Machine.OnTime`
    * `Machine.Stepped`
    * `Machine.Reachable`
    * `Machine.Lasting`

  Main results:
    * `Machine.step_outcome`
    * `Machine.step_cases`
    * `Machine.Reachable.lasting`
    * `Machine.Reachable.onTime`
    * `Machine.Reachable.position`
-/

namespace Dmg

namespace Machine

/-
  The beam is where the count of ticks says, and the status
  register can show it.
-/
structure OnTime
    (m : Machine) : Prop where
  beam : m.board.lcd.beam = Beam.at m.ticks
  masked : m.board.lcd.regs.Masked

------------------------------------------------------------
-- Steps
------------------------------------------------------------

/- The processor of a machine, on its board. -/
def core
    (m : Machine)
    (journal : Journal) : Core Wired :=
  ⟨m.cpu, ⟨m.board, journal⟩⟩

/-
  A step of the machine is one of its processor, which the
  board follows if that step succeeds.
-/
theorem step_outcome
    (m : Machine)
    (journal : Journal) :
    let s := (m.core journal).step
    let w := s.2.bus
    (∃ e, s.1 = .error e ∧
        m.step journal =
          ((.error e, ⟨s.2.cpu, w.board, m.ticks⟩),
            w.journal)) ∨
      ∃ cost, s.1 = .ok cost ∧
        let now := m.ticks + cost
        let follow := w.board.advance cost now w.journal
        m.step journal =
          ((.ok cost, ⟨s.2.cpu, follow.1, now⟩), follow.2) := by
  rcases m with ⟨cpu, board, ticks⟩
  rcases hStep :
      Core.step (⟨cpu, ⟨board, journal⟩⟩ : Core Wired) with
    ⟨result, ⟨cpu', ⟨board', journal'⟩⟩⟩
  cases result with
  | error e =>
      refine .inl ⟨e, ?_⟩
      simp only [core, step, hStep, and_self]
  | ok cost =>
      refine .inr ⟨cost, ?_⟩
      simp only [core, step, hStep, and_self]

/-
  A step that succeeds: ticks pass, and on a machine on time
  the beam follows them and a frame is completed if the
  vertical blank is entered.
-/
structure Stepped
    (m : Machine)
    (cost : Nat)
    (n : Machine) : Prop where
  stepCost : StepCost cost
  ticks : n.ticks = m.ticks + cost
  onTime : m.OnTime → n.OnTime
  frameReady :
    m.OnTime →
      n.frameReady =
        (m.frameReady ||
          decide (Position.frames m.ticks <
            Position.frames n.ticks))

/- Neither the ticks nor the beam nor the latch change. -/
structure Unmoved
    (m n : Machine) : Prop where
  ticks : n.ticks = m.ticks
  beam : n.board.lcd.beam = m.board.lcd.beam
  masked : m.board.lcd.regs.Masked → n.board.lcd.regs.Masked
  frameReady : n.frameReady = m.frameReady

theorem Unmoved.onTime
    {m n : Machine}
    (h : Unmoved m n)
    (hTime : m.OnTime) :
    n.OnTime := by
  constructor
  · rw [h.beam, h.ticks]
    exact hTime.beam
  · exact h.masked hTime.masked

/- What a step can do: fail where it is, or pass time. -/
theorem step_cases
    (m : Machine)
    (journal : Journal) :
    (∃ e n j, m.step journal = ((.error e, n), j) ∧
        Unmoved m n) ∨
      ∃ cost n j, m.step journal = ((.ok cost, n), j) ∧
        Stepped m cost n := by
  rcases Core.step_invariant
      (Wired.invariant_lcd m.board.lcd)
      (s := m.core journal) ⟨rfl, rfl, id⟩ with
    ⟨hBeam, hReady, hMasked⟩
  rcases m.step_outcome journal with
    ⟨e, -, hStep⟩ | ⟨cost, hOk, hStep⟩
  · exact .inl ⟨e, _, _, hStep, rfl, hBeam, hMasked, hReady⟩
  · let w := (m.core journal).step.2.bus
    let raster : Raster :=
      ⟨w.board.lcd,
        (w.board.timer.tick cost w.board.interrupts).2,
        w.journal⟩
    have hAdvanced
        (hTime : m.board.lcd.beam = Beam.at m.ticks) :=
      Raster.advanceTo_beam w.board.videoRam
        w.board.spriteRam (Nat.le_add_right m.ticks cost)
        raster (hBeam.trans hTime)
    have hRegs :=
      Raster.advanceTo_regs w.board.videoRam
        w.board.spriteRam (m.ticks + cost) raster
    refine .inr ⟨cost, _, _, hStep, ?_, rfl, ?_, ?_⟩
    · exact Core.stepCost_step hOk
    · intro hTime
      constructor
      · exact (hAdvanced hTime.beam).1
      · exact hRegs ▸ hMasked hTime.masked
    · intro hTime
      exact (hAdvanced hTime.beam).2.trans
        (congrArg (· || _) hReady)

------------------------------------------------------------
-- Frames
------------------------------------------------------------

/- What steps and taking a frame keep, frames keep. -/
theorem runUntil_invariant
    {P : Machine → Prop}
    (hStep : ∀ m journal, P m → P (m.step journal).1.2)
    (hTake : ∀ m, P m → P m.takeFrame)
    {m : Machine}
    (h : P m)
    (deadline fuel : Nat)
    (journal : Journal) :
    P (runUntil deadline fuel m journal).1.2 := by
  induction fuel generalizing m journal with
  | zero => exact h
  | succ fuel ih =>
      have hNext := hStep m journal h
      unfold runUntil
      split
      · rcases hResult : m.step journal with ⟨⟨result, n⟩, j⟩
        rw [hResult] at hNext
        cases result with
        | error e => exact hNext
        | ok cost =>
            simp only
            split
            · exact hTake n hNext
            · exact ih hNext j
      · exact h

theorem step_onTime
    {m : Machine}
    (hTime : m.OnTime)
    (journal : Journal) :
    (m.step journal).1.2.OnTime := by
  rcases m.step_cases journal with
    ⟨e, n, j, hStep, hSame⟩ | ⟨cost, n, j, hStep, hDone⟩
  · rw [hStep]
    exact hSame.onTime hTime
  · rw [hStep]
    exact hDone.onTime hTime

theorem takeFrame_onTime
    {m : Machine}
    (hTime : m.OnTime) :
    m.takeFrame.OnTime :=
  ⟨hTime.beam, hTime.masked⟩

------------------------------------------------------------
-- Everything Else
------------------------------------------------------------

theorem write_unmoved
    (addr : UInt16)
    (v : UInt8)
    (m : Machine)
    (journal : Journal) :
    Unmoved m (m.write addr v journal).1 := by
  have hWrite := m.board.undisturbed_write addr v
  exact ⟨rfl, hWrite.beam, hWrite.masked, hWrite.frameReady⟩

theorem setButton_unmoved
    (button : Button)
    (held : Bool)
    (m : Machine)
    (journal : Journal) :
    Unmoved m (m.setButton button held journal).1 := by
  have hSet := m.board.undisturbed_setButton button held
  unfold setButton
  cases m.board.presses button held <;>
    exact ⟨rfl, hSet.beam, hSet.masked, hSet.frameReady⟩

theorem handleKey_unmoved
    (k : Key)
    (held : Bool)
    (m : Machine)
    (journal : Journal) :
    Unmoved m (m.handleKey k held journal).1 := by
  unfold handleKey
  cases k.button? with
  | none => exact ⟨rfl, rfl, id, rfl⟩
  | some button => exact setButton_unmoved button held m journal

theorem beam_at_zero :
    Beam.at 0 = {} := by
  decide

theorem reset_onTime
    (m : Machine)
    (journal : Journal) :
    (m.reset journal).1.OnTime := by
  have hMasked : (0 : UInt8) &&& 0x07 = 0 := rfl
  exact ⟨beam_at_zero.symm, hMasked⟩

------------------------------------------------------------
-- Reachable Machines
------------------------------------------------------------

/-
  The machines that come from a new one, or from any machine
  by a reset, by steps, frames, keys, buttons and writes.
-/
inductive Reachable : Machine → Prop where
  | new : Reachable {}
  | reset
      (m : Machine)
      (journal : Journal) :
      Reachable (m.reset journal).1
  | load
      (c : Cartridge)
      (m : Machine)
      (journal : Journal) :
      Reachable (m.load c journal).1
  | step
      {m : Machine}
      (h : Reachable m)
      (journal : Journal) :
      Reachable (m.step journal).1.2
  | runFrame
      {m : Machine}
      (h : Reachable m)
      (journal : Journal) :
      Reachable (m.runFrame journal).1.2
  | setButton
      {m : Machine}
      (h : Reachable m)
      (button : Button)
      (held : Bool)
      (journal : Journal) :
      Reachable (m.setButton button held journal).1
  | handleKey
      {m : Machine}
      (h : Reachable m)
      (k : Key)
      (held : Bool)
      (journal : Journal) :
      Reachable (m.handleKey k held journal).1
  | write
      {m : Machine}
      (h : Reachable m)
      (addr : UInt16)
      (v : UInt8)
      (journal : Journal) :
      Reachable (m.write addr v journal).1

/-
  A property that machines have after a reset, and that steps,
  the taking of a frame, buttons and writes keep.
-/
structure Lasting
    (P : Machine → Prop) : Prop where
  reset :
    ∀ (m : Machine) journal, P (m.reset journal).1
  step :
    ∀ m journal, P m → P (m.step journal).1.2
  takeFrame :
    ∀ m, P m → P m.takeFrame
  setButton :
    ∀ button held m journal,
      P m → P (m.setButton button held journal).1
  write :
    ∀ addr v m journal, P m → P (m.write addr v journal).1

/- All reachable machines have such a property. -/
theorem Reachable.lasting
    {P : Machine → Prop}
    (hP : Lasting P)
    {m : Machine}
    (h : m.Reachable) :
    P m := by
  induction h with
  | new => exact hP.reset {} {}
  | reset m journal => exact hP.reset m journal
  | load c m journal => exact hP.reset _ journal
  | step _ journal ih => exact hP.step _ journal ih
  | runFrame _ journal ih =>
      exact runUntil_invariant hP.step hP.takeFrame ih
        _ _ journal
  | setButton _ button held journal ih =>
      exact hP.setButton button held _ journal ih
  | handleKey _ k held journal ih =>
      unfold Machine.handleKey
      cases k.button? with
      | none => exact ih
      | some button =>
          exact hP.setButton button held _ journal ih
  | write _ addr v journal ih =>
      exact hP.write addr v _ journal ih

theorem lasting_onTime :
    Lasting OnTime where
  reset := reset_onTime
  step _ journal h := step_onTime h journal
  takeFrame _ := takeFrame_onTime
  setButton button held m journal h :=
    (setButton_unmoved button held m journal).onTime h
  write addr v m journal h :=
    (write_unmoved addr v m journal).onTime h

/- A reachable machine is on time. -/
theorem Reachable.onTime
    {m : Machine}
    (h : m.Reachable) :
    m.OnTime :=
  h.lasting lasting_onTime

------------------------------------------------------------
-- What A Program Sees
------------------------------------------------------------

/- The line, as a program reads it. -/
theorem read_line
    (m : Machine) :
    (m.read 0xFF44).toNat = m.board.lcd.beam.line % 256 := by
  rfl

theorem status_low_bits
    (selects : UInt8)
    (hMasked : selects &&& 0x07 = 0)
    (coincides : Bool)
    (mode : Mode) :
    let v := 0x80 ||| selects |||
      (if coincides then 0x04 else 0) ||| mode.code
    v &&& 0x03 = mode.code ∧ bit v 2 = coincides := by
  revert selects
  cases coincides <;> cases mode <;>
    exact forall_byte (by decide +kernel)

/-
  The position of the beam is a function of the ticks passed
  since the machine was new or reset, and it shows in the
  registers: the line, the mode, the ticks spent in the mode,
  and whether the line is the one compared with.  No write
  changes it.
-/
theorem Reachable.position
    {m : Machine}
    (h : m.Reachable) :
    let line := m.ticks / 456 % 154
    let dot := m.ticks % 456
    (m.read 0xFF44).toNat = line ∧
      m.read 0xFF41 &&& 0x03 =
        (if 144 ≤ line then Mode.vblank
          else if dot < 80 then .oamScan
          else if dot < 252 then .vramRead
          else .hblank).code ∧
      m.board.lcd.beam.residue =
        (if 144 ≤ line then dot
          else if dot < 80 then dot
          else if dot < 252 then dot - 80
          else dot - 252) ∧
      (bit (m.read 0xFF41) 2 = true ↔
        line = (m.read 0xFF45).toNat) ∧
      ∀ addr v journal,
        let n := (m.write addr v journal).1
        n.ticks = m.ticks ∧
          n.board.lcd.beam = m.board.lcd.beam := by
  intro line dot
  have hTime := h.onTime
  have hLine : m.board.lcd.beam.line = line :=
    congrArg Beam.line hTime.beam
  have hMode : m.board.lcd.beam.mode = Position.mode m.ticks :=
    congrArg Beam.mode hTime.beam
  have hStatus :=
    status_low_bits m.board.lcd.regs.selects hTime.masked
      m.board.lcd.coincides m.board.lcd.beam.mode
  refine ⟨?_, ?_, ?_, ?_, ?_⟩
  · have hByte : line % 256 = line := by
      have hLow := Position.line_lt m.ticks
      omega
    rw [read_line, hLine, hByte]
  · exact hStatus.1.trans (congrArg Mode.code hMode)
  · have hResidue :
        m.board.lcd.beam.residue =
          Position.residue m.ticks :=
      congrArg Beam.residue hTime.beam
    rw [hResidue]
    exact Position.residue_eq m.ticks
  · have hCoincides :
        bit (m.read 0xFF41) 2 = m.board.lcd.coincides :=
      hStatus.2
    rw [hCoincides]
    unfold Lcd.coincides
    rw [hLine, beq_iff_eq]
    rfl
  · intro addr v journal
    have hWrite := write_unmoved addr v m journal
    exact ⟨hWrite.ticks, hWrite.beam⟩

/- A machine with an empty image, after some NOPs. -/
def afterNops : Nat → Machine
  | 0 => {}
  | n + 1 => ((afterNops n).step {}).1.2

theorem reachable_afterNops
    (n : Nat) :
    (afterNops n).Reachable := by
  induction n with
  | zero => exact .new
  | succ n ih => exact ih.step {}

/- After 25 NOPs the first line has been drawn for 20 ticks. -/
theorem position_afterNops :
    (afterNops 25).Reachable ∧
      (afterNops 25).read 0xFF41 &&& 0x03 = 3 ∧
      (afterNops 25).board.lcd.beam.residue = 20 := by
  have hTicks : (afterNops 25).ticks = 100 := by
    decide +kernel
  have hPosition :=
    Reachable.position (reachable_afterNops 25)
  rw [hTicks] at hPosition
  exact ⟨reachable_afterNops 25, hPosition.2.1,
    hPosition.2.2.1⟩

end Machine

end Dmg
