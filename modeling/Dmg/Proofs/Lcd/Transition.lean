import Dmg.Lcd.Raster

/-
  What the end of a mode does to the LCD controller.

  The controller goes its own way: what becomes of it depends
  neither on the interrupt controller nor on the journal.  It
  ends one mode after the other, and at the end of some modes
  a row is written into the picture or a frame is completed.

  Key definitions include:
    * `Beam.succ`, `Beam.completes`
    * `Beam.drawnRow?`
    * `Lcd.rowWrite?`
    * `Lcd.succ`
    * `Raster.departures`
    * `Raster.departuresTo`

  Main results:
    * `Raster.transition_lcd`
    * `Raster.drain_source`
    * `Raster.departures_of_lt`
    * `Raster.advanceTo_picture`
-/

namespace Dmg

------------------------------------------------------------
-- Beam
------------------------------------------------------------

namespace Beam

/- The beam after its next transition. -/
def succ
    (b : Beam) : Beam :=
  match b.mode with
  | .oamScan => { b with mode := .vramRead }
  | .vramRead => { b with mode := .hblank }
  | .hblank =>
      { b with
        line := b.line + 1
        mode :=
          if b.line + 1 = 144 then .vblank else .oamScan }
  | .vblank =>
      if 153 ≤ b.line then
        { b with line := 0, mode := .oamScan }
      else { b with line := b.line + 1 }

/- Whether the next transition enters the vertical blank. -/
def completes
    (b : Beam) : Bool :=
  b.mode = .hblank && b.line + 1 == 144

/- The row that the next transition draws, if it draws one. -/
def drawnRow?
    (b : Beam) : Option (Fin screenHeight) :=
  if h : b.mode = .vramRead ∧ b.line < screenHeight then
    some ⟨b.line, h.2⟩
  else none

/- A transition depends on the mode and the line alone. -/
theorem succ_congr
    {a b : Beam}
    (hMode : a.mode = b.mode)
    (hLine : a.line = b.line) :
    a.succ.mode = b.succ.mode ∧ a.succ.line = b.succ.line ∧
      a.completes = b.completes := by
  unfold succ completes
  rw [hMode, hLine]
  cases b.mode with
  | oamScan => exact ⟨rfl, rfl, rfl⟩
  | vramRead => exact ⟨rfl, rfl, rfl⟩
  | hblank => exact ⟨rfl, rfl, rfl⟩
  | vblank =>
      by_cases hLast : 153 ≤ b.line
      · simp only [if_pos hLast, true_and]
      · simp only [if_neg hLast, true_and]

/- In `vramRead`, the row of the current line is drawn. -/
theorem drawnRow?_eq_some
    {b : Beam}
    (hMode : b.mode = .vramRead)
    {y : Fin screenHeight}
    (hLine : b.line = y) :
    b.drawnRow? = some y := by
  have hVisible : b.line < screenHeight := hLine ▸ y.isLt
  have hRow : (⟨b.line, hVisible⟩ : Fin screenHeight) = y :=
    Fin.ext hLine
  rw [← hRow]
  exact dif_pos ⟨hMode, hVisible⟩

/- In other modes none is. -/
theorem drawnRow?_eq_none
    {b : Beam}
    (hMode : b.mode ≠ .vramRead) :
    b.drawnRow? = none :=
  dif_neg fun h => hMode h.1

theorem succ_lastTicks
    (b : Beam) :
    b.succ.lastTicks = b.lastTicks := by
  unfold succ
  split
  · rfl
  · rfl
  · rfl
  · split <;> rfl

end Beam

------------------------------------------------------------
-- Controller
------------------------------------------------------------

namespace Picture

/- Write a row into a picture. -/
def paint
    (p : Picture)
    (w : Fin screenHeight × Row) : Picture :=
  p.set w.1.val w.2 w.1.isLt

end Picture

namespace Lcd

/- The row that the next transition writes, if it does. -/
def rowWrite?
    (vram : VideoRam)
    (oam : SpriteRam)
    (lcd : Lcd) : Option (Fin screenHeight × Row) :=
  lcd.beam.drawnRow?.map fun y =>
    (y, lcd.composeRow vram oam)

/- The window line after the next transition. -/
def nextWindowLine
    (lcd : Lcd) : UInt8 :=
  match lcd.beam.mode with
  | .vramRead =>
      if lcd.beam.line < screenHeight ∧ lcd.drawsWindow then
        lcd.windowLine + 1
      else lcd.windowLine
  | .vblank =>
      if 153 ≤ lcd.beam.line then 0 else lcd.windowLine
  | _ => lcd.windowLine

/- The controller after its next transition. -/
def succ
    (vram : VideoRam)
    (oam : SpriteRam)
    (lcd : Lcd) : Lcd :=
  { lcd with
    beam := lcd.beam.succ
    frameReady := lcd.frameReady || lcd.beam.completes
    picture :=
      (lcd.rowWrite? vram oam).elim lcd.picture
        lcd.picture.paint
    windowLine := lcd.nextWindowLine }

/- Registers and decoded tiles are the same. -/
structure SameSource
    (a b : Lcd) : Prop where
  regs : b.regs = a.regs
  tiles : b.tiles = a.tiles

end Lcd

------------------------------------------------------------
-- Transitions
------------------------------------------------------------

namespace Raster

theorem requestStatus_lcd
    (m : Message)
    (r : Raster) :
    (r.requestStatus m).lcd = r.lcd := by
  unfold requestStatus
  split
  split <;> rfl

theorem requestSelected_lcd
    (select : Option Nat)
    (m : Message)
    (r : Raster) :
    (r.requestSelected select m).lcd = r.lcd := by
  unfold requestSelected
  split
  · rfl
  · split
    · exact requestStatus_lcd m r
    · rfl

/- Entering the vertical blank completes a frame. -/
theorem enter_lcd
    (mode : Mode)
    (r : Raster) :
    (r.enter mode).lcd =
      { r.lcd with
        beam := { r.lcd.beam with mode := mode }
        frameReady :=
          r.lcd.frameReady || mode == .vblank } := by
  unfold enter
  rw [requestSelected_lcd]
  split
  · rename_i h
    rw [h]
    simp [completeFrame, mapBeam, mapLcd]
  · rename_i h
    rw [beq_false_of_ne h, Bool.or_false]
    rfl

theorem reachLine_lcd
    (line : Nat)
    (r : Raster) :
    (r.reachLine line).lcd =
      { r.lcd with
        beam := { r.lcd.beam with line := line } } := by
  simp only [reachLine]
  split
  · rw [requestSelected_lcd]
    rfl
  · rfl

/- Drawing a line writes its row and counts the window. -/
theorem drawLine_eq
    (vram : VideoRam)
    (oam : SpriteRam)
    {lcd : Lcd}
    (hMode : lcd.beam.mode = .vramRead) :
    lcd.drawLine vram oam =
      { lcd with
        picture :=
          (lcd.rowWrite? vram oam).elim lcd.picture
            lcd.picture.paint
        windowLine := lcd.nextWindowLine } := by
  unfold Lcd.drawLine Lcd.rowWrite? Beam.drawnRow?
    Lcd.nextWindowLine
  by_cases hLine : lcd.beam.line < screenHeight
  · simp only [hMode, hLine, dif_pos, true_and]
    rfl
  · simp only [hMode, hLine, dif_neg, not_false_eq_true,
      and_false, false_and, if_false]
    rfl

/- Outside `vramRead` no row is written. -/
theorem rowWrite?_eq_none
    (vram : VideoRam)
    (oam : SpriteRam)
    {lcd : Lcd}
    (hMode : lcd.beam.mode ≠ .vramRead) :
    lcd.rowWrite? vram oam = none := by
  unfold Lcd.rowWrite?
  rw [Beam.drawnRow?_eq_none hMode]
  rfl

/- A transition leads to the next state of the controller. -/
theorem transition_lcd
    (vram : VideoRam)
    (oam : SpriteRam)
    (r : Raster) :
    (r.transition vram oam).lcd = r.lcd.succ vram oam := by
  cases hMode : r.lcd.beam.mode with
  | vramRead =>
      simp only [transition, Lcd.succ, Beam.succ,
        Beam.completes, hMode, enter_lcd]
      have hDrawn := drawLine_eq vram oam hMode
      simp only [mapLcd, hDrawn]
      rfl
  | oamScan =>
      have hRow : r.lcd.rowWrite? vram oam = none :=
        rowWrite?_eq_none vram oam
          (by rw [hMode]; exact Mode.noConfusion)
      simp only [transition, Lcd.succ, Beam.succ,
        Beam.completes, Lcd.nextWindowLine, hMode, enter_lcd,
        hRow]
      rfl
  | hblank =>
      have hRow : r.lcd.rowWrite? vram oam = none :=
        rowWrite?_eq_none vram oam
          (by rw [hMode]; exact Mode.noConfusion)
      simp only [transition, Lcd.succ, Beam.succ,
        Beam.completes, Lcd.nextWindowLine, hMode, enter_lcd,
        reachLine_lcd, hRow]
      by_cases hLine : r.lcd.beam.line + 1 = vblankLine
      · have hEntry : r.lcd.beam.line + 1 = 144 := hLine
        simp only [if_pos hLine, if_pos hEntry]
        rw [hEntry]
        rfl
      · have hNot : ¬ r.lcd.beam.line + 1 = 144 := hLine
        simp only [if_neg hLine, if_neg hNot,
          beq_false_of_ne hNot]
        rfl
  | vblank =>
      have hRow : r.lcd.rowWrite? vram oam = none :=
        rowWrite?_eq_none vram oam
          (by rw [hMode]; exact Mode.noConfusion)
      simp only [transition, Lcd.succ, Beam.succ,
        Beam.completes, Lcd.nextWindowLine, hMode, hRow]
      by_cases hLast : lastLine ≤ r.lcd.beam.line
      · have hLine : 153 ≤ r.lcd.beam.line := hLast
        simp only [if_pos hLast, if_pos hLine, enter_lcd,
          reachLine_lcd, mapLcd]
        rfl
      · have hLine : ¬ 153 ≤ r.lcd.beam.line := hLast
        simp only [if_neg hLast, if_neg hLine, reachLine_lcd]
        simpa using hMode

/- The end of the mode that draws a line writes its row. -/
theorem transition_picture
    (vram : VideoRam)
    (oam : SpriteRam)
    {r : Raster}
    (hMode : r.lcd.beam.mode = .vramRead)
    {y : Fin screenHeight}
    (hLine : r.lcd.beam.line = y) :
    (r.transition vram oam).lcd.picture =
      r.lcd.picture.set y (r.lcd.composeRow vram oam) := by
  rw [transition_lcd]
  unfold Lcd.succ Lcd.rowWrite?
  rw [Beam.drawnRow?_eq_some hMode hLine]
  rfl

------------------------------------------------------------
-- Passing Time
------------------------------------------------------------

/-
  The states that are left when a number of ticks in the
  current mode passes, in order.
-/
def departures
    (vram : VideoRam)
    (oam : SpriteRam)
    (ticks : Nat)
    (r : Raster) : List Raster :=
  if r.lcd.beam.mode.budget ≤ ticks then
    r ::
      departures vram oam (ticks - r.lcd.beam.mode.budget)
        (r.transition vram oam)
  else []
termination_by ticks
decreasing_by
  have hBudget := r.lcd.beam.mode.budget_pos
  omega

theorem transition_source
    (vram : VideoRam)
    (oam : SpriteRam)
    (r : Raster) :
    r.lcd.SameSource (r.transition vram oam).lcd := by
  rw [transition_lcd]
  exact ⟨rfl, rfl⟩

/- Time leaves registers and tiles alone. -/
theorem drain_source
    (vram : VideoRam)
    (oam : SpriteRam)
    (ticks : Nat)
    (r : Raster) :
    r.lcd.SameSource (r.drain vram oam ticks).lcd := by
  induction ticks, r using drain.induct vram oam with
  | case1 ticks r hDue ih =>
      have hNext := transition_source vram oam r
      rw [drain, if_pos hDue]
      exact ⟨ih.regs.trans hNext.regs,
        ih.tiles.trans hNext.tiles⟩
  | case2 ticks r hDue =>
      rw [drain, if_neg hDue]
      exact ⟨rfl, rfl⟩

/- Every mode lasts 80 ticks. -/
theorem le_budget
    (m : Mode) :
    80 ≤ m.budget := by
  cases m <;> decide

/- Too little time for two transitions. -/
theorem departures_of_lt
    (vram : VideoRam)
    (oam : SpriteRam)
    {ticks : Nat}
    {r : Raster}
    (hTicks : ticks < r.lcd.beam.mode.budget + 80) :
    r.departures vram oam ticks =
      if r.lcd.beam.mode.budget ≤ ticks then [r] else [] := by
  rw [departures]
  split
  · have hNext :=
      le_budget (r.transition vram oam).lcd.beam.mode
    have hShort :
        ¬ (r.transition vram oam).lcd.beam.mode.budget ≤
          ticks - r.lcd.beam.mode.budget := by
      omega
    rw [departures, if_neg hShort]
  · rfl

/- The states left on the way to a tick count, in order. -/
def departuresTo
    (vram : VideoRam)
    (oam : SpriteRam)
    (now : Nat)
    (r : Raster) : List Raster :=
  let beam := r.lcd.beam
  let ticks := beam.residue + (now - beam.lastTicks)
  let r := r.mapBeam fun b =>
    { b with lastTicks := max b.lastTicks now }
  r.departures vram oam ticks

end Raster

end Dmg
