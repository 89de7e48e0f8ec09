import Dmg.Interrupt
import Dmg.Journal
import Dmg.Lcd.Composition

/-
  The course of a frame: modes follow one another as ticks
  pass, lines are drawn as they leave `vramRead`, and
  interrupts are requested on the way.

  Key definitions include:
    * `Raster`
    * `Raster.enter`
    * `Raster.reachLine`
    * `Raster.transition`
    * `Raster.drain`
    * `Raster.advanceTo`
-/

namespace Dmg

/-
  The controller with what it acts on: the interrupt
  controller and the journal.
-/
structure Raster where
  lcd : Lcd
  interrupts : InterruptController
  journal : Journal

namespace Raster

/- The first line of the vertical blank. -/
def vblankLine : Nat := 144

/- The last line of a frame. -/
def lastLine : Nat := 153

------------------------------------------------------------
-- Requests
------------------------------------------------------------

/- Request the status interrupt if it is enabled. -/
def requestStatus
    (m : Message)
    (r : Raster) : Raster :=
  match r with
  | ⟨lcd, ic, journal⟩ =>
      if ic.isEnabled .lcdStat then
        ⟨lcd, ic.request .lcdStat, journal.note m⟩
      else ⟨lcd, ic, journal⟩

/- Request the status interrupt if an event is selected. -/
def requestSelected
    (select : Option Nat)
    (m : Message)
    (r : Raster) : Raster :=
  match select with
  | none => r
  | some i =>
      if r.lcd.regs.selected i then r.requestStatus m else r

/- Complete a frame, and request the interrupt for it. -/
def completeFrame
    (r : Raster) : Raster :=
  match r with
  | ⟨lcd, ic, journal⟩ =>
      ⟨{ lcd with frameReady := true },
        ic.requestIfEnabled .vblank,
        journal.note
          (.vblankEntered (ic.isEnabled .vblank))⟩

------------------------------------------------------------
-- Transitions
------------------------------------------------------------

/- Change the controller. -/
@[inline]
def mapLcd
    (f : Lcd → Lcd)
    (r : Raster) : Raster :=
  match r with
  | ⟨lcd, ic, journal⟩ => ⟨f lcd, ic, journal⟩

/- Change where drawing stands. -/
@[inline]
def mapBeam
    (f : Beam → Beam)
    (r : Raster) : Raster :=
  r.mapLcd fun lcd => { lcd with beam := f lcd.beam }

/- Enter a mode. -/
def enter
    (mode : Mode)
    (r : Raster) : Raster :=
  let r := r.mapBeam fun b => { b with mode := mode }
  let r := if mode = .vblank then r.completeFrame else r
  r.requestSelected mode.selectBit?
    (.modeRequest mode r.lcd.beam.line)

/- Reach a line. -/
def reachLine
    (line : Nat)
    (r : Raster) : Raster :=
  let r := r.mapBeam fun b => { b with line := line }
  if r.lcd.coincides then
    r.requestSelected (some 6)
      (.lineRequest r.lcd.regs.lineCompare)
  else r

/- The transition at the end of the current mode. -/
def transition
    (vram : VideoRam)
    (oam : SpriteRam)
    (r : Raster) : Raster :=
  let line := r.lcd.beam.line
  match r.lcd.beam.mode with
  | .oamScan => r.enter .vramRead
  | .vramRead =>
      (r.mapLcd (·.drawLine vram oam)).enter .hblank
  | .hblank =>
      (r.reachLine (line + 1)).enter
        (if line + 1 = vblankLine then .vblank else .oamScan)
  | .vblank =>
      if lastLine ≤ line then
        let r := r.mapLcd fun lcd =>
          { lcd with windowLine := 0 }
        (r.reachLine 0).enter .oamScan
      else r.reachLine (line + 1)

------------------------------------------------------------
-- Time
------------------------------------------------------------

/-
  Make the transitions that a number of ticks in the current
  mode is good for, and keep the rest.
-/
def drain
    (vram : VideoRam)
    (oam : SpriteRam)
    (ticks : Nat)
    (r : Raster) : Raster :=
  if r.lcd.beam.mode.budget ≤ ticks then
    drain vram oam (ticks - r.lcd.beam.mode.budget)
      (r.transition vram oam)
  else
    r.mapBeam fun b => { b with residue := ticks }
termination_by ticks
decreasing_by
  have hBudget := r.lcd.beam.mode.budget_pos
  omega

/- Follow the machine to a tick count. -/
def advanceTo
    (vram : VideoRam)
    (oam : SpriteRam)
    (now : Nat)
    (r : Raster) : Raster :=
  let beam := r.lcd.beam
  let ticks := beam.residue + (now - beam.lastTicks)
  let r := r.mapBeam fun b =>
    { b with lastTicks := max b.lastTicks now }
  r.drain vram oam ticks

end Raster

end Dmg
