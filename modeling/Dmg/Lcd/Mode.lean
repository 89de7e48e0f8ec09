import Dmg.Word

/-
  The clock of the LCD controller: the four modes of a line,
  the ticks spent in each, and the lines of a frame.

  Key definitions include:
    * `Mode`
    * `Mode.budget`
    * `Mode.code`
    * `lineTicks`
    * `frameTicks`
-/

namespace Dmg

/-
  A visible line scans the sprites, then draws, then rests;
  after the last visible line come the lines of the vertical
  blank.
-/
inductive Mode where
  | hblank
  | vblank
  | oamScan
  | vramRead
deriving DecidableEq, Repr

namespace Mode

/- The ticks spent in a mode before the next transition. -/
def budget : Mode → Nat
  | .oamScan => 80
  | .vramRead => 172
  | .hblank => 204
  | .vblank => 456

/- The number of a mode in the status register. -/
def code : Mode → UInt8
  | .hblank => 0
  | .vblank => 1
  | .oamScan => 2
  | .vramRead => 3

/- The name of a mode in reports. -/
def name : Mode → String
  | .hblank => "HBlank"
  | .vblank => "VBlank"
  | .oamScan => "OamScan"
  | .vramRead => "VramRead"

/- The status bit that selects a request on entry to a mode. -/
def selectBit? : Mode → Option Nat
  | .hblank => some 3
  | .vblank => some 4
  | .oamScan => some 5
  | .vramRead => none

theorem budget_pos
    (m : Mode) :
    0 < m.budget := by
  cases m <;> decide

end Mode

/- Ticks per line, visible or not. -/
def lineTicks : Nat := 456

/- Lines per frame. -/
def frameLines : Nat := 154

/- Ticks per frame. -/
def frameTicks : Nat := lineTicks * frameLines

/- Pixels per line. -/
def screenWidth : Nat := 160

/- Visible lines. -/
def screenHeight : Nat := 144

end Dmg
