import Dmg.Lcd.TileCache

/-
  The state of the LCD controller and its registers.

  Key definitions include:
    * `LcdRegister`
    * `LcdRegisters`
    * `Beam`
    * `Lcd`
    * `Lcd.read`
    * `Lcd.write`
-/

namespace Dmg

------------------------------------------------------------
-- Registers
------------------------------------------------------------

/- The registers at 0xFF40 to 0xFF4B, sprite copy apart. -/
inductive LcdRegister where
  | control
  | status
  | scrollY
  | scrollX
  | line
  | lineCompare
  | background
  | object0
  | object1
  | windowY
  | windowX
deriving DecidableEq, Repr

/- What a program sets.  Palettes are held decoded. -/
structure LcdRegisters where
  control : UInt8 := 0x91
  selects : UInt8 := 0
  scrollY : UInt8 := 0
  scrollX : UInt8 := 0
  lineCompare : UInt8 := 0
  windowY : UInt8 := 0
  windowX : UInt8 := 0
  background : Palette := .ofByte 0xFC
  object0 : Palette := .ofByte 0xFF
  object1 : Palette := .ofByte 0xFF
deriving DecidableEq, Repr

namespace LcdRegisters

/- Whether the LCD is on. -/
def lcdOn
    (r : LcdRegisters) : Bool :=
  bit r.control 7

/- Whether a source of status requests is selected. -/
def selected
    (r : LcdRegisters)
    (i : Nat) : Bool :=
  bit r.selects i

/- The effect of a write on what a program sets. -/
def write
    (r : LcdRegisters)
    (x : LcdRegister)
    (v : UInt8) : LcdRegisters :=
  match x with
  | .control => { r with control := v }
  | .status => { r with selects := v &&& 0x78 }
  | .scrollY => { r with scrollY := v }
  | .scrollX => { r with scrollX := v }
  | .line => r
  | .lineCompare => { r with lineCompare := v }
  | .background => { r with background := .ofByte v }
  | .object0 => { r with object0 := .ofByte v }
  | .object1 => { r with object1 := .ofByte v }
  | .windowY => { r with windowY := v }
  | .windowX => { r with windowX := v }

end LcdRegisters

------------------------------------------------------------
-- Beam
------------------------------------------------------------

/-
  Where drawing stands: the mode, the line, the tick count
  that has been accounted for, and the ticks spent in the
  mode.
-/
structure Beam where
  mode : Mode := .oamScan
  line : Nat := 0
  lastTicks : Nat := 0
  residue : Nat := 0
deriving DecidableEq, Repr

------------------------------------------------------------
-- Controller
------------------------------------------------------------

/-
  The controller: registers, beam, decoded tiles, the picture,
  whether a frame has been completed and not yet taken, and
  the lines of the window drawn in this frame.
-/
structure Lcd where
  regs : LcdRegisters := {}
  beam : Beam := {}
  tiles : TileCache := .blank
  picture : Picture := .blank
  frameReady : Bool := false
  windowLine : UInt8 := 0

namespace Lcd

/- Whether the line is the one compared with. -/
def coincides
    (lcd : Lcd) : Bool :=
  lcd.beam.line == lcd.regs.lineCompare.toNat

/- The status register: selects, coincidence and mode. -/
def status
    (lcd : Lcd) : UInt8 :=
  0x80 ||| lcd.regs.selects |||
    (if lcd.coincides then 0x04 else 0) |||
    lcd.beam.mode.code

/- A register as read.  Palettes cannot be read. -/
def read
    (lcd : Lcd) : LcdRegister → UInt8
  | .control => lcd.regs.control
  | .status => lcd.status
  | .scrollY => lcd.regs.scrollY
  | .scrollX => lcd.regs.scrollX
  | .line => lcd.beam.line.toUInt8
  | .lineCompare => lcd.regs.lineCompare
  | .background | .object0 | .object1 => 0xFF
  | .windowY => lcd.regs.windowY
  | .windowX => lcd.regs.windowX

/- The effect of a write. -/
def write
    (lcd : Lcd)
    (x : LcdRegister)
    (v : UInt8) : Lcd :=
  { lcd with regs := lcd.regs.write x v }

end Lcd

end Dmg
